import GoblinZomboid.Lib.LuaValue
/-!
# `Net.lua`, `Config.lua`: bounded tables, identifiers, configuration

The bounds every bridge message is held to before its fields are read,
and the configuration the modelled functions read.
-/

namespace GoblinZomboid

namespace Net

def maxDepth : ℕ := 5

def maxKeys : ℕ := 2048

def maxString : ℕ := 1024

/-- No control byte but tab, newline and return. -/
def textByte (b : UInt8) : Bool := !(b < 32 && b != 9 && b != 10 && b != 13)

/-- `boundedText`, which `Net.safeText` exports. -/
def safeText (s : Bytes) (maximum : ℕ) (allowEmpty : Bool) : Bool :=
  s.length ≤ maximum && (allowEmpty || !s.isEmpty) && s.all textByte

/-- The class `[A-Za-z0-9%._:%-]`. -/
def idByte (b : UInt8) : Bool :=
  Bytes.isAlnum b || b == 46 || b == 95 || b == 58 || b == 45

/-- `Net.safeId`: `^[A-Za-z0-9][A-Za-z0-9%._:%-]*$` within the bound. -/
def safeId (s : Bytes) (maximum : ℕ) : Bool :=
  safeText s maximum false &&
    match s with
    | [] => false
    | b :: rest => Bytes.isAlnum b && rest.all idByte

/-- A table key: a string, or a whole number from 1 on. -/
def safeKey : LuaKey → Bool
  | .str _ => true
  | .num (.finite q) => q.den == 1 && 1 ≤ q
  | .num _ => false
  | .bool _ => false

mutual

/-- `safeValue`: the verdict and the number of keys seen so far. -/
def safeValue (depth budget : ℕ) : LuaValue → Bool × ℕ
  | .nil => (true, budget)
  | .bool _ => (true, budget)
  | .num (.finite _) => (true, budget)
  | .num _ => (false, budget)
  | .str s => (safeText s maxString true, budget)
  | .table entries =>
    if maxDepth < depth then (false, budget) else safeEntries depth budget entries

/-- The loop of `safeValue` over a table's entries. -/
def safeEntries (depth budget : ℕ) : List (LuaKey × LuaValue) → Bool × ℕ
  | [] => (true, budget)
  | (key, nested) :: rest =>
    if maxKeys < budget + 1 then (false, budget + 1)
    else if safeKey key then
      match safeValue (depth + 1) (budget + 1) nested with
      | (true, budget') => safeEntries depth budget' rest
      | (false, budget') => (false, budget')
    else (false, budget + 1)

end

/-- `Net.safeTable`. -/
def safeTable (v : LuaValue) : Bool := (safeValue 0 0 v).1

end Net

/-- The configuration fields the modelled functions read. -/
structure Config where
  enabled : Bool
  autonomyEnabled : Bool
  /-- `Config.commanders`: lower-case names. -/
  commanders : List Bytes

namespace Config

/-- The id of the first companion and the prefix of all of them. -/
def npcId : Bytes := Bytes.lit "goblin.primary"

/-- `Config.npcId .. "."`. -/
def npcPrefix : Bytes := npcId ++ Bytes.lit "."

def weaponType : Bytes := Bytes.lit "Base.DoubleBarrelShotgun"

/-- The configuration as `Config.lua` ships it. -/
def default : Config where
  enabled := true
  autonomyEnabled := true
  commanders := []

end Config

/-- What the server reads of a player object. -/
structure Player where
  /-- `getUsername()`. -/
  username : Bytes
  /-- `getAccessLevel()`. -/
  accessLevel : Bytes
  /-- `isAdmin()`. -/
  isAdmin : Bool

/-- `Config.isAuthorizedPlayer`. -/
def Config.isAuthorizedPlayer (config : Config) (player : Player) : Bool :=
  (player.username != [] && config.commanders.contains (Bytes.lower player.username))
    || Bytes.lower player.accessLevel == Bytes.lit "admin"
    || Bytes.lower player.accessLevel == Bytes.lit "moderator"
    || player.isAdmin

end GoblinZomboid
