import GoblinZomboid.Server.Body
import GoblinZomboid.Lib.Run
import Mathlib.Logic.Function.Basic
/-!
# `Authority.lua`: one-use grants

The server mints an opaque token when an authoritative player command
arrives (a chat grant), when the owner is away and the body idles (an
offline grant), or while the owner is online with free will enabled (a
companion grant). A privileged message carries the token back, and the
grant it names is removed as it is used.
-/

namespace GoblinZomboid

namespace Authority

/-! ## The tables -/

/-- `privileged`. -/
def privileged : List Bytes :=
  ["ENTER_VEHICLE", "EXIT_VEHICLE", "FARM", "CRAFT", "REPAIR_VEHICLE", "OPEN_DOOR",
    "OPEN_WINDOW", "GAIN_ACCESS", "CLOSE_CURTAINS", "FORM_SQUAD", "DISMISS_SQUAD", "ASSIGN_JOB",
    "SECURE_BASE", "BUILD", "INSPECT_BASE", "MAINTAIN_BASE", "REPAIR_STRUCTURE", "DISMANTLE",
    "MOVE_CORPSE", "STOCKPILE", "SORT_STORAGE", "FETCH_ITEM", "DELIVER", "VEHICLE_INSPECT",
    "REFUEL_VEHICLE", "VEHICLE_SERVICE", "INSTALL_PART", "REMOVE_PART", "REPLACE_PART",
    "CHANGE_TIRE", "CHOP_WOOD", "TREAT_PLAYER", "FORAGE", "CHECK_TRAPS", "COOK",
    "RESTORE_POWER"].map Bytes.lit

/-- `ownerJobs`: what any owner may have started for their own companion. -/
def ownerJobs : List Bytes :=
  ["BUILD", "SECURE_BASE", "ENTER_VEHICLE", "EXIT_VEHICLE", "OPEN_DOOR", "OPEN_WINDOW",
    "GAIN_ACCESS", "CLOSE_CURTAINS", "FARM", "CRAFT", "REPAIR_VEHICLE", "INSPECT_BASE",
    "MAINTAIN_BASE", "REPAIR_STRUCTURE", "DISMANTLE", "MOVE_CORPSE", "STOCKPILE",
    "SORT_STORAGE", "FETCH_ITEM", "DELIVER", "VEHICLE_INSPECT", "REFUEL_VEHICLE",
    "VEHICLE_SERVICE", "INSTALL_PART", "REMOVE_PART", "REPLACE_PART", "CHANGE_TIRE",
    "CHOP_WOOD", "TREAT_PLAYER", "FORAGE", "CHECK_TRAPS", "COOK", "RESTORE_POWER"].map Bytes.lit

/-- `Authority.offlineActions`. -/
def offlineActions : List Bytes :=
  ["WAIT", "LOOT_AREA", "RETURN_TO_BASE", "SECURE_BASE", "EQUIP"].map Bytes.lit

def grantTtlMs : ℕ := 60000

def offlineTtlMs : ℕ := 120000

def companionTtlMs : ℕ := 90000

/-- A grant record. The chat grant is the one without a `kind`. -/
inductive Grant
  | chat (speaker : Bytes) (commander : Bool) (issuedAt expiresAt : ℕ)
  | offline (owner npcId : Bytes) (generation taskSequence expiresAt : ℕ)
  | companion (owner npcId : Bytes) (expiresAt : ℕ)
  deriving DecidableEq

/-- `grant.expires_at`. -/
def Grant.expiresAt : Grant → ℕ
  | chat _ _ _ t => t
  | offline _ _ _ _ t => t
  | companion _ _ t => t

/-- The module's state. -/
structure Store where
  grants : Bytes → Option Grant
  sequence : ℕ
  offlineByNpc : Bytes → Option Bytes
  companionByNpc : Bytes → Option Bytes

/-- The state a server starts with. -/
def Store.empty : Store where
  grants := fun _ => none
  sequence := 0
  offlineByNpc := fun _ => none
  companionByNpc := fun _ => none

/-- What a call reads from the engine: the clock, the random part of a
token, the configuration and the players online. -/
structure Env where
  now : ℕ
  random : ℕ
  config : Config
  online : List Player

/-! ## The functions -/

/-- `username`: a name of 1 to 96 bytes of `[A-Za-z0-9_%-]`. -/
def username (player : Player) : Option Bytes :=
  let value := player.username
  if value.length < 1 || 96 < value.length then none
  else if value.any fun b => !(Bytes.isAlnum b || b == 95 || b == 45) then none
  else some value

/-- `purge`: expired grants go. -/
def purge (s : Store) (now : ℕ) : Store :=
  { s with grants := fun token => (s.grants token).filter fun g => now < g.expiresAt }

/-- `Authority.requires`. -/
def requires (action : LuaValue) : Bool :=
  match action.str? with
  | some a => privileged.contains a
  | none => false

/-- The text of a token. -/
def tokenText (kind : String) (now sequence random : ℕ) : Bytes :=
  Bytes.lit kind ++ Bytes.lit "-" ++ Bytes.decimal now ++ Bytes.lit "-" ++ Bytes.decimal sequence
    ++ Bytes.lit "-" ++ Bytes.decimal random

/-- `Authority.issue`. -/
def issue (env : Env) (player : Player) (s : Store) : Option Bytes × Store :=
  match username player with
  | none => (none, s)
  | some speaker =>
    let s := purge s env.now
    let s := { s with sequence := s.sequence + 1 }
    let token := tokenText "grant" env.now s.sequence env.random
    if !Net.safeId token 128 then (none, s)
    else
      (some token, { s with
        grants := Function.update s.grants token
          (some (.chat speaker (env.config.isAuthorizedPlayer player) env.now
            (env.now + grantTtlMs))) })

/-- Some online player has this name, case aside. -/
def ownerOnline (env : Env) (owner : Bytes) : Bool :=
  env.online.any fun player => Bytes.lower player.username == Bytes.lower owner

/-- `offlineBodyReady`. -/
def offlineBodyReady (env : Env) (body : Body) : Bool :=
  env.config.enabled && env.config.autonomyEnabled && body.isGoblin && body.present
    && !ownerOnline env body.owner
    && (body.data.goblinTask == .follow || body.data.goblinAutonomous)

/-- The grant a `...ByNpc` table's entry still names. -/
def liveGrant (s : Store) (previous : Option Bytes) : Option Grant := previous.bind s.grants

/-- The offline grant was minted for the order the body is at. -/
def sameOrder (data : Data) : Option Grant → Bool
  | some (.offline _ _ generation taskSequence _) =>
    taskSequence == data.goblinTaskSequence && generation == data.goblinGeneration
  | _ => false

/-- `if previous then Authority.grants[previous] = nil end`. -/
def dropGrant (s : Store) : Option Bytes → Store
  | some token => { s with grants := Function.update s.grants token none }
  | none => s

/-- `Authority.issueOffline`. -/
def issueOffline (env : Env) (body : Body) (s : Store) : Option Bytes × Store :=
  if !offlineBodyReady env body then (none, s)
  else
    let data := body.data
    let s := purge s env.now
    let previous := s.offlineByNpc data.goblinID
    if sameOrder data (liveGrant s previous) then (previous, s)
    else
      let s := dropGrant s previous
      let s := { s with sequence := s.sequence + 1 }
      let token := tokenText "offline" env.now s.sequence env.random
      (some token, { s with
        grants := Function.update s.grants token
          (some (.offline data.goblinOwner data.goblinID data.goblinGeneration
            data.goblinTaskSequence (env.now + offlineTtlMs)))
        offlineByNpc := Function.update s.offlineByNpc data.goblinID (some token) })

/-- `Authority.issueCompanion`. -/
def issueCompanion (env : Env) (body : Body) (s : Store) : Option Bytes × Store :=
  if !(env.config.enabled && body.isGoblin && body.present
      && body.data.goblinFreewillEnabled && ownerOnline env body.owner) then (none, s)
  else
    let data := body.data
    let s := purge s env.now
    let previous := s.companionByNpc data.goblinID
    if (liveGrant s previous).isSome then (previous, s)
    else
      let s := { s with sequence := s.sequence + 1 }
      let token := tokenText "companion" env.now s.sequence env.random
      (some token, { s with
        grants := Function.update s.grants token
          (some (.companion body.owner data.goblinID (env.now + companionTtlMs)))
        companionByNpc := Function.update s.companionByNpc data.goblinID (some token) })

/-- The token a message carries, if it is an identifier of the right size. -/
def messageToken (message : LuaValue) : Option Bytes :=
  (message.field "authority_token").str?.filter fun t => Net.safeId t 128

/-- `type(message.owner) == "string"` and it names `owner`, case aside. -/
def ownerMatches (message : LuaValue) (owner : Bytes) : Bool :=
  match (message.field "owner").str? with
  | some o => Bytes.lower o == Bytes.lower owner
  | none => false

/-- `message[name] == value` for a string value. -/
def fieldIs (message : LuaValue) (name : String) (value : Bytes) : Bool :=
  (message.field name).str? == some value

/-- `t[message.action]` for a set of action names. -/
def actionIn (message : LuaValue) (actions : List Bytes) : Bool :=
  match (message.field "action").str? with
  | some a => actions.contains a
  | none => false

/-- What `consume` asks of a live grant. -/
def consumable (message : LuaValue) : Grant → Bool
  | .offline .. => false
  | .companion owner npcId _ =>
    (message.field "freewill").isTrue && fieldIs message "npc_id" npcId
      && ownerMatches message owner && actionIn message ownerJobs
  | .chat speaker commander _ _ =>
    ownerMatches message speaker && (commander || actionIn message ownerJobs)

/-- The grant and, for a companion grant, its table entry are used up. -/
def spend (s : Store) (token : Bytes) : Grant → Store
  | .companion _ npcId _ =>
    { s with
      grants := Function.update s.grants token none
      companionByNpc := Function.update s.companionByNpc npcId none }
  | _ => { s with grants := Function.update s.grants token none }

/-- `Authority.consume`. -/
def consume (env : Env) (message : LuaValue) (s : Store) : Bool × Store :=
  if !requires (message.field "action") then (true, s)
  else
    match messageToken message with
    | none => (false, s)
    | some token =>
      let s := purge s env.now
      match s.grants token with
      | none => (false, s)
      | some grant => if consumable message grant then (true, spend s token grant) else (false, s)

/-- What `consumeOffline` asks of a live grant. -/
def consumableOffline (message : LuaValue) (data : Data) : Grant → Bool
  | .offline owner npcId generation taskSequence _ =>
    fieldIs message "owner" owner && fieldIs message "npc_id" npcId
      && generation == data.goblinGeneration && taskSequence == data.goblinTaskSequence
  | _ => false

/-- `Authority.consumeOffline`. -/
def consumeOffline (env : Env) (message : LuaValue) (body : Body) (s : Store) : Bool × Store :=
  if !(actionIn message offlineActions && offlineBodyReady env body) then (false, s)
  else
    match messageToken message with
    | none => (false, s)
    | some token =>
      let s := purge s env.now
      match s.grants token with
      | none => (false, s)
      | some grant =>
        if consumableOffline message body.data grant then (true, spend s token grant)
        else (false, s)

end Authority

end GoblinZomboid
