import GoblinZomboid.Server.Authority
import GoblinZomboid.Lib.LuaPattern
/-!
# `GoblinBridge.lua`: the command bridge

Every command resolves to one player's companion. A message is checked
field by field (`wellFormed`), then against the grants (`valid`), then
routed: an offline chore, a free-will choice the body is not free for, or
an order the brain is given.
-/

namespace GoblinZomboid

namespace Bridge

open LuaValue

/-! ## The schema -/

/-- `actions`. -/
def actions : List Bytes :=
  ["ENTER_VEHICLE", "EXIT_VEHICLE", "FARM", "CRAFT", "REPAIR_VEHICLE", "OPEN_DOOR",
    "OPEN_WINDOW", "GAIN_ACCESS", "CLOSE_CURTAINS", "NOOP", "WAIT", "SAY", "EQUIP", "FOLLOW",
    "FOLLOW_GOBLIN", "HOLD_POSITION", "REGROUP", "HELP", "SEARCH", "SCAVENGE", "LOOT",
    "LOOT_AREA", "RETURN_TO_BASE", "GO_HOME", "RETURN", "SET_BASE", "REMEMBER_BASE",
    "SECURE_BASE", "BUILD", "ATTACK", "DEFEND_PLAYER", "DEFEND_AREA", "CLEAR_BUILDING", "REST",
    "RETREAT", "FLEE", "MOVE_TO", "INSPECT_BASE", "MAINTAIN_BASE", "REPAIR_STRUCTURE",
    "DISMANTLE", "STOCKPILE", "SORT_STORAGE", "FETCH_ITEM", "DELIVER", "VEHICLE_INSPECT",
    "REFUEL_VEHICLE", "MOVE_CORPSE", "VEHICLE_SERVICE", "INSTALL_PART", "REMOVE_PART",
    "REPLACE_PART", "CHANGE_TIRE", "CHOP_WOOD", "TREAT_PLAYER", "FORAGE", "CHECK_TRAPS", "COOK",
    "RESTORE_POWER"].map Bytes.lit

/-- `allowedKeys`. -/
def allowedKeys : List Bytes :=
  ["protocol", "request_id", "timestamp_ms", "type", "npc_id", "owner", "action", "priority",
    "reason", "text", "target", "item", "job", "loot_focus", "authority_token",
    "controller_action", "autonomous", "freewill"].map Bytes.lit

def targetKeys : List Bytes := ["kind", "name", "player", "label"].map Bytes.lit

def itemKeys : List Bytes := ["name", "count", "category"].map Bytes.lit

def accessTargetKinds : List Bytes :=
  ["BUILDING", "ROOM", "YARD", "VEHICLE", "CONTAINER"].map Bytes.lit

def semanticTargetKinds : List Bytes :=
  ["nearby_threat", "escape_route", "nearby_building", "named_location", "area", "player",
    "home_base", "candidate", "current_position", "goblin", "squad"].map Bytes.lit

def lootFocuses : List Bytes := ["food", "medical", "tools", "ammo", "surprise"].map Bytes.lit

/-- The pattern that stands for a coordinate. -/
def coordinatePattern : String := "[xyzXYZ]%s*=%s*[-+]?%d"

/-- `safeText` of a string. -/
def safeBytes (s : Bytes) (maximum : ℕ) : Bool :=
  0 < s.length && s.length ≤ maximum && !s.any Bytes.isCntrl
    && !LuaPattern.contains (Bytes.lower s) (Bytes.lit "coordinates")
    && !LuaPattern.found coordinatePattern s

/-- `safeText`. -/
def safeText (v : LuaValue) (maximum : ℕ) : Bool :=
  match v with
  | str s => safeBytes s maximum
  | _ => false

/-- `a or b`. -/
def luaOr (a b : LuaValue) : LuaValue := if a.truthy then a else b

/-- Every key is a string whose lower case is listed. -/
def keysIn (keys : List Bytes) : List (LuaKey × LuaValue) → Bool
  | [] => true
  | (.str k, _) :: rest => keys.contains (Bytes.lower k) && keysIn keys rest
  | _ :: _ => false

/-- `nil`, or the check holds. -/
def nilOr (v : LuaValue) (check : LuaValue → Bool) : Bool := v.isNil || check v

/-- `label == nil or label == "" or safeText(label, 96)`. -/
def validLabel (label : LuaValue) : Bool :=
  label.isNil || label.str? == some [] || safeText label 96

/-- The kind of a target that is no table or has no string kind counts as
none. -/
def kindIn (target : LuaValue) (kinds : List Bytes) : Bool :=
  match (target.field "kind").str? with
  | some k => kinds.contains k
  | none => false

/-- `validTarget`. -/
def validTarget : LuaValue → Bool
  | table entries =>
    let target := table entries
    keysIn targetKeys entries &&
      match target.field "kind" with
      | .nil =>
        safeText (luaOr (luaOr (target.field "name") (target.field "label"))
          (target.field "player")) 96
      | str k =>
        if semanticTargetKinds.contains k then
          validLabel (luaOr (luaOr (target.field "label") (target.field "name"))
            (target.field "player"))
        else Bytes.upper k == k && accessTargetKinds.contains k
      | _ => false
  | _ => false

/-- `validNpcId`. -/
def validNpcId (v : LuaValue) : Bool :=
  match v with
  | str s => s.length ≤ 96 && (s == Config.npcId || Config.npcPrefix.isPrefixOf s)
  | _ => false

/-- A whole number between the bounds. -/
def wholeBetween (low high : ℚ) : LuaValue → Bool
  | num (.finite q) => q.den == 1 && low ≤ q && q ≤ high
  | _ => false

def isBool : LuaValue → Bool
  | LuaValue.bool _ => true
  | _ => false

/-- `string.lower(tostring(message.loot_focus))` is one of the focuses: no
value but a string prints as one. -/
def validFocus : LuaValue → Bool
  | str s => lootFocuses.contains (Bytes.lower s)
  | _ => false

/-- The checks of `message.item`. -/
def validItem : LuaValue → Bool
  | table entries =>
    keysIn itemKeys entries && safeText ((table entries).field "name") 96
      && nilOr ((table entries).field "count") (wholeBetween 1 20)
  | _ => false

/-- The action of a message, when it is one of the bridge's. -/
def action? (message : LuaValue) : Option Bytes :=
  match message.field "action" with
  | str a => if Bytes.upper a == a && actions.contains a then some a else none
  | _ => none

/-- **The schema check**: `valid` but for its last line, which asks for a
grant. -/
def wellFormed (message : LuaValue) : Bool :=
  match message with
  | table entries =>
    Net.safeTable message && keysIn allowedKeys entries &&
      match action? message with
      | none => false
      | some action =>
        validNpcId (message.field "npc_id")
          && nilOr (message.field "owner") (safeText · 96)
          && nilOr (message.field "priority") (wholeBetween 0 3)
          && nilOr (message.field "reason") (safeText · 240)
          && nilOr (message.field "text") (safeText · 240)
          && !(action == Bytes.lit "SAY" && (message.field "text").isNil)
          && nilOr (message.field "loot_focus") validFocus
          && nilOr (message.field "job") (safeText · 32)
          && nilOr (message.field "target") validTarget
          && !(action == Bytes.lit "GAIN_ACCESS"
            && !kindIn (message.field "target") accessTargetKinds)
          && nilOr (message.field "item") validItem
          && !(action == Bytes.lit "EQUIP"
            && ((message.field "item").field "name").str? != some Config.weaponType)
          && nilOr (message.field "authority_token")
            (fun t => t.str?.any fun s => Net.safeId s 128)
          && nilOr (message.field "controller_action") Net.safeTable
          && nilOr (message.field "autonomous") isBool
          && nilOr (message.field "freewill") isBool
          && !((message.field "freewill").isTrue && (message.field "autonomous").isTrue)
  | _ => false

/-- `valid`: the verdict, and the grants left. -/
def valid (env : Authority.Env) (message : LuaValue) (s : Authority.Store) :
    Bool × Authority.Store :=
  if !wellFormed message then (false, s)
  else if (message.field "autonomous").isTrue || !Authority.requires (message.field "action") then
    (true, s)
  else Authority.consume env message s

/-! ## Routing -/

/-- The request ids seen, oldest first: `Bridge.seen` and `Bridge.order`. -/
abbrev Seen := List Bytes

def maxSeen : ℕ := 2048

/-- `remember`: none for a request seen before. -/
def remember (seen : Seen) (requestId : Bytes) : Option Seen :=
  if seen.contains requestId then none
  else
    let order := seen ++ [requestId]
    some (if maxSeen < order.length then order.tail else order)

/-- `normalizedMessage`, in the fields the brain is given. -/
def normalizedMessage (message : LuaValue) : LuaValue :=
  let action (name : String) : LuaValue := .ofFields [("action", str (Bytes.lit name))]
  let isOne (names : List String) : Bool := Authority.actionIn message (names.map Bytes.lit)
  if isOne ["SEARCH", "SCAVENGE", "LOOT_AREA"] then
    .ofFields [("action", str (Bytes.lit "LOOT")),
      ("loot_focus", luaOr (message.field "loot_focus") (str (Bytes.lit "surprise")))]
  else if isOne ["NOOP", "WAIT", "HOLD_POSITION", "REST"] then action "WAIT"
  else if isOne ["FOLLOW_GOBLIN", "REGROUP", "HELP"] then action "FOLLOW"
  else if isOne ["GO_HOME", "RETURN"] then action "RETURN_TO_BASE"
  else if isOne ["REMEMBER_BASE"] then action "SET_BASE"
  else if isOne ["DEFEND_PLAYER", "DEFEND_AREA", "CLEAR_BUILDING"] then action "ATTACK"
  else if isOne ["RETREAT", "FLEE"] then action "FOLLOW"
  else message

/-- `freewillReady`, given what `Goals.foodBusy` says. -/
def freewillReady (data : Data) (foodBusy : Bool) : Bool :=
  data.goblinFreewillEnabled && !foodBusy
    && (data.goblinTask == .follow || data.goblinFreewill || data.goblinAutonomous)

/-- `message.action == "SAY"` and the like. -/
def isAction (message : LuaValue) (name : String) : Bool :=
  Authority.fieldIs message "action" (Bytes.lit name)

/-- A choice that is no work. -/
def idleChoice (message : LuaValue) : Bool :=
  isAction message "SAY" || isAction message "FOLLOW" || isAction message "WAIT"
    || isAction message "NOOP"

/-- What `process` does with a message that passed `valid` and whose body
is found: refuse it, or hand it to the brain. -/
inductive Route
  | refuse (detail : String)
  | offline (normalized : LuaValue)
  | order (normalized : LuaValue) (ownerAuthorized freewill : Bool)

/-- The branch of `process` a message takes, and the grants left. -/
def route (env : Authority.Env) (message : LuaValue) (body : Body) (foodBusy : Bool)
    (s : Authority.Store) : Route × Authority.Store :=
  if (message.field "autonomous").isTrue then
    match Authority.consumeOffline env message body s with
    | (true, s) => (.offline (normalizedMessage message), s)
    | (false, s) => (.refuse "offline grant expired, owner returned, or task changed", s)
  else if (message.field "freewill").isTrue && !isAction message "SAY"
      && !freewillReady body.data foodBusy then
    (.refuse "busy with the owner's own order", s)
  else
    (.order (normalizedMessage message) (Authority.requires (message.field "action"))
      (message.field "freewill").isTrue, s)

/-- How `process` ends. -/
inductive Outcome
  | malformed
  | duplicate
  | rejected
  | absent
  | routed (route : Route)

/-- `resolveBody`, given the spawner's two lookups. -/
def resolveBody (findByNpcId findForOwner : Bytes → Option Body) (message : LuaValue) :
    Option Body :=
  match (message.field "npc_id").str? with
  | none => none
  | some npcId =>
    match findByNpcId npcId with
    | some body => if Authority.ownerMatches message body.owner then some body else none
    | none =>
      if npcId == Config.npcId then (message.field "owner").str?.bind findForOwner else none

/-- `process`, for a message that could be read. -/
def process (env : Authority.Env) (findByNpcId findForOwner : Bytes → Option Body)
    (foodBusy : Bool) (message : LuaValue) (seen : Seen) (s : Authority.Store) :
    Outcome × Seen × Authority.Store :=
  if !Authority.fieldIs message "type" (Bytes.lit "command.npc_action") then
    (.malformed, seen, s)
  else
    match remember seen ((message.field "request_id").str?.getD []) with
    | none => (.duplicate, seen, s)
    | some seen =>
      if !env.config.enabled then (.rejected, seen, s)
      else
        match valid env message s with
        | (false, s) => (.rejected, seen, s)
        | (true, s) =>
          match resolveBody findByNpcId findForOwner message with
          | none => (.absent, seen, s)
          | some body =>
            let (r, s) := route env message body foodBusy s
            (.routed r, seen, s)

end Bridge

end GoblinZomboid
