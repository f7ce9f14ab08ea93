import GoblinZomboid.Agent.Controllers
/-!
# `validator.py`: the intents a model may utter

An intent object is searched for forbidden fields, its fields are read one
by one, and what is read has to suit the intent. The first thing found
wrong is the error.
-/

namespace GoblinZomboid

namespace Validator

open Protocol (Dict get)
open Controllers (Intent Item Target isOne)
open Events (shown)

/-! ## Tables -/

/-- `JOB_INTENTS`. -/
def jobIntents : List String :=
  ["INSPECT_BASE", "MAINTAIN_BASE", "REPAIR_STRUCTURE", "DISMANTLE", "STOCKPILE", "SORT_STORAGE",
    "FETCH_ITEM", "DELIVER", "MOVE_CORPSE", "VEHICLE_INSPECT", "REFUEL_VEHICLE",
    "VEHICLE_SERVICE", "INSTALL_PART", "REMOVE_PART", "REPLACE_PART", "CHANGE_TIRE", "CHOP_WOOD",
    "TREAT_PLAYER", "FORAGE", "CHECK_TRAPS", "COOK", "RESTORE_POWER"]

/-- `INTENTS`. -/
def intents : List String :=
  ["FARM", "CRAFT", "REPAIR_VEHICLE", "OPEN_DOOR", "OPEN_WINDOW", "GAIN_ACCESS",
    "CLOSE_CURTAINS", "WAIT", "SAY", "EQUIP", "MOVE_TO", "FOLLOW", "FOLLOW_GOBLIN",
    "HOLD_POSITION", "REGROUP", "SEARCH", "SCAVENGE", "LOOT_AREA", "RETREAT", "REST", "GO_HOME",
    "SET_BASE", "JOIN_PARTY", "LEAVE_PARTY", "FORM_SQUAD", "DISMISS_SQUAD", "ASSIGN_JOB",
    "SECURE_BASE", "BUILD", "RETURN_TO_BASE", "CLEAR_BUILDING", "ATTACK", "DEFEND_PLAYER",
    "DEFEND_AREA", "GUARD", "PATROL", "FLEE", "ENTER_VEHICLE", "EXIT_VEHICLE", "HUNT_START",
    "HUNT_HINT", "HUNT_RELOCATE", "HUNT_REWARD", "TRADE", "HELP"] ++ jobIntents

/-- `MODE_ALLOWED`: the modes with the intents they exclude. -/
def modeExcluded : List (String × List String) :=
  [("SAFE", ["MOVE_TO", "FOLLOW", "FOLLOW_GOBLIN", "SEARCH", "SCAVENGE", "LOOT_AREA", "ATTACK",
      "DEFEND_PLAYER", "DEFEND_AREA", "GUARD", "PATROL", "FORM_SQUAD", "ENTER_VEHICLE",
      "CLEAR_BUILDING"]),
    ("ROAM", ["JOIN_PARTY", "LEAVE_PARTY", "FORM_SQUAD", "DISMISS_SQUAD", "ASSIGN_JOB",
      "DEFEND_PLAYER", "DEFEND_AREA", "GUARD", "PATROL"]),
    ("PARTY", ["ASSIGN_JOB", "PATROL", "GUARD"]),
    ("HUNT", ["JOIN_PARTY", "LEAVE_PARTY", "FORM_SQUAD", "DISMISS_SQUAD", "ASSIGN_JOB",
      "SECURE_BASE", "GUARD", "PATROL"])]

/-- `TARGET_KINDS`. -/
def targetKinds : List String :=
  ["nearby_building", "named_location", "area", "player", "home_base", "escape_route",
    "candidate", "current_position", "nearby_threat", "goblin", "squad", "base", "vehicle", "job",
    "building", "room", "yard", "container"]

/-- `ALLOWED_KEYS`. -/
def allowedKeys : List String :=
  ["intent", "mode", "text", "priority", "abort_if", "target", "item", "candidate", "loot_focus",
    "npc_id", "leader", "requested_members", "members", "job", "formation", "squad_id", "zone",
    "mission"]

def targetKeys : List String := ["kind", "name", "player", "label"]

def itemKeys : List String := ["name", "category", "count"]

def candidateKeys : List String := ["kind", "label", "clue"]

/-- `FORBIDDEN_KEYS`. -/
def forbiddenKeys : List String :=
  ["code", "command", "eval", "exec", "lua", "shell", "script", "raw", "raw_packet", "packet",
    "x", "y", "z", "cell", "chunk", "building_id", "teleport", "path", "paths", "absolute_path"]

/-- `TEXT_COORDINATE_RE`: the expression event texts are checked with. -/
def textCoordinate : PyRegex.Rx := Events.textLocation

/-- `CONTROL_RE`. -/
def isControl (c : Char) : Bool :=
  let n := c.toNat
  n ≤ 8 || n == 11 || n == 12 || (14 ≤ n && n ≤ 31) || n == 127

/-- `ENTITY_ID_RE`, of the whole text. -/
def isEntityId : PyText → Bool
  | [] => false
  | c :: rest =>
    Protocol.isAlnum c && rest.length ≤ 95
      && rest.all fun c => Protocol.isAlnum c || c == '.' || c == '_' || c == ':' || c == '-'

/-- The characters of a part id. -/
def isPartChar (c : Char) : Bool := c.isLower || c.isDigit || c == '_'

/-- `PART_RE`; the end may be a line break away. -/
def isPart (t : PyText) : Bool :=
  let body := if t.getLast? = some '\n' then t.dropLast else t
  match body with
  | [] => false
  | c :: rest => c.isLower && 1 ≤ rest.length && rest.length ≤ 31 && rest.all isPartChar

/-! ## Reading values -/

/-- An error, where something is wrong. -/
def refuse (wrong : Bool) (detail : String) : Except String Unit :=
  if wrong then .error detail else .ok ()

mutual

/-- `_scan_forbidden`. -/
def scanForbidden (u : Unicode) (path : String) : PyValue → Except String Unit
  | .dict entries => scanEntries u path entries
  | .list items =>
    if 16 < items.length then .error ("list is too long at " ++ path) else scanItems u path 0 items
  | .none | .bool _ | .int _ | .float _ | .str _ => .ok ()

def scanItems (u : Unicode) (path : String) (index : ℕ) : List PyValue → Except String Unit
  | [] => .ok ()
  | v :: items => do
    scanForbidden u (path ++ "[" ++ toString index ++ "]") v
    scanItems u path (index + 1) items

def scanEntries (u : Unicode) (path : String) :
    List (PyText × PyValue) → Except String Unit
  | [] => .ok ()
  | (key, v) :: entries => do
    let normalized := (key.flatMap u.casefold).map fun c => if c = '-' then '_' else c
    refuse (isOne normalized forbiddenKeys) ("forbidden field at " ++ path ++ "." ++ shown key)
    scanForbidden u (path ++ "." ++ shown key) v
    scanEntries u path entries

end

/-- `sorted(set(raw).difference(allowed))[0]`, if there is one. -/
def firstUnknown (raw : Dict) (allowed : List String) : Option PyText :=
  (((raw.map Prod.fst).filter fun key => !isOne key allowed).mergeSort fun a b => a ≤ b).head?

/-- `_text`. -/
def text (u : Unicode) (value : PyValue) (field : String) (maximum : ℕ) : Except String PyText :=
  match value with
  | .str t =>
    let value := PyText.strip t
    if value.isEmpty || maximum < value.length || value.any isControl then
      .error ("invalid " ++ field)
    else if PyRegex.search u textCoordinate value then
      .error (field ++ " contains location coordinates")
    else .ok value
  | _ => .error (field ++ " must be text")

/-- `_id`. -/
def id (u : Unicode) (value : PyValue) (field : String) : Except String PyText := do
  let value ← text u value field 96
  refuse (!isEntityId value) ("invalid " ++ field)
  pure value

/-- A field that may be missing. -/
def ifGiven {α : Type} (raw : Dict) (name : String) (read : PyValue → Except String α) :
    Except String (Option α) :=
  match get raw name with
  | none => .ok none
  | some v => (read v).map some

/-- `raw.get(name)`. -/
def fieldOf (raw : Dict) (name : String) : PyValue := (get raw name).getD .none

/-- `_object`. -/
def object (value : PyValue) (field : String) (allowed : List String) : Except String Dict :=
  match value with
  | .dict entries =>
    match firstUnknown entries allowed with
    | some key => .error ("unknown " ++ field ++ " field: " ++ shown key)
    | none => .ok entries
  | _ => .error (field ++ " must be an object")

def casefold (u : Unicode) (t : PyText) : PyText := t.flatMap u.casefold

/-- The label of `_target`: under its own name for a player, under `name` for
all others, or else under `label`. -/
def targetLabel (u : Unicode) (raw : Dict) (kind : PyText) : Except String Target :=
  let plain : Target := ⟨some kind, none, none, none⟩
  let isPlayer := kind == PyText.lit "player"
  let labelKey := if isPlayer then "player" else "name"
  match get raw labelKey, get raw "label" with
  | some v, _ =>
    (text u v ("target." ++ labelKey) 96).map fun t =>
      if isPlayer then { plain with player := some t } else { plain with name := some t }
  | none, some v => (text u v "target.label" 96).map fun t => { plain with label := some t }
  | none, none => .error "target needs a safe label"

/-- `_target`. -/
def target (u : Unicode) (value : PyValue) : Except String Target := do
  let raw ← object value "target" targetKeys
  let kind ← text u (fieldOf raw "kind") "target.kind" 32
  refuse (!isOne (casefold u kind) targetKinds) "unsupported target kind"
  targetLabel u raw (casefold u kind)

/-- A whole number between the bounds, which no truth value is. -/
def whole (low high : ℤ) (value : PyValue) (detail : String) : Except String ℤ :=
  match value with
  | .int n => if low ≤ n ∧ n ≤ high then .ok n else .error detail
  | _ => .error detail

/-- `_item`: the item, and its category. -/
def item (u : Unicode) (value : PyValue) : Except String (Item × Option PyText) := do
  let raw ← object value "item" itemKeys
  let name ← ifGiven raw "name" fun v => text u v "item.name" 64
  let category ← ifGiven raw "category" fun v => text u v "item.category" 32
  let count ← ifGiven raw "count" fun v => whole 1 20 v "item.count must be between 1 and 20"
  refuse (name.isNone && category.isNone && count.isNone) "item cannot be empty"
  pure (⟨name, count⟩, category)

/-- `_candidate`: the candidate, and its clue. -/
def candidate (u : Unicode) (value : PyValue) : Except String (Target × Option PyText) := do
  let raw ← object value "candidate" candidateKeys
  let kind ← text u (fieldOf raw "kind") "candidate.kind" 32
  refuse (!isOne (casefold u kind) ["nearby_building", "area", "named_location", "candidate"])
    "candidate has an unsafe kind"
  let label ← text u (fieldOf raw "label") "candidate.label" 96
  let clue ← ifGiven raw "clue" fun v => text u v "candidate.clue" 160
  pure (⟨some (casefold u kind), none, some label, none⟩, clue)

/-- `_id_list`. -/
def idList (u : Unicode) (value : PyValue) (field : String) : Except String (List PyText) :=
  match value with
  | .list items =>
    if items.isEmpty || 16 < items.length then .error (field ++ " must contain 1 to 16 ids")
    else items.mapM fun v => id u v (field ++ " item")
  | _ => .error (field ++ " must contain 1 to 16 ids")

/-- `_member_request` for `requested_members`: a number of members names
none. -/
def requestedMembers (u : Unicode) (value : PyValue) : Except String (List PyText) :=
  match value with
  | .int n =>
    (refuse (n < 1 || 15 < n) "requested_members count must be between 1 and 15").map fun _ => []
  | value => idList u value "requested_members"

/-- `abort_if`. -/
def abortIf (u : Unicode) (value : PyValue) : Except String (List PyText) :=
  match value with
  | .list items =>
    if items.isEmpty || 8 < items.length then .error "abort_if must be a short non-empty list"
    else items.mapM fun v => text u v "abort_if item" 80
  | _ => .error "abort_if must be a short non-empty list"

/-- A text that, case-folded, is one of the names. -/
def oneOf (u : Unicode) (value : PyValue) (field : String) (maximum : ℕ) (names : List String) :
    Except String PyText := do
  let t ← text u value field maximum
  refuse (!isOne (casefold u t) names) ("unsupported " ++ field)
  pure (casefold u t)

/-! ## The intent -/

/-- `target_required`. -/
def targetRequired : List String :=
  ["MOVE_TO", "FOLLOW", "FOLLOW_GOBLIN", "SEARCH", "SCAVENGE", "LOOT_AREA", "JOIN_PARTY",
    "TRADE", "HELP", "DEFEND_PLAYER", "DEFEND_AREA", "GUARD", "PATROL", "CLEAR_BUILDING", "FLEE",
    "RETREAT", "REGROUP", "GO_HOME", "RETURN_TO_BASE", "GAIN_ACCESS"]

/-- What the intents ask of the job and the item, in order. -/
def checkJob (intent : PyText) (job itemName : Option PyText) (count : Option ℤ) :
    Except String Unit := do
  let isIntent (names : List String) : Bool := isOne intent names
  let jobIn (names : List String) : Bool := job.any fun j => isOne j names
  let jobInOrNone (names : List String) : Bool := job.isNone || jobIn names
  let exceeds (most : ℤ) : Bool := most < count.getD 1
  refuse (isIntent ["FARM"] && !jobIn ["plow", "sow", "water", "harvest", "tend"])
    "FARM requires plow, sow, water, harvest, or tend"
  refuse (isIntent ["FARM"] && jobIn ["sow"] && itemName.isNone) "sowing requires a crop name"
  refuse (isIntent ["CRAFT", "FARM", "BUILD"] && exceeds 10)
    "item.count must be between 1 and 10 for this intent"
  refuse (isIntent ["CRAFT"] && itemName.isNone) "CRAFT requires an installed recipe name"
  refuse (isIntent ["REPAIR_VEHICLE"] && !jobInOrNone ["all", "engine", "bodywork"])
    "vehicle repair requires all, engine, or bodywork"
  refuse (isIntent ["FETCH_ITEM", "STOCKPILE"] && itemName.isNone)
    (shown intent ++ " requires item.name")
  refuse (isIntent ["INSTALL_PART", "REMOVE_PART", "REPLACE_PART"] && job.isNone)
    (shown intent ++ " requires job as the vehicle part id")
  refuse (isIntent ["INSTALL_PART", "REMOVE_PART", "REPLACE_PART", "CHANGE_TIRE"]
    && job.any fun j => !isPart j) "vehicle part id must be a simple identifier"
  refuse (isIntent ["DISMANTLE"] && !jobInOrNone ["here", "salvage"])
    "DISMANTLE job must be here or salvage"
  refuse (isIntent ["SORT_STORAGE"] && !jobInOrNone ["inbox", "all"])
    "SORT_STORAGE job must be inbox or all"
  refuse (isIntent ["DELIVER"] && !jobInOrNone ["storage", "floor"])
    "DELIVER job must be storage or floor"
  refuse (isIntent ["CHOP_WOOD"] && exceeds 5) "CHOP_WOOD fells at most 5 trees"
  refuse (isIntent ["FORAGE"] && exceeds 10) "FORAGE gathers at most 10 finds"
  refuse (isIntent ["COOK"] && !jobInOrNone ["food", "soup", "stew"])
    "COOK job must be food, soup or stew"
  refuse (isIntent ["COOK"] && exceeds (if jobInOrNone ["food"] then 5 else 6))
    "COOK takes at most 5 foods or 6 pot ingredients"
  refuse (isIntent ["CHECK_TRAPS"] && !jobInOrNone ["check", "place"])
    "CHECK_TRAPS job must be check or place"
  refuse (isIntent ["CHECK_TRAPS"] && exceeds 5) "CHECK_TRAPS places at most 5 traps"
  refuse (isIntent ["ASSIGN_JOB"] && job.isNone) "ASSIGN_JOB requires job"

/-- `ValidatedIntent`: what the controllers read of it, and the rest. -/
structure Validated where
  intent : Intent
  mode : PyText
  category : Option PyText
  clue : Option PyText
  abortIf : Option (List PyText)
  zone : Option PyText
  mission : Option PyText
  deriving DecidableEq

/-- `IntentValidator.validate`, of an object. -/
def validateDict (u : Unicode) (raw : Dict) : Except String Validated := do
  scanEntries u "$" raw
  match firstUnknown raw allowedKeys with
  | some key => .error ("unknown intent field: " ++ shown key)
  | none => known
where
  /-- Once all keys are known. -/
  known : Except String Validated := do
    let given (name : String) : Bool := (get raw name).isSome
    let intentText ← text u (fieldOf raw "intent") "intent" 32
    let modeText ← text u (fieldOf raw "mode") "mode" 16
    let intent := intentText.flatMap u.upper
    let mode := modeText.flatMap u.upper
    refuse (!isOne intent intents) "unsupported intent"
    refuse (!isOne mode (modeExcluded.map Prod.fst)) "unsupported mode"
    refuse (modeExcluded.any fun e => PyText.lit e.1 = mode && isOne intent e.2)
      (shown intent ++ " is not allowed in " ++ shown mode)
    let said ← ifGiven raw "text" fun v => text u v "text" 240
    refuse (isOne intent ["SAY"] && said.isNone) "SAY requires text"
    refuse (isOne intent ["SAY"] && given "target") "SAY does not accept a target"
    refuse (isOne intent ["EQUIP"] && !given "item") "EQUIP requires an item"
    let priority ← whole 0 3 ((get raw "priority").getD (.int 1)) "priority must be between 0 and 3"
    let abort ← ifGiven raw "abort_if" (abortIf u)
    refuse (isOne intent targetRequired && !given "target") (shown intent ++ " requires a target")
    let aim ← ifGiven raw "target" (target u)
    let thing ← ifGiven raw "item" (item u)
    let itemName := thing.bind (·.1.name)
    refuse (isOne intent ["EQUIP"] && itemName != some (PyText.lit "Base.DoubleBarrelShotgun"))
      "EQUIP only permits Base.DoubleBarrelShotgun"
    refuse (isOne intent ["BUILD"] && !itemName.any fun n => isOne n ["crate", "wall", "fence"])
      "BUILD requires crate, wall, or fence"
    let place ← ifGiven raw "candidate" (candidate u)
    refuse (isOne intent ["HUNT_RELOCATE"] && place.isNone) "HUNT_RELOCATE requires a candidate"
    let focus ← ifGiven raw "loot_focus" fun v =>
      oneOf u v "loot_focus" 32 ["food", "medical", "tools", "ammo", "surprise"]
    let npcId ← ifGiven raw "npc_id" fun v => id u v "npc_id"
    let leader ← ifGiven raw "leader" fun v => id u v "leader"
    let squadId ← ifGiven raw "squad_id" fun v => id u v "squad_id"
    let requested ← ifGiven raw "requested_members" (requestedMembers u)
    let members ← ifGiven raw "members" fun v => idList u v "members"
    refuse (isOne intent ["FORM_SQUAD"] && requested.isNone && members.isNone)
      "FORM_SQUAD requires requested_members"
    refuse (isOne intent ["FORM_SQUAD"] && leader.isNone) "FORM_SQUAD requires leader"
    let job ← ifGiven raw "job" fun v => (text u v "job" 32).map (casefold u)
    checkJob intent job itemName (thing.bind (·.1.count))
    let formation ← ifGiven raw "formation" fun v =>
      oneOf u v "formation" 16 ["line", "wedge", "column", "ring", "loose"]
    let zone ← ifGiven raw "zone" fun v => text u v "zone" 96
    let mission ← ifGiven raw "mission" fun v => text u v "mission" 96
    pure
      { intent :=
          { intent := intent
            priority := some priority
            target := aim
            candidate := place.map Prod.fst
            item := thing.map Prod.fst
            members := members
            requestedMembers := requested.getD []
            npcId := npcId
            leader := leader
            job := job
            formation := formation
            text := said
            squadId := squadId
            lootFocus := focus }
        mode := mode
        category := thing.bind Prod.snd
        clue := place.bind Prod.snd
        abortIf := abort
        zone := zone
        mission := mission }

/-- `IntentValidator.validate`. -/
def validate (u : Unicode) (raw : PyValue) : Except String Validated :=
  match raw with
  | .dict entries => validateDict u entries
  | _ => .error "intent must be an object"

/-! ## What is accepted -/

theorem refuse_eq_ok {wrong : Bool} {detail : String} {x : Unit} :
    refuse wrong detail = .ok x ↔ wrong = false := by
  cases wrong <;> simp [refuse]

/-- **An accepted intent**: what its fields are read as, and what was asked of
them. -/
structure Accepted (u : Unicode) (raw : Dict) (v : Validated) : Prop where
  intent : isOne v.intent.intent intents = true
  ofPriority : ∃ n, v.intent.priority = some n
  ofText : ifGiven raw "text" (fun v => text u v "text" 240) = .ok v.intent.text
  said : isOne v.intent.intent ["SAY"] = true → v.intent.text.isSome = true
  ofTarget : ifGiven raw "target" (target u) = .ok v.intent.target
  ofItem : ∃ thing, ifGiven raw "item" (item u) = .ok thing ∧ v.intent.item = thing.map Prod.fst
  ofCandidate : ∃ place, ifGiven raw "candidate" (candidate u) = .ok place ∧
    v.intent.candidate = place.map Prod.fst
  ofNpcId : ifGiven raw "npc_id" (fun v => id u v "npc_id") = .ok v.intent.npcId
  ofLeader : ifGiven raw "leader" (fun v => id u v "leader") = .ok v.intent.leader
  ofSquadId : ifGiven raw "squad_id" (fun v => id u v "squad_id") = .ok v.intent.squadId
  ofRequested : ∃ requested, ifGiven raw "requested_members" (requestedMembers u) = .ok requested ∧
    v.intent.requestedMembers = requested.getD []
  ofMembers : ifGiven raw "members" (fun v => idList u v "members") = .ok v.intent.members
  ofJob : ifGiven raw "job" (fun v => (text u v "job" 32).map (casefold u)) = .ok v.intent.job
  ofFormation : ifGiven raw "formation" (fun v =>
    oneOf u v "formation" 16 ["line", "wedge", "column", "ring", "loose"]) = .ok v.intent.formation
  ofLootFocus : ifGiven raw "loot_focus" (fun v =>
    oneOf u v "loot_focus" 32 ["food", "medical", "tools", "ammo", "surprise"]) =
      .ok v.intent.lootFocus

theorem accepted_of_validate {u : Unicode} {raw : PyValue} {v : Validated}
    (h : validate u raw = .ok v) : ∃ entries, raw = .dict entries ∧ Accepted u entries v := by
  cases raw with
  | dict entries =>
    refine ⟨entries, rfl, ?_⟩
    unfold validate validateDict at h
    obtain ⟨-, -, h⟩ := Protocol.bind_eq_ok.1 h
    cases hunknown : firstUnknown entries allowedKeys with
    | some key => rw [hunknown] at h; cases h
    | none =>
      rw [hunknown] at h
      simp only [validateDict.known, Protocol.bind_eq_ok, refuse_eq_ok] at h
      obtain ⟨_, -, _, -, _, hintent, _, -, _, -, _, htext, _, hsay, _, -, _, -, h⟩ := h
      obtain ⟨priority, -, _, -, _, -, _, htarget, thing, hthing, _, -, _, -, h⟩ := h
      obtain ⟨place, hplace, _, -, _, hfocus, _, hnpcId, _, hleader, _, hsquadId, h⟩ := h
      obtain ⟨requested, hrequested, _, hmembers, _, -, _, -, _, hjob, _, -, h⟩ := h
      obtain ⟨_, hformation, _, -, _, -, hv⟩ := h
      cases hv
      refine ⟨by simpa using hintent, ⟨priority, rfl⟩, htext, fun hone => ?_, htarget,
        ⟨thing, hthing, rfl⟩, ⟨place, hplace, rfl⟩, hnpcId, hleader, hsquadId,
        ⟨requested, hrequested, rfl⟩, hmembers, hjob, hformation, hfocus⟩
      rw [hone, Bool.true_and] at hsay
      simpa using hsay
  | _ => cases h

theorem read_of_ifGiven {α : Type} {raw : Dict} {name : String} {read : PyValue → Except String α}
    {a : α} (h : ifGiven raw name read = .ok (some a)) :
    ∃ w, get raw name = some w ∧ read w = .ok a := by
  unfold ifGiven at h
  cases hget : get raw name with
  | none => rw [hget] at h; cases h
  | some w =>
    rw [hget] at h
    refine ⟨w, rfl, ?_⟩
    dsimp only at h
    cases hread : read w with
    | error e => rw [hread] at h; cases h
    | ok b => rw [hread] at h; cases h; rfl

theorem map_eq_ok {α β : Type} {x : Except String α} {f : α → β} {b : β} :
    x.map f = .ok b ↔ ∃ a, x = .ok a ∧ f a = b := by
  cases x with
  | error e => exact ⟨nofun, fun ⟨_, h, _⟩ => nomatch h⟩
  | ok a => exact ⟨fun h => ⟨a, rfl, Except.ok.inj h⟩, fun ⟨_, h, hb⟩ => by cases h; rw [← hb]; rfl⟩

theorem length_mapM {α β : Type} {f : α → Except String β} {l : List α} {l' : List β}
    (h : l.mapM f = .ok l') : l'.length = l.length := by
  induction l generalizing l' with
  | nil => cases h; rfl
  | cons a l ih =>
    rw [List.mapM_cons] at h
    obtain ⟨b, -, h⟩ := Protocol.bind_eq_ok.1 h
    obtain ⟨bs, hbs, h⟩ := Protocol.bind_eq_ok.1 h
    cases h
    rw [List.length_cons, List.length_cons, ih hbs]

theorem length_idList_le {u : Unicode} {value : PyValue} {field : String} {ids : List PyText}
    (h : idList u value field = .ok ids) : ids.length ≤ 16 := by
  cases value with
  | list items =>
    unfold idList at h
    dsimp only at h
    split at h
    · cases h
    · rename_i hlength
      simp only [Bool.or_eq_true, decide_eq_true_eq, not_or, not_lt] at hlength
      rw [length_mapM h]
      exact hlength.2
  | _ => cases h

/-- No more than 16 members are named. -/
theorem length_members_le {u : Unicode} {raw : Dict} {v : Validated} (h : Accepted u raw v) :
    (v.intent.members.getD v.intent.requestedMembers).length ≤ 16 := by
  cases hmembers : v.intent.members with
  | some ids =>
    obtain ⟨w, -, hread⟩ := read_of_ifGiven (hmembers ▸ h.ofMembers)
    exact length_idList_le hread
  | none =>
    obtain ⟨requested, hread, heq⟩ := h.ofRequested
    rw [Option.getD_none, heq]
    cases requested with
    | none => exact Nat.zero_le _
    | some ids =>
      obtain ⟨w, -, hread⟩ := read_of_ifGiven hread
      cases w with
      | int n =>
        unfold requestedMembers at hread
        dsimp only at hread
        cases hrefuse : refuse (n < 1 || 15 < n)
            "requested_members count must be between 1 and 15" with
        | error e => rw [hrefuse] at hread; cases hread
        | ok x => rw [hrefuse] at hread; cases hread; exact Nat.zero_le _
      | _ =>
        simp only [requestedMembers] at hread
        exact length_idList_le hread

/-- A text as the validator leaves it: not empty, short, without control
characters. -/
structure Clean (maximum : ℕ) (t : PyText) : Prop where
  ne_nil : t ≠ []
  length : t.length ≤ maximum
  plain : ∀ c ∈ t, isControl c = false

theorem clean_of_text {u : Unicode} {value : PyValue} {field : String} {maximum : ℕ} {t : PyText}
    (h : text u value field maximum = .ok t) : Clean maximum t := by
  cases value with
  | str s =>
    unfold text at h
    dsimp only at h
    split_ifs at h with hbad
    cases h
    simp only [Bool.or_eq_true, decide_eq_true_eq, not_or, not_lt, List.isEmpty_iff,
      Bool.not_eq_true, List.any_eq_false] at hbad
    exact ⟨hbad.1.1, hbad.1.2, fun c hc => by simpa using hbad.2 c hc⟩
  | _ => cases h

section accepted

variable {u : Unicode} {raw : Dict} {v : Validated}

theorem clean_said (h : Accepted u raw v) {t : PyText} (ht : v.intent.text = some t) :
    Clean 240 t := by
  obtain ⟨w, -, hread⟩ := read_of_ifGiven (ht ▸ h.ofText)
  exact clean_of_text hread

theorem clean_itemName (h : Accepted u raw v) {it : Item} (hitem : v.intent.item = some it)
    {name : PyText} (hname : it.name = some name) : Clean 64 name := by
  obtain ⟨thing, hread, heq⟩ := h.ofItem
  rw [hitem] at heq
  obtain ⟨⟨it', category⟩, rfl, rfl⟩ := Option.map_eq_some_iff.1 heq.symm
  obtain ⟨w, -, hread⟩ := read_of_ifGiven hread
  unfold item at hread
  simp only [Protocol.bind_eq_ok] at hread
  obtain ⟨_, -, given, hgiven, _, -, _, -, _, -, hpure⟩ := hread
  cases hpure
  obtain rfl : given = some name := hname
  obtain ⟨w', -, hread'⟩ := read_of_ifGiven hgiven
  exact clean_of_text hread'

/-- The labels of a target, wherever they stand. -/
structure CleanTarget (t : Target) : Prop where
  name : ∀ l, t.name = some l → Clean 96 l
  label : ∀ l, t.label = some l → Clean 96 l
  player : ∀ l, t.player = some l → Clean 96 l

theorem cleanTarget_of_target {value : PyValue} {t : Target} (h : target u value = .ok t) :
    CleanTarget t := by
  unfold target at h
  simp only [Protocol.bind_eq_ok] at h
  obtain ⟨raw, -, kind, -, -, -, h⟩ := h
  unfold targetLabel at h
  dsimp only at h
  split at h
  · rename_i w hw
    obtain ⟨l, hread, heq⟩ := map_eq_ok.1 h
    have hclean := clean_of_text hread
    split at heq <;> subst heq
    · exact ⟨nofun, nofun, fun l' hl' => Option.some_inj.1 hl' ▸ hclean⟩
    · exact ⟨fun l' hl' => Option.some_inj.1 hl' ▸ hclean, nofun, nofun⟩
  · rename_i w hw
    obtain ⟨l, hread, rfl⟩ := map_eq_ok.1 h
    exact ⟨nofun, fun l' hl' => Option.some_inj.1 hl' ▸ clean_of_text hread, nofun⟩
  · cases h

theorem cleanTarget_of_candidate {value : PyValue} {t : Target} {clue : Option PyText}
    (h : candidate u value = .ok (t, clue)) : CleanTarget t := by
  unfold candidate at h
  simp only [Protocol.bind_eq_ok] at h
  obtain ⟨_, -, _, -, _, -, label, hread, _, -, hpure⟩ := h
  cases hpure
  exact ⟨nofun, fun l' hl' => Option.some_inj.1 hl' ▸ clean_of_text hread, nofun⟩

/-- What an accepted intent aims at has clean labels. -/
theorem cleanTarget_of_aim (h : Accepted u raw v) {t : Target}
    (ht : Controllers.aim v.intent = some t) : CleanTarget t := by
  unfold Controllers.aim at ht
  split_ifs at ht with hspeech hmove
  · obtain ⟨place, hread, heq⟩ := h.ofCandidate
    rw [ht] at heq
    obtain ⟨⟨t', clue⟩, rfl, rfl⟩ := Option.map_eq_some_iff.1 heq.symm
    obtain ⟨w, -, hread⟩ := read_of_ifGiven hread
    exact cleanTarget_of_candidate hread
  · obtain ⟨w, -, hread⟩ := read_of_ifGiven (ht ▸ h.ofTarget)
    exact cleanTarget_of_target hread

end accepted

end Validator

end GoblinZomboid
