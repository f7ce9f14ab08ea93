import GoblinZomboid.Lib.PyNumber
import GoblinZomboid.Agent.Events
/-!
# `controllers.py`, `body.py`: what a body may do

A validated intent becomes one typed action of one body. Reflex and combat
come before it; the gate checks the action once more before it is sent.
-/

namespace GoblinZomboid

/-- `Action`. -/
inductive Action
  | farm | craft | repairVehicle | openDoor | openWindow | gainAccess | closeCurtains
  | moveCorpse | noop | say | equip | moveTo | follow | search | scavenge | retreat | rest
  | goHome | setBase | joinParty | leaveParty | attack | flee | eat | drink | bandage | reload
  | claimReward | followGoblin | holdPosition | regroup | lootArea | defendPlayer | defendArea
  | guard | patrol | formSquad | dismissSquad | assignJob | secureBase | build | returnToBase
  | clearBuilding | enterVehicle | exitVehicle | inspectBase | maintainBase | repairStructure
  | dismantle | stockpile | sortStorage | fetchItem | deliver | vehicleInspect | refuelVehicle
  | vehicleService | installPart | removePart | replacePart | changeTire | chopWood
  | treatPlayer | forage | checkTraps | cook | restorePower
  deriving DecidableEq

namespace Action

/-- `action.value`. -/
def value : Action → String
  | farm => "FARM"
  | craft => "CRAFT"
  | repairVehicle => "REPAIR_VEHICLE"
  | openDoor => "OPEN_DOOR"
  | openWindow => "OPEN_WINDOW"
  | gainAccess => "GAIN_ACCESS"
  | closeCurtains => "CLOSE_CURTAINS"
  | moveCorpse => "MOVE_CORPSE"
  | noop => "NOOP"
  | say => "SAY"
  | equip => "EQUIP"
  | moveTo => "MOVE_TO"
  | follow => "FOLLOW"
  | search => "SEARCH"
  | scavenge => "SCAVENGE"
  | retreat => "RETREAT"
  | rest => "REST"
  | goHome => "GO_HOME"
  | setBase => "SET_BASE"
  | joinParty => "JOIN_PARTY"
  | leaveParty => "LEAVE_PARTY"
  | attack => "ATTACK"
  | flee => "FLEE"
  | eat => "EAT"
  | drink => "DRINK"
  | bandage => "BANDAGE"
  | reload => "RELOAD"
  | claimReward => "CLAIM_REWARD"
  | followGoblin => "FOLLOW_GOBLIN"
  | holdPosition => "HOLD_POSITION"
  | regroup => "REGROUP"
  | lootArea => "LOOT_AREA"
  | defendPlayer => "DEFEND_PLAYER"
  | defendArea => "DEFEND_AREA"
  | guard => "GUARD"
  | patrol => "PATROL"
  | formSquad => "FORM_SQUAD"
  | dismissSquad => "DISMISS_SQUAD"
  | assignJob => "ASSIGN_JOB"
  | secureBase => "SECURE_BASE"
  | build => "BUILD"
  | returnToBase => "RETURN_TO_BASE"
  | clearBuilding => "CLEAR_BUILDING"
  | enterVehicle => "ENTER_VEHICLE"
  | exitVehicle => "EXIT_VEHICLE"
  | inspectBase => "INSPECT_BASE"
  | maintainBase => "MAINTAIN_BASE"
  | repairStructure => "REPAIR_STRUCTURE"
  | dismantle => "DISMANTLE"
  | stockpile => "STOCKPILE"
  | sortStorage => "SORT_STORAGE"
  | fetchItem => "FETCH_ITEM"
  | deliver => "DELIVER"
  | vehicleInspect => "VEHICLE_INSPECT"
  | refuelVehicle => "REFUEL_VEHICLE"
  | vehicleService => "VEHICLE_SERVICE"
  | installPart => "INSTALL_PART"
  | removePart => "REMOVE_PART"
  | replacePart => "REPLACE_PART"
  | changeTire => "CHANGE_TIRE"
  | chopWood => "CHOP_WOOD"
  | treatPlayer => "TREAT_PLAYER"
  | forage => "FORAGE"
  | checkTraps => "CHECK_TRAPS"
  | cook => "COOK"
  | restorePower => "RESTORE_POWER"

/-- The actions an intent of the same name leads to. -/
def named : List Action :=
  [attack, openDoor, farm, craft, repairVehicle, openWindow, gainAccess, closeCurtains, say,
    equip, moveTo, follow, flee, search, scavenge, retreat, rest, goHome, setBase, joinParty,
    leaveParty, followGoblin, holdPosition, regroup, lootArea, defendPlayer, defendArea, guard,
    patrol, formSquad, dismissSquad, assignJob, secureBase, build, returnToBase, clearBuilding,
    enterVehicle, exitVehicle, inspectBase, maintainBase, repairStructure, dismantle, stockpile,
    sortStorage, fetchItem, deliver, vehicleInspect, refuelVehicle, vehicleService, installPart,
    removePart, replacePart, changeTire, chopWood, treatPlayer, forage, checkTraps, cook,
    moveCorpse, restorePower]

/-- `TacticalController._mapping`. -/
def mapping : List (String × Action) :=
  named.map (fun a => (a.value, a)) ++
    [("WAIT", noop), ("HUNT_START", noop), ("HUNT_HINT", say), ("HUNT_RELOCATE", moveTo),
      ("HUNT_REWARD", claimReward), ("TRADE", moveTo), ("HELP", follow)]

/-- `_mapping.get(intent)`. -/
def ofIntent (intent : PyText) : Option Action :=
  (mapping.find? fun e => PyText.lit e.1 = intent).map Prod.snd

end Action

/-! ## Intents, bodies, actions -/

namespace Controllers

/-- A target or candidate of an intent. -/
structure Target where
  kind : Option PyText
  name : Option PyText
  label : Option PyText
  player : Option PyText
  deriving DecidableEq

structure Item where
  name : Option PyText
  count : Option ℤ
  deriving DecidableEq

/-- `ValidatedIntent`, in the fields the controllers read. -/
structure Intent where
  intent : PyText
  priority : Option ℤ
  target : Option Target
  candidate : Option Target
  item : Option Item
  members : Option (List PyText)
  requestedMembers : List PyText
  npcId : Option PyText
  leader : Option PyText
  job : Option PyText
  formation : Option PyText
  text : Option PyText
  squadId : Option PyText
  lootFocus : Option PyText
  deriving DecidableEq

/-- `BodyState`. -/
structure BodyState where
  alive : Bool
  bodyPresent : Bool
  hunger : ℚ
  thirst : ℚ
  fatigue : ℚ
  panic : ℚ
  injury : ℚ
  threatLevel : PyText
  weaponReady : Bool
  hasFood : Bool
  hasWater : Bool
  hasMedical : Bool
  mode : PyText
  controlReady : Bool
  npcEngineReady : Bool
  npcId : PyText
  bodyMode : PyText

/-- `body_ready`. -/
def BodyState.ready (b : BodyState) : Bool := b.bodyPresent && b.controlReady && b.npcEngineReady

/-- `SafeAction`. -/
structure SafeAction where
  action : Action
  priority : ℤ
  reason : PyText
  targetKind : Option PyText
  targetLabel : Option PyText
  itemName : Option PyText
  itemCount : Option ℤ
  npcId : PyText
  leader : Option PyText
  members : List PyText
  job : Option PyText
  formation : Option PyText
  text : Option PyText
  squadId : Option PyText
  lootFocus : Option PyText
  deriving DecidableEq

/-- `SafeAction(action, priority, reason, npc_id=npc_id)`. -/
def SafeAction.plain (action : Action) (priority : ℤ) (reason : String) (npcId : PyText) :
    SafeAction :=
  ⟨action, priority, PyText.lit reason, none, none, none, none, npcId, none, [], none, none, none,
    none, none⟩

/-! ## The controllers -/

def escapeRoute (a : SafeAction) : SafeAction :=
  { a with
    targetKind := some (PyText.lit "escape_route")
    targetLabel := some (PyText.lit "nearest safe route") }

/-- `ReflexController.decide`. -/
def reflex (s : BodyState) : Option SafeAction :=
  if !s.alive then none
  else if 85 / 100 ≤ s.thirst && s.hasWater then some (.plain .drink 3 "critical thirst" s.npcId)
  else if 9 / 10 ≤ s.hunger && s.hasFood then some (.plain .eat 3 "critical hunger" s.npcId)
  else if 8 / 10 ≤ s.injury && s.hasMedical then
    some (.plain .bandage 3 "critical injury" s.npcId)
  else if s.threatLevel = PyText.lit "overwhelming" || 9 / 10 ≤ s.panic then
    some (escapeRoute (.plain .flee 3 "unsafe threat" s.npcId))
  else none

/-- `CombatController.decide`. -/
def combat (s : BodyState) : Option SafeAction :=
  if !s.alive || s.threatLevel = PyText.lit "none" then none
  else if s.threatLevel = PyText.lit "overwhelming" then
    some (escapeRoute (.plain .flee 3 "combat threat exceeds safe threshold" s.npcId))
  else if s.weaponReady then
    some { SafeAction.plain .attack 2 "nearby hostile" s.npcId with
      targetKind := some (PyText.lit "nearby_threat")
      targetLabel := some (PyText.lit "nearest visible threat") }
  else some (escapeRoute (.plain .flee 2 "no ready weapon" s.npcId))

/-- `target_required`. -/
def targetRequired : List String :=
  ["MOVE_TO", "FOLLOW", "SEARCH", "SCAVENGE", "JOIN_PARTY", "TRADE", "HELP", "FOLLOW_GOBLIN",
    "LOOT_AREA", "DEFEND_PLAYER", "DEFEND_AREA", "GUARD", "PATROL", "CLEAR_BUILDING", "FLEE",
    "RETREAT", "REGROUP", "GO_HOME", "RETURN_TO_BASE"]

/-- The first of the texts that is not empty, or the last. -/
def firstText (a b c : Option PyText) : Option PyText :=
  if a.any (!·.isEmpty) then a else if b.any (!·.isEmpty) then b else c

def isOne (t : PyText) (names : List String) : Bool := names.any fun name => PyText.lit name = t

/-- `TacticalController.decide`: the action, or why there is none. -/
def tactical (i : Intent) (s : BodyState) : Except String SafeAction :=
  if !s.alive then .error "body is not alive"
  else
    match Action.ofIntent i.intent with
    | none => .error "intent has no implemented controller action"
    | some action =>
      let target := if isOne i.intent ["HUNT_RELOCATE"] then i.candidate else i.target
      if isOne i.intent targetRequired && target.isNone then .error "intent target is missing"
      else
        let aimed := if isOne i.intent ["SAY", "SET_BASE"] then none else target
        let npcId := i.npcId.getD s.npcId
        if npcId ≠ s.npcId then .error "intent attempted to control a different Goblin"
        else
          .ok
            { action := action
              priority := i.priority.getD 1
              reason := PyText.lit "validated intent " ++ i.intent
              targetKind := aimed.bind (·.kind)
              targetLabel := aimed.bind fun t => firstText t.name t.label t.player
              itemName := i.item.bind (·.name)
              itemCount := i.item.bind (·.count)
              npcId := npcId
              leader := i.leader
              members := i.members.getD i.requestedMembers
              job := i.job
              formation := i.formation
              text := i.text
              squadId := i.squadId
              lootFocus := i.lootFocus }

/-- `SafetyController.decide` of an intent. -/
def decide (i : Intent) (s : BodyState) : Except String SafeAction :=
  if !s.ready then
    match Action.ofIntent i.intent with
    | some .say | some .noop => tactical i s
    | _ => .error "NPC body driver is unavailable"
  else
    match reflex s with
    | some a => .ok a
    | none =>
      match combat s with
      | some a => .ok a
      | none => tactical i s

/-! ## The gate -/

/-- `_TARGET_KINDS`. -/
def targetKinds : List String :=
  ["nearby_threat", "escape_route", "nearby_building", "named_location", "area", "player",
    "home_base", "candidate", "current_position", "goblin", "squad", "base", "vehicle", "job",
    "building", "room", "yard", "container"]

/-- `_COORDINATE_RE`: the expression event texts are checked with. -/
def coordinate : PyRegex.Rx := Events.textLocation

/-- `DeterministicActionGate.admit`: why the action is refused, if it is. -/
def refusal (u : Unicode) (a : SafeAction) : Option String :=
  let label := a.targetLabel.getD []
  if a.priority < 0 || 3 < a.priority then some "invalid action priority"
  else if a.targetKind.any fun kind => !isOne kind targetKinds then some "unknown target kind"
  else if a.targetKind.isSome
      && (label.isEmpty || 96 < label.length || PyRegex.search u coordinate label) then
    some "unsafe target label"
  else if a.itemCount.any fun count => count < 1 || 20 < count then some "unsafe item count"
  else if a.lootFocus.any fun focus =>
      !isOne focus ["food", "medical", "tools", "ammo", "surprise"] then
    some "unsafe loot focus"
  else if a.action = .equip && a.itemName ≠ some (PyText.lit "Base.DoubleBarrelShotgun") then
    some "EQUIP requires the configured preferred weapon"
  else if 240 < a.reason.length then some "action reason is too long"
  else none

/-! ## What is decided -/

/-- What reflex and combat say of an action. -/
def aloneReasons : List String :=
  ["critical thirst", "critical hunger", "critical injury", "unsafe threat",
    "combat threat exceeds safe threshold", "nearby hostile", "no ready weapon"]

def aloneLabels : List String := ["nearest safe route", "nearest visible threat"]

/-- What reflex and combat decide is about one body alone: a fixed reason and
label, and nothing of an intent. -/
structure Alone (a : SafeAction) : Prop where
  action : a.action ∈ [Action.drink, .eat, .bandage, .flee, .attack]
  reason : a.reason ∈ aloneReasons.map PyText.lit
  label : ∀ l, a.targetLabel = some l → l ∈ aloneLabels.map PyText.lit
  bare : a = { SafeAction.plain a.action a.priority "" a.npcId with
    reason := a.reason
    targetKind := a.targetKind
    targetLabel := a.targetLabel }

theorem alone_of_plain {action : Action} {priority : ℤ} {reason : String} {npcId : PyText}
    (haction : action ∈ [Action.drink, .eat, .bandage, .flee, .attack])
    (hreason : reason ∈ aloneReasons) : Alone (.plain action priority reason npcId) :=
  ⟨haction, List.mem_map_of_mem hreason, nofun, rfl⟩

theorem alone_of_escape {priority : ℤ} {reason : String} {npcId : PyText}
    (hreason : reason ∈ aloneReasons) :
    Alone (escapeRoute (.plain .flee priority reason npcId)) :=
  ⟨by simp [escapeRoute, SafeAction.plain], List.mem_map_of_mem hreason,
    fun _ hl => Option.some_inj.1 hl ▸ List.mem_map_of_mem (by decide), rfl⟩

theorem alone_of_reflex {s : BodyState} {a : SafeAction} (h : reflex s = some a) : Alone a := by
  unfold reflex at h
  split_ifs at h <;> cases h
  · exact alone_of_plain (by decide) (by decide)
  · exact alone_of_plain (by decide) (by decide)
  · exact alone_of_plain (by decide) (by decide)
  · exact alone_of_escape (by decide)

theorem alone_of_combat {s : BodyState} {a : SafeAction} (h : combat s = some a) : Alone a := by
  unfold combat at h
  split_ifs at h <;> cases h
  · exact alone_of_escape (by decide)
  · exact ⟨by simp [SafeAction.plain], List.mem_map_of_mem (by decide),
      fun _ hl => Option.some_inj.1 hl ▸ List.mem_map_of_mem (by decide), rfl⟩
  · exact alone_of_escape (by decide)

/-- **A decision** is about one body alone, or what the intent asks for. -/
theorem alone_or_tactical {i : Intent} {s : BodyState} {a : SafeAction}
    (h : decide i s = .ok a) : Alone a ∨ tactical i s = .ok a := by
  unfold decide at h
  split at h
  · split at h
    · exact .inr h
    · exact .inr h
    · cases h
  · split at h
    · rename_i b hreflex
      cases h
      exact .inl (alone_of_reflex hreflex)
    · split at h
      · rename_i b hcombat
        cases h
        exact .inl (alone_of_combat hcombat)
      · exact .inr h

/-- What an intent aims at. -/
def aim (i : Intent) : Option Target :=
  if isOne i.intent ["SAY", "SET_BASE"] then none
  else if isOne i.intent ["HUNT_RELOCATE"] then i.candidate else i.target

/-- What the intent asks for, field by field. -/
structure Asks (i : Intent) (s : BodyState) (a : SafeAction) : Prop where
  action : Action.ofIntent i.intent = some a.action
  priority : a.priority = i.priority.getD 1
  reason : a.reason = PyText.lit "validated intent " ++ i.intent
  targetKind : a.targetKind = (aim i).bind (·.kind)
  targetLabel : a.targetLabel = (aim i).bind fun t => firstText t.name t.label t.player
  itemName : a.itemName = i.item.bind (·.name)
  itemCount : a.itemCount = i.item.bind (·.count)
  npcId : a.npcId = s.npcId
  leader : a.leader = i.leader
  members : a.members = i.members.getD i.requestedMembers
  job : a.job = i.job
  formation : a.formation = i.formation
  text : a.text = i.text
  squadId : a.squadId = i.squadId
  lootFocus : a.lootFocus = i.lootFocus

theorem asks_of_tactical {i : Intent} {s : BodyState} {a : SafeAction}
    (h : tactical i s = .ok a) : Asks i s a := by
  have haim : aim i = if isOne i.intent ["SAY", "SET_BASE"] then none
      else if isOne i.intent ["HUNT_RELOCATE"] then i.candidate else i.target := rfl
  unfold tactical at h
  split at h
  · cases h
  · split at h
    · cases h
    · rename_i action haction
      dsimp only at h
      rw [← haim] at h
      generalize (if isOne i.intent ["HUNT_RELOCATE"] then i.candidate else i.target) = target at h
      split at h
      · cases h
      · split at h
        · cases h
        · rename_i hsame
          rw [ne_eq, not_not] at hsame
          cases h
          exact ⟨haction, rfl, rfl, rfl, rfl, rfl, rfl, hsame, rfl, rfl, rfl, rfl, rfl, rfl, rfl⟩

end Controllers

end GoblinZomboid
