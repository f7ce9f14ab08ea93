import GoblinZomboid.Server.Net
/-!
# `Constants.lua`, `GoblinBody.lua`: tasks and body data

A companion's body carries its order in its mod data: the task, the
payload, a sequence number the telemetry and the grants are compared
with, and the flags that say who chose the task.
-/

namespace GoblinZomboid

/-- `Constants.TASK`. -/
inductive Task
  | enterVehicle | exitVehicle | startVehicle | unlockVehicle | farm | craft | repairVehicle
  | openDoor | openWindow | gainAccess | closeCurtains | moveCorpse | prepareFoodStorage
  | inspectBase | maintainBase | dismantle | stockpile | sortStorage | fetchItem | deliver
  | repairStructure | vehicleInspect | refuelVehicle | installPart | removePart | replacePart
  | changeTire | vehicleService | chopWood | treatPlayer | forage | checkTraps | cook
  | restorePower | fortify | fortifyBase | build | follow | moveTo | wait | returnToBase
  | loot | attack | equip | speak | setBase
  deriving DecidableEq

namespace Task

/-- The string a task is on the wire and in the mod data. -/
def name : Task → String
  | enterVehicle => "ENTER_VEHICLE"
  | exitVehicle => "EXIT_VEHICLE"
  | startVehicle => "START_VEHICLE"
  | unlockVehicle => "UNLOCK_VEHICLE"
  | farm => "FARM"
  | craft => "CRAFT"
  | repairVehicle => "REPAIR_VEHICLE"
  | openDoor => "OPEN_DOOR"
  | openWindow => "OPEN_WINDOW"
  | gainAccess => "GAIN_ACCESS"
  | closeCurtains => "CLOSE_CURTAINS"
  | moveCorpse => "MOVE_CORPSE"
  | prepareFoodStorage => "PREPARE_FOOD_STORAGE"
  | inspectBase => "INSPECT_BASE"
  | maintainBase => "MAINTAIN_BASE"
  | dismantle => "DISMANTLE"
  | stockpile => "STOCKPILE"
  | sortStorage => "SORT_STORAGE"
  | fetchItem => "FETCH_ITEM"
  | deliver => "DELIVER"
  | repairStructure => "REPAIR_STRUCTURE"
  | vehicleInspect => "VEHICLE_INSPECT"
  | refuelVehicle => "REFUEL_VEHICLE"
  | installPart => "INSTALL_PART"
  | removePart => "REMOVE_PART"
  | replacePart => "REPLACE_PART"
  | changeTire => "CHANGE_TIRE"
  | vehicleService => "VEHICLE_SERVICE"
  | chopWood => "CHOP_WOOD"
  | treatPlayer => "TREAT_PLAYER"
  | forage => "FORAGE"
  | checkTraps => "CHECK_TRAPS"
  | cook => "COOK"
  | restorePower => "RESTORE_POWER"
  | fortify => "FORTIFY"
  | fortifyBase => "FORTIFY_BASE"
  | build => "BUILD"
  | follow => "FOLLOW"
  | moveTo => "MOVE_TO"
  | wait => "WAIT"
  | returnToBase => "RETURN_TO_BASE"
  | loot => "LOOT"
  | attack => "ATTACK"
  | equip => "EQUIP"
  | speak => "SPEAK"
  | setBase => "SET_BASE"

/-- The task's bytes. -/
def bytes (t : Task) : Bytes := Bytes.lit t.name

/-- The keys of `Constants.ALLOWED_TASKS`, which are all the tasks. -/
def allowed : List Task :=
  [enterVehicle, exitVehicle, startVehicle, unlockVehicle, farm, craft, repairVehicle,
    openDoor, openWindow, gainAccess, closeCurtains, moveCorpse, prepareFoodStorage,
    inspectBase, maintainBase, dismantle, stockpile, sortStorage, fetchItem, deliver,
    repairStructure, vehicleInspect, refuelVehicle, installPart, removePart, replacePart,
    changeTire, vehicleService, chopWood, treatPlayer, forage, checkTraps, cook, restorePower,
    fortify, fortifyBase, build, follow, moveTo, wait, returnToBase, loot, attack, equip,
    speak, setBase]

/-- `ALLOWED_TASKS[s]`, as the task it names. -/
def ofBytes? (s : Bytes) : Option Task := allowed.find? fun t => t.bytes = s

theorem mem_allowed (t : Task) : t ∈ allowed := by cases t <;> decide

theorem ofBytes?_bytes (t : Task) : ofBytes? t.bytes = some t := by
  have hall : ∀ t ∈ allowed, ofBytes? t.bytes = some t := by decide
  exact hall t (mem_allowed t)

theorem bytes_of_ofBytes? {s : Bytes} {t : Task} (h : ofBytes? s = some t) : t.bytes = s := by
  simpa using List.find?_some h

end Task

/-- A position in the game world. -/
structure Point where
  x : ℚ
  y : ℚ
  z : ℚ
  deriving DecidableEq

/-- The mod data of a body, in the fields the modelled functions read or
write. -/
structure Data where
  goblinNPC : Bool
  goblinOwned : Bool
  goblinID : Bytes
  goblinOwner : Bytes
  goblinGeneration : ℕ
  goblinTask : Task
  goblinTaskPayload : LuaValue
  goblinTaskSequence : ℕ
  goblinAutonomous : Bool
  goblinFreewill : Bool
  goblinFreewillEnabled : Bool
  goblinBase : Option Point

/-- A body: its mod data, and whether the engine still has it alive on a
loaded square (`Body.exists`). -/
structure Body where
  data : Data
  present : Bool

namespace Body

/-- `Body.isGoblin`. -/
def isGoblin (body : Body) : Bool :=
  body.data.goblinNPC && body.data.goblinOwned
    && (body.data.goblinID == Config.npcId || Config.npcPrefix.isPrefixOf body.data.goblinID)

/-- `Body.owner`. -/
def owner (body : Body) : Bytes := body.data.goblinOwner

/-- `{ owner = owner }`. -/
def ownerPayload (owner : Bytes) : LuaValue := .ofFields [("owner", .str owner)]

/-- The data `Body.mark` leaves on a fresh body. -/
def mark (generation : ℕ) (owner npcId : Bytes) : Data where
  goblinNPC := true
  goblinOwned := true
  goblinID := npcId
  goblinOwner := owner
  goblinGeneration := generation
  goblinTask := .follow
  goblinTaskPayload := ownerPayload owner
  goblinTaskSequence := 0
  goblinAutonomous := false
  goblinFreewill := false
  goblinFreewillEnabled := false
  goblinBase := none

/-- `Body.setTask`, for a body that is one of ours. -/
def setTask (data : Data) (task : Task) (payload : LuaValue) : Data :=
  { data with
    goblinTask := task
    goblinTaskPayload := payload
    goblinTaskSequence := data.goblinTaskSequence + 1 }

end Body

end GoblinZomboid
