import GoblinZomboid.Server.Capabilities
import GoblinZomboid.Server.Spawner
/-!
# `GoblinBrain.lua`: taking an order

`setTask` prepares an order, clears the one before and puts the new one in
place. What it asks of the world is an `Engine`; what it writes is the
body's data, the owner's record, the runtime entry of the running
capability and the targets two capabilities keep for a body.
-/

namespace GoblinZomboid

namespace Brain

open LuaValue (str bool num)

/-! ## The state -/

/-- An entry of `Capabilities.active`. -/
structure Running where
  task : Task
  startedAt : ℕ
  lastResult : Option Capabilities.Result

/-- The fields of the owner's record that orders write. -/
structure Persisted where
  task : Task
  payload : LuaValue
  base : Option Point

/-- A body with what is kept for it. A target is the number of its table,
every table being a new one. -/
structure Post where
  body : Body
  record : Option Persisted
  running : Option Running
  curtains : Option ℕ
  dismantle : Option ℕ
  tables : ℕ
  curtains_lt : ∀ i, curtains = some i → i < tables
  dismantle_lt : ∀ i, dismantle = some i → i < tables

namespace Post

/-- `Curtains.targets[body]` becomes a new table. -/
def aimCurtains (p : Post) : Post where
  body := p.body
  record := p.record
  running := p.running
  curtains := some p.tables
  dismantle := p.dismantle
  tables := p.tables + 1
  curtains_lt := fun _ h => Option.some_inj.1 h ▸ Nat.lt_succ_self _
  dismantle_lt := fun i h => Nat.lt_succ_of_lt (p.dismantle_lt i h)

/-- `Dismantle.targets[body]` becomes a new table. -/
def aimDismantle (p : Post) : Post where
  body := p.body
  record := p.record
  running := p.running
  curtains := p.curtains
  dismantle := some p.tables
  tables := p.tables + 1
  curtains_lt := fun i h => Nat.lt_succ_of_lt (p.curtains_lt i h)
  dismantle_lt := fun _ h => Option.some_inj.1 h ▸ Nat.lt_succ_self _

def dropCurtains (p : Post) : Post :=
  { p with curtains := none, curtains_lt := fun _ h => by cases h }

def dropDismantle (p : Post) : Post :=
  { p with dismantle := none, dismantle_lt := fun _ h => by cases h }

/-- A change of the body's data. -/
def withData (p : Post) (f : Data → Data) : Post :=
  { p with body := { p.body with data := f p.body.data } }

/-- `recordFor(owner, true)`, changed: none for an owner without a key. -/
def withRecord (p : Post) (f : Persisted → Persisted) : Option Post :=
  match Spawner.ownerKey p.body.owner with
  | none => none
  | some _ =>
    some { p with record := some (f (p.record.getD ⟨.follow, Body.ownerPayload p.body.owner, none⟩)) }

/-- `Spawner.setTask`, for a goblin body and an allowed task. -/
def persist (p : Post) (task : Task) (payload : LuaValue) : Option Post :=
  (p.withRecord fun r => { r with task := task, payload := payload }).map fun p =>
    p.withData fun data => Body.setTask data task payload

/-- `Spawner.setBaseForOwnerAt` at a point. -/
def setBase (p : Post) (point : Point) : Option Post :=
  (p.withRecord fun r => { r with base := some point }).map fun p =>
    p.withData fun data => { data with goblinBase := some point }

end Post

/-! ## The world's answers -/

/-- How the `prepare` of a capability ends. -/
inductive Prepared
  | raised
  | refused (detail : String)
  | payload (payload : LuaValue) (detail : String)

/-- What the world answers while one order is taken. -/
structure Engine where
  /-- The owner's position, while the owner is online; an online owner
  without one has none. -/
  owner : Option (Option Point)
  serverReady : Bool
  /-- `Body.say` and `Body.ensureWeapon`. -/
  say : Bool × String
  weapon : Bool × String
  /-- `Transport.prepare` and `Access.prepare`. -/
  transport : Except String (LuaValue × String)
  opening : Except String (LuaValue × String)
  /-- `BaseClaim`: whether a house stands at a point, the nearest house to
  the base there is, and the nearest house to the owner or the body. -/
  houseAt : Point → Bool
  houseNearBase : Option Point
  house : Option Point
  /-- Why `Curtains.prepare` captures no house, if it does not. -/
  noHouse : Option String
  handler : Prepared
  movement : Bool × String

/-! ## Preparing -/

/-- `Claim.HOUSE_TASKS`. -/
def houseTasks : List Task := [.inspectBase, .maintainBase, .fortify, .fortifyBase, .closeCurtains]

/-- `Claim.BASE_TASKS`. -/
def baseTasks : List Task :=
  [.stockpile, .sortStorage, .fetchItem, .deliver, .repairStructure, .returnToBase]

/-- The house `BaseClaim.ensure` claims, if it claims one. -/
def claimed (e : Engine) (data : Data) (t : Task) : Option Point :=
  if t ∉ houseTasks ∧ t ∉ baseTasks then none
  else
    match data.goblinBase with
    | some current => if t ∉ houseTasks || e.houseAt current then none else e.houseNearBase
    | none => e.house

/-- `pcall(BaseClaim.ensure, ...)`. -/
def claimBase (e : Engine) (p : Post) (t : Task) : Post :=
  match claimed e p.body.data t with
  | none => p
  | some point => (p.setBase point).getD p

/-- The `prepare` of a capability, with the target it leaves. -/
def handlerPrepare (e : Engine) (p : Post) (t : Task) : Prepared × Post :=
  match t, e.handler with
  | .closeCurtains, answer =>
    match e.noHouse, answer with
    | some why, _ => (.refused why, p)
    | none, .refused _ =>
      (.refused "no open curtains in the owner's house", p.aimCurtains.dropCurtains)
    | none, answer => (answer, p.aimCurtains)
  | .dismantle, .payload payload detail => (.payload payload detail, p.aimDismantle)
  | _, answer => (answer, p)

/-- The checks of `Capabilities.prepare` before the handler's: its refusal. -/
def jobRefusal (e : Engine) (t : Task) (payload : LuaValue) : Option String :=
  if e.owner.isNone && !(Jobs.caretaker t && (payload.field "caretaker").isTrue) then
    some "the owner must be present to issue this job"
  else if !e.serverReady then some "work must run on the game server"
  else none

/-- `Capabilities.prepare`. -/
def prepareJob (e : Engine) (p : Post) (t : Task) (payload : LuaValue) :
    Except String (LuaValue × String) × Post :=
  match jobRefusal e t payload with
  | some detail => (.error detail, p)
  | none =>
    match handlerPrepare e p t with
    | (.raised, p) => (.error "capability preparation failed", p)
    | (.refused detail, p) => (.error detail, p)
    | (.payload prepared detail, p) =>
      if Capabilities.serializable prepared then (.ok (prepared, detail), p)
      else (.error "capability produced a non-serializable job payload", p)

def isTransport (t : Task) : Bool :=
  t = .enterVehicle || t = .exitVehicle || t = .startVehicle || t = .unlockVehicle

def isOpening (t : Task) : Bool := t = .openDoor || t = .openWindow

/-- The keys of `Work.blueprints`. -/
def blueprints : List Bytes := ["crate", "wall", "fence"].map Bytes.lit

/-- The build order, at the owner's square. -/
def prepareBuild (e : Engine) (payload : LuaValue) : Except String (LuaValue × String) :=
  if !(payload.field "kind").str?.any (· ∈ blueprints) then .error "choose crate, wall, or fence"
  else
    match e.owner.bind id with
    | none => .error "owner must be present to mark a build site"
    | some point =>
      let whole (q : ℚ) : LuaValue := num (.finite q.floor)
      .ok (.ofFields [("kind", payload.field "kind"), ("north", bool (payload.field "north").isTrue),
        ("x", whole point.x), ("y", whole point.y), ("z", whole point.z)],
        "work queued; materials will be gathered nearby")

/-- Everything `setTask` asks before it clears the order there is. -/
def prepare (e : Engine) (p : Post) (t : Task) (payload : LuaValue) :
    Except String (LuaValue × String) × Post :=
  if isTransport t then (e.transport, p)
  else
    let p := claimBase e p t
    if Jobs.handles t then
      match prepareJob e p t payload with
      | (.ok (prepared, detail), p) =>
        (.ok (prepared.set "goal_id" (payload.field "goal_id"), detail), p)
      | (.error detail, p) => (.error detail, p)
    else if isOpening t then (e.opening, p)
    else if t = .build then (prepareBuild e payload, p)
    else (.ok (payload, ""), p)

/-! ## Placing -/

/-- `Jobs.clear`: the running capability is cancelled, and drops its target
unless the same capability has just been prepared. -/
def clearJobs (p : Post) (next : Option Task) : Post :=
  match p.running with
  | none => p
  | some running =>
    let p := { p with running := none }
    if some running.task = next then p
    else if running.task = .closeCurtains then p.dropCurtains
    else if running.task = .dismantle then p.dropDismantle
    else p

/-- The body's data under a new order's flags. -/
def flagged (payload : LuaValue) (data : Data) : Data :=
  { data with
    goblinAutonomous := (payload.field "autonomous").isTrue
    goblinFreewill := false }

/-- `SET_BASE` is done at once, and the body follows. -/
def finishSetBase (e : Engine) (p : Post) : (Bool × String) × Post :=
  match e.owner with
  | none => ((false, "owner is offline"), p)
  | some none => ((false, "player position unavailable"), p)
  | some (some point) =>
    let p := (p.setBase point).getD p
    ((true, "base set to your current square"),
      (p.persist .follow (Body.ownerPayload p.body.owner)).getD p)

/-- What follows once the order is in place. -/
def finish (e : Engine) (p : Post) (t : Task) (detail : String) : (Bool × String) × Post :=
  if isTransport t || Jobs.handles t || isOpening t then ((true, detail), p)
  else
    match t with
    | .build | .fortify | .fortifyBase =>
      ((true, "work queued; materials will be gathered nearby"), p)
    | .wait => ((true, "waiting"), p)
    | .returnToBase =>
      ((true, if p.body.data.goblinBase.isSome then "returning to base"
        else "returning supplies to owner"), p)
    | .setBase => finishSetBase e p
    | .loot => ((true, "loot cycle started"), p)
    | .attack => ((true, "attack ordered; I will approach and engage nearby zombies"), p)
    | _ => (e.movement, p)

/-- A prepared order replaces the one before. -/
def place (e : Engine) (p : Post) (t : Task) (payload : LuaValue) (detail : String) :
    (Bool × String) × Post :=
  let p := (clearJobs p (if Jobs.handles t then some t else none)).withData (flagged payload)
  match p.persist t payload with
  | none => ((false, "task could not be persisted"), p)
  | some p => finish e p t detail

/-- `Brain.setTask`: the answer, and what it leaves. -/
def setTask (e : Engine) (p : Post) (task : Bytes) (payload : LuaValue) : (Bool × String) × Post :=
  if !Body.isGoblin p.body then ((false, "Goblin body is not present"), p)
  else
    match Task.ofBytes? task with
    | none => ((false, "unsupported task"), p)
    | some .speak => (e.say, p)
    | some .equip => (e.weapon, p)
    | some t =>
      match prepare e p t payload.orEmpty with
      | (.error detail, p) => ((false, detail), p)
      | (.ok (payload, detail), p) => place e p t payload detail

end Brain

end GoblinZomboid
