import GoblinZomboid.Server.Capabilities
/-!
# `GoblinFoodCycle.lua`: goal records and the food cycle

A standing goal is a record with a list of steps. The food goal has one
step, whose task the food cycle chooses again each time from what is in
storage, what the body carries and what lies about.
-/

namespace GoblinZomboid

namespace Goals

/-- The keys of `Goals.TEMPLATES`. -/
inductive Kind
  | secureBase | organizeBase | repairBase | vehicleReady | stockNails | restockFood
  deriving DecidableEq

/-- The states a record is in. -/
inductive State
  | pending | active | waiting | done | failed | cancelled
  deriving DecidableEq

/-- A step: its task and how often it was started. -/
structure Step where
  task : Task
  attempts : ℕ
  deriving DecidableEq

/-- `goal.food`; a field that was never set reads as 0, false or empty. -/
structure Food where
  rounds : ℕ := 0
  automatic : Bool := false
  noticed : Bool := false
  avoidCookUntil : ℕ := 0
  deliveryIds : List ℕ := []
  deriving DecidableEq

/-- A goal record. `uid` tells the tables of a registry apart, as Lua's
references do; no function compares it with anything else. `step` counts
from 1. -/
structure Goal where
  uid : ℕ
  id : Bytes
  kind : Kind
  priority : ℕ
  state : State
  step : ℕ
  steps : List Step
  nextAt : ℕ
  intervalMs : ℕ
  createdAt : ℕ
  runs : ℕ
  food : Option Food
  lastCode : Option Bytes
  deriving DecidableEq

namespace Goal

/-- `goal.steps[goal.step]`. -/
def current (g : Goal) : Option Step := if g.step = 0 then none else g.steps[g.step - 1]?

/-- The current step, changed. -/
def mapCurrent (g : Goal) (f : Step → Step) : Goal :=
  if g.step = 0 then g else { g with steps := g.steps.modify (g.step - 1) f }

/-- The states a goal has ended in. -/
def finished (g : Goal) : Bool := g.state = .done || g.state = .failed || g.state = .cancelled

end Goal

/-- A job result, as far as a goal reads it. -/
structure JobResult where
  success : Bool
  code : Bytes

namespace FoodCycle

def retryMs : ℕ := 600000

def maxRounds : ℕ := 3

/-- What `Food.scan` reports: a reason when the storage is not known, and
otherwise the shortage and the usable items stored. -/
inductive Scan
  | unknown (reason : Bytes)
  | known (shortage : ℕ) (readyIds : List ℕ)

def noFoodStorage : Bytes := Bytes.lit "NO_FOOD_STORAGE"

/-- What the food cycle reads of the world: the storage, the ready items
carried, whether raw food is carried or near the base, and which items are
not in the body's inventory. -/
structure Larder where
  scan : Scan
  ready : List ℕ
  raw : Bool
  absent : ℕ → Bool

/-- `goal.food or { rounds=0 }`. -/
def foodOf (g : Goal) : Food := g.food.getD {}

/-- `Food.finish`. -/
def finish (g : Goal) (now : ℕ) : Goal :=
  { g with
    state := .done
    lastCode := some (Bytes.lit "VERIFIED_FOOD_STORED")
    runs := g.runs + 1
    nextAt := now + retryMs }

/-- `Food.block`. -/
def block (g : Goal) (code : Bytes) (now : ℕ) : Goal :=
  { g with
    state := .waiting
    lastCode := some code
    nextAt := now + retryMs
    food := some { foodOf g with rounds := 0 } }

/-- `Food.next`: the record, and the task to start now. -/
def next (g : Goal) (world : Larder) (now : ℕ) : Goal × Option Task :=
  let food := foodOf g
  match world.scan with
  | .unknown reason =>
    let g := { g with food := some food }
    if reason = noFoodStorage then (g, some .prepareFoodStorage) else (block g reason now, none)
  | .known shortage _ =>
    let food := { food with noticed := food.noticed || 0 < shortage }
    let g := { g with food := some food }
    if shortage = 0 && world.ready.isEmpty then (finish g now, none)
    else if !world.ready.isEmpty then
      ({ g with food := some { food with deliveryIds := world.ready } }, some .deliver)
    else if maxRounds ≤ food.rounds then
      (block g (Bytes.lit "WAITING_FOR_MATERIAL") now, none)
    else if food.avoidCookUntil ≤ now && world.raw then (g, some .cook)
    else (g, some .forage)

/-- Whether the cargo of a finished delivery is in storage and no longer
carried: `none` where it is not, and else the shortage left. -/
def delivered (food : Food) (world : Larder) : Option ℕ :=
  match world.scan with
  | .unknown _ => none
  | .known shortage readyIds =>
    if food.deliveryIds ≠ [] && food.deliveryIds.all fun i => i ∈ readyIds && world.absent i then
      some shortage
    else none

/-- `Food.onResult`. -/
def onResult (g : Goal) (task : Task) (r : JobResult) (world : Larder) (now : ℕ) : Goal :=
  let food := foodOf g
  let g := { g with food := some food, lastCode := some r.code }
  if r.code = Bytes.lit "INTERRUPTED" then { g with state := .waiting, nextAt := now + 5000 }
  else if r.success && r.code = Capabilities.complete then
    let again (food : Food) : Goal := { g with food := some food, state := .pending, nextAt := now }
    match task with
    | .prepareFoodStorage =>
      match world.scan with
      | .unknown _ => block g (Bytes.lit "TARGET_CHANGED") now
      | .known _ _ => again food
    | .deliver =>
      match delivered food world with
      | none => block g (Bytes.lit "TARGET_CHANGED") now
      | some 0 => finish g now
      | some _ => again food
    | .forage | .cook => again { food with rounds := food.rounds + 1 }
    | _ => again food
  else if task = .cook && r.code ≠ Bytes.lit "PERMISSION_DENIED" &&
      r.code ≠ Bytes.lit "ENGINE_ERROR" then
    { g with
      food := some { food with avoidCookUntil := now + retryMs, rounds := food.rounds + 1 }
      state := .pending
      nextAt := now + 5000 }
  else block g r.code now

end FoodCycle

end Goals

end GoblinZomboid
