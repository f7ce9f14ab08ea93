import GoblinZomboid.Lib.PyStr
import GoblinZomboid.Lib.PyJson
/-!
# `sentience.py`: the self

What a companion carries between one thought and the next: mood, desires,
a goal with its plan, a goal set aside for something urgent, thoughts and
expectations. It is kept as one JSON object.
-/

namespace GoblinZomboid

namespace Sentience

/-- A finite float of the clock, by its `repr`. -/
def PyTime : Type := {text : PyText // PyJson.IsFloat text}

/-- The number of seconds. -/
def PyTime.value (t : PyTime) : ℚ := Decimal.value t.1

theorem isFloat_zero : PyJson.IsFloat (PyText.lit "0.0") where
  numeral := ⟨⟨false, ['0'], ['.', '0'], [], .zero, .digits (by decide) nofun, .none⟩,
    .inl (List.cons_ne_nil _ _), rfl⟩
  finite := ⟨0, by decide +kernel⟩
  repr := by decide +kernel

/-- The start of the epoch. -/
def PyTime.zero : PyTime := ⟨PyText.lit "0.0", isFloat_zero⟩

/-- A goal. Two goals with one text are two objects; `ref` is which object it
is, and no part of its JSON. -/
structure Goal where
  ref : ℕ
  goal : PyStr
  reason : Option PyStr
  started : PyText
  /-- The key `unverified_steps`, set once a step was passed over. -/
  unverifiedSteps : Bool
  deriving DecidableEq

/-- A step of a plan. The key `failures` is missing while there are none. -/
structure PlanStep where
  intent : PyStr
  note : PyStr
  job : Option PyStr
  failures : ℕ
  deriving DecidableEq

/-- A goal set aside, with its plan and how far it was carried out. -/
structure Suspended where
  goal : Goal
  plan : List PlanStep
  currentStep : ℕ
  deriving DecidableEq

/-- The self. -/
structure Self where
  identity : PyStr
  name : Option PyStr
  owner : Option PyStr
  mood : PyStr
  desires : List (PyStr × ℕ)
  currentGoal : Option Goal
  suspendedGoal : Option Suspended
  plan : List PlanStep
  currentStep : ℕ
  thoughts : List PyStr
  expectations : List (PyStr × PyStr)
  lastReflectAt : PyText
  reflections : ℕ
  deriving DecidableEq

/-- `DEFAULT_DESIRES`. -/
def defaultDesires : List (PyStr × ℕ) :=
  [(PyStr.lit "keep my comrade alive", 100), (PyStr.lit "make the base defensible", 70),
    (PyStr.lit "keep the car usable", 40), (PyStr.lit "keep us fed and stocked", 45),
    (PyStr.lit "find something interesting", 20)]

/-- `new_self`. -/
def newSelf (npcId : PyStr) (name owner : Option PyStr) : Self where
  identity := npcId
  name := name
  owner := owner
  mood := PyStr.lit "restless"
  desires := defaultDesires
  currentGoal := none
  suspendedGoal := none
  plan := []
  currentStep := 0
  thoughts := []
  expectations := []
  lastReflectAt := PyText.lit "0.0"
  reflections := 0

/-! ## As JSON data -/

/-- A string, or `None`. -/
def strOrNone : Option PyStr → PyData
  | none => .none
  | some t => .str t

def Goal.data (g : Goal) : PyData :=
  .dict ([(PyStr.lit "goal", .str g.goal), (PyStr.lit "reason", strOrNone g.reason),
    (PyStr.lit "started", .float g.started)] ++
    if g.unverifiedSteps then [(PyStr.lit "unverified_steps", .bool true)] else [])

def PlanStep.data (s : PlanStep) : PyData :=
  .dict ([(PyStr.lit "intent", .str s.intent), (PyStr.lit "note", .str s.note)] ++
    (match s.job with
      | none => []
      | some job => [(PyStr.lit "job", .str job)]) ++
    if s.failures = 0 then [] else [(PyStr.lit "failures", .int s.failures)])

def planData (plan : List PlanStep) : PyData := .list (plan.map PlanStep.data)

def Suspended.data (s : Suspended) : PyData :=
  .dict [(PyStr.lit "goal", s.goal.data), (PyStr.lit "plan", planData s.plan),
    (PyStr.lit "current_step", .int s.currentStep)]

def desireData (d : PyStr × ℕ) : PyData :=
  .dict [(PyStr.lit "goal", .str d.1), (PyStr.lit "priority", .int d.2)]

/-- The dictionary a self is, its keys in the order of `new_self`. -/
def Self.data (s : Self) : PyData :=
  .dict [(PyStr.lit "identity", .str s.identity), (PyStr.lit "name", strOrNone s.name),
    (PyStr.lit "owner", strOrNone s.owner), (PyStr.lit "mood", .str s.mood),
    (PyStr.lit "desires", .list (s.desires.map desireData)),
    (PyStr.lit "current_goal", (s.currentGoal.map Goal.data).getD .none),
    (PyStr.lit "suspended_goal", (s.suspendedGoal.map Suspended.data).getD .none),
    (PyStr.lit "plan", planData s.plan), (PyStr.lit "current_step", .int s.currentStep),
    (PyStr.lit "thoughts", .list (s.thoughts.map .str)),
    (PyStr.lit "expectations", .dict (s.expectations.map fun e => (e.1, .str e.2))),
    (PyStr.lit "last_reflect_at", .float s.lastReflectAt),
    (PyStr.lit "reflections", .int s.reflections)]

/-! ## From JSON data

`get` takes over the dictionary it loads as it is; here it is read into the
fields. Goals that are loaded are new objects. -/

def str? : PyData → Option PyStr
  | .str t => some t
  | _ => none

def strOrNone? : PyData → Option (Option PyStr)
  | .none => some none
  | .str t => some (some t)
  | _ => none

def nat? : PyData → Option ℕ
  | .int n => if 0 ≤ n then some n.toNat else none
  | _ => none

def float? : PyData → Option PyText
  | .float t => some t
  | _ => none

def Goal.ofData (ref : ℕ) : PyData → Option Goal
  | .dict d => do
    let goal ← str? (PyData.get d "goal")
    let reason ← strOrNone? (PyData.get d "reason")
    let started ← float? (PyData.get d "started")
    return ⟨ref, goal, reason, started, (PyData.get d "unverified_steps").truthy⟩
  | _ => none

def PlanStep.ofData : PyData → Option PlanStep
  | .dict d => do
    let intent ← str? (PyData.get d "intent")
    let note ← str? (PyData.get d "note")
    let job ← strOrNone? (PyData.get d "job")
    return ⟨intent, note, job, (nat? (PyData.get d "failures")).getD 0⟩
  | _ => none

def planOfData : PyData → Option (List PlanStep)
  | .list steps => steps.mapM PlanStep.ofData
  | _ => none

/-- A value, or `None`. -/
def orNone? {α : Type} (f : PyData → Option α) : PyData → Option (Option α)
  | .none => some none
  | v => (f v).map some

def Suspended.ofData (ref : ℕ) : PyData → Option Suspended
  | .dict d => do
    let goal ← Goal.ofData ref (PyData.get d "goal")
    let plan ← planOfData (PyData.get d "plan")
    let currentStep ← nat? (PyData.get d "current_step")
    return ⟨goal, plan, currentStep⟩
  | _ => none

def desireOfData : PyData → Option (PyStr × ℕ)
  | .dict d => do
    let goal ← str? (PyData.get d "goal")
    let priority ← nat? (PyData.get d "priority")
    return (goal, priority)
  | _ => none

def listOfData {α : Type} (f : PyData → Option α) : PyData → Option (List α)
  | .list items => items.mapM f
  | _ => none

def expectationsOfData : PyData → Option (List (PyStr × PyStr))
  | .dict d => d.mapM fun e => (str? e.2).map fun t => (e.1, t)
  | _ => none

/-- The self a dictionary is; the goals in it get the next two references. -/
def Self.ofData (ref : ℕ) : PyData → Option Self
  | .dict d => do
    let identity ← str? (PyData.get d "identity")
    let name ← strOrNone? (PyData.get d "name")
    let owner ← strOrNone? (PyData.get d "owner")
    let mood ← str? (PyData.get d "mood")
    let desires ← listOfData desireOfData (PyData.get d "desires")
    let currentGoal ← orNone? (Goal.ofData ref) (PyData.get d "current_goal")
    let suspendedGoal ← orNone? (Suspended.ofData (ref + 1)) (PyData.get d "suspended_goal")
    let plan ← planOfData (PyData.get d "plan")
    let currentStep ← nat? (PyData.get d "current_step")
    let thoughts ← listOfData str? (PyData.get d "thoughts")
    let expectations ← expectationsOfData (PyData.get d "expectations")
    let lastReflectAt ← float? (PyData.get d "last_reflect_at")
    let reflections ← nat? (PyData.get d "reflections")
    return ⟨identity, name, owner, mood, desires, currentGoal, suspendedGoal, plan, currentStep,
      thoughts, expectations, lastReflectAt, reflections⟩
  | _ => none

end Sentience

end GoblinZomboid
