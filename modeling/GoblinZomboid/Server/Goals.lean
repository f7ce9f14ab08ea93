import GoblinZomboid.Server.FoodCycle
/-!
# `GoblinGoals.lua`: standing goals

An owner's goals are records in the owner's persistent store. A brain tick
starts the step of the best one that is ready, and the result of the job
decides what becomes of it.
-/

namespace GoblinZomboid

namespace Goals

/-! ## Templates and policy -/

namespace Kind

/-- The key of a kind. -/
def name : Kind → String
  | secureBase => "SECURE_BASE"
  | organizeBase => "ORGANIZE_BASE"
  | repairBase => "REPAIR_BASE"
  | vehicleReady => "VEHICLE_READY"
  | stockNails => "STOCK_NAILS"
  | restockFood => "RESTOCK_FOOD"

def bytes (k : Kind) : Bytes := Bytes.lit k.name

/-- `template.steps`. -/
def steps : Kind → List Task
  | secureBase => [.inspectBase, .maintainBase, .closeCurtains]
  | organizeBase => [.deliver, .sortStorage]
  | repairBase => [.repairStructure]
  | vehicleReady => [.vehicleInspect, .vehicleService]
  | stockNails => [.stockpile]
  | restockFood => [.forage]

/-- `template.priority`. -/
def priority : Kind → ℕ
  | secureBase => 4
  | organizeBase => 2
  | repairBase => 3
  | vehicleReady => 2
  | stockNails => 1
  | restockFood => 0

/-- The keys of `Goals.TEMPLATES`. -/
def all : List Kind :=
  [secureBase, organizeBase, repairBase, vehicleReady, stockNails, restockFood]

end Kind

/-- `Goals.ALIASES`. -/
def aliases : List (String × Kind) :=
  [("SECURE", .secureBase), ("ORGANIZE", .organizeBase), ("SORT", .organizeBase),
    ("REPAIR", .repairBase), ("VEHICLE", .vehicleReady), ("CAR", .vehicleReady),
    ("NAILS", .stockNails), ("FOOD", .restockFood)]

/-- `Goals.normalize`. -/
def normalize (name : Bytes) : Option Kind :=
  let key := Bytes.upper (name.filter fun b => Bytes.isAlpha b || b = 95)
  match aliases.find? fun e => Bytes.lit e.1 = key with
  | some e => some e.2
  | none => Kind.all.find? fun k => k.bytes = key

/-- What a result code means for the goal. -/
inductive Policy
  | advance | skip | retry | retryLong | resume | fail
  deriving DecidableEq

/-- `POLICY`; a code that is not listed fails the goal. -/
def policyTable : List (String × Policy) :=
  [("COMPLETE", .advance), ("NO_TARGET", .advance), ("MISSING_MATERIAL", .retryLong),
    ("WAITING_FOR_MATERIAL", .retryLong), ("NO_PATH", .retry), ("BLOCKED", .retry),
    ("TARGET_UNLOADED", .retry), ("TIMEOUT", .retry), ("LOCKED", .skip), ("UNSUPPORTED", .skip),
    ("PERMISSION_DENIED", .fail), ("INTERRUPTED", .resume), ("TARGET_CHANGED", .fail),
    ("ENGINE_ERROR", .fail)]

def noTargetPrepare : Bytes := Bytes.lit "NO_TARGET_PREPARE"

/-- The policy for a code, a refused preparation being nothing to do once
and a block after that. -/
def policy (code : Bytes) (attempts : ℕ) : Policy :=
  if code = noTargetPrepare then if 1 ≤ attempts then .retry else .advance
  else
    match policyTable.find? fun e => Bytes.lit e.1 = code with
    | some e => e.2
    | none => .fail

def maxGoals : ℕ := 8

def maxAttempts : ℕ := 3

def retryMs : ℕ := 120000

def retryLongMs : ℕ := 600000

/-! ## The registry of one owner -/

/-- An owner's registry and the body that works for it: the task, the goal
id of its payload, `GoblinGoalActive`. `nextUid` numbers the tables, and
`selected` lists what `select` has returned. -/
structure World where
  goals : List Goal
  nextUid : ℕ
  task : Task
  payloadGoal : Option Bytes
  active : Option Bytes
  selected : List Goal

/-- A new owner and a companion that follows. -/
def World.start : World := ⟨[], 0, .follow, none, none, []⟩

/-- The table `uid`, changed. -/
def update (goals : List Goal) (uid : ℕ) (f : Goal → Goal) : List Goal :=
  goals.map fun g => if g.uid = uid then f g else g

namespace World

def update (w : World) (uid : ℕ) (f : Goal → Goal) : World :=
  { w with goals := Goals.update w.goals uid f }

/-- `setTask(body, "FOLLOW", ...)`: the order and its payload are replaced
before anything can refuse. -/
def follow (w : World) : World := { w with task := .follow, payloadGoal := none }

end World

/-! ## Adding and cancelling -/

/-- `id = kind..":"..tostring(now)`. -/
def goalId (k : Kind) (now : ℕ) : Bytes := k.bytes ++ Bytes.lit ":" ++ Bytes.decimal now

/-- The record `Goals.add` appends. -/
def newGoal (uid : ℕ) (k : Kind) (intervalMs now : ℕ) : Goal where
  uid := uid
  id := goalId k now
  kind := k
  priority := k.priority
  state := .pending
  step := 1
  steps := k.steps.map fun t => ⟨t, 0⟩
  nextAt := 0
  intervalMs := intervalMs
  createdAt := now
  runs := 0
  food := none
  lastCode := none

/-- The first record `Goals.add` finds in its way: a goal of the kind that
is not finished, or the food goal in any state. -/
def inTheWay (k : Kind) (goals : List Goal) : Option Goal :=
  goals.find? fun g => g.kind = k && (!g.finished || k = .restockFood)

/-- The food goal, re-enabled. -/
def reenable (g : Goal) (intervalMs : ℕ) : Goal :=
  { g with
    state := .pending
    step := 1
    nextAt := 0
    steps := [⟨.forage, 0⟩]
    food := some {}
    intervalMs := intervalMs }

/-- A goal that is already there: only its interval changes. -/
def repeatUpdated (g : Goal) (intervalMs : ℕ) : Goal :=
  { g with
    intervalMs := intervalMs
    food := if g.kind = .restockFood then some { FoodCycle.foodOf g with automatic := false }
      else g.food }

/-- The interval as milliseconds, if it is one `Goals.add` accepts. -/
def intervalOf (minutes : ℚ) : Option ℕ :=
  if minutes.den ≠ 1 || minutes < 0 || 1440 < minutes || (0 < minutes && minutes < 10) then none
  else some (minutes.num.toNat * 60000)

/-- The records a full registry keeps. -/
def room (goals : List Goal) : List Goal :=
  if maxGoals ≤ goals.length then goals.filter fun g => !g.finished else goals

/-- `Goals.add`: the answer, its text, and the registry. -/
def add (w : World) (name : Bytes) (minutes : ℚ) (now : ℕ) : Bool × Bytes × World :=
  match normalize name with
  | none =>
    (false, Bytes.lit "unknown goal; use secure, organize, repair, vehicle, nails or food", w)
  | some k =>
    match intervalOf minutes with
    | none => (false, Bytes.lit "repeat interval must be 10-1440 minutes", w)
    | some interval =>
      match inTheWay k w.goals with
      | some g =>
        if g.finished then
          (true, Bytes.lit "food goal re-enabled", w.update g.uid fun g => reenable g interval)
        else
          (true, k.bytes ++ Bytes.lit " goal already active; repeat updated",
            w.update g.uid fun g => repeatUpdated g interval)
      | none =>
        if maxGoals ≤ (room w.goals).length then
          (false, Bytes.lit "goal limit reached; cancel one first", w)
        else
          (true, Bytes.lit "goal " ++ k.bytes ++ Bytes.lit " recorded" ++
              if interval = 0 then [] else
                Bytes.lit " (every " ++ Bytes.decimal (interval / 60000) ++ Bytes.lit " min)",
            { w with
              goals := room w.goals ++ [newGoal w.nextUid k interval now]
              nextUid := w.nextUid + 1 })

/-- The kind `Goals.cancel` is about: all of them for `ALL` and for a name
that is none. -/
def cancelKind (name : Bytes) : Option Kind :=
  if Bytes.upper name = Bytes.lit "ALL" then none else normalize name

/-- Whether a cancellation is about the kind. -/
def covers (scope : Option Kind) (k : Kind) : Bool := scope.all fun s => k = s

/-- A record under `Goals.cancel`. -/
def cancelled (scope : Option Kind) (g : Goal) : Goal :=
  if covers scope g.kind && !g.finished then { g with state := .cancelled } else g

/-- `Goals.cancel`. -/
def cancel (w : World) (name : Bytes) : World :=
  { w with goals := w.goals.map (cancelled (cancelKind name)) }

/-! ## Selecting -/

/-- A finished maintenance goal whose time has come starts again. -/
def rearm (now : ℕ) (g : Goal) : Goal :=
  if g.state = .done && 0 < g.intervalMs && g.nextAt ≤ now then
    { g with
      state := .pending
      step := 1
      food := if g.kind = .restockFood then some {} else g.food
      steps := g.steps.map fun s => { s with attempts := 0 } }
  else g

def ready (now : ℕ) (g : Goal) : Bool :=
  (g.state = .pending || g.state = .waiting) && g.nextAt ≤ now

/-- The better of the best so far and the next one that is ready. -/
def better (best : Option Goal) (g : Goal) : Option Goal :=
  match best with
  | none => some g
  | some b =>
    if b.priority < g.priority || (g.priority = b.priority && g.createdAt < b.createdAt) then some g
    else some b

/-- What `Goals.select` returns. -/
def best (goals : List Goal) (now : ℕ) : Option Goal :=
  (goals.filter (ready now)).foldl better none

/-- `Goals.select`. -/
def select (w : World) (now : ℕ) : Option Goal × World :=
  let goals := w.goals.map (rearm now)
  let b := best goals now
  (b, { w with goals := goals, selected := w.selected ++ b.toList })

/-! ## Results -/

/-- A goal under the policy for a result code. -/
def follow (g : Goal) (step : Step) (r : JobResult) (now : ℕ) : Goal :=
  let g := { g with lastCode := some r.code }
  match policy r.code step.attempts with
  | .advance | .skip =>
    let g := { g with step := g.step + 1, state := .pending, nextAt := now }
    if g.current = none then
      { g with
        runs := g.runs + 1
        state := .done
        nextAt := if 0 < g.intervalMs then now + g.intervalMs else 0 }
    else g
  | .resume =>
    { g.mapCurrent fun s => { s with attempts := s.attempts - 1 } with
      state := .waiting, nextAt := now + 5000 }
  | .retry =>
    if maxAttempts ≤ step.attempts then { g with state := .failed }
    else { g with state := .waiting, nextAt := now + retryMs }
  | .retryLong =>
    if maxAttempts ≤ step.attempts then { g with state := .failed }
    else { g with state := .waiting, nextAt := now + retryLongMs }
  | .fail => { g with state := .failed }

/-- The record a result changes: the last with the id, if it is not
cancelled and its current step has the task. -/
def resultGoal (goals : List Goal) (id : Bytes) (task : Task) : Option (Goal × Step) :=
  match goals.reverse.find? fun g => g.id = id with
  | none => none
  | some g =>
    if g.state = .cancelled then none
    else
      match g.current with
      | some step => if step.task = task then some (g, step) else none
      | none => none

/-- `Goals.onResult`. -/
def onResult (w : World) (task : Task) (r : JobResult) (now : ℕ) (goalId : Option Bytes)
    (larder : FoodCycle.Larder) : World :=
  match goalId <|> w.active with
  | none => w
  | some id =>
    let w := { w with active := if w.active = some id then none else w.active }
    match resultGoal w.goals id task with
    | none => w
    | some (g, step) =>
      w.update g.uid fun g =>
        if g.kind = .restockFood then FoodCycle.onResult g task r larder now
        else follow g step r now

/-! ## The tick -/

/-- What `Autonomy` knows of the owner; `foodEnabled` is `nil` where a
setting is. -/
structure Context where
  idle : Bool
  recalled : Bool
  threat : Bool
  foodEnabled : Option Bool

/-- The automatic food goal, with food survival switched off. -/
def foodOff (g : Goal) (ctx : Context) : Bool :=
  g.kind = .restockFood && (FoodCycle.foodOf g).automatic && ctx.foodEnabled = some false

/-- A running step, interrupted. -/
def interrupt (g : Goal) (ctx : Context) (now : ℕ) : Goal :=
  { g.mapCurrent fun s => { s with attempts := s.attempts - 1 } with
    state := .waiting
    nextAt := now + 5000
    lastCode := some (Bytes.lit
      (if ctx.threat then "INTERRUPTED_COMBAT" else "INTERRUPTED_RECALL")) }

/-- `Goals.tick` while a step runs. -/
def tickActive (w : World) (id : Bytes) (ctx : Context) (now : ℕ) : World :=
  match w.goals.find? fun g => g.id = id && g.state = .active with
  | none =>
    -- Cancelled: the live job is stopped too.
    let w' := { w with active := none }
    if w.payloadGoal = some id then w'.follow else w'
  | some g =>
    if w.payloadGoal ≠ some id then
      { w.update g.uid fun g => { g with state := .waiting, nextAt := now } with active := none }
    else
      let higher := if g.kind = .restockFood then select w now else (none, w)
      let ownerPriority := higher.1.any fun h => g.priority < h.priority
      if ctx.threat || ctx.recalled || foodOff g ctx || ownerPriority ||
          (g.kind = .restockFood && !ctx.idle) then
        ({ higher.2.update g.uid fun g => interrupt g ctx now with active := none }).follow
      else higher.2

/-- An `ACTIVE` record without a live job, reconciled. -/
def reconcile (now : ℕ) (g : Goal) : Goal :=
  if g.state = .active then { g with state := .waiting, nextAt := now } else g

/-- A step about to start: `setTask` decides. -/
def start (w : World) (g : Goal) (task : Task) (accepted : Bool) (now : ℕ)
    (larder : FoodCycle.Larder) : World :=
  if accepted then
    { w.update g.uid fun g => { g.mapCurrent fun s => { s with attempts := s.attempts + 1 } with
        state := .active } with
      task := task
      payloadGoal := some g.id
      active := some g.id }
  else onResult w task ⟨false, noTargetPrepare⟩ now (some g.id) larder

/-- `Goals.tick` while no step runs. -/
def tickIdle (w : World) (ctx : Context) (accepted : Bool) (now : ℕ)
    (larder : FoodCycle.Larder) : World :=
  if !ctx.idle || ctx.threat || w.task ≠ .follow then w
  else
    match select { w with goals := w.goals.map (reconcile now) } now with
    | (none, w) => w
    | (some g, w) =>
      if foodOff g ctx then w
      else
        match g.current with
        | none => w.update g.uid fun g => { g with state := .done }
        | some step =>
          if g.kind = .restockFood then
            let plan := FoodCycle.next g larder now
            let w := w.update g.uid fun _ => plan.1
            match plan.2 with
            | none => w
            | some task =>
              start (w.update g.uid fun g => g.mapCurrent fun s => { s with task := task }) g task
                accepted now larder
          else start w g step.task accepted now larder

/-- `Goals.tick`; `accepted` is what `setTask` answers. -/
def tick (w : World) (ctx : Context) (accepted : Bool) (now : ℕ) (larder : FoodCycle.Larder) :
    World :=
  match w.active with
  | some id => tickActive w id ctx now
  | none => tickIdle w ctx accepted now larder

/-- `Goals.restoreActive`. -/
def restoreActive (w : World) : World :=
  match w.active, w.payloadGoal with
  | none, some id =>
    if w.goals.any fun g => g.id = id && g.current.any (·.task = w.task) &&
        (g.state = .active || g.state = .cancelled) then { w with active := some id }
    else w
  | _, _ => w

/-! ## The automatic food goal -/

/-- Whether the storage is known and not short. -/
def stocked : FoodCycle.Scan → Bool
  | .unknown reason => reason ≠ FoodCycle.noFoodStorage
  | .known shortage _ => shortage = 0

/-- `Goals.ensureFood`; `near` tells whether the body stands at its base. -/
def ensureFood (w : World) (near : Bool) (scan : FoodCycle.Scan) (now : ℕ) : World :=
  let automatic (food : Food) : Option Food := some { food with automatic := true }
  if !near then w
  else
    match w.goals.find? fun g => g.kind = .restockFood with
    | some g =>
      if g.state = .cancelled || !g.finished || now < g.nextAt || stocked scan then w
      else
        w.update g.uid fun g => { g with state := .pending, food := automatic {}, nextAt := now }
    | none =>
      if stocked scan then w
      else
        let added := add w (Bytes.lit "food") 0 now
        if added.1 then
          { added.2.2 with goals := added.2.2.goals.map fun g =>
              if g.kind = .restockFood && g.state = .pending then { g with food := automatic {} }
              else g }
        else added.2.2

/-! ## The system -/

/-- What happens to a registry and the body that works for it. -/
inductive Op
  | add (name : Bytes) (minutes : ℚ) (now : ℕ)
  | cancel (name : Bytes)
  | ensureFood (near : Bool) (scan : FoodCycle.Scan) (now : ℕ)
  | tick (ctx : Context) (accepted : Bool) (now : ℕ) (larder : FoodCycle.Larder)
  /-- The job the body is on has ended; `next` is the order that follows. -/
  | jobDone (r : JobResult) (now : ℕ) (larder : FoodCycle.Larder) (returning : Bool)
  /-- Another order is put in place: the owner's, or the brain's own. -/
  | order (task : Task)
  | restoreActive
  /-- The body is lost, and with it `GoblinGoalActive`. -/
  | respawn

/-- The end of a job in `Brain.update`. Cargo of a job that is no goal's is
carried to the base first, where that order is accepted. -/
def jobDone (w : World) (r : JobResult) (now : ℕ) (larder : FoodCycle.Larder) (returning : Bool) :
    World :=
  if Jobs.handles w.task then
    let w' := onResult w w.task r now w.payloadGoal larder
    if w.payloadGoal = none && r.success && returning then
      { w' with task := .returnToBase, payloadGoal := none }
    else w'.follow
  else w

/-- One step. -/
def step (w : World) : Op → World
  | .add name minutes now => (add w name minutes now).2.2
  | .cancel name => cancel w name
  | .ensureFood near scan now => ensureFood w near scan now
  | .tick ctx accepted now larder => tick w ctx accepted now larder
  | .jobDone r now larder returning => jobDone w r now larder returning
  | .order task => { w with task := task, payloadGoal := none }
  | .restoreActive => restoreActive w
  | .respawn => { w with active := none }

end Goals

end GoblinZomboid
