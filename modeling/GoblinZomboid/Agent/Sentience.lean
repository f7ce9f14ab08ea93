import GoblinZomboid.Lib.Attempt
import GoblinZomboid.Agent.Episodes
import GoblinZomboid.Agent.Self
import Mathlib.Algebra.Order.Floor.Ring
import Mathlib.Data.Rat.Floor
/-!
# `sentience.py`: the rules that move a self

What the game reports, what the owner says, how jobs end and what the model
makes of it all move a companion's self. A companion's state is its own:
every method works on one companion and on the table of memories. Each
reading of the clock is a turn; an error leaves what was done until then.
-/

namespace GoblinZomboid

namespace Sentience

/-! ## Tables -/

/-- `PLAN_INTENTS`. -/
def planIntents : List PyStr :=
  ["SECURE_BASE", "INSPECT_BASE", "MAINTAIN_BASE", "REPAIR_STRUCTURE", "CLOSE_CURTAINS",
    "SORT_STORAGE", "STOCKPILE", "FETCH_ITEM", "DELIVER", "DISMANTLE", "LOOT_AREA",
    "RETURN_TO_BASE", "TREAT_PLAYER", "CHOP_WOOD", "FORAGE", "CHECK_TRAPS", "COOK",
    "RESTORE_POWER", "FARM", "CRAFT", "VEHICLE_INSPECT", "VEHICLE_SERVICE", "REFUEL_VEHICLE",
    "REPAIR_VEHICLE", "CHANGE_TIRE", "FOLLOW", "SAY"].map PyStr.lit

/-- `JOB_ALIASES.get(intent, intent)`. -/
def jobAlias (intent : PyStr) : PyStr :=
  if intent = PyStr.lit "FORTIFY" || intent = PyStr.lit "FORTIFY_BASE" then PyStr.lit "SECURE_BASE"
  else if intent = PyStr.lit "LOOT" then PyStr.lit "LOOT_AREA"
  else intent

/-- `ONE_SHOT_CHORES`. -/
def oneShotChores : List PyStr :=
  ["SECURE_BASE", "CLOSE_CURTAINS", "RESTORE_POWER", "INSPECT_BASE", "MAINTAIN_BASE",
    "SORT_STORAGE", "VEHICLE_SERVICE", "VEHICLE_INSPECT", "REFUEL_VEHICLE", "REPAIR_STRUCTURE",
    "STOCKPILE", "DELIVER", "CHECK_TRAPS"].map PyStr.lit

def failedCooldown : ℚ := 600

def doneCooldown : ℚ := 900

/-- `DECISIONS`. -/
inductive Decision
  | continue
  | new
  | interrupt
  | complete
  | abandon
  deriving DecidableEq

def Decision.name : Decision → PyStr
  | .continue => PyStr.lit "continue"
  | .new => PyStr.lit "new"
  | .interrupt => PyStr.lit "interrupt"
  | .complete => PyStr.lit "complete"
  | .abandon => PyStr.lit "abandon"

/-- An importance and an emotional valence. -/
abbrev Weight := ℚ × ℚ

/-- `EVENT_WEIGHTS`. -/
def eventWeights : List (String × Weight) :=
  [("owner_bitten", (1, -1)), ("owner_hurt", (0.85, -0.7)), ("horde", (0.85, -0.6)),
    ("base_attacked", (0.8, -0.6)), ("threat_rising", (0.6, -0.3)), ("job_failed", (0.55, -0.3)),
    ("owner_insulted", (0.55, -0.5)), ("owner_praised", (0.5, 0.6)), ("goblin_met", (0.5, 0.2)),
    ("night_approaching", (0.55, -0.1)), ("owner_left_base", (0.5, 0)),
    ("food_low", (0.55, -0.3)), ("survival", (0.6, 0)), ("vehicle_low", (0.4, -0.1)),
    ("power_down", (0.6, -0.4)), ("power_restored", (0.4, 0.5)), ("crops_thirsty", (0.45, -0.2)),
    ("crops_ready", (0.45, 0.4)), ("new_place", (0.35, 0.1)), ("job", (0.3, 0.2)),
    ("job_complete", (0.3, 0.3)), ("kills", (0.35, 0.3)), ("chat", (0.3, 0)),
    ("thought", (0.25, 0)), ("choice", (0.2, 0)), ("met", (0.5, 0.2))]

/-- `EVENT_WEIGHTS.get(kind, (0.3, 0.0))`. -/
def weightOf (kind : PyStr) : Weight :=
  ((eventWeights.map fun e => (PyStr.lit e.1, e.2)).lookup kind).getD (0.3, 0)

def jobComplete : Weight := weightOf (PyStr.lit "job_complete")

def jobFailed : Weight := weightOf (PyStr.lit "job_failed")

/-- `"COMPLETE" in text.upper()`. -/
def spellsComplete (u : Unicode) (text : PyStr) : Bool :=
  PyStr.contains (PyStr.upper u text) (PyStr.lit "COMPLETE")

/-- `event_weight`. -/
def eventWeight (u : Unicode) (kind text : PyStr) : Weight :=
  if kind = PyStr.lit "job" then if spellsComplete u text then jobComplete else jobFailed
  else weightOf kind

/-- `_text`: a string with its blanks squeezed, cut to a length; none for one
that is blank. -/
def text? (v : PyData) (limit : ℕ) : Option PyStr :=
  match v with
  | .str t =>
    let squeezed := (PyStr.lit " ").intercalate (PyStr.split t)
    if squeezed.isEmpty then none else some (squeezed.take limit)
  | _ => none

/-! ## The state of a companion -/

/-- An event of the inbox. -/
structure Event where
  kind : PyStr
  text : PyStr
  importance : ℚ
  valence : ℚ

/-- What `_snapshot` makes of a situation report. -/
structure Snapshot where
  day : Option ℤ
  period : PyData
  room : Option PyStr
  threat : PyData
  baseDistance : PyData
  ownerBitten : ℤ
  goblins : List PyStr
  foodShort : Bool
  vehicle : PyStr
  power : PyData
  thirsty : ℤ
  ripe : ℤ

/-- What he recently tried. -/
structure JobEntry where
  time : PyTime
  ok : Bool
  detail : PyStr

/-- How the plan of a goal got past a step. -/
inductive Pass
  /-- In `step_result`, called for this intent with this success. -/
  | result (intent : PyStr) (success : Bool)
  | cooling
  deriving DecidableEq

/-- What became of goals, in order. Nothing reads it. -/
inductive Happening
  | adopted (goal : Goal) (plan : List PlanStep)
  | passed (ref index : ℕ) (how : Pass)
  /-- The goal is recorded as finished, or as given up. -/
  | ended (ref : ℕ) (finished : Bool)
  deriving DecidableEq

/-- What the dictionaries of `Sentience`, and the table `self_state`, hold of a
companion. `made` counts its goal objects. -/
structure Companion where
  self : Option Self
  inbox : List Event
  lastSeen : Option Snapshot
  recentJobs : List (PyStr × JobEntry)
  row : Option PyText
  made : ℕ
  told : List Happening

/-- A companion of whom nothing is known. -/
def Companion.unknown : Companion := ⟨none, [], none, [], none, 0, []⟩

/-- The current goal. -/
def Companion.goal (me : Companion) : Option Goal := me.self.bind Self.currentGoal

/-- Where the self is there, a change of it. -/
def Companion.on (me : Companion) (f : Self → Self) : Companion := { me with self := me.self.map f }

/-- Where there is a current goal, what became of it. -/
def Companion.tell (me : Companion) (what : Goal → List Happening) : Companion :=
  { me with told := me.told ++ (me.goal.map what).getD [] }

/-- What a method works on. -/
structure Scene where
  npcId : PyStr
  me : Companion
  episodes : Mind.Episodes

abbrev Act (α : Type) : Type := Attempt Scene PyTime Unit α

/-- `self.clock()`. -/
def clock : Act PyTime := Attempt.call fun t s => (some (.ok t), s)

/-- A change of what is known of the companion. -/
def onMe (f : Companion → Companion) : Act Unit :=
  Attempt.modify fun s => { s with me := f s.me }

def update (f : Self → Self) : Act Unit := onMe fun me => me.on f

variable (lower : PyStr → PyStr)

/-- `int(self.clock())`. -/
def PyTime.seconds (t : PyTime) : ℕ := ⌊t.value⌋.toNat

/-- `self.mind.record` of a memory with this importance and valence. -/
def record (kind text : PyStr) (day : Option ℤ) (weight : Weight) (place : Option PyStr)
    (entities : List PyStr) : Act Unit := do
  let now ← clock
  Attempt.state fun s =>
    match Mind.Episodes.record lower s.episodes
        ⟨now.seconds, s.npcId, kind, text, day, .finite weight.1, .finite weight.2, place,
          entities⟩ with
    | some db => (.ok (), { s with episodes := db })
    | none => (.error (), s)

/-- `mind.load_self`. -/
def loadSelf : Act (Option Self) :=
  Attempt.state fun s =>
    match PyStr.encode s.npcId with
    | none => (.error (), s)
    | some _ =>
      (.ok (s.me.row.bind fun row =>
        (PyJson.loads row).bind fun v => Self.ofData s.me.made (PyData.ofValue v)),
        { s with me := { s.me with made := s.me.made + 2 } })

/-- A name is taken over where there is one. -/
def orElse (given old : Option PyStr) : Option PyStr :=
  if (given.getD []).isEmpty then old else given

/-- The self that is there, or was stored, or a new one. -/
def selfOf (name owner : Option PyStr) : Act Self := do
  let s ← Attempt.get
  match s.me.self with
  | some state => pure state
  | none => do
    let loaded ← loadSelf
    pure (loaded.getD (newSelf s.npcId name owner))

/-- `get`. -/
def get (name owner : Option PyStr) : Act Self := do
  let state ← selfOf name owner
  let state := { state with name := orElse name state.name, owner := orElse owner state.owner }
  onMe fun me => { me with self := some state }
  pure state

/-- The text `save_self` writes, and none where `json.dumps` or the table
refuses it. -/
def savedText (state : Self) : Option PyText :=
  if state.data.writable then PyStr.encode (state.data.json.take 16000) else none

/-- `save`, with `mind.save_self`. -/
def save : Act Unit :=
  Attempt.state fun s =>
    match s.me.self with
    | none => (.ok (), s)
    | some state =>
      match savedText state, PyStr.encode s.npcId with
      | some text, some _ => (.ok (), { s with me := { s.me with row := some text } })
      | _, _ => (.error (), s)

/-- `_day`. -/
def day (s : Scene) : Option ℤ := s.me.lastSeen.bind Snapshot.day

/-- `current_step`. -/
def Self.step (state : Self) : Option PlanStep := state.plan[state.currentStep]?

/-! ## Perception -/

/-- The words for a threat, in order. -/
def threats : List String := ["clear", "distant", "a few", "several", "horde"]

/-- `order.index(v)`, for a value that is in the order. -/
def threatIndex (v : PyData) : Option ℕ :=
  match v with
  | .str t => threats.findIdx? fun w => PyStr.lit w = t
  | _ => none

/-- The value is one of these strings. -/
def isAmong (v : PyData) (words : List String) : Bool :=
  match v with
  | .str t => words.any fun w => PyStr.lit w = t
  | _ => false

/-- A whole number as text. -/
def showInt (n : ℤ) : PyStr := PyStr.lit (toString n)

/-- `_changes`: the kinds and texts of the events between two snapshots. The
goblins that were met come in no particular order in the source. -/
def changes (before now : Snapshot) : List (PyStr × PyStr) :=
  let add (c : Bool) (kind : String) (text : PyStr) : List (PyStr × PyStr) :=
    if c then [(PyStr.lit kind, text)] else []
  let rising := match threatIndex now.threat, threatIndex before.threat with
    | some i, some j => decide (3 ≤ i ∧ j < 3) && !isAmong now.threat ["horde"]
    | _, _ => false
  let threat := match now.threat with
    | .str t => t
    | _ => []
  let room := now.room.getD []
  let met := now.goblins.dedup.filter fun g => decide (g ∉ before.goblins)
  let away := match now.baseDistance with
    | .none => false
    | _ => !isAmong now.baseDistance ["at base"]
  let low := ["fuel 0", "fuel 1", "low tire"].any fun w =>
    PyStr.contains now.vehicle (PyStr.lit w)
  add (before.ownerBitten < now.ownerBitten) "owner_bitten" (PyStr.lit "my comrade got bitten") ++
  add rising "threat_rising" (PyStr.lit "zombies gathering (" ++ threat ++ PyStr.lit ")") ++
  add (isAmong now.period ["evening"] && isAmong before.period ["afternoon", "morning"])
    "night_approaching" (PyStr.lit "the light is going; night is coming") ++
  add (isAmong before.baseDistance ["at base"] && away) "owner_left_base"
    (PyStr.lit "we left the base") ++
  add (!room.isEmpty && decide (now.room ≠ before.room)) "new_place"
    (PyStr.lit "we went into the " ++ room) ++
  met.map (fun g => (PyStr.lit "goblin_met", PyStr.lit "ran into " ++ g)) ++
  add (isAmong now.power ["none", "generator_down"] && isAmong before.power ["grid", "generator"])
    "power_down" (PyStr.lit "the power at home went out") ++
  add (isAmong now.power ["generator"] && isAmong before.power ["none", "generator_down"])
    "power_restored" (PyStr.lit "the lights are back on at home") ++
  add (0 < now.thirsty && before.thirsty = 0) "crops_thirsty"
    (showInt now.thirsty ++ PyStr.lit " crop(s) at home need water") ++
  add (0 < now.ripe && before.ripe = 0) "crops_ready"
    (showInt now.ripe ++ PyStr.lit " crop(s) at home are ready to pick") ++
  add (now.foodShort && !before.foodShort) "food_low"
    (PyStr.lit "the base is running short of food") ++
  add (!now.vehicle.isEmpty && decide (now.vehicle ≠ before.vehicle) && low) "vehicle_low"
    (PyStr.lit "the car looks rough: " ++ now.vehicle.take 80)

/-- `mind.nudge_opinion`: what it is about must encode. The opinion itself is
left out. -/
def nudgeOpinion (subject : PyStr) : Act Unit :=
  Attempt.state fun s =>
    match PyStr.encode s.npcId, PyStr.encode (lower (subject.take 40)) with
    | some _, some _ => (.ok (), s)
    | _, _ => (.error (), s)

/-- `text.split(" ")[0]`. -/
def firstPart (text : PyStr) : PyStr := text.takeWhile fun c => c != PyChar.char ' '

/-- `_opinion_from_event`. -/
def opinionFromEvent (owner : Option PyStr) (kind text : PyStr) : Act Unit :=
  match owner with
  | none => pure ()
  | some owner =>
    if ["owner_hurt", "owner_bitten", "horde", "owner_praised", "owner_insulted"].any
        fun k => PyStr.lit k = kind then
      nudgeOpinion lower (lower owner)
    else
      let activity := lower (firstPart text)
      Attempt.when ((kind = PyStr.lit "job_complete" || kind = PyStr.lit "job_failed") &&
          !activity.isEmpty)
        (nudgeOpinion lower (PyStr.lit "activity:" ++ activity))

/-- The kind `perceive` gives an event of the game's log. -/
def perceivedKind (u : Unicode) (kind text : PyStr) : PyStr :=
  if kind = PyStr.lit "job" then
    if spellsComplete u text then PyStr.lit "job_complete" else PyStr.lit "job_failed"
  else kind

/-- The body of the loop of `perceive`: an event that is derived is a memory. -/
def storeEvent (owner : Option PyStr) (seen : Snapshot) (derived : Bool) (e : PyStr × PyStr) :
    Act Unit := do
  Attempt.when derived
    (record lower e.1 e.2 seen.day (weightOf e.1) seen.room owner.toList)
  opinionFromEvent lower owner e.1 e.2

/-- The last 12 events. -/
def lastTwelve (events : List Event) : List Event := events.drop (events.length - 12)

/-- `perceive`, of the kinds and texts of the new events of the log, the owner
where it is a string, and the snapshot; none where `_snapshot` raises. -/
def perceive (u : Unicode) (raw : List (PyStr × PyStr)) (owner : Option PyStr)
    (seen : Option Snapshot) : Act Unit := do
  match seen with
  | none => throw ()
  | some seen => do
    let s ← Attempt.get
    let logged := raw.map fun e => (perceivedKind u e.1 e.2, e.2)
    let derived := match s.me.lastSeen with
      | none => []
      | some before => changes before seen
    onMe fun me => { me with lastSeen := some seen }
    Attempt.each (storeEvent lower owner seen false) logged
    Attempt.each (storeEvent lower owner seen true) derived
    let events := (logged ++ derived).map fun e =>
      ⟨e.1, e.2, (weightOf e.1).1, (weightOf e.1).2⟩
    Attempt.when (!events.isEmpty)
      (onMe fun me => { me with inbox := lastTwelve (me.inbox ++ events) })

/-- The event a chat line is, by its category. -/
def socialKind (category : Option PyStr) : Option PyStr :=
  let category := lower (category.getD [])
  if category = PyStr.lit "praise" || category = PyStr.lit "thanks" then
    some (PyStr.lit "owner_praised")
  else if category = PyStr.lit "insult" then some (PyStr.lit "owner_insulted")
  else none

def addToInbox (e : Event) : Act Unit := onMe fun me => { me with inbox := me.inbox ++ [e] }

/-- `social`. -/
def social (owner category : Option PyStr) (text : PyStr) : Act Unit :=
  match socialKind lower category with
  | none => pure ()
  | some kind => do
    let who := if (owner.getD []).isEmpty then PyStr.lit "my comrade" else owner.getD []
    addToInbox ⟨kind, who ++ PyStr.lit " said: " ++ text.take 80, (weightOf kind).1,
      (weightOf kind).2⟩
    opinionFromEvent lower owner kind text

/-! ## Jobs and cooldowns -/

/-- `d[key] = value`. -/
def assign {α : Type} (d : List (PyStr × α)) (key : PyStr) (value : α) : List (PyStr × α) :=
  if d.any fun e => e.1 = key then d.map fun e => if e.1 = key then (key, value) else e
  else d ++ [(key, value)]

/-- `note_job`. -/
def noteJob (intent : PyStr) (success : Bool) (detail : PyStr) : Act Unit := do
  let now ← clock
  let entry : JobEntry := ⟨now, success, detail.take 120⟩
  onMe fun me => { me with recentJobs := assign me.recentJobs (jobAlias intent) entry }

/-- An intent is not to be picked again yet. -/
def JobEntry.cools (now : PyTime) (intent : PyStr) (entry : JobEntry) : Bool :=
  let age := now.value - entry.time.value
  if entry.ok then List.elem intent oneShotChores && decide (age < doneCooldown)
  else decide (age < failedCooldown)

/-- The keys of `cooling`. -/
def cooling : Act (List PyStr) := do
  let now ← clock
  let s ← Attempt.get
  pure ((s.me.recentJobs.filter fun e => e.2.cools now e.1).map Prod.fst)

/-! ## Goals -/

/-- The text `_finish_goal` records. -/
def endText (finished : Bool) (goal : PyStr) : PyStr :=
  (if finished then PyStr.lit "finished" else PyStr.lit "gave up on") ++ PyStr.lit ": " ++ goal

/-- Back to what he was doing before something more urgent came up. -/
def Self.resume (state : Self) : Self :=
  match state.suspendedGoal with
  | some s =>
    { state with
      currentGoal := some s.goal
      plan := s.plan
      currentStep := s.currentStep
      suspendedGoal := none }
  | none => { state with currentGoal := none, plan := [], currentStep := 0 }

/-- Whether a goal whose plan ran out this way counts as finished. -/
def Goal.verified (g : Goal) (complete : Bool) : Bool := complete && !g.unverifiedSteps

/-- The goal ended, and another is taken up again or there is none. -/
def Companion.finish (me : Companion) (complete : Bool) : Companion :=
  (me.tell fun g => [.ended g.ref (g.verified complete)]).on Self.resume

/-- `_finish_goal`, where `complete` is `how == "complete"`. -/
def finishGoal (complete : Bool) : Act Unit := do
  let s ← Attempt.get
  match s.me.goal with
  | none => pure ()
  | some goal =>
    record lower (PyStr.lit "goal") (endText (goal.verified complete) goal.goal) (day s)
      (0.45, if goal.verified complete then 0.4 else -0.2) none []
  onMe fun me => me.finish complete

/-- A step was passed over. -/
def Self.unverify (state : Self) : Self :=
  { state with currentGoal := state.currentGoal.map fun g => { g with unverifiedSteps := true } }

def Self.advance (n : ℕ) (state : Self) : Self :=
  { state with currentStep := state.currentStep + n }

/-- The steps of a plan, from one on, that are walked past. -/
def coolingSteps (cooling : List PyStr) (plan : List PlanStep) (step : ℕ) : ℕ :=
  ((plan.drop step).takeWhile fun s => List.elem s.intent cooling).length

/-- So many steps, from one on, are walked past. -/
def Companion.cool (me : Companion) (step n : ℕ) : Companion :=
  (me.tell fun g => (List.range n).map fun i => .passed g.ref (step + i) .cooling).on
    fun state => state.unverify.advance n

/-- `skip_cooling_steps`. -/
def skipCoolingSteps : Act Unit := do
  let state ← get none none
  let cooling ← cooling
  let moved := coolingSteps cooling state.plan state.currentStep
  Attempt.when (decide (moved ≠ 0)) do
    onMe fun me => me.cool state.currentStep moved
    Attempt.when (decide (state.plan.length ≤ state.currentStep + moved)) (finishGoal lower false)
    save

/-- One more failure of the current step. -/
def Self.countFailure (state : Self) : Self :=
  { state with plan := state.plan.modify state.currentStep fun s =>
      { s with failures := s.failures + 1 } }

/-- The plan gets past a step with a result. -/
def Companion.pass (me : Companion) (step : ℕ) (intent : PyStr) (success : Bool) : Companion :=
  (me.tell fun g => [.passed g.ref step (.result intent success)]).on (Self.advance 1)

/-- `step_result`. -/
def stepResult (intent : PyStr) (success : Bool) : Act Unit := do
  let intent := jobAlias intent
  let state ← get none none
  match state.step with
  | none => pure ()
  | some step =>
    Attempt.when (step.intent = intent) do
      let failures := if success then step.failures else step.failures + 1
      -- Never hammer the same failing step: after two failures skip it.
      let struckOut := !success && decide (2 ≤ failures)
      Attempt.when (!success) (update Self.countFailure)
      Attempt.when struckOut do
        update Self.unverify
        let s ← Attempt.get
        record lower (PyStr.lit "gave_up") (PyStr.lit "gave up on " ++ intent ++ PyStr.lit " for now")
          (day s) (0.35, -0.3) none []
      Attempt.when (success || struckOut) do
        onMe fun me => me.pass state.currentStep intent success
        Attempt.when (decide (state.plan.length ≤ state.currentStep + 1)) (finishGoal lower true)
      Attempt.when (!(success || struckOut) || decide (failures ≠ 0))
        (addToInbox ⟨PyStr.lit "job_failed", intent ++ PyStr.lit " did not work out", jobFailed.1,
          jobFailed.2⟩)
      save

/-! ## Reflection -/

/-- `decision`: `continue` for what is no decision. -/
def decisionOf (v : PyData) : Decision :=
  match v with
  | .str t =>
    ([Decision.continue, .new, .interrupt, .complete, .abandon].find? fun d => d.name = t).getD
      .continue
  | _ => .continue

/-- A step as the model gives it, cleaned; none where it names no known intent. -/
def cleanStep : PyData → Option PlanStep
  | .dict d =>
    match PyData.get d "intent" with
    | .str intent =>
      if List.elem intent planIntents then
        some ⟨intent, (text? (PyData.get d "note") 80).getD [],
          match PyData.get d "job" with
          | .str job => some (job.take 24)
          | _ => none, 0⟩
      else none
    | _ => none
  | _ => none

/-- `_clean_plan`. -/
def cleanPlan : PyData → List PlanStep
  | .list steps => (steps.filterMap cleanStep).take 6
  | _ => []

/-- `isinstance(value, (int, float))`, and `float(value)` where it does not
overflow. -/
def floatOf? : PyData → Option (Option Unit)
  | .bool _ => some (some ())
  | .int n => some (if n.natAbs < PyValue.floatLimit then some () else none)
  | .float _ => some (some ())
  | _ => none

/-- The body of the loop over `opinions`: what it is about and the note must
encode, and the value be no whole number too large for a float. -/
def opinionOf (entry : PyData) : Act Unit :=
  match entry with
  | .dict d =>
    match text? (PyData.get d "subject") 40, text? (PyData.get d "trait") 24,
      floatOf? (PyData.get d "value") with
    | some subject, some trait, some value =>
      Attempt.state fun s =>
        match PyStr.encode s.npcId, PyStr.encode (lower subject), PyStr.encode (lower trait), value,
          Mind.encodeColumn (text? (PyData.get d "note") 120) with
        | some _, some _, some _, some _, some _ => (.ok (), s)
        | _, _, _, _, _ => (.error (), s)
    | _, _, _ => pure ()
  | _ => pure ()

/-- `(output.get("opinions") or [])[:3]`; only a list and a string have a slice,
and the characters of a string are passed over. -/
def opinions (v : PyData) : Act Unit :=
  match v with
  | .list entries => Attempt.each (opinionOf lower) (entries.take 3)
  | .str _ => pure ()
  | v => if v.truthy then throw () else pure ()

/-- The last 8 thoughts. -/
def addThought (thought : PyStr) (state : Self) : Self :=
  let thoughts := state.thoughts ++ [thought]
  { state with thoughts := thoughts.drop (thoughts.length - 8) }

/-- The last 6 expectations. -/
def addExpectation (about expect : PyStr) (state : Self) : Self :=
  let expectations := assign state.expectations about expect
  { state with expectations := expectations.drop (expectations.length - 6) }

/-- What the output expects of what. -/
def expectationOf (output : List (PyStr × PyData)) : Option (PyStr × PyStr) :=
  match PyData.get output "expectation" with
  | .dict d =>
    match text? (PyData.get d "about") 40, text? (PyData.get d "expect") 120 with
    | some about, some expect => some (about, expect)
    | _, _ => none
  | _ => none

/-- The goal he has, to be taken up again, with its plan. -/
def Self.suspend (state : Self) : Self :=
  match state.currentGoal, state.suspendedGoal with
  | some goal, none => { state with suspendedGoal := some ⟨goal, state.plan, state.currentStep⟩ }
  | _, _ => state

/-- A new goal, with its plan. -/
def Self.turnTo (goal : Goal) (plan : List PlanStep) (aside : Bool) (state : Self) : Self :=
  { (if aside then state.suspend else state) with
    currentGoal := some goal
    plan := plan
    currentStep := 0 }

def Companion.adopt (me : Companion) (goal : PyStr) (reason : Option PyStr) (started : PyText)
    (plan : List PlanStep) (aside : Bool) : Companion :=
  ({ me with made := me.made + 1 }.on
    (Self.turnTo ⟨me.made, goal, reason, started, false⟩ plan aside)).tell
    fun g => [.adopted g plan]

/-- A goal is adopted where it has a plan. -/
def adopt (goal : PyStr) (reason : Option PyStr) (now : PyTime) (plan : List PlanStep)
    (aside : Bool) : Act Unit :=
  Attempt.when (!plan.isEmpty) (onMe fun me => me.adopt goal reason now.1 plan aside)

/-- What becomes of the goal by the decision. A claim of completion is not a
physical job result, so `complete` changes nothing. -/
def carryOut (decision : Decision) (goal reason : Option PyStr) (now : PyTime)
    (plan : List PlanStep) (previous : Option Goal) : Act Unit :=
  match decision, goal with
  | .new, some goal => adopt goal reason now plan false
  | .interrupt, some goal => adopt goal reason now plan true
  | .abandon, _ => finishGoal lower false
  | .continue, some goal => Attempt.when previous.isNone (adopt goal reason now plan false)
  | _, _ => pure ()

/-- The importance of the most important event, and the inbox is emptied. -/
def takeInbox : Act ℚ := do
  let s ← Attempt.get
  onMe fun me => { me with inbox := [] }
  pure ((s.me.inbox.map Event.importance).foldl max 0)

/-- A thought is a memory, as important as what led to it. -/
def remember (top : ℚ) (memory : Option PyStr) : Act Unit :=
  match memory with
  | none => pure ()
  | some memory => do
    let s ← Attempt.get
    record lower (PyStr.lit "thought") memory (day s) (max 0.25 (min 0.8 (top * 0.8)), 0)
      (s.me.lastSeen.bind Snapshot.room) []

/-- `last_reflect_at` is set as the model is asked. -/
def startReflection : Act Unit := do
  let _ ← get none none
  let now ← clock
  update fun s => { s with lastReflectAt := now.1 }

/-- `apply_reflection`. -/
def applyReflection (output : List (PyStr × PyData)) : Act (Decision × ℚ × Option PyStr) := do
  let _ ← get none none
  let now ← clock
  update fun s => { s with lastReflectAt := now.1, reflections := s.reflections + 1 }
  let top ← takeInbox
  let mood := text? (PyData.get output "mood") 60
  update fun s => { s with mood := mood.getD s.mood }
  let thought := text? (PyData.get output "thought") 200
  update fun s => match thought with
    | some t => addThought t s
    | none => s
  update fun s => match expectationOf output with
    | some (about, expect) => addExpectation about expect s
    | none => s
  opinions lower (PyData.get output "opinions")
  let decision := decisionOf (PyData.get output "decision")
  let cooling ← cooling
  let plan := (cleanPlan (PyData.get output "plan")).filter fun s => !List.elem s.intent cooling
  let goal := text? (PyData.get output "goal") 100
  let reason := text? (PyData.get output "reason") 160
  let s ← Attempt.get
  carryOut lower decision goal reason now plan s.me.goal
  remember lower top (thought.or (goal.map fun g => PyStr.lit "I decided: " ++ g))
  save
  pure (decision, top, text? (PyData.get output "say") 200)

/-! ## Runs -/

/-- A call of a method. -/
inductive Op
  /-- `get`, as `_observe` calls it. -/
  | meet (name owner : Option PyStr)
  | perceive (raw : List (PyStr × PyStr)) (owner : Option PyStr) (seen : Option Snapshot)
  | social (owner category : Option PyStr) (text : PyStr)
  | noteJob (intent : PyStr) (success : Bool) (detail : PyStr)
  | stepResult (intent : PyStr) (success : Bool)
  | skipCoolingSteps
  | startReflection
  | applyReflection (output : List (PyStr × PyData))

/-- A call for a companion, and what the clock shows each time it is read. -/
structure Call where
  npcId : PyStr
  op : Op
  times : Turns PyTime

variable (u : Unicode)

/-- What is called. -/
def act : Op → Act Unit
  | .meet name owner => do
    let _ ← get name owner
  | .perceive raw owner seen => perceive lower u raw owner seen
  | .social owner category text => social lower owner category text
  | .noteJob intent success detail => noteJob intent success detail
  | .stepResult intent success => stepResult lower intent success
  | .skipCoolingSteps => skipCoolingSteps lower
  | .startReflection => startReflection
  | .applyReflection output => do
    let _ ← applyReflection lower output

end Sentience

/-- The agent's companions, and the table of memories. -/
structure Sentience where
  companions : PyStr → Sentience.Companion
  episodes : Mind.Episodes

namespace Sentience

/-- Nothing has been seen yet, and nothing was ever stored. -/
def fresh : Sentience := ⟨fun _ => Companion.unknown, ⟨[], 0⟩⟩

variable (lower : PyStr → PyStr) (u : Unicode)

/-- A call works on its companion. -/
def step (s : Sentience) (c : Call) : Sentience :=
  let scene := ((act lower u c.op).run ⟨c.npcId, s.companions c.npcId, s.episodes⟩ c.times).2
  ⟨Function.update s.companions c.npcId scene.me, scene.episodes⟩

end Sentience

end GoblinZomboid
