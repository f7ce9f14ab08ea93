import GoblinZomboid.Agent.Sentience
import GoblinZomboid.Lib.Run
/-!
# What a call can do to a self

A fact about a companion that survives each way its state can move survives
every call, whether it ends or raises. The ways are few: small changes that
leave goals alone, and for goals the ones a plan has.
-/

namespace GoblinZomboid

namespace Sentience

/-! ## The parts of a method -/

/-- The method works on this companion, of which a fact holds. -/
def On (npcId : PyStr) (p : Companion → Prop) (s : Scene) : Prop := s.npcId = npcId ∧ p s.me

/-- The method works on this companion, in this state. -/
def Here (npcId : PyStr) (me : Companion) : Scene → Prop := On npcId fun m => m = me

/-- A fact holds of the companion, and its self is this one. -/
def Having (npcId : PyStr) (p : Companion → Prop) (st : Self) : Scene → Prop :=
  On npcId fun m => p m ∧ m.self = some st

variable {npcId : PyStr} {p : Companion → Prop} {me : Companion}
variable {lower : PyStr → PyStr} {E : Scene → Prop}

/-- A specification can be shown from one state of the companion at a time. -/
theorem holds_of_here {α : Type} {m : Act α} {Q : α → Scene → Prop}
    (h : ∀ me, p me → Attempt.Holds (Here npcId me) m Q E) :
    Attempt.Holds (On npcId p) m Q E := fun s ts hs => h s.me hs.2 s ts ⟨hs.1, rfl⟩

theorem Here.on {s : Scene} (h : Here npcId me s) (hme : p me) : On npcId p s := ⟨h.1, h.2 ▸ hme⟩

theorem Having.on {s : Scene} {st : Self} (h : Having npcId p st s) : On npcId p s := ⟨h.1, h.2.1⟩

theorem keeps_clock : Attempt.Keeps (On npcId p) clock := Attempt.Keeps.call fun _ _ hs => hs

theorem holds_onMe {f : Companion → Companion} :
    Attempt.Holds (Here npcId me) (onMe f) (fun _ => Here npcId (f me)) E :=
  Attempt.Holds.modify fun _ hs => ⟨hs.1, congrArg f hs.2⟩

theorem keeps_onMe {f : Companion → Companion} (h : ∀ me, p me → p (f me)) :
    Attempt.Keeps (On npcId p) (onMe f) := Attempt.Keeps.modify fun s hs => ⟨hs.1, h s.me hs.2⟩

/-- A step that may fail but leaves the companion as it is. -/
theorem keeps_state {α : Type} {f : Scene → Except Unit α × Scene}
    (h : ∀ s, (f s).2.npcId = s.npcId ∧ (f s).2.me = s.me) :
    Attempt.Keeps (On npcId p) (Attempt.state f : Act α) := by
  refine Attempt.Keeps.state fun s hs => ⟨(h s).1.trans hs.1, ?_⟩
  rw [(h s).2]
  exact hs.2

theorem keeps_nudgeOpinion {subject : PyStr} :
    Attempt.Keeps (On npcId p) (nudgeOpinion lower subject) := by
  refine keeps_state fun s => ?_
  split <;> exact ⟨rfl, rfl⟩

theorem keeps_opinionFromEvent {owner : Option PyStr} {kind text : PyStr} :
    Attempt.Keeps (On npcId p) (opinionFromEvent lower owner kind text) := by
  unfold opinionFromEvent
  split
  · exact .pure ()
  · exact .ite keeps_nudgeOpinion (.when keeps_nudgeOpinion)

theorem keeps_opinionOf {entry : PyData} : Attempt.Keeps (On npcId p) (opinionOf lower entry) := by
  unfold opinionOf
  split
  · split
    · refine keeps_state fun s => ?_
      split <;> exact ⟨rfl, rfl⟩
    · exact .pure ()
  · exact .pure ()

theorem keeps_opinions {v : PyData} : Attempt.Keeps (On npcId p) (opinions lower v) := by
  unfold opinions
  split
  · exact .each (fun _ => keeps_opinionOf) _
  · exact .pure ()
  · exact .ite (Attempt.Holds.throw fun _ hs => hs) (.pure ())

theorem keeps_cooling : Attempt.Keeps (On npcId p) cooling :=
  .bind keeps_clock fun _ => .bind .get fun _ => .pure _

/-- What `record` is given can be bound. -/
def Bindable (npcId kind text : PyStr) (day : Option ℤ) : Prop :=
  (PyStr.encode npcId).isSome ∧ (PyStr.encode (kind.take 32)).isSome ∧
    (PyStr.encode (text.take 240)).isSome ∧ (Mind.bindInt day).isSome

theorem isSome_newRow {c : Mind.RecordCall} {id : ℕ} (h : Bindable c.npcId c.kind c.text c.day)
    (hplace : c.place = none) (hentities : c.entities = []) :
    (Mind.newRow lower c id).isSome := by
  obtain ⟨hid, hkind, htext, hday⟩ := h
  obtain ⟨n, hn⟩ := Option.isSome_iff_exists.1 hid
  obtain ⟨k, hk⟩ := Option.isSome_iff_exists.1 hkind
  obtain ⟨t, ht⟩ := Option.isSome_iff_exists.1 htext
  obtain ⟨d, hd⟩ := Option.isSome_iff_exists.1 hday
  have hnames : Mind.orNone (Mind.entityNames lower []) = none := by
    have hnil : ([] : List PyStr).dedup = [] := rfl
    simp [Mind.entityNames, Mind.orNone, List.intercalate, hnil]
  unfold Mind.newRow
  rw [hn, hk, ht, hd, hplace, hentities, hnames]
  rfl

/-- **A memory is recorded**, unless something of it cannot be bound. -/
theorem holds_record {kind text : PyStr} {day : Option ℤ} {weight : Weight} :
    Attempt.Holds (Here npcId me) (record lower kind text day weight none [])
      (fun _ => Here npcId me) (fun s => Here npcId me s ∧ ¬ Bindable npcId kind text day) := by
  refine .bind (Q := fun _ => Here npcId me)
    (Attempt.Holds.call fun t s hs => hs) fun now => .state (fun s a hs ha => ?_) fun s e hs he => ?_
  · split
    · exact hs
    · exact hs
  · have hnone : Mind.Episodes.record lower s.episodes ⟨now.seconds, s.npcId, kind, text, day,
        .finite weight.1, .finite weight.2, none, []⟩ = none := by
      split at he
      · cases he
      · assumption
    have hleave : Here npcId me s ∧ ¬ Bindable npcId kind text day := by
      refine ⟨hs, fun hbind => ?_⟩
      unfold Mind.Episodes.record at hnone
      split at hnone
      · cases hnone
      · rw [Option.map_eq_none_iff] at hnone
        have hsome : (Mind.newRow lower ⟨now.seconds, s.npcId, kind, text, day, .finite weight.1,
            .finite weight.2, none, []⟩ (s.episodes.lastId + 1)).isSome :=
          isSome_newRow (hs.1 ▸ hbind) rfl rfl
        rw [hnone] at hsome
        cases hsome
    rw [hnone]
    exact hleave

theorem keeps_record {kind text : PyStr} {day : Option ℤ} {weight : Weight} {place : Option PyStr}
    {entities : List PyStr} :
    Attempt.Keeps (On npcId p) (record lower kind text day weight place entities) := by
  refine .bind keeps_clock fun now => keeps_state fun s => ?_
  split <;> exact ⟨rfl, rfl⟩

/-! ## Ends of goals -/

/-- What is recorded of the end of the current goal can be bound. -/
def Endable (npcId : PyStr) (me : Companion) (complete : Bool) : Prop :=
  ∀ goal ∈ me.goal, Bindable npcId (PyStr.lit "goal")
    (endText (goal.verified complete) goal.goal) (me.lastSeen.bind Snapshot.day)

/-- **A goal ends**, unless its end cannot be recorded. -/
theorem holds_finishGoal {complete : Bool} :
    Attempt.Holds (Here npcId me) (finishGoal lower complete)
      (fun _ => Here npcId (me.finish complete))
      (fun s => Here npcId me s ∧ ¬ Endable npcId me complete) := by
  refine .bind (Q := fun s₀ s => s₀.me = me ∧ Here npcId me s) (.get fun s hs => ⟨hs.2, hs⟩)
    fun s₀ => .assume fun hme => ?_
  rw [day, hme]
  rcases hgoal : me.goal with _ | goal
  · exact holds_onMe
  · refine .bind (Q := fun _ => Here npcId me) (holds_record.weaken (fun _ _ hs => hs) ?_) fun _ =>
      holds_onMe
    rintro s ⟨hs, hbind⟩
    exact ⟨hs, fun hend => hbind (hend goal hgoal)⟩

/-- A walk past steps ends in the plan. -/
theorem coolingSteps_le {cooling : List PyStr} {plan : List PlanStep} {step : ℕ}
    (h : coolingSteps cooling plan step ≠ 0) :
    step + coolingSteps cooling plan step ≤ plan.length := by
  have hle : coolingSteps cooling plan step ≤ (plan.drop step).length :=
    (List.takeWhile_sublist _).length_le
  rw [List.length_drop] at hle
  omega

/-! ## The ways a state can move -/

/-- A change of a self that leaves its goals alone. -/
inductive Tweak : Self → Self → Prop
  | names (st : Self) (name owner : Option PyStr) :
      Tweak st { st with name := name, owner := owner }
  | reflected (st : Self) (now : PyTime) (n : ℕ) :
      Tweak st { st with lastReflectAt := now.1, reflections := n }
  | mood (st : Self) (mood : PyStr) : Tweak st { st with mood := mood }
  | thought (st : Self) (t : PyStr) : Tweak st (addThought t st)
  | expectation (st : Self) (about expect : PyStr) : Tweak st (addExpectation about expect st)

/-- The plan is at a step of this intent, which a result moves it past. A
failure has marked the goal. -/
structure PassedBy (st : Self) (intent : PyStr) (success : Bool) : Prop where
  step : ∃ step, st.step = some step ∧ step.intent = intent
  marked : success = false → ∀ goal ∈ st.currentGoal, goal.unverifiedSteps = true

/-- **What survives each way a state can move**, where snapshots and goals are
of a kind. A move past the last step ends the goal, or hangs where the end
cannot be recorded. -/
structure Steps (npcId : PyStr) (okSeen : Snapshot → Prop) (okGoal : PyStr → Prop)
    (p : Companion → Prop) : Prop where
  unread : ∀ {me}, p me → me.self = none → me.row = none
  new : ∀ {me} (name owner), p me → me.self = none → (PyStr.encode npcId).isSome →
    p { me with self := some (newSelf npcId name owner) }
  tweak : ∀ {me st st'}, p me → me.self = some st → Tweak st st' →
    p { me with self := some st' }
  made : ∀ {me}, p me → p { me with made := me.made + 2 }
  inbox : ∀ {me} (events), p me → p { me with inbox := events }
  jobs : ∀ {me} (jobs), p me → p { me with recentJobs := jobs }
  row : ∀ {me st} (text), p me → me.self = some st →
    p { me with row := some text }
  seen : ∀ {me seen}, p me → okSeen seen → p { me with lastSeen := some seen }
  fail : ∀ {me}, p me → p (me.on Self.countFailure)
  unverify : ∀ {me}, p me → p (me.on Self.unverify)
  pass : ∀ {me st intent success}, p me → me.self = some st →
    PassedBy st intent success → st.currentStep + 1 < st.plan.length →
    p (me.pass st.currentStep intent success)
  done : ∀ {me st intent success}, p me → me.self = some st →
    PassedBy st intent success → st.currentStep + 1 = st.plan.length →
    p ((me.pass st.currentStep intent success).finish true)
  hang : ∀ {me st intent success}, p me → me.self = some st →
    PassedBy st intent success → st.currentStep + 1 = st.plan.length →
    ¬ Endable npcId (me.pass st.currentStep intent success) true →
    p (me.pass st.currentStep intent success)
  cool : ∀ {me st n}, p me → me.self = some st → 0 < n →
    st.currentStep + n < st.plan.length → p (me.cool st.currentStep n)
  coolDone : ∀ {me st n}, p me → me.self = some st → 0 < n →
    st.currentStep + n = st.plan.length → p ((me.cool st.currentStep n).finish false)
  coolHang : ∀ {me st n}, p me → me.self = some st → 0 < n →
    st.currentStep + n = st.plan.length → ¬ Endable npcId (me.cool st.currentStep n) false →
    p (me.cool st.currentStep n)
  adopt : ∀ {me goal} (reason) (now : PyTime) {plan} (aside), p me → okGoal goal →
    plan ≠ [] → p (me.adopt goal reason now.1 plan aside)
  giveUp : ∀ {me}, p me → p (me.finish false)

variable {okSeen : Snapshot → Prop} {okGoal : PyStr → Prop} (hp : Steps npcId okSeen okGoal p)

include hp

/-- A self comes out that can take whatever changes no goals. -/
theorem holds_selfOf {name owner : Option PyStr} :
    Attempt.Holds (On npcId p) (selfOf name owner) (fun st s => ∀ st', Tweak st st' →
      On npcId p { s with me := { s.me with self := some st' } }) (On npcId p) := by
  refine holds_of_here fun me hme => ?_
  refine .bind (Q := fun s₀ s => (s₀.npcId = npcId ∧ s₀.me = me) ∧ Here npcId me s)
    (.get fun s hs => ⟨⟨hs.1, hs.2⟩, hs⟩) fun s₀ => .assume fun hs₀ => ?_
  rw [hs₀.1, hs₀.2]
  rcases hself : me.self with _ | st
  · refine .bind (Q := fun loaded s => loaded = none ∧ (PyStr.encode npcId).isSome ∧
      s.npcId = npcId ∧ s.me = { me with made := me.made + 2 }) ?_ fun loaded => ?_
    · refine .state (fun s a hs ha => ?_) fun s e hs he => ?_
      · rw [hs.1, hs.2] at ha ⊢
        rcases hencode : PyStr.encode npcId with _ | text
        · rw [hencode] at ha
          cases ha
        · rw [hencode] at ha
          cases ha
          exact ⟨by rw [hp.unread hme hself]; rfl, rfl, rfl, rfl⟩
      · rw [hs.1] at he ⊢
        rcases hencode : PyStr.encode npcId with _ | text
        · exact hs.on hme
        · rw [hencode] at he
          cases he
    · refine .pure fun s hs st' htweak => ?_
      obtain ⟨rfl, hencode, hid, hmade⟩ := hs
      have hnew := hp.new name owner (hp.made hme) hself hencode
      refine ⟨hid, ?_⟩
      simp only [hmade]
      exact hp.tweak hnew rfl htweak
  · refine .pure fun s hs st' htweak => ?_
    refine ⟨hs.1, ?_⟩
    rw [hs.2]
    exact hp.tweak hme hself htweak

theorem holds_get {name owner : Option PyStr} :
    Attempt.Holds (On npcId p) (get name owner) (Having npcId p) (On npcId p) := by
  refine .bind (holds_selfOf hp) fun st => ?_
  refine .bind (Q := fun _ => Having npcId p
    { st with name := orElse name st.name, owner := orElse owner st.owner }) ?_ fun _ =>
    .pure fun s hs => hs
  refine .modify fun s hs => ?_
  obtain ⟨hid, hme⟩ := hs _ (.names st (orElse name st.name) (orElse owner st.owner))
  exact ⟨hid, hme, rfl⟩

theorem keeps_save : Attempt.Keeps (On npcId p) save := by
  refine .state fun s hs => ?_
  rcases hself : s.me.self with _ | st
  · exact hs
  · dsimp only
    split
    · exact ⟨hs.1, hp.row _ hs.2 hself⟩
    · exact hs

theorem keeps_addToInbox {e : Event} : Attempt.Keeps (On npcId p) (addToInbox e) :=
  keeps_onMe fun _ hme => hp.inbox _ hme

/-- A change of the self that leaves its goals alone. -/
theorem keeps_update {f : Self → Self} (h : ∀ st, Tweak st (f st)) :
    Attempt.Keeps (On npcId p) (update f) := by
  refine keeps_onMe fun me hme => ?_
  unfold Companion.on
  rcases hself : me.self with _ | st
  · rw [Option.map_none, ← hself]
    exact hme
  · exact hp.tweak hme hself (h st)

/-! ## Call by call -/

variable {u : Unicode}

theorem keeps_perceive {raw : List (PyStr × PyStr)} {owner : Option PyStr}
    {seen : Option Snapshot} (hseen : ∀ now ∈ seen, okSeen now) :
    Attempt.Keeps (On npcId p) (perceive lower u raw owner seen) := by
  have hstore {now : Snapshot} {derived : Bool} {e : PyStr × PyStr} :
      Attempt.Keeps (On npcId p) (storeEvent lower owner now derived e) :=
    .bind (.when keeps_record) fun _ => keeps_opinionFromEvent
  rcases seen with _ | now
  · exact Attempt.Holds.throw fun _ hs => hs
  · refine .bind .get fun _ => .bind (keeps_onMe fun _ hme => hp.seen hme (hseen now rfl)) fun _ =>
      .bind (.each (fun _ => hstore) _) fun _ => .bind (.each (fun _ => hstore) _) fun _ => .when ?_
    exact keeps_onMe fun _ hme => hp.inbox _ hme

theorem keeps_social {owner category : Option PyStr} {text : PyStr} :
    Attempt.Keeps (On npcId p) (social lower owner category text) := by
  unfold social
  split
  · exact .pure ()
  · exact .bind (keeps_addToInbox hp) fun _ => keeps_opinionFromEvent

theorem keeps_noteJob {intent : PyStr} {success : Bool} {detail : PyStr} :
    Attempt.Keeps (On npcId p) (noteJob intent success detail) :=
  .bind keeps_clock fun _ => keeps_onMe fun _ hme => hp.jobs _ hme

theorem keeps_skipCoolingSteps : Attempt.Keeps (On npcId p) (skipCoolingSteps lower) := by
  refine Attempt.Holds.bind (holds_get hp) fun st => ?_
  refine Attempt.Holds.bind (Q := fun _ => Having npcId p st)
    (keeps_cooling.weaken (fun _ _ hs => hs) fun _ => Having.on) fun cooling => ?_
  refine Attempt.Holds.when (fun hmoved => ?_) fun _ _ hs => hs.on
  refine holds_of_here fun me hme => ?_
  obtain ⟨hme, hself⟩ := hme
  have hpos := of_decide_eq_true hmoved
  have hle := coolingSteps_le hpos
  refine .bind (Q := fun _ => Here npcId (me.cool st.currentStep _)) holds_onMe fun _ => ?_
  refine .bind (Q := fun _ => On npcId p) (Attempt.Holds.when (fun hend => ?_) fun hend s hs => ?_)
    fun _ => keeps_save hp
  · -- The plan ran out.
    have hlast := of_decide_eq_true hend
    refine holds_finishGoal.weaken (fun _ s hs => ?_) fun s hs => ?_
    · exact hs.on (hp.coolDone hme hself (by omega) (by omega))
    · exact hs.1.on (hp.coolHang hme hself (by omega) (by omega) hs.2)
  · have hmore := of_decide_eq_false hend
    exact hs.on (hp.cool hme hself (by omega) (by omega))

/-- **A plan moves past its step**, and past the last one the goal ends. -/
theorem holds_pass {st : Self} {intent : PyStr} {success : Bool}
    (hpassed : PassedBy st intent success) :
    Attempt.Holds (Having npcId p st)
      (do
        onMe fun me => me.pass st.currentStep intent success
        Attempt.when (decide (st.plan.length ≤ st.currentStep + 1)) (finishGoal lower true))
      (fun _ => On npcId p) (On npcId p) := by
  refine holds_of_here fun me hme => ?_
  obtain ⟨hme, hself⟩ := hme
  have hlt : st.currentStep < st.plan.length := by
    obtain ⟨step, hstep, -⟩ := hpassed.step
    exact (List.getElem?_eq_some_iff.1 hstep).1
  refine .bind (Q := fun _ => Here npcId (me.pass st.currentStep intent success)) holds_onMe
    fun _ => ?_
  refine Attempt.Holds.when (fun hend => ?_) fun hend s hs => ?_
  · have hlast := of_decide_eq_true hend
    refine holds_finishGoal.weaken (fun _ s hs => ?_) fun s hs => ?_
    · exact hs.on (hp.done hme hself hpassed (by omega))
    · exact hs.1.on (hp.hang hme hself hpassed (by omega) hs.2)
  · have hmore := of_decide_eq_false hend
    exact hs.on (hp.pass hme hself hpassed (by omega))

omit hp in
/-- A change of the self that survives, and what it makes of it. -/
theorem holds_update {st : Self} {f : Self → Self} (hf : ∀ me, p me → p (me.on f)) :
    Attempt.Holds (Having npcId p st) (update f) (fun _ => Having npcId p (f st)) E := by
  refine .modify fun s hs => ⟨hs.1, hf _ hs.2.1, ?_⟩
  show s.me.self.map f = some (f st)
  rw [hs.2.2]
  rfl

theorem keeps_stepResult {intent : PyStr} {success : Bool} :
    Attempt.Keeps (On npcId p) (stepResult lower intent success) := by
  refine Attempt.Holds.bind (holds_get hp) fun st => ?_
  rcases hstep : st.step with _ | step
  · exact .pure fun _ hs => hs.on
  refine Attempt.Holds.when (fun hintent => ?_) fun _ _ hs => hs.on
  rw [decide_eq_true_eq] at hintent
  -- The self once the failure, if it was one, is counted.
  obtain ⟨counted, hcounted⟩ : ∃ x, x = if success then st else st.countFailure := ⟨_, rfl⟩
  have hsame : counted.currentStep = st.currentStep ∧ counted.plan.length = st.plan.length ∧
      ∃ step', counted.step = some step' ∧ step'.intent = step.intent := by
    rw [hcounted]
    split
    · exact ⟨rfl, rfl, step, hstep, rfl⟩
    · refine ⟨rfl, List.length_modify .., { step with failures := step.failures + 1 }, ?_, rfl⟩
      unfold Self.step at hstep
      rw [Self.step, Self.countFailure, List.getElem?_modify_eq, hstep]
      rfl
  obtain ⟨hcurrent, hlength, step', hstep', hsame⟩ := hsame
  refine Attempt.Holds.bind (Q := fun _ => Having npcId p counted)
    (Attempt.Holds.when (fun hfailed => ?_) fun hok s hs => ?_) fun _ => ?_
  · rw [Bool.not_eq_true'] at hfailed
    rw [hcounted, hfailed]
    exact holds_update fun _ hme => hp.fail hme
  · rw [Bool.not_eq_false'] at hok
    rw [hcounted, hok]
    exact hs
  obtain ⟨struckOut, hstruck⟩ : ∃ b, b = (!success &&
    decide (2 ≤ if success = true then step.failures else step.failures + 1)) := ⟨_, rfl⟩
  rw [← hstruck]
  refine Attempt.Holds.bind
    (Q := fun _ => Having npcId p (if struckOut then counted.unverify else counted))
    (Attempt.Holds.when (fun hout => ?_) fun hout s hs => ?_) fun _ => ?_
  · rw [if_pos hout]
    refine .bind (holds_update fun _ hme => hp.unverify hme) fun _ => ?_
    refine .bind (Attempt.Holds.get fun _ hs => hs) fun _ => ?_
    exact keeps_record.weaken (fun _ _ hs => hs) fun _ => Having.on
  · rw [hout]
    exact hs
  refine Attempt.Holds.bind (Q := fun _ => On npcId p)
    (Attempt.Holds.when (fun hpass => ?_) fun _ s hs => hs.on) fun _ =>
    Attempt.Keeps.bind (.when (keeps_addToInbox hp)) fun _ => keeps_save hp
  have hpassed : PassedBy (if struckOut then counted.unverify else counted) (jobAlias intent)
      success := by
    constructor
    · refine ⟨step', ?_, hsame.trans hintent⟩
      split
      · exact hstep'
      · exact hstep'
    · intro hfailed goal hgoal
      have hout : struckOut = true := by simpa [hfailed] using hpass
      rw [if_pos hout, Self.unverify, Option.mem_def, Option.map_eq_some_iff] at hgoal
      obtain ⟨g, -, rfl⟩ := hgoal
      rfl
  have hpassing := @holds_pass npcId p lower okSeen okGoal hp _ _ _ hpassed
  have hkept : (if struckOut then counted.unverify else counted).currentStep = st.currentStep ∧
      (if struckOut then counted.unverify else counted).plan.length = st.plan.length := by
    split
    · exact ⟨hcurrent, hlength⟩
    · exact ⟨hcurrent, hlength⟩
  rw [hkept.1, hkept.2] at hpassing
  exact hpassing

theorem keeps_adopt {goal : PyStr} {reason : Option PyStr} {now : PyTime} {plan : List PlanStep}
    {aside : Bool} (hgoal : okGoal goal) :
    Attempt.Keeps (On npcId p) (adopt goal reason now plan aside) := by
  refine Attempt.Holds.when (fun hplan => ?_) fun _ _ hs => hs
  refine keeps_onMe fun _ hme => hp.adopt reason now aside hme hgoal ?_
  simpa using hplan

theorem keeps_finishGoal : Attempt.Keeps (On npcId p) (finishGoal lower false) := by
  refine holds_of_here fun me hme => holds_finishGoal.weaken (fun _ s hs => ?_) fun s hs => ?_
  · exact hs.on (hp.giveUp hme)
  · exact hs.1.on hme

theorem keeps_carryOut {decision : Decision} {goal reason : Option PyStr} {now : PyTime}
    {plan : List PlanStep} {previous : Option Goal} (hgoal : ∀ g ∈ goal, okGoal g) :
    Attempt.Keeps (On npcId p) (carryOut lower decision goal reason now plan previous) := by
  unfold carryOut
  split
  · exact keeps_adopt hp (hgoal _ rfl)
  · exact keeps_adopt hp (hgoal _ rfl)
  · exact keeps_finishGoal hp
  · exact .when (keeps_adopt hp (hgoal _ rfl))
  · exact .pure ()

omit hp in
theorem keeps_remember {top : ℚ} {memory : Option PyStr} :
    Attempt.Keeps (On npcId p) (remember lower top memory) := by
  unfold remember
  split
  · exact .pure ()
  · exact .bind .get fun _ => keeps_record

/-- The goal the output of a reflection names. -/
def goalOf (output : List (PyStr × PyData)) : Option PyStr := text? (PyData.get output "goal") 100

theorem keeps_applyReflection {output : List (PyStr × PyData)}
    (hgoal : ∀ g ∈ goalOf output, okGoal g) :
    Attempt.Keeps (On npcId p) (applyReflection lower output) := by
  have htweak {f : Self → Self} (h : ∀ st, Tweak st (f st)) : Attempt.Keeps (On npcId p) (update f) :=
    keeps_update hp h
  have hget : Attempt.Keeps (On npcId p) (get none none) :=
    (holds_get hp).weaken (fun _ _ hs => hs.on) fun _ hs => hs
  have hinbox : Attempt.Keeps (On npcId p) takeInbox :=
    .bind .get fun _ => .bind (keeps_onMe fun _ hme => hp.inbox _ hme) fun _ => .pure _
  refine .bind hget fun _ => .bind keeps_clock fun now => .bind (htweak fun st => ?_) fun _ =>
    .bind hinbox fun _ => .bind (htweak fun st => ?_) fun _ => .bind (htweak fun st => ?_) fun _ =>
    .bind (htweak fun st => ?_) fun _ => .bind keeps_opinions fun _ => .bind keeps_cooling fun _ =>
    .bind .get fun _ => .bind (keeps_carryOut hp hgoal) fun _ => .bind keeps_remember fun _ =>
    .bind (keeps_save hp) fun _ => .pure _
  · exact .reflected st now _
  · exact .mood st _
  · split
    · exact .thought st _
    · exact .mood st st.mood
  · split
    · exact .expectation st _ _
    · exact .mood st st.mood

/-- The snapshot and the goal of a call are of the kind. -/
def Op.Ok (okSeen : Snapshot → Prop) (okGoal : PyStr → Prop) : Op → Prop
  | .perceive _ _ seen => ∀ now ∈ seen, okSeen now
  | .applyReflection output => ∀ goal ∈ goalOf output, okGoal goal
  | _ => True

omit hp in
theorem Op.ok_true (op : Op) : op.Ok (fun _ => True) (fun _ => True) := by
  cases op <;> simp [Op.Ok]

/-- **What survives each way a state can move** survives every call. -/
theorem keeps_act {op : Op} (hop : op.Ok okSeen okGoal) :
    Attempt.Keeps (On npcId p) (act lower u op) := by
  cases op with
  | meet name owner =>
    exact .bind ((holds_get hp).weaken (fun _ _ hs => hs.on) fun _ hs => hs) fun _ => .pure ()
  | perceive raw owner seen => exact keeps_perceive hp hop
  | social owner category text => exact keeps_social hp
  | noteJob intent success detail => exact keeps_noteJob hp
  | stepResult intent success => exact keeps_stepResult hp
  | skipCoolingSteps => exact keeps_skipCoolingSteps hp
  | startReflection =>
    refine .bind ((holds_get hp).weaken (fun _ _ hs => hs.on) fun _ hs => hs) fun _ =>
      .bind keeps_clock fun now => keeps_update hp fun st => ?_
    exact .reflected st now st.reflections
  | applyReflection output => exact .bind (keeps_applyReflection hp hop) fun _ => .pure ()

omit hp in
/-- **Run after run**: what holds of a companion nothing is known of, and
survives each way its state can move, holds of the companion at any time. -/
theorem companion_run {lower : PyStr → PyStr} {u : Unicode} {calls : List Call} (npcId : PyStr)
    (hp : Steps npcId okSeen okGoal p) (hunknown : p Companion.unknown)
    (hcalls : ∀ c ∈ calls, c.op.Ok okSeen okGoal) :
    p ((Machine.run (step lower u) fresh calls).companions npcId) := by
  suffices hstep : ∀ s c, p (s.companions npcId) → c.op.Ok okSeen okGoal →
      p ((step lower u s c).companions npcId) from
    @Machine.invariant_of_meets _ _ (step lower u) (fun _ c => c.op.Ok okSeen okGoal)
      (fun s => p (s.companions npcId)) hstep _ _ hunknown
      (Machine.meets_of_forall (fun _ c hc => hcalls c hc) _)
  intro s c hs hc
  unfold step
  dsimp only
  by_cases hsame : npcId = c.npcId
  · subst hsame
    rw [Function.update_self]
    exact ((keeps_act hp hc).after (s := ⟨c.npcId, s.companions c.npcId, s.episodes⟩) ⟨rfl, hs⟩
      c.times).2
  · rw [Function.update_of_ne hsame]
    exact hs

/-! ## A run -/

/-- A reflection that decides on a goal, with a plan of one step. -/
def foraging (goal : PyStr) : List (PyStr × PyData) :=
  [(PyStr.lit "thought", .str (PyStr.lit "we need food")),
    (PyStr.lit "decision", .str (PyStr.lit "new")), (PyStr.lit "goal", .str goal),
    (PyStr.lit "plan", .list [.dict [(PyStr.lit "intent", .str (PyStr.lit "FORAGE"))]])]

/-- The goal is adopted, and its step succeeds. -/
def forageRun (goal : PyStr) : List Call :=
  [⟨PyStr.lit "goblin-1", .applyReflection (foraging goal), fun _ => PyTime.zero⟩,
    ⟨PyStr.lit "goblin-1", .stepResult (PyStr.lit "FORAGE") true, fun _ => PyTime.zero⟩]

/-- The companion of the run, once the first so many calls were made. -/
def forager (goal : PyStr) (n : ℕ) : Companion :=
  (Machine.run (step id Unicode.ascii) fresh ((forageRun goal).take n)).companions
    (PyStr.lit "goblin-1")

end Sentience

end GoblinZomboid
