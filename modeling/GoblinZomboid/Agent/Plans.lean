import GoblinZomboid.Agent.Moves
/-!
# Plans and their steps

A companion without a goal has no plan, and one with a goal is at a step of
its plan, as long as the ends of goals can be recorded. A goal whose text has
a lone surrogate in it cannot be: its plan runs past the last step and stays
there.
-/

namespace GoblinZomboid

namespace Sentience

/-- **The step is in the plan**: either there is no goal, no plan and no step,
or the current step is one of the plan; and so for the goal set aside. -/
structure Self.Bounded (state : Self) : Prop where
  current : (state.currentGoal = none ∧ state.plan = [] ∧ state.currentStep = 0) ∨
    state.currentStep < state.plan.length
  aside : ∀ s ∈ state.suspendedGoal, s.currentStep < s.plan.length

/-- The goals are texts. -/
structure Self.Readable (state : Self) : Prop where
  current : ∀ g ∈ state.currentGoal, (PyStr.encode g.goal).isSome
  aside : ∀ s ∈ state.suspendedGoal, (PyStr.encode s.goal.goal).isSome

/-- What is known of a companion all of whose goals can end. -/
structure Sound (npcId : PyStr) (me : Companion) : Prop where
  unread : me.self = none → me.row = none
  named : me.self.isSome → (PyStr.encode npcId).isSome
  day : ∀ seen ∈ me.lastSeen, (Mind.bindInt seen.day).isSome
  bounded : ∀ state ∈ me.self, state.Bounded
  readable : ∀ state ∈ me.self, state.Readable

variable {npcId : PyStr} {me : Companion} {state : Self}

/-! ## What keeps the step in the plan -/

theorem Tweak.bounded {st st' : Self} (h : Tweak st st') (hst : st.Bounded) : st'.Bounded := by
  cases h <;> exact ⟨hst.current, hst.aside⟩

theorem Tweak.readable {st st' : Self} (h : Tweak st st') (hst : st.Readable) : st'.Readable := by
  cases h <;> exact ⟨hst.current, hst.aside⟩

theorem bounded_resume (h : ∀ s ∈ state.suspendedGoal, s.currentStep < s.plan.length) :
    state.resume.Bounded := by
  unfold Self.resume
  rcases hs : state.suspendedGoal with _ | s
  · exact ⟨.inl ⟨rfl, rfl, rfl⟩, nofun⟩
  · exact ⟨.inr (h s hs), nofun⟩

theorem readable_resume (h : state.Readable) : state.resume.Readable := by
  unfold Self.resume
  rcases hs : state.suspendedGoal with _ | s
  · exact ⟨nofun, nofun⟩
  · refine ⟨fun g hg => ?_, nofun⟩
    cases hg
    exact h.aside s hs

theorem readable_unverify (h : state.Readable) : state.unverify.Readable := by
  refine ⟨fun g hg => ?_, h.aside⟩
  obtain ⟨g', hg', rfl⟩ := Option.map_eq_some_iff.1 hg
  exact h.current g' hg'

theorem bounded_countFailure (h : state.Bounded) : state.countFailure.Bounded := by
  refine ⟨?_, h.aside⟩
  rcases h.current with ⟨hgoal, hplan, hstep⟩ | hlt
  · refine .inl ⟨hgoal, ?_, hstep⟩
    rw [Self.countFailure, hplan]
    exact List.modify_nil ..
  · refine .inr ?_
    rw [Self.countFailure, List.length_modify]
    exact hlt

theorem bounded_unverify (h : state.Bounded) : state.unverify.Bounded := by
  refine ⟨?_, h.aside⟩
  rcases h.current with ⟨hgoal, hplan, hstep⟩ | hlt
  · refine .inl ⟨?_, hplan, hstep⟩
    rw [Self.unverify, hgoal]
    rfl
  · exact .inr hlt

theorem bounded_suspend (h : state.Bounded) : state.suspend.Bounded := by
  unfold Self.suspend
  rcases hgoal : state.currentGoal with _ | goal
  · exact h
  · rcases hs : state.suspendedGoal with _ | s
    · rcases h.current with hidle | hlt
      · rw [hidle.1] at hgoal
        cases hgoal
      · refine ⟨.inr hlt, fun s hmem => ?_⟩
        cases hmem
        exact hlt
    · exact h

theorem readable_suspend (h : state.Readable) : state.suspend.Readable := by
  unfold Self.suspend
  rcases hgoal : state.currentGoal with _ | goal
  · exact h
  · rcases hs : state.suspendedGoal with _ | s
    · refine ⟨fun g hg => h.current g (hgoal.trans hg), fun s hmem => ?_⟩
      cases hmem
      exact h.current goal hgoal
    · exact h

/-! ## What a companion keeps -/

theorem Sound.on (h : Sound npcId me) {f : Self → Self}
    (hbounded : ∀ st ∈ me.self, (f st).Bounded) (hreadable : ∀ st ∈ me.self, (f st).Readable) :
    Sound npcId (me.on f) := by
  refine ⟨fun hnone => h.unread (Option.map_eq_none_iff.1 hnone), fun hsome => h.named ?_, h.day,
    fun st hst => ?_, fun st hst => ?_⟩
  · exact Option.isSome_map.symm.trans hsome
  · obtain ⟨st', hst', rfl⟩ := Option.map_eq_some_iff.1 hst
    exact hbounded st' hst'
  · obtain ⟨st', hst', rfl⟩ := Option.map_eq_some_iff.1 hst
    exact hreadable st' hst'

/-- A change of the rest of what is known. -/
theorem Sound.rest (h : Sound npcId me) {me' : Companion} (hself : me'.self = me.self)
    (hrow : me'.self = none → me'.row = me.row)
    (hday : ∀ seen ∈ me'.lastSeen, (Mind.bindInt seen.day).isSome) : Sound npcId me' := by
  refine ⟨fun hnone => (hrow hnone).trans (h.unread (hself ▸ hnone)), ?_, hday, ?_, ?_⟩
  · rw [hself]
    exact h.named
  · rw [hself]
    exact h.bounded
  · rw [hself]
    exact h.readable

theorem Sound.tell (h : Sound npcId me) (what : Goal → List Happening) :
    Sound npcId (me.tell what) := h.rest rfl (fun _ => rfl) h.day

/-- What is known of a companion whose plan may have run out: all but that the
step is in the plan. -/
structure Ending (npcId : PyStr) (me : Companion) : Prop where
  unread : me.self = none → me.row = none
  named : me.self.isSome → (PyStr.encode npcId).isSome
  day : ∀ seen ∈ me.lastSeen, (Mind.bindInt seen.day).isSome
  aside : ∀ state ∈ me.self, ∀ s ∈ state.suspendedGoal, s.currentStep < s.plan.length
  readable : ∀ state ∈ me.self, state.Readable

theorem Sound.ending (h : Sound npcId me) : Ending npcId me :=
  ⟨h.unread, h.named, h.day, fun st hst => (h.bounded st hst).aside, h.readable⟩

theorem Ending.tell (h : Ending npcId me) (what : Goal → List Happening) :
    Ending npcId (me.tell what) := ⟨h.unread, h.named, h.day, h.aside, h.readable⟩

theorem Ending.on (h : Ending npcId me) {f : Self → Self}
    (haside : ∀ st, (f st).suspendedGoal = st.suspendedGoal)
    (hreadable : ∀ st, st.Readable → (f st).Readable) : Ending npcId (me.on f) := by
  refine ⟨fun hnone => h.unread (Option.map_eq_none_iff.1 hnone), fun hsome => h.named ?_, h.day,
    fun st hst => ?_, fun st hst => ?_⟩
  · exact Option.isSome_map.symm.trans hsome
  · obtain ⟨st', hst', rfl⟩ := Option.map_eq_some_iff.1 hst
    rw [haside]
    exact h.aside st' hst'
  · obtain ⟨st', hst', rfl⟩ := Option.map_eq_some_iff.1 hst
    exact hreadable st' (h.readable st' hst')

/-- Once it ended, the step is in the plan again. -/
theorem Ending.finish (h : Ending npcId me) (complete : Bool) :
    Sound npcId (me.finish complete) := by
  refine ⟨fun hnone => h.unread (Option.map_eq_none_iff.1 hnone), fun hsome => h.named ?_, h.day,
    fun st hst => ?_, fun st hst => ?_⟩
  · exact Option.isSome_map.symm.trans hsome
  · obtain ⟨st', hst', rfl⟩ := Option.map_eq_some_iff.1 hst
    exact bounded_resume (h.aside st' hst')
  · obtain ⟨st', hst', rfl⟩ := Option.map_eq_some_iff.1 hst
    exact readable_resume (h.readable st' hst')

/-- **A goal that is a text can end.** -/
theorem Ending.endable (h : Ending npcId me) (complete : Bool) : Endable npcId me complete := by
  intro goal hgoal
  obtain ⟨st, hst, hcurrent⟩ := Option.bind_eq_some_iff.1 hgoal
  have hnamed := h.named (Option.isSome_of_mem hst)
  refine ⟨hnamed, by decide, PyStr.isSome_encode_take ?_ 240, ?_⟩
  · have hhead (b : Bool) : (PyStr.encode (if b then PyStr.lit "finished"
        else PyStr.lit "gave up on")).isSome := by
      split
      · exact PyStr.isSome_encode_lit _
      · exact PyStr.isSome_encode_lit _
    exact PyStr.isSome_encode_append
      (PyStr.isSome_encode_append (hhead _) (PyStr.isSome_encode_lit _))
      ((h.readable st hst).current goal hcurrent)
  · rcases hseen : me.lastSeen with _ | seen
    · rfl
    · exact h.day seen hseen

/-- The days of the snapshots fit in 64 bits. -/
def okDay (seen : Snapshot) : Prop := (Mind.bindInt seen.day).isSome

/-- The goal has no lone surrogate in it. -/
def okText (goal : PyStr) : Prop := (PyStr.encode goal).isSome

/-! ## Call by call -/

theorem Sound.pass (h : Sound npcId me) {st : Self} (hself : me.self = some st) {intent : PyStr}
    {success : Bool} (hlt : st.currentStep + 1 < st.plan.length) :
    Sound npcId (me.pass st.currentStep intent success) := by
  refine (h.tell _).on (fun st' hst' => ?_) fun st' hst' => ?_
  · cases hself.symm.trans hst'
    exact ⟨.inr hlt, (h.bounded st hself).aside⟩
  · exact ⟨(h.readable st' hst').current, (h.readable st' hst').aside⟩

theorem readable_advance {n : ℕ} (h : state.Readable) : (state.advance n).Readable :=
  ⟨h.current, h.aside⟩

theorem Sound.pastStep (h : Sound npcId me) (step : ℕ) (intent : PyStr) (success : Bool) :
    Ending npcId (me.pass step intent success) :=
  (h.ending.tell _).on (fun _ => rfl) fun _ => readable_advance

theorem Sound.pastCooling (h : Sound npcId me) (step n : ℕ) : Ending npcId (me.cool step n) :=
  (h.ending.tell _).on (fun _ => rfl) fun _ hst => readable_advance (readable_unverify hst)

theorem Sound.cool (h : Sound npcId me) {st : Self} (hself : me.self = some st) {n : ℕ}
    (hlt : st.currentStep + n < st.plan.length) : Sound npcId (me.cool st.currentStep n) := by
  refine (h.tell _).on (fun st' hst' => ?_) fun st' hst' =>
    readable_advance (readable_unverify (h.readable st' hst'))
  cases hself.symm.trans hst'
  exact ⟨.inr hlt, (h.bounded _ hself).aside⟩

theorem Sound.adopt (h : Sound npcId me) {goal : PyStr} (hgoal : okText goal)
    {reason : Option PyStr} {started : PyText} {plan : List PlanStep} (hplan : plan ≠ [])
    {aside : Bool} : Sound npcId (me.adopt goal reason started plan aside) := by
  have hmade : Sound npcId { me with made := me.made + 1 } := h.rest rfl (fun _ => rfl) h.day
  have hpos : 0 < plan.length := List.length_pos_of_ne_nil hplan
  refine (hmade.on (fun st hst => ?_) fun st hst => ?_).tell _
  · refine ⟨.inr hpos, ?_⟩
    cases aside with
    | false => exact (h.bounded st hst).aside
    | true => exact (bounded_suspend (h.bounded st hst)).aside
  · refine ⟨fun g hg => ?_, ?_⟩
    · cases hg
      exact hgoal
    · cases aside with
      | false => exact (h.readable st hst).aside
      | true => exact (readable_suspend (h.readable st hst)).aside

/-- **Plans keep to their steps** through every way a state can move. -/
theorem steps_sound (npcId : PyStr) : Steps npcId okDay okText (Sound npcId) where
  unread h := h.unread
  new name owner h hnone hnamed := by
    refine ⟨nofun, fun _ => hnamed, h.day, fun st hst => ?_, fun st hst => ?_⟩
    · cases hst
      exact ⟨.inl ⟨rfl, rfl, rfl⟩, nofun⟩
    · cases hst
      exact ⟨nofun, nofun⟩
  tweak h hself htweak := by
    refine ⟨nofun, fun _ => h.named (by rw [hself]; rfl), h.day, fun st hst => ?_, fun st hst => ?_⟩
    · cases hst
      exact htweak.bounded (h.bounded _ hself)
    · cases hst
      exact htweak.readable (h.readable _ hself)
  made h := h.rest rfl (fun _ => rfl) h.day
  inbox _ h := h.rest rfl (fun _ => rfl) h.day
  jobs _ h := h.rest rfl (fun _ => rfl) h.day
  row _ h hself := h.rest rfl (fun hnone => by cases hself.symm.trans hnone) h.day
  seen h hday := h.rest rfl (fun _ => rfl) fun seen hseen => by
    cases hseen
    exact hday
  fail h := h.on (fun st hst => bounded_countFailure (h.bounded st hst)) fun st hst =>
    ⟨(h.readable st hst).current, (h.readable st hst).aside⟩
  unverify h := h.on (fun st hst => bounded_unverify (h.bounded st hst)) fun st hst =>
    readable_unverify (h.readable st hst)
  pass h hself _ hlt := h.pass hself hlt
  done h _ _ _ := (h.pastStep ..).finish true
  hang h _ _ _ hend := absurd ((h.pastStep ..).endable true) hend
  cool h hself _ hlt := h.cool hself hlt
  coolDone h _ _ _ := (h.pastCooling ..).finish false
  coolHang h _ _ _ hend := absurd ((h.pastCooling ..).endable false) hend
  adopt _ _ _ _ h hgoal hplan := h.adopt hgoal hplan
  giveUp h := h.ending.finish false

variable {lower : PyStr → PyStr} {u : Unicode}

/-- **In every run** whose goals are texts and whose days fit in 64 bits, every
companion's step is in its plan, at any time. -/
theorem bounded_run {calls : List Call} (hcalls : ∀ c ∈ calls, c.op.Ok okDay okText)
    (hself : ((Machine.run (step lower u) fresh calls).companions npcId).self = some state) :
    state.Bounded :=
  (companion_run npcId (steps_sound npcId) ⟨fun _ => rfl, nofun, nofun, nofun, nofun⟩
    hcalls).bounded state hself

/-! ## A goal that cannot be recorded -/

/-- With a goal that is a text the first call leaves a plan at its first step. -/
theorem bounded_run_forage : ∃ state, (forager (PyStr.lit "fill the larder") 1).self = some state ∧
    state.currentStep = 0 ∧ state.plan.length = 1 ∧ state.Bounded := by
  have hfirst : (forager (PyStr.lit "fill the larder") 1).self.map
      (fun s => (s.currentStep, s.plan.length)) = some (0, 1) := by decide +kernel
  obtain ⟨state, hstate, heq⟩ := Option.map_eq_some_iff.1 hfirst
  rw [Prod.mk.injEq] at heq
  refine ⟨state, hstate, heq.1, heq.2, bounded_run (fun c hc => ?_) hstate⟩
  rw [List.mem_singleton.1 hc]
  intro goal hgoal
  have hall : (goalOf (foraging (PyStr.lit "fill the larder"))).all fun g =>
      (PyStr.encode g).isSome := by decide
  exact (Option.all_eq_true _ _).1 hall goal hgoal

/-- **A lone surrogate.** The goal is half of a pair, as a model's output that
is cut off ends. Its end cannot be recorded, and the plan of one step is left
at its second. -/
theorem not_bounded_lone_surrogate : ¬ ∀ (lower : PyStr → PyStr) (u : Unicode) (calls : List Call)
    (npcId : PyStr) (state : Self),
    ((Machine.run (step lower u) fresh calls).companions npcId).self = some state →
      state.Bounded := by
  intro h
  have hrun : (forager [.lone 0] 2).self.map (fun s => (s.currentStep, s.plan.length)) =
      some (1, 1) := by decide +kernel
  obtain ⟨state, hstate, heq⟩ := Option.map_eq_some_iff.1 hrun
  rw [Prod.mk.injEq] at heq
  rcases (h id Unicode.ascii _ (PyStr.lit "goblin-1") state hstate).current with ⟨-, -, hstep⟩ | hlt
  · omega
  · omega

end Sentience

end GoblinZomboid
