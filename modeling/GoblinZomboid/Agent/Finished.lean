import GoblinZomboid.Agent.Moves
/-!
# Goals that are recorded as finished

A goal is marked once a step of its plan is passed over, and the mark stays
with it when it is set aside and taken up again. Only a goal without the mark
whose plan ran out is recorded as finished, so every step of it succeeded.
-/

namespace GoblinZomboid

namespace Sentience

/-- **What a finished goal has behind it**: it was adopted with a plan, once; for
each step of the plan a successful result of its intent came in, and nothing
else ever moved the plan on. -/
def Justified (told : List Happening) (ref : ℕ) : Prop :=
  ∃ goal plan, .adopted goal plan ∈ told ∧ goal.ref = ref ∧
    (∀ goal' plan', .adopted goal' plan' ∈ told → goal'.ref = ref →
      goal' = goal ∧ plan' = plan) ∧
    (∀ i s, plan[i]? = some s → .passed ref i (.result s.intent true) ∈ told) ∧
    ∀ i how, .passed ref i how ∈ told → ∃ intent, how = .result intent true

/-- What is recorded as finished is justified by what was told before. -/
def Truthful (told : List Happening) : Prop :=
  ∀ n ref, told[n]? = some (.ended ref true) → Justified (told.take n) ref

/-- No goal object is adopted twice. -/
def Once (told : List Happening) : Prop :=
  ∀ goal plan goal' plan', .adopted goal plan ∈ told → .adopted goal' plan' ∈ told →
    goal'.ref = goal.ref → goal' = goal ∧ plan' = plan

/-- A goal in the middle of its plan: unless it is marked, the steps up to now
succeeded. -/
def Honest (told : List Happening) (g : Goal) (plan : List PlanStep) (step : ℕ) : Prop :=
  ∃ goal first, .adopted goal first ∈ told ∧ goal.ref = g.ref ∧
    first.map PlanStep.intent = plan.map PlanStep.intent ∧
    (g.unverifiedSteps = false →
      (∀ i s, i < step → first[i]? = some s → .passed g.ref i (.result s.intent true) ∈ told) ∧
      ∀ i how, .passed g.ref i how ∈ told → ∃ intent, how = .result intent true)

/-- The happening is about an earlier goal object than this. -/
def Happening.Before (made : ℕ) : Happening → Prop
  | .adopted goal _ => goal.ref < made
  | .passed ref _ _ => ref < made
  | .ended ref _ => ref < made

/-- The goals of a self are honest, and two objects. -/
structure HonestSelf (told : List Happening) (made : ℕ) (st : Self) : Prop where
  current : ∀ g ∈ st.currentGoal, Honest told g st.plan st.currentStep ∧ g.ref < made
  aside : ∀ s ∈ st.suspendedGoal, Honest told s.goal s.plan s.currentStep ∧ s.goal.ref < made
  distinct : ∀ g ∈ st.currentGoal, ∀ s ∈ st.suspendedGoal, g.ref ≠ s.goal.ref

/-- What is known of a companion that never claims more than it did. -/
structure Tracked (me : Companion) : Prop where
  unread : me.self = none → me.row = none
  self : ∀ st ∈ me.self, HonestSelf me.told me.made st
  before : ∀ h ∈ me.told, h.Before me.made
  once : Once me.told
  truthful : Truthful me.told

variable {told new : List Happening} {g : Goal} {plan : List PlanStep} {k made : ℕ}
variable {me : Companion} {st : Self}

/-! ## More is told -/

theorem Honest.append (h : Honest told g plan k)
    (hnew : g.unverifiedSteps = false →
      ∀ i how, .passed g.ref i how ∈ new → ∃ intent, how = .result intent true) :
    Honest (told ++ new) g plan k := by
  obtain ⟨goal, first, hadopted, href, hintents, hpassed⟩ := h
  refine ⟨goal, first, List.mem_append_left _ hadopted, href, hintents, fun hmark => ?_⟩
  obtain ⟨hdone, honly⟩ := hpassed hmark
  refine ⟨fun i s hi hs => List.mem_append_left _ (hdone i s hi hs), fun i how hmem => ?_⟩
  rcases List.mem_append.1 hmem with hmem | hmem
  · exact honly i how hmem
  · exact hnew hmark i how hmem

/-- What is told of other goals. -/
theorem Honest.append_other (h : Honest told g plan k)
    (hnew : ∀ i how, .passed g.ref i how ∉ new) : Honest (told ++ new) g plan k :=
  h.append fun _ i how hmem => absurd hmem (hnew i how)

/-- Marked, a goal is honest whatever happened. -/
theorem Honest.mark (h : Honest told g plan k) (g' : Goal) (href : g'.ref = g.ref)
    (hmark : g'.unverifiedSteps = true) (k' : ℕ) : Honest told g' plan k' := by
  obtain ⟨goal, first, hadopted, hgoal, hintents, -⟩ := h
  exact ⟨goal, first, hadopted, hgoal.trans href.symm, hintents, fun hfalse => by
    rw [hmark] at hfalse
    cases hfalse⟩

theorem truthful_append (h : Truthful told)
    (hnew : ∀ n ref, new[n]? = some (.ended ref true) → Justified (told ++ new.take n) ref) :
    Truthful (told ++ new) := by
  intro n ref hn
  rcases Nat.lt_or_ge n told.length with hlt | hge
  · rw [List.getElem?_append_left hlt] at hn
    rw [List.take_append_of_le_length hlt.le]
    exact h n ref hn
  · rw [List.getElem?_append_right hge] at hn
    rw [List.take_append, List.take_of_length_le hge]
    exact hnew _ ref hn

/-- Nothing that is told is an adoption. -/
theorem Once.append (h : Once told) (hnew : ∀ goal plan, .adopted goal plan ∉ new) :
    Once (told ++ new) := by
  intro goal plan goal' plan' hmem hmem' href
  rcases List.mem_append.1 hmem with hmem | hmem
  · rcases List.mem_append.1 hmem' with hmem' | hmem'
    · exact h _ _ _ _ hmem hmem' href
    · exact absurd hmem' (hnew goal' plan')
  · exact absurd hmem (hnew goal plan)

/-- **A goal whose plan ran out unmarked** is justified. -/
theorem Honest.justified (h : Honest told g plan k) (honce : Once told) (hmark : g.unverifiedSteps = false)
    (hend : plan.length ≤ k) : Justified told g.ref := by
  obtain ⟨goal, first, hadopted, href, hintents, hpassed⟩ := h
  obtain ⟨hdone, honly⟩ := hpassed hmark
  have hlength : first.length = plan.length := by
    rw [← List.length_map (f := PlanStep.intent), hintents, List.length_map]
  refine ⟨goal, first, hadopted, href, fun goal' plan' hadopted' href' =>
    honce _ _ _ _ hadopted hadopted' (href'.trans href.symm), fun i s hs => hdone i s ?_ hs, honly⟩
  have hlt := (List.getElem?_eq_some_iff.1 hs).1
  omega

/-! ## The ways a state can move -/

theorem Tweak.honest {st st' : Self} (h : Tweak st st') (hst : HonestSelf told made st) :
    HonestSelf told made st' := by
  cases h <;> exact ⟨hst.current, hst.aside, hst.distinct⟩

theorem HonestSelf.mono (h : HonestSelf told made st) {made' : ℕ} (hle : made ≤ made') :
    HonestSelf told made' st :=
  ⟨fun g hg => ⟨(h.current g hg).1, (h.current g hg).2.trans_le hle⟩,
    fun s hs => ⟨(h.aside s hs).1, (h.aside s hs).2.trans_le hle⟩, h.distinct⟩

/-- What is told is no step of any goal. -/
theorem HonestSelf.append (h : HonestSelf told made st)
    (hnew : ∀ ref i how, .passed ref i how ∉ new) : HonestSelf (told ++ new) made st :=
  ⟨fun g hg => ⟨(h.current g hg).1.append_other (hnew g.ref), (h.current g hg).2⟩,
    fun s hs => ⟨(h.aside s hs).1.append_other (hnew s.goal.ref), (h.aside s hs).2⟩, h.distinct⟩

theorem Happening.Before.mono {x : Happening} {made made' : ℕ} (h : x.Before made)
    (hle : made ≤ made') : x.Before made' := by
  cases x <;> exact Nat.lt_of_lt_of_le h hle

/-- A change of what is no goal. -/
theorem Tracked.rest (h : Tracked me) {me' : Companion} (hself : me'.self = me.self)
    (hrow : me'.self = none → me'.row = me.row) (htold : me'.told = me.told)
    (hmade : me.made ≤ me'.made) : Tracked me' := by
  refine ⟨fun hnone => (hrow hnone).trans (h.unread (hself ▸ hnone)), fun st hst => ?_,
    fun x hx => ?_, htold ▸ h.once, htold ▸ h.truthful⟩
  · rw [htold]
    exact (h.self st (hself ▸ hst)).mono hmade
  · rw [htold] at hx
    exact (h.before x hx).mono hmade

theorem Tracked.on (h : Tracked me) {f : Self → Self}
    (hf : ∀ st ∈ me.self, HonestSelf me.told me.made (f st)) : Tracked (me.on f) := by
  refine ⟨fun hnone => h.unread (Option.map_eq_none_iff.1 hnone), fun st hst => ?_, h.before,
    h.once, h.truthful⟩
  obtain ⟨st', hst', rfl⟩ := Option.map_eq_some_iff.1 hst
  exact hf st' hst'

theorem HonestSelf.countFailure (h : HonestSelf told made st) :
    HonestSelf told made st.countFailure := by
  refine ⟨fun g hg => ⟨?_, (h.current g hg).2⟩, h.aside, h.distinct⟩
  obtain ⟨goal, first, hadopted, href, hintents, hpassed⟩ := (h.current g hg).1
  refine ⟨goal, first, hadopted, href, hintents.trans ?_, hpassed⟩
  rw [Self.countFailure]
  refine List.ext_getElem? fun i => ?_
  rw [List.getElem?_map, List.getElem?_map, List.getElem?_modify]
  rcases st.plan[i]? with _ | s
  · rfl
  · simp only [Option.map_some]
    split <;> rfl

theorem HonestSelf.unverify (h : HonestSelf told made st) : HonestSelf told made st.unverify := by
  refine ⟨fun g hg => ?_, h.aside, fun g hg => ?_⟩
  · obtain ⟨g', hg', rfl⟩ := Option.map_eq_some_iff.1 hg
    exact ⟨(h.current g' hg').1.mark { g' with unverifiedSteps := true } rfl rfl _,
      (h.current g' hg').2⟩
  · obtain ⟨g', hg', rfl⟩ := Option.map_eq_some_iff.1 hg
    exact h.distinct g' hg'

/-- The goal set aside is taken up again. -/
theorem HonestSelf.resume (h : HonestSelf told made st) : HonestSelf told made st.resume := by
  unfold Self.resume
  rcases hs : st.suspendedGoal with _ | s
  · exact ⟨nofun, nofun, nofun⟩
  · refine ⟨fun g hg => ?_, nofun, fun _ _ => nofun⟩
    cases hg
    exact h.aside s hs

theorem HonestSelf.suspend (h : HonestSelf told made st) (g : Goal) (hg : made = g.ref)
    {plan : List PlanStep} (hnew : Honest told g plan 0) (aside : Bool) :
    HonestSelf told (made + 1) (Self.turnTo g plan aside st) := by
  have hmono := h.mono (Nat.le_succ made)
  -- Whatever is set aside was there before the new goal.
  have haside : ∀ s ∈ (if aside then st.suspend else st).suspendedGoal,
      Honest told s.goal s.plan s.currentStep ∧ s.goal.ref < made := by
    intro s hs
    cases aside with
    | false => exact h.aside s hs
    | true =>
      rw [if_pos rfl, Self.suspend] at hs
      rcases hcurrent : st.currentGoal with _ | goal
      · rw [hcurrent] at hs
        exact h.aside s hs
      · rcases hother : st.suspendedGoal with _ | other
        · rw [hcurrent, hother] at hs
          cases hs
          exact h.current goal hcurrent
        · rw [hcurrent, hother] at hs
          exact h.aside s hs
  refine ⟨fun g' hg' => ?_, fun s hs => ?_, fun g' hg' s hs => ?_⟩
  · cases hg'
    exact ⟨hnew, by omega⟩
  · exact ⟨(haside s hs).1, (haside s hs).2.trans (Nat.lt_succ_self _)⟩
  · cases hg'
    have hlt := (haside s hs).2
    omega

/-- A self with its goal is told of, and changed. -/
theorem Tracked.tell_on (h : Tracked me) {f : Self → Self} {me' : Companion}
    (hme : me' = { me with told := me.told ++ new, self := some (f st) })
    (hf : HonestSelf (me.told ++ new) me.made (f st)) (hbefore : ∀ x ∈ new, x.Before me.made)
    (honce : Once (me.told ++ new))
    (hnew : ∀ n ref, new[n]? = some (.ended ref true) → Justified (me.told ++ new.take n) ref) :
    Tracked me' := by
  subst hme
  refine ⟨nofun, fun st' hst' => ?_, fun x hx => ?_, honce, truthful_append h.truthful hnew⟩
  · cases hst'
    exact hf
  · rcases List.mem_append.1 hx with hx | hx
    · exact h.before x hx
    · exact hbefore x hx

theorem tell_on_eq {what : Goal → List Happening} {f : Self → Self} (hself : me.self = some st) :
    (me.tell what).on f =
      { me with told := me.told ++ (st.currentGoal.map what).getD [], self := some (f st) } := by
  unfold Companion.tell Companion.on Companion.goal
  rw [hself]
  rfl

theorem tell_on_none {what : Goal → List Happening} {f : Self → Self} (hself : me.self = some st)
    (hgoal : st.currentGoal = none) :
    (me.tell what).on f = { me with told := me.told ++ [], self := some (f st) } := by
  rw [tell_on_eq hself, hgoal]
  rfl

theorem tell_on_some {what : Goal → List Happening} {f : Self → Self} (hself : me.self = some st)
    (hgoal : st.currentGoal = some g) :
    (me.tell what).on f = { me with told := me.told ++ what g, self := some (f st) } := by
  rw [tell_on_eq hself, hgoal]
  rfl

theorem Tracked.pass (h : Tracked me) (hself : me.self = some st) {intent : PyStr} {success : Bool}
    (hpassed : PassedBy st intent success) : Tracked (me.pass st.currentStep intent success) := by
  have hst := h.self st hself
  rcases hgoal : st.currentGoal with _ | g
  · refine h.tell_on (tell_on_none hself hgoal) ?_ nofun (h.once.append nofun) nofun
    rw [List.append_nil]
    refine ⟨fun g hg => ?_, hst.aside, hst.distinct⟩
    cases hgoal.symm.trans hg
  · obtain ⟨hhonest, hlt⟩ := hst.current g hgoal
    obtain ⟨at', hat, hintent⟩ := hpassed.step
    refine h.tell_on (tell_on_some hself hgoal) ?_ (fun x hx => ?_)
      (h.once.append fun _ _ hmem => by cases List.mem_singleton.1 hmem) (fun n ref hn => ?_)
    · refine ⟨fun g' hg' => ?_, fun s hs => ?_, hst.distinct⟩
      · cases hgoal.symm.trans hg'
        refine ⟨?_, hlt⟩
        obtain ⟨goal, first, hadopted, href, hintents, hdone⟩ := hhonest
        refine ⟨goal, first, List.mem_append_left _ hadopted, href, hintents, fun hmark => ?_⟩
        -- An unmarked goal was moved on by a success.
        have hsuccess : success = true := by
          by_contra hfailed
          rw [hpassed.marked (Bool.eq_false_iff.2 hfailed) g hgoal] at hmark
          cases hmark
        obtain ⟨hdone, honly⟩ := hdone hmark
        refine ⟨fun i s hi hs => ?_, fun i how hmem => ?_⟩
        · rcases Nat.lt_succ_iff_lt_or_eq.1 hi with hi | rfl
          · exact List.mem_append_left _ (hdone i s hi hs)
          · have hsame : s.intent = intent := by
              have hfirst : (first.map PlanStep.intent)[st.currentStep]? = some s.intent := by
                rw [List.getElem?_map, hs]
                rfl
              have hplan : (st.plan.map PlanStep.intent)[st.currentStep]? = some at'.intent := by
                rw [List.getElem?_map]
                exact congrArg (Option.map PlanStep.intent) hat
              rw [hintents, hplan, Option.some_inj] at hfirst
              exact hfirst.symm.trans hintent
            rw [hsame, hsuccess]
            exact List.mem_append_right _ List.mem_cons_self
        · rcases List.mem_append.1 hmem with hmem | hmem
          · exact honly i how hmem
          · cases List.mem_singleton.1 hmem
            exact ⟨intent, by rw [hsuccess]⟩
      · refine ⟨(hst.aside s hs).1.append_other fun i how hmem => ?_, (hst.aside s hs).2⟩
        have heq := List.mem_singleton.1 hmem
        rw [Happening.passed.injEq] at heq
        exact hst.distinct g hgoal s hs heq.1.symm
    · cases List.mem_singleton.1 hx
      exact hlt
    · have hmem := List.mem_of_getElem? hn
      cases List.mem_singleton.1 hmem

theorem Tracked.cool (h : Tracked me) (hself : me.self = some st) (n : ℕ) :
    Tracked (me.cool st.currentStep n) := by
  have hst := h.self st hself
  rcases hgoal : st.currentGoal with _ | g
  · refine h.tell_on (tell_on_none hself hgoal) ?_ nofun (h.once.append nofun) nofun
    rw [List.append_nil]
    refine ⟨fun g hg => ?_, hst.aside, hst.unverify.distinct⟩
    obtain ⟨g', hg', -⟩ := Option.map_eq_some_iff.1 hg
    cases hgoal.symm.trans hg'
  · obtain ⟨hhonest, hlt⟩ := hst.current g hgoal
    refine h.tell_on (tell_on_some hself hgoal) ?_ (fun x hx => ?_)
      (h.once.append fun _ _ hmem => ?_) (fun n ref hn => ?_)
    · refine ⟨fun g' hg' => ?_, fun s hs => ?_, hst.unverify.distinct⟩
      · obtain ⟨g', hsame, rfl⟩ := Option.map_eq_some_iff.1 hg'
        cases hgoal.symm.trans hsame
        obtain ⟨goal, first, hadopted, href, hintents, -⟩ := hhonest
        exact ⟨⟨goal, first, List.mem_append_left _ hadopted, href, hintents, nofun⟩, hlt⟩
      · refine ⟨(hst.aside s hs).1.append_other fun i how hmem => ?_, (hst.aside s hs).2⟩
        obtain ⟨j, -, heq⟩ := List.mem_map.1 hmem
        rw [Happening.passed.injEq] at heq
        exact hst.distinct g hgoal s hs heq.1
    · obtain ⟨j, -, rfl⟩ := List.mem_map.1 hx
      exact hlt
    · obtain ⟨j, -, heq⟩ := List.mem_map.1 hmem
      cases heq
    · obtain ⟨j, -, heq⟩ := List.mem_map.1 (List.mem_of_getElem? hn)
      cases heq

/-- **A goal ends.** It is recorded as finished where its plan ran out and it is
not marked. -/
theorem Tracked.finish (h : Tracked me) {complete : Bool}
    (hend : complete = true → ∀ st ∈ me.self, st.plan.length ≤ st.currentStep) :
    Tracked (me.finish complete) := by
  rcases hself : me.self with _ | st
  · have heq : me.finish complete = { me with told := me.told ++ [] } := by
      unfold Companion.finish Companion.tell Companion.on Companion.goal
      rw [hself]
      rfl
    rw [heq, List.append_nil]
    exact h
  · have hst := h.self st hself
    rcases hgoal : st.currentGoal with _ | g
    · refine h.tell_on (tell_on_none hself hgoal) ?_ nofun (h.once.append nofun) nofun
      rw [List.append_nil]
      exact hst.resume
    · obtain ⟨hhonest, hlt⟩ := hst.current g hgoal
      refine h.tell_on (tell_on_some hself hgoal) ?_ (fun x hx => ?_)
        (h.once.append fun _ _ hmem => by cases List.mem_singleton.1 hmem) (fun n ref hn => ?_)
      · exact (hst.append fun ref i how hmem => by cases List.mem_singleton.1 hmem).resume
      · cases List.mem_singleton.1 hx
        exact hlt
      · have hzero : n = 0 := by
          have hlt := (List.getElem?_eq_some_iff.1 hn).1
          rw [List.length_singleton] at hlt
          omega
        subst hzero
        rw [List.getElem?_cons_zero, Option.some_inj, Happening.ended.injEq] at hn
        obtain ⟨rfl, hverified⟩ := hn
        rw [Goal.verified, Bool.and_eq_true, Bool.not_eq_true'] at hverified
        rw [List.take_zero, List.append_nil]
        exact hhonest.justified h.once hverified.2 (hend hverified.1 st hself)

theorem Tracked.adopt (h : Tracked me) {goal : PyStr} {reason : Option PyStr} {started : PyText}
    {plan : List PlanStep} {aside : Bool} :
    Tracked (me.adopt goal reason started plan aside) := by
  have hmade : Tracked { me with made := me.made + 1 } :=
    h.rest rfl (fun _ => rfl) rfl (Nat.le_succ _)
  rcases hself : me.self with _ | st
  · have heq : me.adopt goal reason started plan aside =
        { me with made := me.made + 1, told := me.told ++ [] } := by
      unfold Companion.adopt Companion.tell Companion.on Companion.goal
      rw [hself]
      rfl
    rw [heq, List.append_nil]
    exact hmade
  · have hst := h.self st hself
    obtain ⟨g, hg⟩ : ∃ g : Goal, g = ⟨me.made, goal, reason, started, false⟩ := ⟨_, rfl⟩
    have heq : me.adopt goal reason started plan aside =
        { me with
          made := me.made + 1
          told := me.told ++ [.adopted g plan]
          self := some (Self.turnTo g plan aside st) } := by
      unfold Companion.adopt Companion.tell Companion.on Companion.goal
      rw [hself, hg]
      rfl
    -- The object is new, so nothing was told of it yet.
    have hfresh : ∀ x ∈ me.told, x.Before g.ref := by
      rw [hg]
      exact h.before
    refine hmade.tell_on heq ?_ (fun x hx => ?_) ?_ (fun n ref hn => ?_)
    · have hmore : HonestSelf (me.told ++ [.adopted g plan]) me.made st :=
        hst.append fun ref i how hmem => by cases List.mem_singleton.1 hmem
      refine hmore.suspend g (by rw [hg]) ⟨g, plan, List.mem_append_right _ List.mem_cons_self, rfl,
        rfl, fun _ => ⟨fun i _ hi => absurd hi (Nat.not_lt_zero i), fun i how hmem => ?_⟩⟩ aside
      rcases List.mem_append.1 hmem with hmem | hmem
      · exact absurd (hfresh _ hmem) (Nat.lt_irrefl _)
      · cases List.mem_singleton.1 hmem
    · cases List.mem_singleton.1 hx
      show g.ref < me.made + 1
      rw [hg]
      exact Nat.lt_succ_self _
    · intro goal₁ plan₁ goal₂ plan₂ hmem₁ hmem₂ href
      rcases List.mem_append.1 hmem₁ with hmem₁ | hmem₁
      · rcases List.mem_append.1 hmem₂ with hmem₂ | hmem₂
        · exact h.once _ _ _ _ hmem₁ hmem₂ href
        · cases List.mem_singleton.1 hmem₂
          exact absurd (hfresh _ hmem₁) (by rw [Happening.Before, href]; exact Nat.lt_irrefl _)
      · cases List.mem_singleton.1 hmem₁
        rcases List.mem_append.1 hmem₂ with hmem₂ | hmem₂
        · exact absurd (hfresh _ hmem₂) (by rw [Happening.Before, href]; exact Nat.lt_irrefl _)
        · cases List.mem_singleton.1 hmem₂
          exact ⟨rfl, rfl⟩
    · have hmem := List.mem_of_getElem? hn
      cases List.mem_singleton.1 hmem

theorem steps_tracked (npcId : PyStr) : Steps npcId (fun _ => True) (fun _ => True) Tracked where
  unread h := h.unread
  new name owner h hnone _ := by
    refine ⟨nofun, fun st hst => ?_, h.before, h.once, h.truthful⟩
    cases hst
    exact ⟨nofun, nofun, nofun⟩
  tweak h hself htweak := by
    refine ⟨nofun, fun st hst => ?_, h.before, h.once, h.truthful⟩
    cases hst
    exact htweak.honest (h.self _ hself)
  made h := h.rest rfl (fun _ => rfl) rfl (Nat.le_add_right _ _)
  inbox _ h := h.rest rfl (fun _ => rfl) rfl le_rfl
  jobs _ h := h.rest rfl (fun _ => rfl) rfl le_rfl
  row _ h hself := h.rest rfl (fun hnone => by cases hself.symm.trans hnone) rfl le_rfl
  seen h _ := h.rest rfl (fun _ => rfl) rfl le_rfl
  fail h := h.on fun st hst => (h.self st hst).countFailure
  unverify h := h.on fun st hst => (h.self st hst).unverify
  pass h hself hpassed _ := h.pass hself hpassed
  done h hself hpassed hlast := by
    refine (h.pass hself hpassed).finish fun _ st hst => ?_
    rw [Companion.pass, tell_on_eq hself] at hst
    cases hst
    exact hlast.ge
  hang h hself hpassed _ _ := h.pass hself hpassed
  cool h hself _ _ := h.cool hself _
  coolDone h hself _ _ := (h.cool hself _).finish nofun
  coolHang h hself _ _ _ := h.cool hself _
  adopt _ _ _ _ h _ _ := h.adopt
  giveUp h := h.finish nofun

/-- **Goals are finished honestly.** In every run, whatever a companion records
as finished was adopted with a plan, every step of which a successful result
brought it past, and nothing else ever did. -/
theorem justified_of_finished {lower : PyStr → PyStr} {u : Unicode} {calls : List Call}
    {npcId : PyStr} {n ref : ℕ}
    (h : ((Machine.run (step lower u) fresh calls).companions npcId).told[n]? =
      some (.ended ref true)) :
    Justified (((Machine.run (step lower u) fresh calls).companions npcId).told.take n) ref := by
  have htracked : Tracked ((Machine.run (step lower u) fresh calls).companions npcId) :=
    companion_run npcId (steps_tracked npcId) ⟨fun _ => rfl, nofun, nofun, nofun, nofun⟩
      fun c _ => c.op.ok_true
  exact htracked.truthful n ref h

/-- A plan of one step, which succeeded. -/
theorem justified_of_finished_forage :
    (forager (PyStr.lit "fill the larder") 2).told[2]? = some (.ended 2 true) ∧
      Justified ((forager (PyStr.lit "fill the larder") 2).told.take 2) 2 := by
  have h : (forager (PyStr.lit "fill the larder") 2).told[2]? = some (.ended 2 true) := by
    decide +kernel
  exact ⟨h, justified_of_finished h⟩

end Sentience

end GoblinZomboid
