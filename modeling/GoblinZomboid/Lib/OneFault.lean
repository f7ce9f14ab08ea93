import GoblinZomboid.Lib.Script
/-!
# Scripts that meet one fault at most

A call can fail before it acts or after, or do nothing and not say so; a read
can come back without an answer. Where one call of a script goes wrong and no
more, the fault is either still to come, and the script has gone as it goes
without one, or it is spent, and whatever the script does from there it does
undisturbed.
-/

/-- How a call goes. -/
inductive Fault
  | works
  | before
  | after
  | silent
  deriving DecidableEq

namespace Fault

/-- No fault is to come. -/
def Quiet (ts : Turns Fault) : Prop := ∀ n, ts n = .works

/-- One fault is to come, or none. -/
def Once (ts : Turns Fault) : Prop := ∀ i j, ts i ≠ .works → ts j ≠ .works → i = j

variable {ts : Turns Fault}

theorem Quiet.once (h : Quiet ts) : Once ts := fun i _ hi _ => absurd (h i) hi

theorem Quiet.later (h : Quiet ts) : Quiet fun n => ts (n + 1) := fun n => h (n + 1)

theorem Once.later (h : Once ts) : Once fun n => ts (n + 1) := fun i j hi hj => by
  have := h (i + 1) (j + 1) hi hj
  omega

/-- One fault, in one call. -/
theorem once_at (n : ℕ) (t : Fault) : Once fun i => if i = n then t else .works := by
  have honly : ∀ i, (if i = n then t else Fault.works) ≠ .works → i = n := by
    intro i hi
    by_cases h : i = n
    · exact h
    · rw [if_neg h] at hi
      exact absurd rfl hi
  exact fun i j hi hj => (honly i hi).trans (honly j hj).symm

/-- After the fault there is none. -/
theorem Once.quiet (h : Once ts) (h0 : ts 0 ≠ .works) : Quiet fun n => ts (n + 1) := by
  intro n
  refine Decidable.byContradiction fun hn => ?_
  have := h 0 (n + 1) h0 hn
  omega

end Fault

namespace Script

open Fault

variable {σ τ α β : Type}

/-- A call that acts: whether it has not failed. -/
def act (f : σ → σ) : Script σ Fault Bool := call fun t s =>
  match t with
  | .works => (some true, f s)
  | .before => (some false, s)
  | .after => (some false, f s)
  | .silent => (some true, s)

/-- A read: what it tells is so. -/
def probe (f : σ → α) : Script σ Fault (Option α) := call fun t s =>
  (some (if t = .works then some (f s) else none), s)

/-- A read that is to tell a value. -/
def expect [DecidableEq α] (f : σ → α) (a : α) : Script σ Fault Bool := do
  let told ← probe f
  pure (decide (told = some a))

/-- A script, and another where it says yes. -/
def andThen (m k : Script σ τ Bool) : Script σ τ Bool := do
  let ok ← m
  if ok then k else pure false

variable {P : σ → Prop} {Q : α → σ → Prop} {R : β → σ → Prop} {C : σ → Prop}

/-! ## Whatever goes wrong -/

theorem Holds.act {f : σ → σ} {Q : Bool → σ → Prop}
    (h : ∀ s, P s → (∀ ok, Q ok (f s)) ∧ ∀ ok, Q ok s) : Holds P (Script.act f) Q C := by
  refine Holds.call fun t s hs => ?_
  obtain ⟨hdone, hnot⟩ := h s hs
  cases t with
  | works => exact ⟨fun a _ => hdone a, fun h => by cases h⟩
  | before => exact ⟨fun a _ => hnot a, fun h => by cases h⟩
  | after => exact ⟨fun a _ => hdone a, fun h => by cases h⟩
  | silent => exact ⟨fun a _ => hnot a, fun h => by cases h⟩

theorem Holds.probe {f : σ → α} {Q : Option α → σ → Prop}
    (h : ∀ s, P s → Q (some (f s)) s ∧ Q none s) : Holds P (Script.probe f) Q C := by
  refine Holds.call fun t s hs => ⟨fun a ha => ?_, fun h => by cases h⟩
  obtain rfl := Option.some_inj.1 ha
  dsimp only
  split
  · exact (h s hs).1
  · exact (h s hs).2

/-- A value that is told is the one. -/
theorem Holds.expect [DecidableEq α] {f : σ → α} {a : α} {Q : Bool → σ → Prop}
    (h : ∀ s, P s → (f s = a → Q true s) ∧ Q false s) : Holds P (Script.expect f a) Q C := by
  refine Holds.bind (Q := fun told s => P s ∧ ∀ b, told = some b → b = f s)
    (Holds.probe fun s hs => ⟨⟨hs, fun b hb => (Option.some_inj.1 hb).symm⟩, hs, fun b hb => by cases hb⟩)
    fun told => Holds.pure fun s hs => ?_
  obtain ⟨hP, htold⟩ := hs
  by_cases heq : told = some a
  · rw [decide_eq_true heq]
    exact (h s hP).1 (htold a heq).symm
  · rw [decide_eq_false heq]
    exact (h s hP).2

theorem Holds.andThen {m k : Script σ τ Bool} {Q R : Bool → σ → Prop} (hm : Holds P m Q C)
    (hk : Holds (Q true) k R C) (hno : ∀ s, Q false s → R false s) :
    Holds P (Script.andThen m k) R C := by
  refine Holds.bind hm fun ok => ?_
  cases ok with
  | true => exact hk
  | false => exact Holds.pure hno

/-! ## When nothing goes wrong -/

theorem Ends.act {f : σ → σ} {Q : Bool → σ → Prop} (h : ∀ s, P s → Q true (f s)) :
    Ends (· = .works) P (Script.act f) Q := by
  refine Ends.call fun t s ht hs => ⟨true, f s, ?_, h s hs⟩
  rw [ht]

theorem Ends.probe {f : σ → α} {Q : Option α → σ → Prop} (h : ∀ s, P s → Q (some (f s)) s) :
    Ends (· = .works) P (Script.probe f) Q := by
  refine Ends.call fun t s ht hs => ⟨some (f s), s, ?_, h s hs⟩
  rw [if_pos ht]

theorem Ends.expect [DecidableEq α] {f : σ → α} {a : α} {Q : Bool → σ → Prop}
    (h : ∀ s, P s → Q (decide (f s = a)) s) : Ends (· = .works) P (Script.expect f a) Q := by
  refine Ends.bind (Ends.probe (Q := fun told s => P s ∧ told = some (f s))
    fun s hs => ⟨hs, rfl⟩) fun told => Ends.pure fun s hs => ?_
  obtain ⟨hP, rfl⟩ := hs
  have hsome : decide (some (f s) = some a) = decide (f s = a) := by simp
  rw [hsome]
  exact h s hP

theorem Ends.andThen {G : τ → Prop} {m k : Script σ τ Bool} {Q R : Bool → σ → Prop}
    (hm : Ends G P m Q) (hk : Ends G (Q true) k R) (hno : ∀ s, Q false s → R false s) :
    Ends G P (Script.andThen m k) R := by
  refine Ends.bind hm fun ok => ?_
  cases ok with
  | true => exact hk
  | false => exact Ends.pure hno

/-! ## When one call goes wrong -/

/-- **Where one fault can come**: the script ends, and either the fault is spent
or the script has gone as without one, from `P` to `Q`. -/
structure Spends (P : σ → Prop) (m : Script σ Fault α) (Q : α → σ → Prop) : Prop where
  quiet : Ends (· = .works) (fun _ => True) m fun _ _ => True
  once : ∀ s ts, Once ts → P s → ∃ a ts' s', m s ts = (some (a, ts'), s') ∧
    (Quiet ts' ∨ Once ts' ∧ Q a s')

theorem Spends.pure {a : α} (h : ∀ s, P s → Q a s) :
    Spends P (Pure.pure a : Script σ Fault α) Q :=
  ⟨Ends.pure fun _ _ => trivial, fun s ts hts hs => ⟨a, ts, s, rfl, .inr ⟨hts, h s hs⟩⟩⟩

theorem Spends.get {Q : σ → σ → Prop} (h : ∀ s, P s → Q s s) :
    Spends P (Script.get : Script σ Fault σ) Q :=
  ⟨Ends.get fun _ _ => trivial, fun s ts hts hs => ⟨s, ts, s, rfl, .inr ⟨hts, h s hs⟩⟩⟩

theorem Spends.bind {m : Script σ Fault α} {f : α → Script σ Fault β} (hm : Spends P m Q)
    (hf : ∀ a, Spends (Q a) (f a) R) : Spends P (m >>= f) R := by
  refine ⟨Ends.bind hm.quiet fun a => (hf a).quiet, fun s ts hts hs => ?_⟩
  obtain ⟨a, ts', s', hrun, hrest⟩ := hm.once s ts hts hs
  rw [bind_of_some hrun]
  rcases hrest with hquiet | ⟨honce, ha⟩
  · obtain ⟨b, ts'', s'', hrun', hquiet', -⟩ := (hf a).quiet s' ts' hquiet trivial
    exact ⟨b, ts'', s'', hrun', .inl hquiet'⟩
  · exact (hf a).once s' ts' honce ha

theorem Spends.act {f : σ → σ} {Q : Bool → σ → Prop} (h : ∀ s, P s → Q true (f s)) :
    Spends P (Script.act f) Q := by
  refine ⟨Ends.act fun _ _ => trivial, fun s ts hts hs => ?_⟩
  unfold Script.act
  rw [call_eq]
  cases hturn : ts 0 with
  | works => exact ⟨true, _, f s, rfl, .inr ⟨hts.later, h s hs⟩⟩
  | before => exact ⟨false, _, s, rfl, .inl (hts.quiet (by rw [hturn]; decide))⟩
  | after => exact ⟨false, _, f s, rfl, .inl (hts.quiet (by rw [hturn]; decide))⟩
  | silent => exact ⟨true, _, s, rfl, .inl (hts.quiet (by rw [hturn]; decide))⟩

theorem Spends.probe {f : σ → α} {Q : Option α → σ → Prop} (h : ∀ s, P s → Q (some (f s)) s) :
    Spends P (Script.probe f) Q := by
  refine ⟨Ends.probe fun _ _ => trivial, fun s ts hts hs => ?_⟩
  unfold Script.probe
  rw [call_eq]
  by_cases hturn : ts 0 = .works
  · refine ⟨some (f s), _, s, ?_, .inr ⟨hts.later, h s hs⟩⟩
    rw [if_pos hturn]
    rfl
  · refine ⟨none, _, s, ?_, .inl (hts.quiet hturn)⟩
    rw [if_neg hturn]
    rfl

theorem Spends.expect [DecidableEq α] {f : σ → α} {a : α} {Q : Bool → σ → Prop}
    (h : ∀ s, P s → Q (decide (f s = a)) s) : Spends P (Script.expect f a) Q := by
  refine Spends.bind (Spends.probe (Q := fun told s => P s ∧ told = some (f s))
    fun s hs => ⟨hs, rfl⟩) fun told => Spends.pure fun s hs => ?_
  obtain ⟨hP, rfl⟩ := hs
  have hsome : decide (some (f s) = some a) = decide (f s = a) := by simp
  rw [hsome]
  exact h s hP

theorem Spends.andThen {m k : Script σ Fault Bool} {Q R : Bool → σ → Prop} (hm : Spends P m Q)
    (hk : Spends (Q true) k R) (hno : ∀ s, Q false s → R false s) :
    Spends P (Script.andThen m k) R := by
  refine Spends.bind hm fun ok => ?_
  cases ok with
  | true => exact hk
  | false => exact Spends.pure hno

theorem Spends.ite {c : Prop} [Decidable c] {m m' : Script σ Fault α} (hm : c → Spends P m Q)
    (hm' : ¬c → Spends P m' Q) : Spends P (if c then m else m') Q := by
  by_cases hc : c
  · rw [if_pos hc]
    exact hm hc
  · rw [if_neg hc]
    exact hm' hc

end Script
