import Mathlib.Data.List.Induction
import Mathlib.Order.Basic
/-!
# Runs of a machine

A machine is a step function on states. Whatever its environment decides
is part of the operation, so a run is the fold of the step over a list of
operations. The rules here are the ones a safety proof uses: what each
step keeps, a run keeps; and a condition asked of every step can be read
at any point of the run.
-/

namespace Machine

variable {σ α : Type*} (step : σ → α → σ)

/-- The state a list of operations leads to. -/
def run (s : σ) (ops : List α) : σ := ops.foldl step s

/-- **Every step meets the condition.** The condition is read in the state
the step is taken in. -/
def Meets (cond : σ → α → Prop) : σ → List α → Prop
  | _, [] => True
  | s, a :: ops => cond s a ∧ Meets cond (step s a) ops

instance Meets.decidable (cond : σ → α → Prop) [∀ s a, Decidable (cond s a)] :
    ∀ s ops, Decidable (Meets step cond s ops)
  | _, [] => .isTrue trivial
  | s, a :: ops =>
    have := Meets.decidable cond (step s a) ops
    inferInstanceAs (Decidable (cond s a ∧ Meets step cond (step s a) ops))

@[simp] theorem run_nil (s : σ) : run step s [] = s := rfl

@[simp] theorem run_cons (s : σ) (a : α) (ops : List α) :
    run step s (a :: ops) = run step (step s a) ops := rfl

theorem run_append (s : σ) (ops ops' : List α) :
    run step s (ops ++ ops') = run step (run step s ops) ops' :=
  List.foldl_append

theorem run_snoc (s : σ) (ops : List α) (a : α) :
    run step s (ops ++ [a]) = step (run step s ops) a := by
  rw [run_append, run_cons, run_nil]

variable {step}
variable {cond : σ → α → Prop}

theorem meets_append {s : σ} {ops ops' : List α} :
    Meets step cond s (ops ++ ops') ↔
      Meets step cond s ops ∧ Meets step cond (run step s ops) ops' := by
  induction ops generalizing s with
  | nil => simp [Meets]
  | cons a ops ih => simp [Meets, ih, and_assoc]

/-- A condition every operation of the run meets in every state. -/
theorem meets_of_forall {ops : List α} (h : ∀ s, ∀ a ∈ ops, cond s a) (s : σ) :
    Meets step cond s ops := by
  induction ops generalizing s with
  | nil => trivial
  | cons a ops ih =>
    exact ⟨h s a List.mem_cons_self, ih (fun s b hb => h s b (List.mem_cons_of_mem _ hb)) _⟩

theorem meets_true (s : σ) (ops : List α) : Meets step (fun _ _ => True) s ops :=
  meets_of_forall (fun _ _ _ => trivial) s

theorem Meets.mono {cond' : σ → α → Prop} (h : ∀ s a, cond s a → cond' s a)
    {s : σ} {ops : List α} (hm : Meets step cond s ops) : Meets step cond' s ops := by
  induction ops generalizing s with
  | nil => trivial
  | cons a ops ih => exact ⟨h s a hm.1, ih hm.2⟩

/-- **Conditional invariance.** What every step meeting the condition
keeps, a run whose steps meet it keeps. -/
theorem invariant_of_meets {inv : σ → Prop}
    (hstep : ∀ s a, inv s → cond s a → inv (step s a))
    {s : σ} {ops : List α} (hs : inv s) (hm : Meets step cond s ops) :
    inv (run step s ops) := by
  induction ops generalizing s with
  | nil => exact hs
  | cons a ops ih => exact ih (hstep s a hs hm.1) hm.2

/-- **Invariance.** What every step keeps, every run keeps. -/
theorem invariant {inv : σ → Prop} (hstep : ∀ s a, inv s → inv (step s a))
    {s : σ} (hs : inv s) (ops : List α) : inv (run step s ops) :=
  invariant_of_meets (fun s a h _ => hstep s a h) hs (meets_true s ops)

/-- A condition that holds wherever an invariant does is met by a run that
keeps the invariant. -/
theorem meets_of_invariant {inv : σ → Prop} {cond' : σ → α → Prop}
    (hstep : ∀ s a, inv s → cond s a → inv (step s a))
    (h : ∀ s a, inv s → cond s a → cond' s a) {s : σ} {ops : List α} (hs : inv s)
    (hm : Meets step cond s ops) : Meets step cond' s ops := by
  induction ops generalizing s with
  | nil => trivial
  | cons a ops ih => exact ⟨h s a hs hm.1, ih (hstep s a hs hm.1) hm.2⟩

/-- **Every state of a run** satisfies `P` when the first one does and every
step leads to one that does. -/
theorem forall_prefix_iff {P : σ → Prop} {s : σ} {ops : List α} :
    (∀ ops', ops' <+: ops → P (run step s ops')) ↔
      P s ∧ Meets step (fun s a => P (step s a)) s ops := by
  induction ops generalizing s with
  | nil =>
    constructor
    · intro h
      exact ⟨h [] List.nil_prefix, trivial⟩
    · rintro ⟨h, -⟩ ops' hp
      rw [List.prefix_nil.1 hp]
      exact h
  | cons a ops ih =>
    have htail : Meets step (fun s a => P (step s a)) s (a :: ops) ↔
        ∀ ops', ops' <+: ops → P (run step (step s a) ops') := ih.symm
    rw [htail]
    constructor
    · intro h
      refine ⟨h [] List.nil_prefix, fun ops' hp => h (a :: ops') ?_⟩
      exact (List.prefix_cons_inj a).2 hp
    · rintro ⟨h, hall⟩ ops' hp
      rcases List.prefix_cons_iff.1 hp with rfl | ⟨rest, rfl, hrest⟩
      · exact h
      · exact hall rest hrest

/-- Two conditions that agree wherever an invariant holds are met by the
same runs. -/
theorem meets_congr {inv : σ → Prop} {cond' : σ → α → Prop}
    (hiff : ∀ s a, inv s → (cond s a ↔ cond' s a))
    (hstep : ∀ s a, inv s → cond s a → inv (step s a))
    {s : σ} {ops : List α} (hs : inv s) : Meets step cond s ops ↔ Meets step cond' s ops := by
  induction ops generalizing s with
  | nil => exact Iff.rfl
  | cons a ops ih =>
    simp only [Meets]
    constructor
    · rintro ⟨h, hm⟩
      exact ⟨(hiff s a hs).1 h, (ih (hstep s a hs h)).1 hm⟩
    · rintro ⟨h, hm⟩
      have h' := (hiff s a hs).2 h
      exact ⟨h', (ih (hstep s a hs h')).2 hm⟩

/-- **Monotone quantities.** A measure no step lowers, no run lowers. -/
theorem le_run {β : Type*} [Preorder β] {f : σ → β} (hstep : ∀ s a, f s ≤ f (step s a))
    (s : σ) (ops : List α) : f s ≤ f (run step s ops) := by
  induction ops generalizing s with
  | nil => exact le_rfl
  | cons a ops ih => exact (hstep s a).trans (ih _)

/-! ## What has held since -/

/-- **Since a beginning.** Some step of the run was a beginning, and every
step after it kept on. -/
def Since (step : σ → α → σ) (begins keeps : σ → α → Prop) (s : σ) (ops : List α) : Prop :=
  ∃ before a after, ops = before ++ a :: after ∧ begins (run step s before) a ∧
    Meets step keeps (run step s (before ++ [a])) after

theorem Since.snoc {begins keeps : σ → α → Prop} {s : σ} {ops : List α} {a : α}
    (h : Since step begins keeps s ops) (hk : keeps (run step s ops) a) :
    Since step begins keeps s (ops ++ [a]) := by
  obtain ⟨before, b, after, rfl, hbegins, hkeeps⟩ := h
  refine ⟨before, b, after ++ [a], by simp, hbegins, meets_append.2 ⟨hkeeps, ?_, trivial⟩⟩
  rwa [← run_append, List.append_assoc, List.singleton_append]

/-- What only a beginning brings about, and only keeping on keeps, has held
since a beginning. -/
theorem since_of_run {begins keeps : σ → α → Prop} {P : σ → Prop}
    (hstep : ∀ s a, P (step s a) → begins s a ∨ P s ∧ keeps s a) {s : σ} {ops : List α}
    (hs : ¬P s) (h : P (run step s ops)) : Since step begins keeps s ops := by
  induction ops using List.reverseRecOn with
  | nil => exact absurd h hs
  | append_singleton ops a ih =>
    rw [run_snoc] at h
    rcases hstep _ a h with hbegins | ⟨hP, hkeeps⟩
    · exact ⟨ops, a, [], rfl, hbegins, trivial⟩
    · exact (ih hP).snoc hkeeps

/-! ## Runs without an end -/

/-- The states an unending sequence of operations leads through. -/
def trace (step : σ → α → σ) (s : σ) (ops : ℕ → α) : ℕ → σ
  | 0 => s
  | n + 1 => step (trace step s ops n) (ops n)

theorem trace_invariant {inv : σ → Prop} {s : σ} {ops : ℕ → α}
    (hstep : ∀ s n, inv s → inv (step s (ops n))) (hs : inv s) (n : ℕ) :
    inv (trace step s ops n) := by
  induction n with
  | zero => exact hs
  | succ n ih => exact hstep _ n ih

/-- **What is ever newly true was made true by a step.** -/
theorem exists_step_of_trace {P : σ → Prop} {s : σ} {ops : ℕ → α} {n : ℕ}
    (h : P (trace step s ops n)) :
    P s ∨ ∃ k, ¬ P (trace step s ops k) ∧ P (step (trace step s ops k) (ops k)) := by
  induction n with
  | zero => exact .inl h
  | succ n ih =>
    by_cases hn : P (trace step s ops n)
    · exact ih hn
    · exact .inr ⟨n, hn, h⟩

/-- **A rank that the helpful operations lower** brings the goal about,
when there is always a helpful operation to come. -/
theorem exists_goal_of_rank {P : ℕ → σ → Prop} {Q : σ → Prop} {H : α → Prop}
    {s : σ} {ops : ℕ → α}
    (hkeep : ∀ m s n, P m s → ¬ H (ops n) → P m (step s (ops n)))
    (hlower : ∀ m s n, P m s → H (ops n) →
      Q (step s (ops n)) ∨ ∃ k, k < m ∧ P k (step s (ops n)))
    (halways : ∀ n, ∃ k, n ≤ k ∧ H (ops k)) {m n : ℕ}
    (h : P m (trace step s ops n)) : ∃ k, Q (trace step s ops k) := by
  induction m using Nat.strongRecOn generalizing n with
  | ind m ih =>
    obtain ⟨k, hk, hhelpful⟩ := halways n
    obtain ⟨d, rfl⟩ := Nat.exists_eq_add_of_le hk
    -- The first helpful operation comes after at most `d` others.
    clear hk
    induction d generalizing n with
    | zero =>
      rcases hlower m _ n h hhelpful with hgoal | ⟨j, hj, hrank⟩
      · exact ⟨n + 1, hgoal⟩
      · exact ih j hj (n := n + 1) hrank
    | succ d ihd =>
      by_cases hn : H (ops n)
      · rcases hlower m _ n h hn with hgoal | ⟨j, hj, hrank⟩
        · exact ⟨n + 1, hgoal⟩
        · exact ih j hj (n := n + 1) hrank
      · refine ihd (n := n + 1) (hkeep m _ n h hn) ?_
        rwa [Nat.add_right_comm, Nat.add_assoc]

end Machine
