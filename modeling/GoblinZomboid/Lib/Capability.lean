import GoblinZomboid.Lib.Run
import Mathlib.Data.List.Induction
/-!
# One-use capabilities

A machine that hands out named capabilities keeps a table of those in
force. If a name that has once been taken is never minted again, a
capability removed from the table is gone for the rest of the run, and
every one found there was minted at some point of it.
-/

/-- **A capability table of a machine.** `held` is the table; `taken` says
a name can no longer be minted. -/
structure Capability {σ α : Type*} (step : σ → α → σ) (τ γ : Type*) where
  held : σ → τ → Option γ
  taken : σ → τ → Prop
  taken_step : ∀ {s t} a, taken s t → taken (step s a) t
  fresh : ∀ {s a t g}, held s t ≠ some g → held (step s a) t = some g → ¬ taken s t
  taken_of_new : ∀ {s a t g}, held s t ≠ some g → held (step s a) t = some g →
    taken (step s a) t

namespace Capability

variable {σ α τ γ : Type*} {step : σ → α → σ} (C : Capability step τ γ)
variable {s : σ} {t : τ} {g : γ}

/-- The step puts the capability into the table. -/
def Mints (s : σ) (a : α) (t : τ) (g : γ) : Prop :=
  C.held s t ≠ some g ∧ C.held (step s a) t = some g

theorem taken_run (h : C.taken s t) (ops : List α) : C.taken (Machine.run step s ops) t := by
  have hstep : ∀ s a, C.taken s t → C.taken (step s a) t := fun _ a => C.taken_step a
  exact Machine.invariant hstep h ops

/-- **Removed is gone.** A taken name that is not in the table stays out of
it. -/
theorem held_run_of_taken (ht : C.taken s t) (hh : C.held s t = none) (ops : List α) :
    C.held (Machine.run step s ops) t = none := by
  have hstep : ∀ s a, C.taken s t ∧ C.held s t = none →
      C.taken (step s a) t ∧ C.held (step s a) t = none := by
    rintro s a ⟨ht, hh⟩
    refine ⟨C.taken_step a ht, Option.eq_none_iff_forall_ne_some.2 fun g hg => ?_⟩
    exact C.fresh (by rw [hh]; simp) hg ht
  exact (Machine.invariant hstep ⟨ht, hh⟩ ops).2

/-- **Everything in the table was minted.** -/
theorem exists_mints_of_held {ops : List α} (h0 : ∀ t, C.held s t = none)
    (h : C.held (Machine.run step s ops) t = some g) :
    ∃ pre a post, ops = pre ++ a :: post ∧ C.Mints (Machine.run step s pre) a t g := by
  induction ops using List.reverseRecOn with
  | nil => simp [h0 t] at h
  | append_singleton ops a ih =>
    rw [Machine.run_snoc] at h
    by_cases hheld : C.held (Machine.run step s ops) t = some g
    · obtain ⟨pre, b, post, rfl, hm⟩ := ih hheld
      exact ⟨pre, b, post ++ [a], by simp, hm⟩
    · exact ⟨ops, a, [], rfl, hheld, h⟩

/-- A held name is taken. -/
theorem taken_of_held {ops : List α} (h0 : ∀ t, C.held s t = none)
    (h : C.held (Machine.run step s ops) t = some g) : C.taken (Machine.run step s ops) t := by
  obtain ⟨pre, a, post, rfl, hne, hnew⟩ := C.exists_mints_of_held h0 h
  rw [Machine.run_append, Machine.run_cons]
  exact C.taken_run (C.taken_of_new hne hnew) post

/-- **One use.** Once a step has taken a held capability out of the table,
no later state holds its name. -/
theorem held_run_of_spent {ops : List α} (h0 : ∀ t, C.held s t = none) {a : α}
    (h : C.held (Machine.run step s ops) t = some g)
    (hspent : C.held (step (Machine.run step s ops) a) t = none) (later : List α) :
    C.held (Machine.run step s (ops ++ a :: later)) t = none := by
  rw [Machine.run_append, Machine.run_cons]
  exact C.held_run_of_taken (C.taken_step a (C.taken_of_held h0 h)) hspent later

end Capability
