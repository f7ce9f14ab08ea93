import Mathlib.Data.Finset.Card
import Mathlib.Data.Finset.Image
/-!
# Probing for a candidate that is free

Numbered candidates are tried one after the other until one is not in use.
Where no two numbers give the same candidate, finitely many names in use are
passed after as many rounds.
-/

namespace Probing

variable {α : Type*} [DecidableEq α] (candidate : ℕ → α) (used : List α)

/-- The number of the first free candidate from `n` on, in so many rounds. -/
def probe : ℕ → ℕ → Option ℕ
  | 0, _ => none
  | fuel + 1, n => if candidate n ∈ used then probe fuel (n + 1) else some n

variable {candidate used} {fuel n k : ℕ}

/-- What is found is free, and everything before it is in use. -/
theorem probe_eq_some (h : probe candidate used fuel n = some k) :
    n ≤ k ∧ candidate k ∉ used ∧ ∀ m, n ≤ m → m < k → candidate m ∈ used := by
  induction fuel generalizing n with
  | zero => cases h
  | succ fuel ih =>
    rw [probe] at h
    split at h
    · rename_i hused
      obtain ⟨hle, hfree, hbefore⟩ := ih h
      refine ⟨by omega, hfree, fun m hm hlt => ?_⟩
      rcases Nat.eq_or_lt_of_le hm with rfl | hgt
      · exact hused
      · exact hbefore m hgt hlt
    · rename_i hfree
      obtain rfl := Option.some.inj h
      exact ⟨le_rfl, hfree, fun m hm hlt => absurd hlt (by omega)⟩

/-- While nothing is found, all candidates are in use. -/
theorem mem_of_probe_eq_none (h : probe candidate used fuel n = none) :
    ∀ i < fuel, candidate (n + i) ∈ used := by
  induction fuel generalizing n with
  | zero => intro i hi; omega
  | succ fuel ih =>
    rw [probe] at h
    split at h
    · rename_i hused
      intro i hi
      rcases i with _ | i
      · exact hused
      · have hnext := ih h i (by omega)
        rwa [Nat.add_assoc, Nat.add_comm 1 i] at hnext
    · cases h

/-- **Probing ends**, after at most one round more than names are in use. -/
theorem probe_isSome (hinj : Function.Injective candidate) (hfuel : used.length < fuel) :
    (probe candidate used fuel n).isSome = true := by
  rw [Option.isSome_iff_ne_none]
  intro hnone
  have hall := mem_of_probe_eq_none hnone
  -- The candidates tried are as many as the rounds, and all of them are in use.
  have hsub : (Finset.range fuel).image (fun i => candidate (n + i)) ⊆ used.toFinset := by
    intro a ha
    obtain ⟨i, hi, rfl⟩ := Finset.mem_image.mp ha
    exact List.mem_toFinset.mpr (hall i (Finset.mem_range.mp hi))
  have hcard : ((Finset.range fuel).image (fun i => candidate (n + i))).card = fuel := by
    rw [Finset.card_image_of_injective, Finset.card_range]
    intro i j hij
    have hsame := hinj hij
    omega
  have hle := Finset.card_le_card hsub
  have hlen := used.toFinset_card_le
  omega

/-- More rounds find the same. -/
theorem probe_mono {fuel' : ℕ} (h : probe candidate used fuel n = some k) (hle : fuel ≤ fuel') :
    probe candidate used fuel' n = some k := by
  induction fuel generalizing n fuel' with
  | zero => cases h
  | succ fuel ih =>
    obtain ⟨fuel', rfl⟩ := Nat.exists_eq_add_of_le' (show 1 ≤ fuel' by omega)
    rw [probe] at h ⊢
    split at h
    · rename_i hused
      rw [if_pos hused]
      exact ih h (by omega)
    · rename_i hfree
      rw [if_neg hfree]
      exact h

end Probing
