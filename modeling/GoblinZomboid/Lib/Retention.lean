import Mathlib.Data.List.Basic
import Mathlib.Data.List.Nodup
import Mathlib.Order.Lattice
import Mathlib.Order.Nat
/-!
# Retention

A list is pruned to what one of several rankings puts among its first. Pruning
again after something new came leaves what pruning everything at once leaves:
nothing that was dropped would have come back.
-/

namespace Retention

variable {α : Type}

/-- A ranking and how many of its first it keeps; `above a b` says that `b`
comes before `a`. -/
structure Rule (α : Type) where
  above : α → α → Bool
  size : ℕ
  irrefl : ∀ a, above a a = false
  trans : ∀ {a b c}, above a b = true → above b c = true → above a c = true

/-- Fewer come before than are kept. -/
def Rule.keeps (rule : Rule α) (l : List α) (a : α) : Bool := l.countP (rule.above a) < rule.size

/-- What one of the rules keeps. -/
def prune (rules : List (Rule α)) (l : List α) : List α :=
  l.filter fun a => rules.any fun rule => rule.keeps l a

/-! ## Pruning in pieces -/

theorem Rule.keeps_of_sublist {rule : Rule α} {l m : List α} (h : m.Sublist l) {a : α}
    (hkeeps : rule.keeps l a = true) : rule.keeps m a = true := by
  unfold Rule.keeps at hkeeps ⊢
  rw [decide_eq_true_eq] at hkeeps ⊢
  exact lt_of_le_of_lt h.countP_le hkeeps

theorem countP_lt {p q : α → Bool} {l : List α} {b : α} (hmono : ∀ c ∈ l, p c = true → q c = true)
    (hb : b ∈ l) (hq : q b = true) (hp : p b = false) : l.countP p < l.countP q := by
  obtain ⟨s, t, rfl⟩ := List.append_of_mem hb
  have hs : s.countP p ≤ s.countP q :=
    List.countP_mono_left fun c hc => hmono c (List.mem_append_left _ hc)
  have ht : t.countP p ≤ t.countP q :=
    List.countP_mono_left fun c hc => hmono c (List.mem_append_right _ (List.mem_cons_of_mem _ hc))
  rw [List.countP_append, List.countP_append, List.countP_cons_of_pos hq,
    List.countP_cons_of_neg (by rw [hp]; exact Bool.false_ne_true)]
  omega

/-- Where something that is not kept comes before `a`, there are enough that are
kept. The highest such has only kept ones before it. -/
theorem Rule.size_le_countP {rule : Rule α} {l : List α} {a t : α} (ht : t ∈ l)
    (habove : rule.above a t = true) (hdropped : rule.keeps l t = false) :
    rule.size ≤ l.countP fun b => rule.above a b && rule.keeps l b := by
  induction hrank : l.countP (rule.above t) using Nat.strongRecOn generalizing t with
  | ind n ih =>
    by_cases hall : ∀ b ∈ l, rule.above t b = true → rule.keeps l b = true
    · have hsize : rule.size ≤ l.countP (rule.above t) := by
        unfold Rule.keeps at hdropped
        simpa using hdropped
      refine hsize.trans (List.countP_mono_left fun b hb hbt => ?_)
      rw [Bool.and_eq_true]
      exact ⟨rule.trans habove hbt, hall b hb hbt⟩
    · push Not at hall
      obtain ⟨b, hb, hbt, hkeeps⟩ := hall
      have hlower : l.countP (rule.above b) < l.countP (rule.above t) :=
        countP_lt (fun c _ hc => rule.trans hbt hc) hb hbt (rule.irrefl b)
      exact ih _ (hrank ▸ hlower) hb (rule.trans habove hbt) (by simpa using hkeeps) rfl

/-- **A rule sees no difference** once only what it does not keep is gone. -/
theorem Rule.keeps_filter (rule : Rule α) {l : List α} {p : α → Bool}
    (hp : ∀ b ∈ l, rule.keeps l b = true → p b = true) (a : α) :
    rule.keeps (l.filter p) a = rule.keeps l a := by
  rw [Bool.eq_iff_iff]
  refine ⟨fun hkeeps => ?_, Rule.keeps_of_sublist List.filter_sublist⟩
  by_contra hdropped
  have hsize : rule.size ≤ l.countP fun b => rule.above a b && rule.keeps l b := by
    by_cases hall : ∀ b ∈ l, rule.above a b = true → rule.keeps l b = true
    · have hcount : rule.size ≤ l.countP (rule.above a) := by
        unfold Rule.keeps at hdropped
        simpa using hdropped
      refine hcount.trans (List.countP_mono_left fun b hb hba => ?_)
      rw [Bool.and_eq_true]
      exact ⟨hba, hall b hb hba⟩
    · push Not at hall
      obtain ⟨t, ht, habove, htDropped⟩ := hall
      exact Rule.size_le_countP ht habove (by simpa using htDropped)
  have hless : (l.filter p).countP (rule.above a) < rule.size := by
    unfold Rule.keeps at hkeeps
    simpa using hkeeps
  rw [List.countP_filter] at hless
  refine absurd (hsize.trans (List.countP_mono_left fun b hb hboth => ?_)) (not_le.2 hless)
  rw [Bool.and_eq_true] at hboth ⊢
  exact ⟨hboth.1, hp b hb hboth.2⟩

theorem prune_filter (rules : List (Rule α)) {l : List α} {p : α → Bool}
    (hp : ∀ b ∈ l, (rules.any fun rule => rule.keeps l b) = true → p b = true) :
    prune rules (l.filter p) = prune rules l := by
  have hsame : ∀ a, (rules.any fun rule => rule.keeps (l.filter p) a) =
      rules.any fun rule => rule.keeps l a := by
    intro a
    rw [Bool.eq_iff_iff, List.any_eq_true, List.any_eq_true]
    refine exists_congr fun rule => and_congr_right fun hrule => ?_
    rw [rule.keeps_filter fun b hb hkeeps => hp b hb (List.any_eq_true.2 ⟨rule, hrule, hkeeps⟩)]
  unfold prune
  simp only [hsame]
  rw [List.filter_filter]
  refine List.filter_congr fun a ha => ?_
  rcases hkept : rules.any fun rule => rule.keeps l a with _ | _
  · rfl
  · rw [hp a ha hkept]
    rfl

/-- **Pruning as new things come** is pruning at the end. -/
theorem prune_append [DecidableEq α] (rules : List (Rule α)) {l new : List α}
    (hnew : ∀ a ∈ new, a ∉ l) : prune rules (prune rules l ++ new) = prune rules (l ++ new) := by
  have hsplit : prune rules l ++ new =
      (l ++ new).filter fun a => (rules.any fun rule => rule.keeps l a) || decide (a ∈ new) := by
    rw [List.filter_append]
    congr 1
    · refine List.filter_congr fun a ha => ?_
      have hnot : decide (a ∈ new) = false := decide_eq_false fun hmem => hnew a hmem ha
      rw [hnot, Bool.or_false]
    · refine (List.filter_eq_self.2 fun a ha => ?_).symm
      rw [decide_eq_true ha, Bool.or_true]
  rw [hsplit]
  refine prune_filter rules fun b hb hkept => ?_
  rw [Bool.or_eq_true, decide_eq_true_eq]
  rcases List.mem_append.1 hb with hb | hb
  · left
    obtain ⟨rule, hrule, hkeeps⟩ := List.any_eq_true.1 hkept
    exact List.any_eq_true.2
      ⟨rule, hrule, Rule.keeps_of_sublist (List.sublist_append_left l new) hkeeps⟩
  · exact .inr hb

/-! ## Rankings by a key -/

variable {κ : Type} [LinearOrder κ]

/-- The ranking by a key, the greatest first. -/
def byKey (key : α → κ) (size : ℕ) : Rule α where
  above a b := decide (key a < key b)
  size := size
  irrefl a := decide_eq_false (lt_irrefl (key a))
  trans hab hbc := decide_eq_true ((of_decide_eq_true hab).trans (of_decide_eq_true hbc))

/-- The first of a list in the order of the key, the greatest first. -/
def first (key : α → κ) (size : ℕ) (l : List α) : List α :=
  (l.mergeSort fun a b => decide (key b ≤ key a)).take size

theorem mem_take_iff {key : α → κ} {s : List α} (hsorted : s.Pairwise fun a b => key b < key a)
    {size : ℕ} {a : α} :
    a ∈ s.take size ↔ a ∈ s ∧ s.countP (fun b => decide (key a < key b)) < size := by
  induction s generalizing size with
  | nil => exact iff_of_false (by simp) nofun
  | cons x s ih =>
    obtain ⟨hx, hs⟩ := List.pairwise_cons.1 hsorted
    cases size with
    | zero => exact iff_of_false (by simp) fun h => absurd h.2 (Nat.not_lt_zero _)
    | succ size =>
      have hcons (hmem : a ∈ s) : (x :: s).countP (fun b => decide (key a < key b)) =
          s.countP (fun b => decide (key a < key b)) + 1 :=
        List.countP_cons_of_pos (p := fun b => decide (key a < key b))
          (decide_eq_true (hx a hmem))
      rw [List.take_succ_cons, List.mem_cons, List.mem_cons, ih hs]
      constructor
      · rintro (rfl | ⟨hmem, hcount⟩)
        · refine ⟨.inl rfl, ?_⟩
          have hnone : (a :: s).countP (fun b => decide (key a < key b)) = 0 := by
            rw [List.countP_eq_zero]
            intro b hb
            rw [decide_eq_true_eq, not_lt]
            rcases List.mem_cons.1 hb with rfl | hb
            · exact le_rfl
            · exact (hx b hb).le
          rw [hnone]
          exact Nat.succ_pos size
        · refine ⟨.inr hmem, ?_⟩
          rw [hcons hmem]
          exact Nat.succ_lt_succ hcount
      · rintro ⟨rfl | hmem, hcount⟩
        · exact .inl rfl
        · rw [hcons hmem] at hcount
          exact .inr ⟨hmem, Nat.lt_of_succ_lt_succ hcount⟩

/-- **The first in an order** are what the ranking keeps. -/
theorem mem_first_iff {key : α → κ} {l : List α} (hnodup : (l.map key).Nodup) {size : ℕ} {a : α} :
    a ∈ first key size l ↔ a ∈ l ∧ (byKey key size).keeps l a = true := by
  have hperm := List.mergeSort_perm l fun a b => decide (key b ≤ key a)
  have hle : (l.mergeSort fun a b => decide (key b ≤ key a)).Pairwise fun a b => key b ≤ key a := by
    have hpairwise := @List.pairwise_mergeSort α (fun a b => decide (key b ≤ key a))
      (fun a b c hab hbc => by
        rw [decide_eq_true_eq] at hab hbc ⊢
        exact hbc.trans hab)
      (fun a b => by
        rw [Bool.or_eq_true, decide_eq_true_eq, decide_eq_true_eq]
        exact le_total (key b) (key a)) l
    exact hpairwise.imp fun h => of_decide_eq_true h
  have hne : (l.mergeSort fun a b => decide (key b ≤ key a)).Pairwise fun a b => key a ≠ key b :=
    List.pairwise_map.1 ((hperm.map key).nodup_iff.2 hnodup)
  have hlt := (hle.and hne).imp fun h => lt_of_le_of_ne h.1 h.2.symm
  unfold first
  rw [mem_take_iff hlt, hperm.mem_iff, hperm.countP_eq]
  unfold Rule.keeps byKey
  rw [decide_eq_true_eq]

end Retention
