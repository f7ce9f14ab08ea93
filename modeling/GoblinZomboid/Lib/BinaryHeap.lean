import Mathlib.Order.WithBot
import Mathlib.Data.List.Perm.Basic
import Mathlib.Tactic.Common
/-!
# Binary heaps

A binary heap in an array, its slots counted from one, so that the parent of
slot `i` is slot `i / 2`. The order is stated on the ranks of the slots, where
a slot past the end ranks above every key.
-/

namespace BinaryHeap

/-! ## The order of the ranks -/

section Order

variable {L : Type*} {r : ℕ → L} {i : ℕ}

/-- The ranks after the slots `a` and `b` have changed places. -/
def swapped (r : ℕ → L) (a b : ℕ) : ℕ → L :=
  fun j => if j = a then r b else if j = b then r a else r j

theorem swapped_left (a b : ℕ) : swapped r a b a = r b := by
  rw [swapped, if_pos rfl]

theorem swapped_right (a b : ℕ) : swapped r a b b = r a := by
  by_cases h : b = a
  · rw [h, swapped_left]
  · rw [swapped, if_neg h, if_pos rfl]

theorem swapped_other {a b j : ℕ} (ha : j ≠ a) (hb : j ≠ b) : swapped r a b j = r j := by
  rw [swapped, if_neg ha, if_neg hb]

variable [LinearOrder L]

/-- Every slot but the first ranks at least as high as its parent. -/
def Ordered (r : ℕ → L) : Prop :=
  ∀ j, 1 < j → r (j / 2) ≤ r j

/-- In order but for slot `i`, which may rank below its parent. -/
structure UpOrder (r : ℕ → L) (i : ℕ) : Prop where
  others : ∀ j, 1 < j → j ≠ i → r (j / 2) ≤ r j
  grand : 1 < i → ∀ c, 1 < c → c / 2 = i → r (i / 2) ≤ r c

/-- In order but for slot `i`, which may rank above its children. -/
structure DownOrder (r : ℕ → L) (i : ℕ) : Prop where
  others : ∀ j, 1 < j → j / 2 ≠ i → r (j / 2) ≤ r j
  grand : 1 < i → ∀ c, 1 < c → c / 2 = i → r (i / 2) ≤ r c

/-- **The first slot ranks lowest.** -/
theorem Ordered.root_le (h : Ordered r) (hi : 1 ≤ i) : r 1 ≤ r i := by
  induction i using Nat.strong_induction_on with
  | _ i ih =>
    rcases Nat.lt_or_ge 1 i with hlt | hge
    · exact (ih (i / 2) (by omega) (by omega)).trans (h i hlt)
    · rw [show i = 1 by omega]

theorem UpOrder.finish (h : UpOrder r i) (hstop : 1 < i → r (i / 2) ≤ r i) : Ordered r := by
  intro j hj
  by_cases hji : j = i
  · rw [hji] at hj ⊢
    exact hstop hj
  · exact h.others j hj hji

/-- Changing places with its parent moves the exception one level up. -/
theorem UpOrder.move (h : UpOrder r i) (hi : 1 < i) (hlt : r i < r (i / 2)) :
    UpOrder (swapped r (i / 2) i) (i / 2) where
  others j hj hne := by
    by_cases hji : j = i
    · rw [hji, swapped_left, swapped_right]
      exact hlt.le
    · rw [swapped_other hne hji]
      by_cases hp : j / 2 = i / 2
      · -- the other child of the parent
        rw [hp, swapped_left]
        exact hlt.le.trans (hp ▸ h.others j hj hji)
      · by_cases hc : j / 2 = i
        · rw [hc, swapped_right]
          exact h.grand hi j hj hc
        · rw [swapped_other hp hc]
          exact h.others j hj hji
  grand hp c hc hci := by
    have hup : r (i / 2 / 2) ≤ r (i / 2) := h.others (i / 2) hp (by omega)
    rw [swapped_other (by omega) (by omega)]
    by_cases hc' : c = i
    · rw [hc', swapped_right]
      exact hup
    · rw [swapped_other (by omega) hc']
      exact hup.trans (hci ▸ h.others c hc hc')

theorem DownOrder.finish (h : DownOrder r i) (hl : r i ≤ r (2 * i))
    (hr : r i ≤ r (2 * i + 1)) : Ordered r := by
  intro j hj
  by_cases hji : j / 2 = i
  · rcases (by omega : j = 2 * i ∨ j = 2 * i + 1) with hj' | hj'
    · rw [hji, hj']
      exact hl
    · rw [hji, hj']
      exact hr
  · exact h.others j hj hji

/-- Changing places with its lower child moves the exception to that child. -/
theorem DownOrder.move {c : ℕ} (h : DownOrder r i) (hc : c / 2 = i)
    (hlt : r c < r i) (hmin : ∀ d, d / 2 = i → r c ≤ r d) :
    DownOrder (swapped r i c) c where
  others j hj hne := by
    by_cases hjc : j = c
    · rw [hjc, hc, swapped_left, swapped_right]
      exact hlt.le
    · by_cases hji : j / 2 = i
      · rw [hji, swapped_left, swapped_other (by omega) hjc]
        exact hmin j hji
      · rw [swapped_other hji hne]
        by_cases hj' : j = i
        · rw [hj', swapped_left]
          exact hj' ▸ h.grand (by omega) c (by omega) hc
        · rw [swapped_other hj' hjc]
          exact h.others j hj hji
  grand _ d hd hdc := by
    rw [hc, swapped_left, swapped_other (by omega) (by omega)]
    exact hdc ▸ h.others d hd (by omega)

end Order

/-! ## The heap -/

variable {α : Type*} {K : Type*} {key : α → K}

/-- The element in a slot. -/
def slot (heap : Array α) (i : ℕ) : Option α :=
  if i = 0 then none else heap[i - 1]?

/-- The two slots change places. -/
def swap (heap : Array α) (a b : ℕ) : Array α :=
  heap.swapIfInBounds (a - 1) (b - 1)

/-- The rank of a slot: its key, or above every key past the end. -/
def rank (key : α → K) (heap : Array α) (i : ℕ) : WithTop K :=
  (slot heap i).elim ⊤ (fun x => (key x : WithTop K))

@[simp]
theorem size_swap (heap : Array α) (a b : ℕ) : (swap heap a b).size = heap.size :=
  Array.size_swapIfInBounds

theorem slot_lt {heap : Array α} {i : ℕ} {x : α} (h : slot heap i = some x) :
    1 ≤ i ∧ i ≤ heap.size := by
  rw [slot] at h
  split at h
  · cases h
  · have := (Array.getElem?_eq_some_iff.mp h).1
    omega

theorem rank_of_slot {heap : Array α} {i : ℕ} {x : α} (h : slot heap i = some x) :
    rank key heap i = key x := by
  rw [rank, h, Option.elim_some]

theorem rank_past {heap : Array α} {i : ℕ} (h : heap.size < i) : rank key heap i = ⊤ := by
  have hslot : slot heap i = none := by
    rw [slot, if_neg (by omega)]
    exact Array.getElem?_eq_none (by omega)
  rw [rank, hslot, Option.elim_none]

theorem slot_some {heap : Array α} {i : ℕ} (h1 : 1 ≤ i) (h : i ≤ heap.size) :
    ∃ x, slot heap i = some x := by
  have hlt : i - 1 < heap.size := by omega
  refine ⟨heap[i - 1], ?_⟩
  rw [slot, if_neg (by omega)]
  exact Array.getElem?_eq_getElem (by omega)

theorem slot_swap {heap : Array α} {a b j : ℕ} (ha : 1 ≤ a ∧ a ≤ heap.size)
    (hb : 1 ≤ b ∧ b ≤ heap.size) :
    slot (swap heap a b) j =
      if j = a then slot heap b else if j = b then slot heap a else slot heap j := by
  have hswap : swap heap a b = heap.swap (a - 1) (b - 1) (by omega) (by omega) := by
    rw [swap, Array.swapIfInBounds_def, dif_pos (by omega), dif_pos (by omega)]
  have hne {k : ℕ} (hk : 1 ≤ k) : ¬ k = 0 := by omega
  rcases Nat.eq_zero_or_pos j with hj | hj
  · rw [hj, if_neg (by omega), if_neg (by omega)]
    rfl
  simp only [slot, if_neg (hne ha.1), if_neg (hne hb.1), if_neg (hne hj), hswap]
  rw [Array.getElem?_swap]
  by_cases hja : j = a
  · simp only [hja, if_pos]
    split
    · rename_i h
      rw [h, Array.getElem?_eq_getElem]
    · rw [Array.getElem?_eq_getElem]
  · rw [if_neg hja]
    by_cases hjb : j = b
    · simp only [hjb, if_pos, Array.getElem?_eq_getElem (show a - 1 < heap.size by omega)]
    · rw [if_neg hjb, if_neg (by omega), if_neg (by omega)]

theorem rank_swap {heap : Array α} {a b : ℕ} (ha : 1 ≤ a ∧ a ≤ heap.size)
    (hb : 1 ≤ b ∧ b ≤ heap.size) :
    rank key (swap heap a b) = swapped (rank key heap) a b := by
  funext j
  rw [rank, slot_swap ha hb, swapped]
  split
  · rfl
  · split
    · rfl
    · rfl

theorem swap_perm {heap : Array α} {a b : ℕ} (ha : 1 ≤ a ∧ a ≤ heap.size)
    (hb : 1 ≤ b ∧ b ≤ heap.size) : (swap heap a b).Perm heap := by
  rw [swap, Array.swapIfInBounds_def, dif_pos (by omega), dif_pos (by omega)]
  exact Array.swap_perm _ _

/-! ## Moving up and down -/

variable [LinearOrder K]

/-- Slot `a` is there and its key is below that of slot `b`. -/
def below (key : α → K) (heap : Array α) (a b : ℕ) : Bool :=
  match slot heap a, slot heap b with
  | some x, some y => key x < key y
  | _, _ => false

/-- The lower of a slot and its children. -/
def smallest (key : α → K) (heap : Array α) (i : ℕ) : ℕ :=
  let s := if below key heap (i * 2) i then i * 2 else i
  if below key heap (i * 2 + 1) s then i * 2 + 1 else s

/-- Moves slot `i` up until its parent's key is at most its own. -/
def siftUp (key : α → K) (heap : Array α) (i : ℕ) : Array α :=
  if 1 < i then
    match slot heap (i / 2), slot heap i with
    | some parent, some x =>
      if key parent ≤ key x then heap else siftUp key (swap heap (i / 2) i) (i / 2)
    | _, _ => heap
  else heap
  termination_by i

theorem below_slots {heap : Array α} {a b : ℕ} (h : below key heap a b = true) :
    ∃ x y, slot heap a = some x ∧ slot heap b = some y ∧ key x < key y := by
  rw [below] at h
  split at h
  · rename_i x y hx hy
    exact ⟨x, y, hx, hy, of_decide_eq_true h⟩
  · cases h

theorem smallest_cases (key : α → K) (heap : Array α) (i : ℕ) :
    smallest key heap i = i ∨
      (smallest key heap i / 2 = i ∧ smallest key heap i ≤ heap.size ∧ 1 ≤ i) := by
  rw [smallest]
  by_cases hl : below key heap (i * 2) i = true
  · obtain ⟨x, y, hx, hy, -⟩ := below_slots hl
    have hx' := slot_lt hx
    rw [if_pos hl]
    by_cases hr : below key heap (i * 2 + 1) (i * 2) = true
    · obtain ⟨z, -, hz, -⟩ := below_slots hr
      have hz' := slot_lt hz
      rw [if_pos hr]
      omega
    · rw [if_neg hr]
      omega
  · rw [if_neg hl]
    by_cases hr : below key heap (i * 2 + 1) i = true
    · obtain ⟨z, y, hz, hy, -⟩ := below_slots hr
      have hz' := slot_lt hz
      have hy' := slot_lt hy
      rw [if_pos hr]
      omega
    · rw [if_neg hr]
      exact Or.inl rfl

/-- Moves slot `i` down while a child's key is below its own. -/
def siftDown (key : α → K) (heap : Array α) (i : ℕ) : Array α :=
  if smallest key heap i = i then heap
  else siftDown key (swap heap i (smallest key heap i)) (smallest key heap i)
  termination_by heap.size - i
  decreasing_by
    have := smallest_cases key heap i
    simp only [size_swap]
    omega

/-- Adds an element at the end and moves it up. -/
def push (key : α → K) (heap : Array α) (x : α) : Array α :=
  siftUp key (heap.push x) (heap.size + 1)

/-- Takes the first element out, puts the last in its place and moves it
down. -/
def pop (key : α → K) (heap : Array α) : Option α × Array α :=
  let top := slot heap 1
  match heap.back? with
  | none => (top, heap)
  | some last =>
    let rest := heap.pop
    if 0 < rest.size then (top, siftDown key (rest.setIfInBounds 0 last) 1) else (top, rest)

@[simp]
theorem size_siftUp (heap : Array α) (i : ℕ) : (siftUp key heap i).size = heap.size := by
  fun_induction siftUp key heap i with
  | case1 => rfl
  | case2 heap i _ _ _ _ _ _ ih => rw [ih, size_swap]
  | case3 => rfl
  | case4 => rfl

@[simp]
theorem size_siftDown (heap : Array α) (i : ℕ) : (siftDown key heap i).size = heap.size := by
  fun_induction siftDown key heap i with
  | case1 => rfl
  | case2 heap i _ ih => rw [ih, size_swap]

@[simp]
theorem size_push (heap : Array α) (x : α) : (push key heap x).size = heap.size + 1 := by
  rw [push, size_siftUp, Array.size_push]

theorem size_pop (heap : Array α) : (pop key heap).2.size = heap.size - 1 := by
  rw [pop]
  split
  · rename_i hnone
    rw [Array.back?_eq_none_iff.mp hnone]
    rfl
  · rename_i last hlast
    simp only
    split
    · rw [size_siftDown, Array.size_setIfInBounds, Array.size_pop]
    · rw [Array.size_pop]

/-! ## The order and the contents are kept -/

theorem below_iff {heap : Array α} {a b : ℕ} (hb : 1 ≤ b ∧ b ≤ heap.size) :
    below key heap a b = true ↔ rank key heap a < rank key heap b := by
  obtain ⟨y, hy⟩ := slot_some hb.1 hb.2
  rw [below, rank_of_slot hy, hy]
  cases ha : slot heap a with
  | none =>
    rw [rank, ha]
    simp
  | some x =>
    rw [rank_of_slot ha, WithTop.coe_lt_coe]
    simp

theorem siftUp_keeps {heap : Array α} {i : ℕ} (hi : 1 ≤ i ∧ i ≤ heap.size)
    (h : UpOrder (rank key heap) i) :
    Ordered (rank key (siftUp key heap i)) ∧ (siftUp key heap i).Perm heap := by
  induction i using Nat.strong_induction_on generalizing heap with
  | _ i ih =>
    rw [siftUp]
    split
    · rename_i hlt
      obtain ⟨p, hp⟩ : ∃ p, slot heap (i / 2) = some p := slot_some (by omega) (by omega)
      obtain ⟨x, hx⟩ := slot_some hi.1 hi.2
      simp only [hp, hx]
      split
      · rename_i hle
        refine ⟨h.finish fun _ => ?_, Array.Perm.refl _⟩
        rw [rank_of_slot hp, rank_of_slot hx]
        exact WithTop.coe_le_coe.mpr hle
      · rename_i hgt
        have hrank : rank key heap i < rank key heap (i / 2) := by
          rw [rank_of_slot hp, rank_of_slot hx]
          exact WithTop.coe_lt_coe.mpr (not_le.mp hgt)
        have hpar : 1 ≤ i / 2 ∧ i / 2 ≤ heap.size := by omega
        obtain ⟨hord, hperm⟩ := @ih (i / 2) (by omega) (swap heap (i / 2) i)
          (by rw [size_swap]; exact hpar)
          (by rw [rank_swap hpar hi]; exact h.move hlt hrank)
        exact ⟨hord, hperm.trans (swap_perm hpar hi)⟩
    · exact ⟨h.finish fun hlt => by omega, Array.Perm.refl _⟩

/-- The lower of a slot and its children ranks at most as high as each. -/
theorem smallest_le {heap : Array α} {i : ℕ} (hi : 1 ≤ i ∧ i ≤ heap.size) :
    rank key heap (smallest key heap i) ≤ rank key heap i ∧
      rank key heap (smallest key heap i) ≤ rank key heap (2 * i) ∧
      rank key heap (smallest key heap i) ≤ rank key heap (2 * i + 1) := by
  rw [smallest, Nat.mul_comm i 2]
  by_cases hl : below key heap (2 * i) i = true
  · obtain ⟨x, y, hx, hy, -⟩ := below_slots hl
    have hlt := (below_iff hi).mp hl
    rw [if_pos hl]
    by_cases hr : below key heap (2 * i + 1) (2 * i) = true
    · have hlt' := (below_iff (slot_lt hx)).mp hr
      rw [if_pos hr]
      exact ⟨(hlt'.trans hlt).le, hlt'.le, le_rfl⟩
    · have hge := not_lt.mp fun h => hr ((below_iff (slot_lt hx)).mpr h)
      rw [if_neg hr]
      exact ⟨hlt.le, le_rfl, hge⟩
  · have hge := not_lt.mp fun h => hl ((below_iff hi).mpr h)
    rw [if_neg hl]
    by_cases hr : below key heap (2 * i + 1) i = true
    · have hlt := (below_iff hi).mp hr
      rw [if_pos hr]
      exact ⟨hlt.le, hlt.le.trans hge, le_rfl⟩
    · have hge' := not_lt.mp fun h => hr ((below_iff hi).mpr h)
      rw [if_neg hr]
      exact ⟨le_rfl, hge, hge'⟩

theorem smallest_lt {heap : Array α} {i : ℕ} (hi : 1 ≤ i ∧ i ≤ heap.size)
    (hne : smallest key heap i ≠ i) :
    rank key heap (smallest key heap i) < rank key heap i := by
  rw [smallest] at hne ⊢
  by_cases hl : below key heap (i * 2) i = true
  · obtain ⟨x, y, hx, hy, -⟩ := below_slots hl
    have hlt := (below_iff hi).mp hl
    rw [if_pos hl]
    by_cases hr : below key heap (i * 2 + 1) (i * 2) = true
    · rw [if_pos hr]
      exact ((below_iff (slot_lt hx)).mp hr).trans hlt
    · rw [if_neg hr]
      exact hlt
  · rw [if_neg hl] at hne ⊢
    by_cases hr : below key heap (i * 2 + 1) i = true
    · rw [if_pos hr]
      exact (below_iff hi).mp hr
    · rw [if_neg hr] at hne
      exact absurd rfl hne

theorem siftDown_keeps {heap : Array α} {i : ℕ} (hi : 1 ≤ i ∧ i ≤ heap.size)
    (h : DownOrder (rank key heap) i) :
    Ordered (rank key (siftDown key heap i)) ∧ (siftDown key heap i).Perm heap := by
  fun_induction siftDown key heap i with
  | case1 heap i heq =>
    obtain ⟨-, hl, hr⟩ := @smallest_le _ _ key _ _ _ hi
    rw [heq] at hl hr
    exact ⟨h.finish hl hr, Array.Perm.refl _⟩
  | case2 heap i hne ih =>
    have hs := smallest_cases key heap i
    have hc : smallest key heap i / 2 = i := by omega
    have hin : 1 ≤ smallest key heap i ∧ smallest key heap i ≤ heap.size := by omega
    obtain ⟨-, hl, hr⟩ := @smallest_le _ _ key _ _ _ hi
    have hmove := h.move hc (smallest_lt hi hne) fun d hd => by
      rcases (by omega : d = 2 * i ∨ d = 2 * i + 1) with hd' | hd'
      · exact hd' ▸ hl
      · exact hd' ▸ hr
    obtain ⟨hord, hperm⟩ := ih (by rw [size_swap]; exact hin)
      (by rw [rank_swap hi hin]; exact hmove)
    exact ⟨hord, hperm.trans (swap_perm hi hin)⟩

/-- **A push keeps the order and adds the element.** -/
theorem push_keeps {heap : Array α} (x : α) (h : Ordered (rank key heap)) :
    Ordered (rank key (push key heap x)) ∧ (push key heap x).Perm (heap.push x) := by
  have hrank : ∀ j, j ≤ heap.size → rank key (heap.push x) j = rank key heap j := by
    intro j hj
    rw [rank, rank, slot, slot]
    split
    · rfl
    · rw [Array.getElem?_push_lt (by omega), Array.getElem?_eq_getElem]
  have hpast : ∀ j, heap.size + 1 < j → rank key (heap.push x) j = ⊤ := by
    intro j hj
    exact rank_past (by rw [Array.size_push]; exact hj)
  refine siftUp_keeps (by rw [Array.size_push]; omega) ⟨fun j hj hne => ?_, fun _ c _ hc => ?_⟩
  · rcases Nat.lt_or_ge heap.size j with hlt | hle
    · rw [hpast j (by omega)]
      exact le_top
    · rw [hrank j hle, hrank (j / 2) (by omega)]
      exact h j hj
  · rw [hpast c (by omega)]
    exact le_top

/-- The first element has the lowest key. -/
theorem root_le_mem {heap : Array α} {x y : α} (h : Ordered (rank key heap))
    (hx : slot heap 1 = some x) (hy : y ∈ heap) : key x ≤ key y := by
  obtain ⟨j, hj, rfl⟩ := Array.mem_iff_getElem.mp hy
  have hslot : slot heap (j + 1) = some heap[j] := by
    rw [slot, if_neg (by omega)]
    exact Array.getElem?_eq_getElem hj
  have hle := h.root_le (i := j + 1) (by omega)
  rw [rank_of_slot hx, rank_of_slot hslot] at hle
  exact WithTop.coe_le_coe.mp hle

/-- The last element in the place of the first: in order but for the first. -/
theorem downOrder_refill {heap : Array α} {last : α} (h : Ordered (rank key heap)) :
    DownOrder (rank key (heap.pop.setIfInBounds 0 last)) 1 where
  others j hj hne := by
    have hsize : (heap.pop.setIfInBounds 0 last).size = heap.size - 1 := by
      rw [Array.size_setIfInBounds, Array.size_pop]
    have hrank : ∀ k, 1 < k → k ≤ heap.size - 1 →
        rank key (heap.pop.setIfInBounds 0 last) k = rank key heap k := by
      intro k hk hle
      rw [rank, rank, slot, slot, if_neg (by omega), if_neg (by omega),
        Array.getElem?_setIfInBounds_ne (by omega), Array.getElem?_pop, if_pos (by omega)]
    rcases Nat.lt_or_ge (heap.size - 1) j with hlt | hle
    · rw [rank_past (show _ < j by rw [hsize]; exact hlt)]
      exact le_top
    · rw [hrank j hj hle, hrank (j / 2) (by omega) (by omega)]
      exact h j hj
  grand h1 := absurd h1 (lt_irrefl 1)

theorem refill_perm {rest : Array α} {x : α} (last : α) (hrest : 0 < rest.size)
    (hx : slot (rest.push last) 1 = some x) :
    (rest.push last).Perm ((rest.setIfInBounds 0 last).push x) := by
  obtain ⟨l⟩ := rest
  cases l with
  | nil => exact absurd hrest (lt_irrefl 0)
  | cons y l =>
    have hxy : y = x := by simpa [slot] using hx
    rw [hxy, Array.perm_iff_toList_perm]
    simp only [List.push_toArray, List.setIfInBounds_toArray, List.set_cons_zero,
      List.cons_append]
    calc x :: (l ++ [last])
      List.Perm _ (x :: last :: l) := (List.perm_append_singleton last l).cons x
      List.Perm _ (last :: x :: l) := List.Perm.swap last x l
      List.Perm _ (last :: (l ++ [x])) := (List.perm_append_singleton x l).symm.cons last

/-- **A pop keeps the order and takes out an element of lowest key.** -/
theorem pop_keeps {heap : Array α} (h : Ordered (rank key heap)) (hne : 0 < heap.size) :
    ∃ x rest, pop key heap = (some x, rest) ∧ Ordered (rank key rest) ∧
      heap.Perm (rest.push x) ∧ ∀ y ∈ heap, key x ≤ key y := by
  obtain ⟨x, hx⟩ : ∃ x, slot heap 1 = some x := slot_some le_rfl hne
  have hmin : ∀ y ∈ heap, key x ≤ key y := fun y hy => root_le_mem h hx hy
  have hempty : heap ≠ #[] := fun h => by
    rw [h] at hne
    exact absurd hne (lt_irrefl 0)
  obtain ⟨last, hlast⟩ := Option.isSome_iff_exists.mp (Array.back?_isSome.mpr hempty)
  obtain ⟨rest, rfl⟩ := Array.back?_eq_some_iff.mp hlast
  have hdown := @downOrder_refill _ _ key _ _ last h
  rw [pop, hlast, hx]
  simp only [Array.pop_push] at hdown ⊢
  by_cases hrest : 0 < rest.size
  · obtain ⟨hord, hperm⟩ := @siftDown_keeps _ _ key _ _ _
      (by rw [Array.size_setIfInBounds]; omega) hdown
    refine ⟨x, _, if_pos hrest, hord, ?_, hmin⟩
    exact (refill_perm last hrest hx).trans (hperm.symm.push x)
  · -- only one element was there
    have hnil : rest = #[] := Array.eq_empty_of_size_eq_zero (by omega)
    subst hnil
    have hxl : last = x := by simpa [slot] using hx
    refine ⟨x, #[], if_neg hrest, fun j hj => ?_, ?_, hmin⟩
    · rw [rank_past (show (#[] : Array α).size < j from Nat.lt_trans Nat.zero_lt_one hj)]
      exact le_top
    · rw [hxl]

end BinaryHeap
