import Mathlib.Data.List.Basic
import Mathlib.Logic.Function.Basic
/-!
# Who holds an item

The engine keeps items in inventories, in containers and on the floor. Any
call to it can fail before it takes effect or after, and any read can come
back without an answer; what a read does answer is true.
-/

namespace GoblinZomboid

namespace Custody

/-- An item of the game, by its identity. -/
abbrev Item := ℕ

/-- Where an item can be. -/
inductive Place
  /-- Goblin's own inventory. -/
  | goblin
  | container (c : ℕ)
  /-- The owner's inventory. -/
  | player
  | floor (square : ℕ)
  deriving DecidableEq

/-- What lies where, and the marks in the items' metadata. -/
structure Goods where
  holds : Place → List Item
  /-- `GoblinConjured`. -/
  conjured : Item → Bool

namespace Goods

/-- `AddItem`: an item that is there already stays as it is. -/
def add (p : Place) (i : Item) (g : Goods) : Goods :=
  if List.elem i (g.holds p) then g
  else { g with holds := Function.update g.holds p (g.holds p ++ [i]) }

/-- `Remove`. -/
def remove (p : Place) (i : Item) (g : Goods) : Goods :=
  { g with holds := Function.update g.holds p ((g.holds p).filter (· ≠ i)) }

/-- The item is in these places and in no other. -/
def Lies (g : Goods) (i : Item) (places : List Place) : Prop :=
  ∀ p, i ∈ g.holds p ↔ p ∈ places

variable {g : Goods} {p q : Place} {i j : Item} {places : List Place}

theorem mem_add : j ∈ (g.add p i).holds q ↔ j = i ∧ q = p ∨ j ∈ g.holds q := by
  unfold add
  by_cases hi : i ∈ g.holds p
  · rw [if_pos (List.elem_iff.2 hi)]
    constructor
    · exact Or.inr
    · rintro (⟨rfl, rfl⟩ | h)
      · exact hi
      · exact h
  · rw [if_neg (fun h => hi (List.elem_iff.1 h))]
    by_cases hq : q = p
    · subst hq
      simp [or_comm]
    · simp [hq]

theorem mem_remove : j ∈ (g.remove p i).holds q ↔ ¬(j = i ∧ q = p) ∧ j ∈ g.holds q := by
  unfold remove
  by_cases hq : q = p
  · subst hq
    simp [and_comm]
  · simp [hq]

@[simp] theorem conjured_add : (g.add p i).conjured = g.conjured := by
  unfold add
  split <;> rfl

@[simp] theorem conjured_remove : (g.remove p i).conjured = g.conjured := rfl

theorem Lies.add (h : g.Lies i places) : (g.add p i).Lies i (p :: places) := by
  intro q
  rw [mem_add, h q, List.mem_cons]
  simp

theorem Lies.remove (h : g.Lies i places) : (g.remove p i).Lies i (places.filter (· ≠ p)) := by
  intro q
  rw [mem_remove, h q, List.mem_filter]
  simp [and_comm]

/-- What is elsewhere stays where it is. -/
theorem Lies.add_of_ne (h : g.Lies j places) (hne : j ≠ i) : (g.add p i).Lies j places := by
  intro q
  rw [mem_add, h q]
  simp [hne]

theorem Lies.remove_of_ne (h : g.Lies j places) (hne : j ≠ i) : (g.remove p i).Lies j places := by
  intro q
  rw [mem_remove, h q]
  simp [hne]

theorem Lies.mem (h : g.Lies i (p :: places)) : i ∈ g.holds p := (h p).2 List.mem_cons_self

theorem Lies.not_mem (h : g.Lies i places) (hp : p ∉ places) : i ∉ g.holds p :=
  fun hmem => hp ((h p).1 hmem)

/-- An item lies in one set of places. -/
theorem Lies.unique {places' : List Place} (h : g.Lies i places) (h' : g.Lies i places') (p : Place) :
    p ∈ places ↔ p ∈ places' := (h p).symm.trans (h' p)

end Goods

/-! ## Calls and reads -/

/-- How a call goes: it works; it fails and changes nothing; it takes effect
and fails. -/
inductive Outcome
  | ok
  | before
  | after
  deriving DecidableEq

/-- A call: whether it worked, and what it leaves. -/
def Outcome.run (o : Outcome) (act : Goods → Goods) (g : Goods) : Bool × Goods :=
  match o with
  | .ok => (true, act g)
  | .before => (false, g)
  | .after => (false, act g)

theorem Outcome.run_ok (act : Goods → Goods) (g : Goods) : Outcome.ok.run act g = (true, act g) :=
  rfl

theorem Outcome.run_before (act : Goods → Goods) (g : Goods) :
    Outcome.before.run act g = (false, g) := rfl

theorem Outcome.run_after (act : Goods → Goods) (g : Goods) :
    Outcome.after.run act g = (false, act g) := rfl

/-- What a container answers: to `contains`, and item by item. -/
structure Reading where
  native : Bool
  /-- `getItems` and `size`. -/
  listed : Bool
  /-- `get`. -/
  gets : ℕ → Bool

/-- The loop of `World.containsExact`. -/
def scan (gets : ℕ → Bool) (i : Item) : ℕ → List Item → Bool → Option Bool
  | _, [], found => some found
  | n, current :: rest, found =>
    if gets n then scan gets i (n + 1) rest (found || current == i) else none

/-- `World.containsExact`. -/
def containsExact (r : Reading) (items : List Item) (i : Item) : Option Bool :=
  if r.native then some (List.elem i items)
  else if !r.listed || 10000 < items.length then none
  else scan r.gets i 0 items false

/-- The container can be read. -/
def Reading.answers (r : Reading) (items : List Item) : Bool :=
  r.native || (r.listed && items.length ≤ 10000 && (List.range items.length).all r.gets)

/-- A container that answers everything. -/
def Reading.clear : Reading := ⟨true, true, fun _ => true⟩

theorem scan_eq (gets : ℕ → Bool) (i : Item) (n : ℕ) (items : List Item) (found : Bool) :
    scan gets i n items found =
      if (List.range items.length).all (fun k => gets (n + k)) then
        some (found || List.elem i items) else none := by
  induction items generalizing n found with
  | nil => simp [scan]
  | cons current rest ih =>
    rw [scan, ih, List.length_cons, List.range_succ_eq_map, List.all_cons, List.all_map]
    have hshift : (fun k => gets (n + 1 + k)) = (fun k => gets (n + k)) ∘ Nat.succ := by
      funext k
      exact congrArg gets (by omega)
    rw [hshift, Nat.add_zero]
    cases gets n with
    | false => simp
    | true =>
      have hfound : (found || current == i || List.elem i rest) =
          (found || List.elem i (current :: rest)) := by
        rw [Bool.or_assoc, List.elem_cons, BEq.comm]
        cases (i == current) <;> rfl
      rw [hfound]
      simp

/-- **A read that comes back is true.** -/
theorem containsExact_eq (r : Reading) (items : List Item) (i : Item) :
    containsExact r items i = if r.answers items then some (decide (i ∈ items)) else none := by
  unfold containsExact Reading.answers
  cases hn : r.native with
  | true => simp
  | false =>
    by_cases hl : r.listed = true ∧ items.length ≤ 10000
    · obtain ⟨hlisted, hlen⟩ := hl
      rw [scan_eq]
      simp [hlisted, hlen, Nat.not_lt.2 hlen]
    · rw [not_and_or] at hl
      rcases hl with hl | hl
      · simp [hl]
      · simp [hl, Nat.not_le.1 hl]

theorem containsExact_eq_true {r : Reading} {items : List Item} {i : Item} :
    containsExact r items i = some true ↔ r.answers items = true ∧ i ∈ items := by
  rw [containsExact_eq]
  split <;> simp_all

theorem containsExact_eq_false {r : Reading} {items : List Item} {i : Item} :
    containsExact r items i = some false ↔ r.answers items = true ∧ i ∉ items := by
  rw [containsExact_eq]
  split <;> simp_all

/-- `Provision.isConjured`, of metadata that can be read or not. -/
def isConjured (answers : Bool) (g : Goods) (i : Item) : Bool := answers && g.conjured i

end Custody

end GoblinZomboid
