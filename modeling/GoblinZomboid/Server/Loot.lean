import GoblinZomboid.Server.Apart
/-!
# `GoblinLoot.lua`: bringing the loot home

A delivery goes through the inventory item by item. An item is detached, put
into the container or on the floor, and added to the inventory again where
that is not seen to work; whether it did is not looked at a second time.
-/

namespace GoblinZomboid

namespace Custody

/-! ## Listing what is there -/

/-- What a list answers to `World.values`. -/
structure Listing where
  /-- `getItems` and `size`. -/
  sized : Bool
  /-- `get`. -/
  gets : ℕ → Bool
  /-- How far its iterator goes. -/
  walks : ℕ

/-- The entries that can be read. -/
def Listing.indexed (r : Listing) : ℕ → List Item → List Item
  | _, [] => []
  | n, i :: rest => if r.gets n then i :: indexed r (n + 1) rest else indexed r (n + 1) rest

/-- `World.values`. -/
def Listing.values (r : Listing) (items : List Item) : List Item :=
  if !r.sized then []
  else if r.gets 0 then r.indexed 0 items
  else items.take r.walks

/-- `World.has`. -/
def has (r : Listing) (items : List Item) (i : Item) : Bool := List.elem i (r.values items)

theorem Listing.mem_of_mem_values {r : Listing} {items : List Item} {i : Item}
    (h : i ∈ r.values items) : i ∈ items := by
  have hindexed : ∀ n items, i ∈ r.indexed n items → i ∈ items := by
    intro n items
    induction items generalizing n with
    | nil => exact id
    | cons j rest ih =>
      intro h
      rw [Listing.indexed] at h
      split at h
      · rcases List.mem_cons.mp h with rfl | hin
        · exact List.mem_cons_self
        · exact List.mem_cons_of_mem _ (ih _ hin)
      · exact List.mem_cons_of_mem _ (ih _ h)
  unfold Listing.values at h
  split at h
  · cases h
  split at h
  · exact hindexed 0 items h
  · exact List.mem_of_mem_take h

/-- What is listed is there. -/
theorem mem_of_has {r : Listing} {items : List Item} {i : Item} (h : has r items i = true) :
    i ∈ items := Listing.mem_of_mem_values (List.elem_iff.mp h)

namespace Loot

/-- The calls of `Loot.deposit` about one item. -/
structure Stowing where
  /-- A tool, a weapon, a uniform or a hammer, or an item without a type. -/
  kept : Bool
  /-- `getModData`, in `isConjured`. -/
  marks : Bool
  held : Reading
  /-- `removeFromHands`, where the inventory has a character. -/
  hands : Bool
  /-- `DoRemoveItem`. -/
  detach : Outcome
  gone : Reading
  /-- `getModData` once more; where it raises, so does writing to what it
  answered. -/
  metadata : Bool
  /-- `hasRoomFor`. -/
  room : Bool
  /-- `AddItem` or `AddWorldInventoryItem`. -/
  add : Outcome
  arrived : Listing
  /-- `sendAddItemToContainer`. -/
  sent : Bool
  /-- `AddItem` into the inventory. -/
  back : Outcome
  returned : Listing

/-- The calls of `Loot.deposit`. -/
structure Depositing where
  /-- `Loot.deliveryTarget`, and what it says where there is none. -/
  target : Except String ℕ
  /-- `World.reachable`. -/
  reachable : Bool
  /-- The first unlocked container on the square, at the base. -/
  container : Option ℕ
  listed : Listing
  stowing : ℕ → Stowing
  /-- `Loot.hasCargo`. -/
  hasCargo : Bool

/-- `removeActorItem`. -/
def removeActorItem (e : Stowing) (g : Goods) (i : Item) : Bool × Goods :=
  if containsExact e.held (g.holds .goblin) i ≠ some true then (false, g)
  else if !e.hands then (false, g)
  else
    let removed := e.detach.run (Goods.remove .goblin i) g
    (removed.1 && containsExact e.gone (removed.2.holds .goblin) i == some false, removed.2)

/-- Where the item goes. -/
def Stowing.place (e : Stowing) (container : Option ℕ) (square : ℕ) : Place :=
  match container with
  | some c => if e.room then .container c else .floor square
  | none => .floor square

/-- Whether it is taken to have arrived: a container is listed, the floor is
not. -/
def Stowing.arrives (e : Stowing) (g : Goods) (i : Item) : Place → Bool
  | .container c => has e.arrived (g.holds (.container c)) i
  | _ => true

/-- One round of the loop, once the item is detached: whether it was moved
and whether that is uncertain. -/
def put (e : Stowing) (g : Goods) (i : Item) (place : Place) : (Bool × Bool) × Goods :=
  let added := e.add.run (Goods.add place i) g
  if added.1 && e.arrives added.2 i place then
    ((true, match place with
      | .container _ => !e.sent
      | _ => false), added.2)
  else
    let restored := e.back.run (Goods.add .goblin i) added.2
    ((false, !(restored.1 && has e.returned (restored.2.holds .goblin) i)), restored.2)

/-- The loop of `Loot.deposit`: how many were moved and whether that is
uncertain, none where it raises. -/
def stow (e : ℕ → Stowing) (container : Option ℕ) (square : ℕ) :
    ℕ → List Item → ℕ × Bool → Goods → Option (ℕ × Bool) × Goods
  | _, [], found, g => (some found, g)
  | n, i :: rest, found, g =>
    if (e n).kept || isConjured (e n).marks g i then
      stow e container square (n + 1) rest found g
    else
      let removed := removeActorItem (e n) g i
      if !removed.1 then
        stow e container square (n + 1) rest (found.1, true) removed.2
      else if !(e n).metadata then (none, removed.2)
      else
        let stowed := put (e n) removed.2 i ((e n).place container square)
        stow e container square (n + 1) rest
          (if stowed.1.1 then found.1 + 1 else found.1, found.2 || stowed.1.2) stowed.2

/-- `Loot.deposit`: whether all is delivered, what is said and how many items
were moved; none where it raises. -/
def deposit (e : Depositing) (g : Goods) : Option (Bool × String × ℕ) × Goods :=
  match e.target with
  | .error detail => (some (false, detail, 0), g)
  | .ok square =>
    if !e.reachable then (some (false, "delivery point not in reach", 0), g)
    else
      match stow e.stowing e.container square 0 (e.listed.values (g.holds .goblin)) (0, false) g with
      | (none, g) => (none, g)
      | (some (moved, uncertain), g) =>
        let status := if uncertain then "delivery state uncertain"
          else if 0 < moved then "delivered" else "nothing delivered"
        (some (!uncertain && !e.hasCargo, status, moved), g)

/-! ## What it leaves -/

variable {g g' : Goods} {i j : Item} {p : Place}

theorem moves_removeActorItem (e : Stowing) (g : Goods) (i : Item) :
    Moves i g (removeActorItem e g i).2 := by
  unfold removeActorItem
  split
  · exact .refl
  split
  · exact .refl
  · exact Moves.refl.run_remove

theorem moves_put (e : Stowing) (g : Goods) (i : Item) (place : Place) :
    Moves i g (put e g i place).2 := by
  unfold put
  dsimp only
  split
  · exact Moves.refl.run_add
  · exact Moves.refl.run_add.run_add

/-- What `removeActorItem` took out was in the inventory, and is no more. -/
theorem removeActorItem_done {e : Stowing} (h : (removeActorItem e g i).1 = true) :
    i ∈ g.holds .goblin ∧ i ∉ (removeActorItem e g i).2.holds .goblin := by
  unfold removeActorItem at h ⊢
  split at h
  · cases h
  rename_i hread
  split at h
  · cases h
  rename_i hhands
  rw [if_neg hread, if_neg hhands]
  rw [Bool.and_eq_true, beq_iff_eq] at h
  exact ⟨(containsExact_eq_true.mp (not_not.mp hread)).2, (containsExact_eq_false.mp h.2).2⟩

theorem apart_removeActorItem {e : Stowing} (h : Apart g i) :
    Apart (removeActorItem e g i).2 i := by
  unfold removeActorItem
  split
  · exact h
  split
  · exact h
  · exact run_keeps (P := fun g => Apart g i) h h.remove

theorem out_removeActorItem {e : Stowing} (h : Out g i) : Out (removeActorItem e g i).2 i := by
  unfold removeActorItem
  split
  · exact h
  split
  · exact h
  · exact run_keeps (P := fun g => Out g i) h h.remove

/-- An item is put down, not seen to be, and put back. -/
def Stowing.Doubles (e : Stowing) (g : Goods) (i : Item) (place : Place) : Prop :=
  e.add ≠ .before ∧ ¬(e.add = .ok ∧ e.arrives (g.add place i) i place = true) ∧ e.back ≠ .before

/-- Nothing else brings the item into two places. -/
theorem apart_put {e : Stowing} (hp : p ≠ .goblin) (hnot : i ∉ g.holds .goblin) (hout : Out g i)
    (hdoubles : ¬ e.Doubles g i p) : Apart (put e g i p).2 i := by
  unfold put
  dsimp only
  split
  · exact apart_of_not_mem (not_mem_added hp hnot)
  rename_i hfailed
  by_cases hback : e.back = .before
  · rw [hback, Outcome.run_before]
    exact apart_of_not_mem (not_mem_added hp hnot)
  · -- What the inventory takes back was not put down.
    have hbefore : e.add = .before := by
      by_contra hadd
      refine hdoubles ⟨hadd, fun hseen => hfailed ?_, hback⟩
      rw [hseen.1, Outcome.run_ok, Bool.true_and]
      exact hseen.2
    rw [hbefore, Outcome.run_before]
    exact run_keeps (P := fun g => Apart g i) hout.apart hout.add_goblin.apart

theorem place_ne_goblin (e : Stowing) (container : Option ℕ) (square : ℕ) :
    e.place container square ≠ .goblin := by
  unfold Stowing.place
  split
  · split <;> nofun
  · nofun

/-- In no round of the loop is the item of that round doubled. -/
def Undoubled (e : ℕ → Stowing) (container : Option ℕ) (square : ℕ) : ℕ → List Item → Goods → Prop
  | _, [], _ => True
  | n, i :: rest, g =>
    if (e n).kept || isConjured (e n).marks g i then
      Undoubled e container square (n + 1) rest g
    else
      let removed := removeActorItem (e n) g i
      let place := (e n).place container square
      if !removed.1 then Undoubled e container square (n + 1) rest removed.2
      else if !(e n).metadata then True
      else ¬ (e n).Doubles removed.2 i place ∧
        Undoubled e container square (n + 1) rest (put (e n) removed.2 i place).2

/-- **A delivery keeps the items apart**, where none is doubled. -/
theorem apart_stow {e : ℕ → Stowing} {container : Option ℕ} {square : ℕ} {n : ℕ}
    {items : List Item} {found : ℕ × Bool} (h : ∀ j, Apart g j)
    (hundoubled : Undoubled e container square n items g) (j : Item) :
    Apart (stow e container square n items found g).2 j := by
  induction items generalizing n found g with
  | nil => exact h j
  | cons i rest ih =>
    rw [stow]
    rw [Undoubled] at hundoubled
    have hremoved : ∀ j, Apart (removeActorItem (e n) g i).2 j := by
      intro j
      by_cases hj : j = i
      · rw [hj]
        exact apart_removeActorItem (h i)
      · exact (moves_removeActorItem (e n) g i).apart hj (h j)
    split
    · rename_i hkept
      rw [if_pos hkept] at hundoubled
      exact ih h hundoubled
    rename_i hkept
    rw [if_neg hkept] at hundoubled
    dsimp only at hundoubled ⊢
    split
    · rename_i hfailed
      rw [if_pos hfailed] at hundoubled
      exact ih hremoved hundoubled
    rename_i hdone
    rw [if_neg hdone] at hundoubled
    split
    · exact hremoved j
    rename_i hanswers
    rw [if_neg hanswers] at hundoubled
    rw [Bool.not_eq_true', Bool.not_eq_false] at hdone
    obtain ⟨hin, hnot⟩ := removeActorItem_done hdone
    refine ih (fun j => ?_) hundoubled.2
    by_cases hj : j = i
    · rw [hj]
      exact apart_put (place_ne_goblin _ _ _) hnot (out_removeActorItem (h i hin)) hundoubled.1
    · exact (moves_put _ _ _ _).apart hj (hremoved j)

/-- Nothing is doubled in this delivery. -/
def Depositing.Undoubled (e : Depositing) (g : Goods) : Prop :=
  ∀ square, e.target = .ok square → e.reachable = true →
    Loot.Undoubled e.stowing e.container square 0 (e.listed.values (g.holds .goblin)) g

theorem apart_deposit {e : Depositing} (h : ∀ j, Apart g j) (hundoubled : e.Undoubled g)
    (j : Item) : Apart (deposit e g).2 j := by
  unfold deposit
  cases htarget : e.target with
  | error detail => exact h j
  | ok square =>
    dsimp only
    split
    · exact h j
    rename_i hreachable
    rw [Bool.not_eq_true', Bool.not_eq_false] at hreachable
    have hleft : Apart (stow e.stowing e.container square 0
        (e.listed.values (g.holds .goblin)) (0, false) g).2 j :=
      apart_stow h (hundoubled square htarget hreachable) j
    split
    · rename_i heq
      rw [heq] at hleft
      exact hleft
    · rename_i heq
      rw [heq] at hleft
      exact hleft

end Loot

end Custody

end GoblinZomboid
