import GoblinZomboid.Lib.Run
import GoblinZomboid.Server.Loot
import GoblinZomboid.Server.Provision
/-!
# Conjured items stay with Goblin

What is conjured, and what is crafted from it, carries a mark in its metadata,
and whatever puts an item down looks for the mark first. The mark is written
and read by calls that may fail; a mark that is not seen is taken for none.
-/

namespace GoblinZomboid

namespace Quarantine

open Custody

/-! ## `GoblinStockpileWork.lua` -/

/-- The calls of a delivery to a stockpile: of `protected`, then of
`transfer`. -/
structure Stocking where
  /-- The item is kept for another reason. -/
  kept : Bool
  marks : Bool
  held : Reading
  there : Reading
  /-- `hasRoomFor`. -/
  room : Option Bool
  remove : Outcome
  gone : Reading
  add : Outcome
  /-- `AddItem` answers an item. -/
  gives : Bool
  arrived : Reading
  missing : Reading
  back : Outcome
  returned : Reading
  sent : Bool

/-- `protected`. -/
def isProtected (e : Stocking) (g : Goods) (i : Item) : Bool := e.kept || isConjured e.marks g i

/-- `transfer`: whether it worked and else why not. -/
def transfer (e : Stocking) (g : Goods) (i : Item) (c : ℕ) : Except String Unit × Goods :=
  if containsExact e.held (g.holds .goblin) i ≠ some true ∨
      containsExact e.there (g.holds (.container c)) i ≠ some false then
    (.error "cargo identity changed before delivery", g)
  else if e.room ≠ some true then (.error "assigned container is full", g)
  else
    let removed := e.remove.run (Goods.remove .goblin i) g
    if !removed.1 || containsExact e.gone (removed.2.holds .goblin) i ≠ some false then
      (.error "could not remove the exact carried item", removed.2)
    else
      let added := e.add.run (Goods.add (.container c) i) removed.2
      let atDestination := containsExact e.arrived (added.2.holds (.container c)) i
      if !added.1 || !e.gives || atDestination ≠ some true then
        if atDestination = some false &&
            containsExact e.missing (added.2.holds .goblin) i = some false then
          let rolledBack := e.back.run (Goods.add .goblin i) added.2
          if !rolledBack.1 ||
              containsExact e.returned (rolledBack.2.holds .goblin) i ≠ some true then
            (.error "destination add and rollback failed; item state uncertain", rolledBack.2)
          else (.error "destination add failed; exact item needs reconciliation", rolledBack.2)
        else (.error "destination add failed; exact item needs reconciliation", added.2)
      else if !e.sent then
        (.error "item reached world storage but replication is uncertain; do not retry blindly",
          added.2)
      else (.ok (), added.2)

/-- What `Work.update` does with its cargo: nothing, where it is protected. -/
def stock (e : Stocking) (g : Goods) (i : Item) (c : ℕ) : Goods :=
  if isProtected e g i then g else (transfer e g i c).2

/-! ## `GoblinCrafting.lua` -/

/-- The calls about one output of a batch. -/
structure Collecting where
  /-- `getModData`, in `Provision.taint`. -/
  marks : Bool
  /-- `AddItem`, and whether it answers an item. -/
  add : Outcome
  gives : Bool
  /-- `AddWorldInventoryItem`, and whether it answers one. -/
  drop : Outcome
  drops : Bool

/-- The end of `Craft.update`, from the check of the inputs on. -/
structure Batch where
  /-- What the recipe uses up, and how `World.values` lists it. -/
  inputs : List Item
  listed : Listing
  /-- `getModData`, in `isConjured`, of each input that is listed. -/
  marks : ℕ → Bool
  /-- `goblinServerCraft`: whether it works, what it takes from the inventory
  and how many items it creates. -/
  crafts : Bool
  spent : List Item
  outputs : ℕ
  outListed : Listing
  collecting : ℕ → Collecting
  square : ℕ
  /-- What `processDestroyAndUsedItems` takes from it. -/
  destroyed : List Item

/-- `job.conjuredInputs`. -/
def Batch.conjuredInputs (e : Batch) (g : Goods) : Bool :=
  (e.listed.values e.inputs).zipIdx.any fun i => isConjured (e.marks i.2) g i.1

/-- The items a batch creates. -/
def Batch.created (e : Batch) (next : ℕ) : List Item :=
  if e.crafts then List.range' next e.outputs else []

/-- The loop over the outputs: whether it comes to its end, and what it
leaves. -/
def collect (e : ℕ → Collecting) (square : ℕ) (tainted : Bool) :
    ℕ → List Item → Goods → Bool × Goods
  | _, [], g => (true, g)
  | n, i :: rest, g =>
    let g := if tainted then Provision.taint (e n).marks g i else g
    let added := (e n).add.run (Goods.add .goblin i) g
    if added.1 && (e n).gives || tainted then collect e square tainted (n + 1) rest added.2
    else
      let dropped := (e n).drop.run (Goods.add (.floor square) i) added.2
      if dropped.1 && (e n).drops then collect e square tainted (n + 1) rest dropped.2
      else (false, dropped.2)

/-- Items leave the inventory. -/
def use (items : List Item) (g : Goods) : Goods := items.foldl (fun g i => g.remove .goblin i) g

/-- A batch. -/
def craft (e : Batch) (s : Provision.State) : Provision.State :=
  let tainted := e.conjuredInputs s.goods
  let collected := collect e.collecting e.square tainted 0
    (e.outListed.values (e.created s.next)) (use e.spent s.goods)
  { s with
    goods := if e.crafts && collected.1 then use e.destroyed collected.2 else collected.2
    next := s.next + (e.created s.next).length }

/-! ## A run -/

/-- The goods, and which items were conjured or crafted from such items. -/
structure Log where
  state : Provision.State
  made : Item → Bool

/-- What the jobs do: sorting, fetching and delivering are transfers and
pickups. -/
inductive Op
  | create (e : Provision.Creating)
  | craft (e : Batch)
  | transfer (o : Order) (i : Item)
  | pickup (e : Picking) (i : Item) (s : Source)
  | loot (e : Loot.Depositing)
  | stock (e : Stocking) (i : Item) (c : ℕ)

def Log.withGoods (l : Log) (g : Goods) : Log := { l with state := { l.state with goods := g } }

def Log.step (limit : ℕ) (l : Log) : Op → Log
  | .create e =>
    let s := (Provision.create limit e l.state).2
    ⟨s, fun i => l.made i || (l.state.next ≤ i && i < s.next)⟩
  | .craft e =>
    ⟨craft e l.state, fun i =>
      l.made i || e.inputs.any l.made && List.elem i (e.created l.state.next)⟩
  | .transfer o i => l.withGoods (o.run l.state.goods i).2
  | .pickup e i s =>
    -- only what the engine has made lies anywhere
    if i < l.state.next then l.withGoods (pickup e l.state.goods i s).2 else l
  | .loot e => l.withGoods (Loot.deposit e l.state.goods).2
  | .stock e i c => l.withGoods (stock e l.state.goods i c)

/-- Nothing is conjured yet, and new items get identities from `next` on. -/
def Log.start (g : Goods) (next : ℕ) : Log := ⟨⟨none, g, next⟩, fun _ => false⟩

/-- The check of the mark at the start of a transfer. -/
def marks : Order → Bool
  | .deposit e _ => e.marks
  | .handOver e _ => e.marks
  | .drop e _ => e.marks

/-- **The marks are seen**: a check of an item that was conjured, or crafted
from one, finds its mark; and a batch with such an input notices one, or gets
all its outputs into the inventory. -/
def Seen (l : Log) : Op → Prop
  | .transfer o i => l.made i = true → isConjured (marks o) l.state.goods i = true
  | .loot e => ∀ n i, (e.listed.values (l.state.goods.holds .goblin))[n]? = some i →
      l.made i = true →
        ((e.stowing n).kept || isConjured (e.stowing n).marks l.state.goods i) = true
  | .stock e i _ => l.made i = true → isProtected e l.state.goods i = true
  | .craft e => e.inputs.any l.made = true → e.conjuredInputs l.state.goods = true ∨
      ∀ n < (e.outListed.values (e.created l.state.next)).length,
        (e.collecting n).add = .ok ∧ (e.collecting n).gives = true
  | .create _ | .pickup .. => True

/-! ## What the steps leave -/

section

variable {g g' : Goods} {i j : Item} {p : Place}

/-- Goblin's inventory is the only place that changes. -/
def Inside (g g' : Goods) : Prop := ∀ p, p ≠ .goblin → g'.holds p = g.holds p

theorem Inside.refl (g : Goods) : Inside g g := fun _ _ => rfl

theorem Inside.trans {g'' : Goods} (h : Inside g g') (h' : Inside g' g'') : Inside g g'' :=
  fun p hp => (h' p hp).trans (h p hp)

theorem Inside.out (h : Inside g g') (hout : Out g i) : Out g' i :=
  fun p hp hmem => hout p hp (h p hp ▸ hmem)

theorem inside_add (g : Goods) (i : Item) : Inside g (g.add .goblin i) := by
  intro p hp
  unfold Goods.add
  split
  · rfl
  · exact Function.update_of_ne hp _ _

theorem inside_remove (g : Goods) (i : Item) : Inside g (g.remove .goblin i) :=
  fun _ hp => Function.update_of_ne hp _ _

theorem inside_run {o : Outcome} {act : Goods → Goods} (h : Inside g (act g)) :
    Inside g (o.run act g).2 :=
  run_keeps (P := Inside g) (.refl g) h

theorem holds_taint (answers : Bool) (g : Goods) (i : Item) :
    (Provision.taint answers g i).holds = g.holds := by
  unfold Provision.taint
  split <;> rfl

/-- Everything anywhere is older than `next`. -/
def Older (next : ℕ) (g : Goods) : Prop := ∀ p i, i ∈ g.holds p → i < next

theorem Older.mono {next next' : ℕ} (h : Older next g) (hle : next ≤ next') : Older next' g :=
  fun p i hi => Nat.lt_of_lt_of_le (h p i hi) hle

theorem Older.add {next : ℕ} (h : Older next g) (hi : i < next) : Older next (g.add p i) := by
  intro q j hj
  rcases Goods.mem_add.mp hj with ⟨rfl, -⟩ | hj
  · exact hi
  · exact h q j hj

theorem Older.remove {next : ℕ} (h : Older next g) : Older next (g.remove p i) :=
  fun q j hj => h q j (Goods.mem_remove.mp hj).2

theorem Older.run {next : ℕ} {o : Outcome} {act : Goods → Goods} (h : Older next g)
    (hact : Older next (act g)) : Older next (o.run act g).2 :=
  run_keeps (P := Older next) h hact

theorem Older.taint {next : ℕ} {answers : Bool} (h : Older next g) :
    Older next (Provision.taint answers g i) := by
  unfold Older
  rw [holds_taint]
  exact h

/-- What is older than the next item is nowhere with a newer name. -/
theorem Older.out {next : ℕ} (h : Older next g) (hi : next ≤ i) : Out g i :=
  fun p _ hmem => absurd (h p i hmem) (Nat.not_lt.mpr hi)

/-- Moving an item about does not make it newer. -/
theorem Older.moves {next : ℕ} (h : Older next g) (hmoves : Moves i g g') (hi : i < next) :
    Older next g' := by
  induction hmoves with
  | refl => exact h
  | add p _ ih => exact ih.add hi
  | remove p _ ih => exact ih.remove

/-! ### Provision -/

/-- What is made goes into the inventory. -/
theorem make_inside (making : ℕ → Provision.Making) (k n : ℕ) (s : Goods × ℕ) :
    Inside s.1 (Provision.make making k n s).2.1 ∧
      (Older s.2 s.1 →
        Older (Provision.make making k n s).2.2 (Provision.make making k n s).2.1) := by
  induction n generalizing k s with
  | zero => exact ⟨.refl _, id⟩
  | succ n ih =>
    obtain ⟨g, next⟩ := s
    unfold Provision.make
    split
    · exact ⟨.refl _, id⟩
    · dsimp only
      generalize hput : (making k).added.run (Goods.add .goblin next)
        (Provision.taint (making k).marks g next) = put
      have hinside : Inside g put.2 := by
        rw [← hput]
        refine Inside.trans (fun p _ => ?_) (inside_run (inside_add _ _))
        rw [holds_taint]
      have holder : Older next g → Older (next + 1) put.2 := by
        intro h
        have htainted : Older (next + 1) (Provision.taint (making k).marks g next) :=
          (h.mono (Nat.le_succ next)).taint
        rw [← hput]
        exact htainted.run (htainted.add (Nat.lt_succ_self next))
      split
      · exact ⟨hinside, holder⟩
      · obtain ⟨hrest, hold⟩ := ih (k + 1) (put.2, next + 1)
        exact ⟨hinside.trans hrest, fun h => hold (holder h)⟩

theorem create_inside (limit : ℕ) (e : Provision.Creating) (s : Provision.State) :
    Inside s.goods (Provision.create limit e s).2.goods ∧
      s.next ≤ (Provision.create limit e s).2.next ∧
        (Older s.next s.goods →
          Older (Provision.create limit e s).2.next (Provision.create limit e s).2.goods) := by
  unfold Provision.create
  split
  · exact ⟨.refl _, le_rfl, id⟩
  split
  · exact ⟨.refl _, le_rfl, id⟩
  rename_i count _
  split
  · exact ⟨.refl _, le_rfl, id⟩
  split
  · exact ⟨.refl _, le_rfl, id⟩
  split
  · exact ⟨.refl _, le_rfl, id⟩
  · obtain ⟨hinside, holder⟩ := make_inside e.making 0 count (s.goods, s.next)
    exact ⟨hinside, (Provision.make_next e.making 0 count (s.goods, s.next)).1, holder⟩

/-! ### Crafting -/

theorem use_inside (items : List Item) (g : Goods) : Inside g (use items g) := by
  induction items generalizing g with
  | nil => exact .refl g
  | cons i rest ih => exact (inside_remove g i).trans (ih (g.remove .goblin i))

theorem Older.use {next : ℕ} (h : Older next g) (items : List Item) :
    Older next (use items g) := by
  induction items generalizing g with
  | nil => exact h
  | cons i rest ih => exact ih h.remove

/-- **Collecting** touches the outputs only, and leaves the inventory only
with what is not tainted and does not fit. -/
theorem collect_spec (e : ℕ → Collecting) (square : ℕ) (tainted : Bool) (n : ℕ)
    (items : List Item) (g : Goods) :
    (∀ j, j ∉ items → ∀ p, j ∈ (collect e square tainted n items g).2.holds p ↔ j ∈ g.holds p) ∧
    (tainted = true ∨ (∀ k < items.length, (e (n + k)).add = .ok ∧ (e (n + k)).gives = true) →
      Inside g (collect e square tainted n items g).2) ∧
    ∀ next, Older next g → (∀ j ∈ items, j < next) →
      Older next (collect e square tainted n items g).2 := by
  induction items generalizing n g with
  | nil => exact ⟨fun _ _ _ => Iff.rfl, fun _ => .refl g, fun _ h _ => h⟩
  | cons i rest ih =>
    unfold collect
    dsimp only
    generalize htaint : (if tainted then Provision.taint (e n).marks g i else g) = g₁
    have hholds : g₁.holds = g.holds := by
      rw [← htaint]
      split
      · exact holds_taint _ _ _
      · rfl
    have hmoves : Moves i g₁ ((e n).add.run (Goods.add .goblin i) g₁).2 := Moves.refl.run_add
    have hinside : Inside g ((e n).add.run (Goods.add .goblin i) g₁).2 :=
      Inside.trans (fun p _ => by rw [hholds]) (inside_run (inside_add g₁ i))
    have holder : ∀ next, Older next g → i < next →
        Older next ((e n).add.run (Goods.add .goblin i) g₁).2 := by
      intro next h hi
      have h₁ : Older next g₁ := by
        unfold Older
        rw [hholds]
        exact h
      exact h₁.moves hmoves hi
    have hmem : ∀ {g₂ : Goods}, Moves i g₁ g₂ → ∀ j, j ≠ i → ∀ p,
        j ∈ g₂.holds p ↔ j ∈ g.holds p := by
      intro g₂ h j hj p
      rw [h.mem_iff hj, hholds]
    split
    · obtain ⟨hothers, hin, hold⟩ := ih (n + 1) ((e n).add.run (Goods.add .goblin i) g₁).2
      refine ⟨fun j hj p => ?_, fun h => hinside.trans (hin ?_), fun next h hlt => ?_⟩
      · rw [List.mem_cons, not_or] at hj
        rw [hothers j hj.2 p, hmem hmoves j hj.1 p]
      · refine h.imp_right fun h k hk => ?_
        have hnext := h (k + 1) (by rw [List.length_cons]; omega)
        rwa [← Nat.add_assoc, Nat.add_right_comm] at hnext
      · exact hold next (holder next h (hlt i List.mem_cons_self))
          fun j hj => hlt j (List.mem_cons_of_mem _ hj)
    · rename_i hfailed
      -- the item is not tainted, and it was not added
      have hnot : ¬ (tainted = true ∨ ∀ k < (i :: rest).length,
          (e (n + k)).add = .ok ∧ (e (n + k)).gives = true) := by
        rintro (h | h)
        · exact hfailed (by rw [h, Bool.or_true])
        · obtain ⟨hadd, hgives⟩ := h 0 (Nat.succ_pos _)
          rw [Nat.add_zero] at hadd hgives
          exact hfailed (by rw [hadd, hgives]; rfl)
      have hdropped : Moves i g₁ ((e n).drop.run (Goods.add (.floor square) i)
          ((e n).add.run (Goods.add .goblin i) g₁).2).2 := hmoves.run_add
      have hdrop : ∀ next, Older next g → i < next → Older next ((e n).drop.run
          (Goods.add (.floor square) i) ((e n).add.run (Goods.add .goblin i) g₁).2).2 :=
        fun next h hi => (holder next h hi).moves Moves.refl.run_add hi
      split
      · obtain ⟨hothers, -, hold⟩ := ih (n + 1) ((e n).drop.run (Goods.add (.floor square) i)
          ((e n).add.run (Goods.add .goblin i) g₁).2).2
        refine ⟨fun j hj p => ?_, fun h => absurd h hnot, fun next h hlt => ?_⟩
        · rw [List.mem_cons, not_or] at hj
          rw [hothers j hj.2 p, hmem hdropped j hj.1 p]
        · exact hold next (hdrop next h (hlt i List.mem_cons_self))
            fun j hj => hlt j (List.mem_cons_of_mem _ hj)
      · refine ⟨fun j hj p => ?_, fun h => absurd h hnot, fun next h hlt => ?_⟩
        · rw [List.mem_cons, not_or] at hj
          exact hmem hdropped j hj.1 p
        · exact hdrop next h (hlt i List.mem_cons_self)

/-- A batch ends with its loop, or with what it uses up after it. -/
theorem craft_goods (e : Batch) (s : Provision.State) :
    let collected := collect e.collecting e.square (e.conjuredInputs s.goods) 0
      (e.outListed.values (e.created s.next)) (use e.spent s.goods)
    Inside collected.2 (craft e s).goods ∧
      ∀ next, Older next collected.2 → Older next (craft e s).goods := by
  intro collected
  show Inside _ (if e.crafts && collected.1 then use e.destroyed collected.2 else collected.2) ∧
    ∀ next, _ → Older next
      (if e.crafts && collected.1 then use e.destroyed collected.2 else collected.2)
  split
  · exact ⟨use_inside _ _, fun _ h => h.use _⟩
  · exact ⟨.refl _, fun _ h => h⟩

/-! ### Putting down -/

/-- An item whose mark is seen is not put down. -/
theorem order_eq (o : Order) (h : isConjured (marks o) g i = true) : (o.run g i).2 = g := by
  cases o with
  | deposit e c =>
    have h' : isConjured e.marks g i = true := h
    show (Custody.deposit e g i c).2 = g
    rw [Custody.deposit, if_pos h']
  | handOver e allowFloor =>
    have h' : isConjured e.marks g i = true := h
    show (Custody.handOver e g i allowFloor).2 = g
    rw [Custody.handOver, if_pos h']
  | drop e square =>
    have h' : isConjured e.marks g i = true := h
    show (Custody.drop e g i square).2 = g
    unfold Custody.drop
    rw [if_pos h']

theorem not_held {r : Reading} (h : i ∉ g.holds .goblin) :
    containsExact r (g.holds .goblin) i ≠ some true :=
  fun hheld => h (containsExact_eq_true.mp hheld).2

theorem detach_eq (e : Detaching) (h : i ∉ g.holds .goblin) : detach e g i = (false, g) := by
  rw [detach, if_pos (not_held h)]

theorem drop_eq (e : Dropping) (square : Option ℕ) (h : i ∉ g.holds .goblin) :
    (Custody.drop e g i square).2 = g := by
  unfold Custody.drop
  split
  · rfl
  cases square with
  | none => rfl
  | some square =>
    dsimp only
    rw [detach_eq e.detaching h]
    rfl

/-- Nor is what Goblin does not have. -/
theorem order_eq_of_not_mem (o : Order) (h : i ∉ g.holds .goblin) : (o.run g i).2 = g := by
  cases o with
  | deposit e c =>
    show (Custody.deposit e g i c).2 = g
    unfold Custody.deposit
    split
    · rfl
    · rw [if_pos (not_held h)]
  | handOver e allowFloor =>
    show (Custody.handOver e g i allowFloor).2 = g
    unfold Custody.handOver
    split
    · rfl
    split
    · rfl
    split
    · dsimp only
      rw [detach_eq e.detaching h]
      rfl
    split
    · rfl
    · have hdrop := drop_eq e.dropping e.square h
      split
      · rename_i g' heq
        rw [heq] at hdrop
        exact hdrop
      · rename_i g' heq
        rw [heq] at hdrop
        exact hdrop
  | drop e square => exact drop_eq e square h

theorem moves_transfer (e : Stocking) (g : Goods) (i : Item) (c : ℕ) :
    Moves i g (transfer e g i c).2 := by
  unfold transfer
  split
  · exact .refl
  split
  · exact .refl
  dsimp only
  split
  · exact Moves.refl.run_remove
  split
  · split
    · split <;> exact Moves.refl.run_remove.run_add.run_add
    · exact Moves.refl.run_remove.run_add
  · split <;> exact Moves.refl.run_remove.run_add

theorem moves_stock (e : Stocking) (g : Goods) (i : Item) (c : ℕ) : Moves i g (stock e g i c) := by
  unfold stock
  split
  · exact .refl
  · exact moves_transfer e g i c

theorem stock_eq_of_not_mem (e : Stocking) (c : ℕ) (h : i ∉ g.holds .goblin) :
    stock e g i c = g := by
  unfold stock
  split
  · rfl
  · rw [transfer, if_pos (.inl (not_held h))]

/-- A round of a delivery concerns its own item; so what is passed over in its
own rounds is not put down. -/
theorem stow_out {e : ℕ → Loot.Stowing} {container : Option ℕ} {square n : ℕ} {items : List Item}
    {found : ℕ × Bool} (hout : Out g j) (hseen : ∀ k, items[k]? = some j →
      ((e (n + k)).kept || isConjured (e (n + k)).marks g j) = true) :
    Out (Loot.stow e container square n items found g).2 j := by
  induction items generalizing n found g with
  | nil => exact hout
  | cons i rest ih =>
    have hrest : ∀ {g' : Goods} {found' : ℕ × Bool}, g'.conjured = g.conjured → Out g' j →
        Out (Loot.stow e container square (n + 1) rest found' g').2 j := by
      intro g' found' hmarks hout'
      refine ih hout' fun k hk => ?_
      have hnext := hseen (k + 1) (by rw [List.getElem?_cons_succ]; exact hk)
      unfold isConjured at hnext ⊢
      rw [hmarks, Nat.add_right_comm, Nat.add_assoc]
      exact hnext
    have hothers : ∀ {g' : Goods}, j ≠ i → Moves i g g' → Out g' j :=
      fun hne hmoves p hp hmem => hout p hp ((hmoves.mem_iff hne p).mp hmem)
    rw [Loot.stow]
    split
    · exact hrest rfl hout
    rename_i hkept
    have hne : j ≠ i := by
      rintro rfl
      exact hkept (hseen 0 rfl)
    have hremoved := Loot.moves_removeActorItem (e n) g i
    have hput := hremoved.trans
      (Loot.moves_put (e n) (Loot.removeActorItem (e n) g i).2 i ((e n).place container square))
    dsimp only
    split
    · exact hrest hremoved.conjured_eq (hothers hne hremoved)
    split
    · exact hothers hne hremoved
    · exact hrest hput.conjured_eq (hothers hne hput)

theorem older_stow {next : ℕ} {e : ℕ → Loot.Stowing} {container : Option ℕ} {square n : ℕ}
    {items : List Item} {found : ℕ × Bool} (h : Older next g) (hitems : ∀ j ∈ items, j < next) :
    Older next (Loot.stow e container square n items found g).2 := by
  induction items generalizing n found g with
  | nil => exact h
  | cons i rest ih =>
    have hi := hitems i List.mem_cons_self
    have hrest : ∀ j ∈ rest, j < next := fun j hj => hitems j (List.mem_cons_of_mem _ hj)
    have hremoved := Loot.moves_removeActorItem (e n) g i
    have hput := hremoved.trans
      (Loot.moves_put (e n) (Loot.removeActorItem (e n) g i).2 i ((e n).place container square))
    rw [Loot.stow]
    split
    · exact ih h hrest
    dsimp only
    split
    · exact ih (h.moves hremoved hi) hrest
    split
    · exact h.moves hremoved hi
    · exact ih (h.moves hput hi) hrest

/-- What a delivery leaves is what its loop leaves, over what is listed. -/
theorem deposit_snd (e : Loot.Depositing) (g : Goods) :
    (Loot.deposit e g).2 = g ∨ ∃ square, (Loot.deposit e g).2 =
      (Loot.stow e.stowing e.container square 0 (e.listed.values (g.holds .goblin))
        (0, false) g).2 := by
  unfold Loot.deposit
  cases e.target with
  | error detail => exact .inl rfl
  | ok square =>
    dsimp only
    split
    · exact .inl rfl
    · refine .inr ⟨square, ?_⟩
      split
      · rename_i heq
        rw [heq]
      · rename_i heq
        rw [heq]

/-! ### Picking up -/

theorem moves_liftOff (e : Taking) (g : Goods) (i : Item) (square : ℕ) :
    Moves i g (liftOff e g i square).2 := by
  have hid : ∀ {o : Outcome} {g' : Goods}, Moves i g g' → Moves i g (o.run id g').2 :=
    fun h => run_keeps (P := Moves i g) h h
  have hsent : Moves i g (e.transmit.run (Goods.remove (.floor square) i) g).2 :=
    Moves.refl.run_remove
  unfold liftOff
  dsimp only
  split
  · exact hsent
  split
  · exact hid hsent
  split
  · exact (hid hsent).run_remove
  split <;> exact hid (hid hsent).run_remove

theorem moves_takeIn (e : Taking) (g : Goods) (i : Item) (s : Source) :
    Moves i g (takeIn e g i s).2 := by
  have hadded : Moves i g (e.add.run (Goods.add .goblin i) g).2 := Moves.refl.run_add
  unfold takeIn
  dsimp only
  split
  · cases s with
    | container c =>
      dsimp only
      split
      · exact hadded.run_add
      · exact hadded
    | floor square => exact hadded
  · cases s with
    | container c => exact hadded
    | floor square => exact hadded.trans (moves_liftOff e _ i square)

theorem moves_take (e : Taking) (g : Goods) (i : Item) (s : Source) :
    Moves i g (take e g i s).2 := by
  unfold take
  split
  · exact .refl
  cases s with
  | container c =>
    dsimp only
    split
    · exact Moves.refl.run_remove
    · exact Moves.refl.run_remove.trans (moves_takeIn e _ i _)
  | floor square => exact moves_takeIn e g i _

theorem pickup_snd (e : Picking) (g : Goods) (i : Item) (s : Source) :
    (pickup e g i s).2 = (take e.taking g i s).2 := by
  unfold pickup
  split
  · rename_i heq
    rw [heq]
  · rename_i heq
    rw [heq]
    dsimp only
    split <;> split <;> rfl

theorem out_liftOff {e : Taking} {square : ℕ} (h : Out g i) : Out (liftOff e g i square).2 i := by
  have hremove : ∀ {o : Outcome} {g' : Goods}, Out g' i →
      Out (o.run (Goods.remove (.floor square) i) g').2 i :=
    fun h => run_keeps (P := fun g => Out g i) h h.remove
  have hid : ∀ {o : Outcome} {g' : Goods}, Out g' i → Out (o.run id g').2 i :=
    fun h => run_keeps (P := fun g => Out g i) h h
  unfold liftOff
  dsimp only
  split
  · exact hremove h
  split
  · exact hid (hremove h)
  split
  · exact hremove (hid (hremove h))
  split <;> exact hid (hremove (hid (hremove h)))

/-- **Picking up puts nothing down** that was not there: an item is put back
where it was taken from only. -/
theorem out_take {e : Taking} {s : Source} (h : Out g i) : Out (take e g i s).2 i := by
  unfold take
  split
  · exact h
  rename_i hadmits
  cases s with
  | container c =>
    refine absurd ?_ hadmits
    have hthere : containsExact e.there (g.holds (.container c)) i ≠ some true :=
      fun hthere => h (.container c) nofun (containsExact_eq_true.mp hthere).2
    have hrefused : e.admits g i (.container c) = false := by
      unfold Taking.admits
      dsimp only
      rw [beq_eq_false_iff_ne.mpr hthere, Bool.and_false]
    rw [hrefused]
    rfl
  | floor square =>
    have hadded : Out (e.add.run (Goods.add .goblin i) g).2 i :=
      run_keeps (P := fun g => Out g i) h h.add_goblin
    show Out (takeIn e g i (.floor square)).2 i
    unfold takeIn
    dsimp only
    split
    · exact hadded
    · exact out_liftOff hadded

end

/-! ## The law -/

/-- What is made stays with Goblin, or is nowhere. -/
def Law (l : Log) : Prop := ∀ i, l.made i = true → Out l.state.goods i

/-- What a run keeps: the law, and identities are not given twice. -/
structure Quarantined (l : Log) : Prop where
  older : Older l.state.next l.state.goods
  named : ∀ i, l.made i = true → i < l.state.next
  law : Law l

namespace Quarantined

variable {limit : ℕ} {l : Log} {g : Goods} {i : Item}

/-- A step about one item, which is left where it was if it was made. -/
theorem moves (h : Quarantined l) (hmoves : Moves i l.state.goods g) (hi : i < l.state.next)
    (hout : l.made i = true → Out g i) : Quarantined (l.withGoods g) := by
  refine ⟨h.older.moves hmoves hi, h.named, fun j hj => ?_⟩
  by_cases hne : j = i
  · subst hne
    exact hout hj
  · exact fun p hp hmem => h.law j hj p hp ((hmoves.mem_iff hne p).mp hmem)

theorem create (h : Quarantined l) (e : Provision.Creating) :
    Quarantined (l.step limit (.create e)) := by
  obtain ⟨hinside, hnext, holder⟩ := create_inside limit e l.state
  refine ⟨holder h.older, fun i hi => ?_, fun i hi => hinside.out ?_⟩
  · rcases Bool.or_eq_true _ _ ▸ hi with hmade | hnew
    · exact (h.named i hmade).trans_le hnext
    · rw [Bool.and_eq_true, decide_eq_true_eq, decide_eq_true_eq] at hnew
      exact hnew.2
  · rcases Bool.or_eq_true _ _ ▸ hi with hmade | hnew
    · exact h.law i hmade
    · rw [Bool.and_eq_true, decide_eq_true_eq, decide_eq_true_eq] at hnew
      exact h.older.out hnew.1

theorem craft (h : Quarantined l) {e : Batch} (hseen : Seen l (.craft e)) :
    Quarantined (l.step limit (.craft e)) := by
  have hcreated : ∀ i ∈ e.created l.state.next, l.state.next ≤ i ∧
      i < l.state.next + (e.created l.state.next).length := by
    intro i hi
    unfold Batch.created at hi ⊢
    split at hi
    · rename_i hcrafts
      rw [if_pos hcrafts, List.length_range']
      rw [List.mem_range'_1] at hi
      exact hi
    · cases hi
  have hlisted : ∀ i ∈ e.outListed.values (e.created l.state.next), i ∈ e.created l.state.next :=
    fun i => Listing.mem_of_mem_values
  obtain ⟨hothers, hinside, holder⟩ := collect_spec e.collecting e.square
    (e.conjuredInputs l.state.goods) 0 (e.outListed.values (e.created l.state.next))
    (use e.spent l.state.goods)
  obtain ⟨hused, holder'⟩ := craft_goods e l.state
  refine ⟨holder' _ (holder _ ((h.older.use e.spent).mono (Nat.le_add_right _ _))
    fun j hj => (hcreated j (hlisted j hj)).2), fun i hi => ?_, fun i hi => hused.out ?_⟩
  · rcases Bool.or_eq_true _ _ ▸ hi with hmade | hnew
    · exact (h.named i hmade).trans_le (Nat.le_add_right _ _)
    · exact (hcreated i (List.elem_iff.mp (Bool.and_eq_true _ _ ▸ hnew).2)).2
  · by_cases hinputs : e.inputs.any l.made = true
    · -- the outputs stay in the inventory
      have hall := (use_inside e.spent l.state.goods).trans (hinside
        ((hseen hinputs).imp_right fun hfit k hk => by
          rw [Nat.zero_add]
          exact hfit k hk))
      rcases Bool.or_eq_true _ _ ▸ hi with hmade | hnew
      · exact hall.out (h.law i hmade)
      · have hi' := hcreated i (List.elem_iff.mp (Bool.and_eq_true _ _ ▸ hnew).2)
        exact hall.out (h.older.out hi'.1)
    · -- nothing that was made is among them
      have hmade : l.made i = true := by
        rcases Bool.or_eq_true _ _ ▸ hi with hmade | hnew
        · exact hmade
        · exact absurd (Bool.and_eq_true _ _ ▸ hnew).1 hinputs
      have hnot : i ∉ e.outListed.values (e.created l.state.next) := by
        intro hin
        exact absurd (h.named i hmade) (Nat.not_lt.mpr (hcreated i (hlisted i hin)).1)
      intro p hp hmem
      exact (use_inside e.spent l.state.goods).out (h.law i hmade) p hp ((hothers i hnot p).mp hmem)

/-- **Where the marks are seen**, a step keeps what is made with Goblin. -/
theorem step (h : Quarantined l) {op : Op} (hseen : Seen l op) :
    Quarantined (l.step limit op) := by
  cases op with
  | create e => exact h.create e
  | craft e => exact h.craft hseen
  | transfer o i =>
    show Quarantined (l.withGoods (o.run l.state.goods i).2)
    by_cases hin : i ∈ l.state.goods.holds .goblin
    · refine h.moves (moves_order o _ i) (h.older _ i hin) fun hmade => ?_
      rw [order_eq o (hseen hmade)]
      exact h.law i hmade
    · rw [order_eq_of_not_mem o hin]
      exact h
  | pickup e i s =>
    unfold Log.step
    dsimp only
    split
    · rename_i hi
      rw [pickup_snd]
      exact h.moves (moves_take e.taking _ i s) hi fun hmade => out_take (h.law i hmade)
    · exact h
  | loot e =>
    show Quarantined (l.withGoods (Loot.deposit e l.state.goods).2)
    rcases deposit_snd e l.state.goods with heq | ⟨square, heq⟩
    · rw [heq]
      exact h
    · rw [heq]
      refine ⟨older_stow h.older fun j hj => h.older _ j (Listing.mem_of_mem_values hj), h.named,
        fun i hmade => stow_out (h.law i hmade) fun k hk => ?_⟩
      rw [Nat.zero_add]
      exact hseen k i hk hmade
  | stock e i c =>
    show Quarantined (l.withGoods (stock e l.state.goods i c))
    by_cases hin : i ∈ l.state.goods.holds .goblin
    · refine h.moves (moves_stock e _ i c) (h.older _ i hin) fun hmade => ?_
      rw [stock, if_pos (hseen hmade)]
      exact h.law i hmade
    · rw [stock_eq_of_not_mem e c hin]
      exact h

end Quarantined

/-- **Conjured items stay with Goblin** in every run in which the marks are
seen. -/
theorem law_of_seen (limit next : ℕ) (g : Goods) (ops : List Op) (hold : Older next g)
    (hseen : Machine.Meets (Log.step limit) Seen (Log.start g next) ops) :
    ∀ ops', ops' <+: ops → Law (Machine.run (Log.step limit) (Log.start g next) ops') := by
  rintro ops' ⟨rest, rfl⟩
  have hstart : Quarantined (Log.start g next) := ⟨hold, nofun, nofun⟩
  exact (Machine.invariant_of_meets (fun _ _ h hs => h.step hs) hstart
    (Machine.meets_append.mp hseen).1).law

/-- A world with nothing in it. -/
def bare : Goods := ⟨fun _ => [], fun _ => false⟩

/-- A deposit in which every call works, but perhaps the read of the mark. -/
def smooth (marks : Bool) : Depositing where
  marks := marks
  held := .clear
  there := .clear
  room := some true
  detaching := clearly
  add := .ok
  arrived := .clear
  restoring := ⟨.clear, .ok, .clear⟩
  sent := true

/-- A conjured item, and a deposit of it that sees its mark. -/
theorem law_of_seen_refused :
    Law (Machine.run (Log.step 60) (Log.start bare 0)
      [.create (Provision.single 0), .transfer (.deposit (smooth true) 0) 0]) :=
  law_of_seen 60 0 bare [.create (Provision.single 0), .transfer (.deposit (smooth true) 0) 0]
    nofun ⟨trivial, fun _ => by decide, trivial⟩ _ List.prefix_rfl

/-- The same deposit with a mark that cannot be read. -/
theorem not_law_unread : ¬ ∀ (limit next : ℕ) (g : Goods) (ops : List Op), Older next g →
    ∀ ops', ops' <+: ops → Law (Machine.run (Log.step limit) (Log.start g next) ops') := by
  intro h
  refine h 60 0 bare [.create (Provision.single 0), .transfer (.deposit (smooth false) 0) 0] nofun
    _ List.prefix_rfl 0 ?_ (.container 0) nofun ?_ <;> decide

end Quarantine

end GoblinZomboid
