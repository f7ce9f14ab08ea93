import GoblinZomboid.Server.Ledger
/-!
# An item in two places

A transfer adds an item to places and removes it from places, and touches no
other item. An item is apart when it is not in Goblin's inventory and
elsewhere at once.
-/

namespace GoblinZomboid

namespace Custody

/-- Calls about one item lead from here to there. -/
inductive Moves (i : Item) (g : Goods) : Goods → Prop
  | refl : Moves i g g
  | add {g' : Goods} (p : Place) (h : Moves i g g') : Moves i g (g'.add p i)
  | remove {g' : Goods} (p : Place) (h : Moves i g g') : Moves i g (g'.remove p i)

/-- The item is nowhere but, perhaps, in the inventory. -/
def Out (g : Goods) (i : Item) : Prop := ∀ p, p ≠ .goblin → i ∉ g.holds p

/-- An item in the inventory is nowhere else. -/
def Apart (g : Goods) (i : Item) : Prop := i ∈ g.holds .goblin → Out g i

variable {g g' g'' : Goods} {i j : Item} {p : Place}

namespace Moves

theorem trans (h : Moves i g g') (h' : Moves i g' g'') : Moves i g g'' := by
  induction h' with
  | refl => exact h
  | add p _ ih => exact ih.add p
  | remove p _ ih => exact ih.remove p

/-- A call takes effect or it does not. -/
theorem run {o : Outcome} {act : Goods → Goods} (hact : Moves i g (act g)) :
    Moves i g (o.run act g).2 := by
  cases o with
  | ok => exact hact
  | before => exact .refl
  | after => exact hact

theorem run_add {o : Outcome} (h : Moves i g g') : Moves i g (o.run (Goods.add p i) g').2 :=
  h.trans (run (.add p .refl))

theorem run_remove {o : Outcome} (h : Moves i g g') : Moves i g (o.run (Goods.remove p i) g').2 :=
  h.trans (run (.remove p .refl))

/-- **No other item is touched.** -/
theorem mem_iff (h : Moves i g g') (hne : j ≠ i) (p : Place) :
    j ∈ g'.holds p ↔ j ∈ g.holds p := by
  induction h with
  | refl => exact Iff.rfl
  | add q _ ih =>
    rw [Goods.mem_add, ih]
    exact ⟨fun h => h.resolve_left fun h => hne h.1, Or.inr⟩
  | remove q _ ih =>
    rw [Goods.mem_remove, ih]
    exact ⟨fun h => h.2, fun h => ⟨fun h => hne h.1, h⟩⟩

theorem conjured_eq (h : Moves i g g') : g'.conjured = g.conjured := by
  induction h with
  | refl => rfl
  | add q _ ih => rw [Goods.conjured_add, ih]
  | remove q _ ih => rw [Goods.conjured_remove, ih]

/-- So each of the others stays apart. -/
theorem apart (h : Moves i g g') (hne : j ≠ i) (hj : Apart g j) : Apart g' j := by
  intro hin p hp hmem
  exact hj ((h.mem_iff hne _).mp hin) p hp ((h.mem_iff hne p).mp hmem)

end Moves

/-! ## Being apart -/

theorem Out.apart (h : Out g i) : Apart g i := fun _ => h

theorem apart_of_not_mem (h : i ∉ g.holds .goblin) : Apart g i := fun hin => absurd hin h

theorem Out.remove (h : Out g i) : Out (g.remove p j) i :=
  fun q hq hmem => h q hq (Goods.mem_remove.mp hmem).2

theorem Out.add_goblin (h : Out g i) : Out (g.add .goblin j) i := by
  intro q hq hmem
  rcases Goods.mem_add.mp hmem with ⟨-, rfl⟩ | hin
  · exact hq rfl
  · exact h q hq hin

theorem Apart.remove (h : Apart g i) : Apart (g.remove p j) i :=
  fun hin => (h (Goods.mem_remove.mp hin).2).remove

/-- A call that may take effect keeps what its effect keeps. -/
theorem run_keeps {P : Goods → Prop} {o : Outcome} {act : Goods → Goods} (hg : P g)
    (hact : P (act g)) : P (o.run act g).2 := by
  cases o with
  | ok => exact hact
  | before => exact hg
  | after => exact hact

/-- What was put down and is not there is where it was before. -/
theorem Out.run_add {o : Outcome} (h : Out g i)
    (hnot : i ∉ (o.run (Goods.add p i) g).2.holds p) : Out (o.run (Goods.add p i) g).2 i := by
  have hsame : ∀ q, i ∈ (o.run (Goods.add p i) g).2.holds q →
      i ∈ g.holds q ∨ q = p := by
    refine run_keeps (P := fun g' => ∀ q, i ∈ g'.holds q → i ∈ g.holds q ∨ q = p)
      (fun q hq => Or.inl hq) (fun q hq => ?_)
    rcases Goods.mem_add.mp hq with ⟨-, heq⟩ | hin
    · exact Or.inr heq
    · exact Or.inl hin
  intro q hq hmem
  rcases hsame q hmem with hin | rfl
  · exact h q hq hin
  · exact hnot hmem

/-! ## The parts of a transfer -/

theorem moves_detach (e : Detaching) (g : Goods) (i : Item) : Moves i g (detach e g i).2 := by
  unfold detach
  dsimp only
  split
  · exact .refl
  · split
    · exact Moves.refl.run_remove
    · exact Moves.refl.run_remove.run_remove

theorem moves_restore (e : Restoring) (g : Goods) (i : Item) : Moves i g (restore e g i).2 := by
  unfold restore
  split
  · exact .refl
  · exact Moves.refl.run_add

theorem Out.detach {e : Detaching} (h : Out g i) : Out (Custody.detach e g i).2 i := by
  unfold Custody.detach
  dsimp only
  have hremoved : ∀ (o : Outcome) (g' : Goods), Out g' i →
      Out (o.run (Goods.remove .goblin i) g').2 i :=
    fun o g' h => run_keeps (P := fun g => Out g i) h h.remove
  split
  · exact h
  · split
    · exact hremoved _ _ h
    · exact hremoved _ _ (hremoved _ _ h)

theorem Apart.detach {e : Detaching} (h : Apart g i) : Apart (Custody.detach e g i).2 i := by
  by_cases hin : i ∈ g.holds .goblin
  · exact (h hin).detach.apart
  · have hread : containsExact e.held (g.holds .goblin) i ≠ some true :=
      fun heq => hin (containsExact_eq_true.mp heq).2
    rw [Custody.detach, if_pos hread]
    exact h

/-- What was detached was in the inventory. -/
theorem mem_of_detach {e : Detaching} (h : (detach e g i).1 = true) : i ∈ g.holds .goblin := by
  unfold detach at h
  split at h
  · cases h
  · rename_i hread
    exact (containsExact_eq_true.mp (not_not.mp hread)).2

/-- So, of an item that is apart, nothing is left. -/
theorem Apart.out_of_detach {e : Detaching} (h : Apart g i)
    (hdone : (Custody.detach e g i).1 = true) : Out (Custody.detach e g i).2 i :=
  (h (mem_of_detach hdone)).detach

theorem Out.restore {e : Restoring} (h : Out g i) : Out (Custody.restore e g i).2 i := by
  unfold Custody.restore
  split
  · exact h
  · exact run_keeps (P := fun g => Out g i) h h.add_goblin

/-! ## The transfers -/

theorem moves_deposit (e : Depositing) (g : Goods) (i : Item) (c : ℕ) :
    Moves i g (deposit e g i c).2 := by
  have hdetach := moves_detach e.detaching g i
  unfold deposit
  dsimp only
  split
  · exact .refl
  split
  · exact .refl
  split
  · exact .refl
  split
  · exact .refl
  split
  · exact hdetach
  split
  · split
    · have hrestore := hdetach.run_add (o := e.add) (p := .container c) |>.trans
        (moves_restore e.restoring _ i)
      split <;> exact hrestore
    · exact hdetach.run_add
  · split <;> exact hdetach.run_add

theorem moves_drop (e : Dropping) (g : Goods) (i : Item) (square : Option ℕ) :
    Moves i g (drop e g i square).2 := by
  have hdetach := moves_detach e.detaching g i
  unfold drop
  split
  · exact .refl
  cases square with
  | none => exact .refl
  | some s =>
    dsimp only
    split
    · exact hdetach
    split
    · have hrestore := hdetach.run_add (o := e.add) (p := .floor s) |>.trans
        (moves_restore e.restoring _ i)
      split <;> exact hrestore
    · exact hdetach.run_add

theorem moves_handOver (e : HandingOver) (g : Goods) (i : Item) (allowFloor : Bool) :
    Moves i g (handOver e g i allowFloor).2 := by
  have hdetach := moves_detach e.detaching g i
  have hdrop := moves_drop e.dropping g i e.square
  unfold handOver
  dsimp only
  split
  · exact .refl
  split
  · exact .refl
  split
  · split
    · exact hdetach
    split
    · split
      · have hrestore := hdetach.run_add (o := e.add) (p := .player) |>.trans
          (moves_restore e.restoring _ i)
        split <;> exact hrestore
      · exact hdetach.run_add
    · split <;> exact hdetach.run_add
  · split
    · exact .refl
    · split
      · rename_i heq
        rw [heq] at hdrop
        exact hdrop
      · rename_i heq
        rw [heq] at hdrop
        exact hdrop

/-- **A transfer touches its own item only.** -/
theorem moves_order (o : Order) (g : Goods) (i : Item) : Moves i g (o.run g i).2 := by
  cases o with
  | deposit e c => exact moves_deposit e g i c
  | handOver e allowFloor => exact moves_handOver e g i allowFloor
  | drop e square => exact moves_drop e g i square

/-- The floor takes the item in a call that fails, and the inventory takes it
back. -/
def Dropping.Doubles (e : Dropping) : Prop := e.add = .after ∧ e.restoring.add ≠ .before

def Order.Doubles : Order → Prop
  | .deposit .. => False
  | .handOver e _ => e.dropping.Doubles
  | .drop e _ => e.Doubles

/-- What is put down elsewhere does not come back by that. -/
theorem not_mem_added {o : Outcome} (hp : p ≠ .goblin) (h : i ∉ g.holds .goblin) :
    i ∉ (o.run (Goods.add p i) g).2.holds .goblin := by
  rw [goblin_run (goblin_add_other hp.symm)]
  exact h

/-- The last part of a transfer into a container or to a player. -/
theorem Apart.added {e : Restoring} {o : Outcome} {r : Reading} (hp : p ≠ .goblin)
    (hnot : i ∉ g.holds .goblin) (hout : Out g i) :
    Apart (o.run (Goods.add p i) g).2 i ∧
      (containsExact r ((o.run (Goods.add p i) g).2.holds p) i = some false →
        Apart (Custody.restore e (o.run (Goods.add p i) g).2 i).2 i) := by
  constructor
  · exact apart_of_not_mem (not_mem_added hp hnot)
  · intro hread
    exact (hout.run_add (containsExact_eq_false.mp hread).2).restore.apart

theorem Apart.deposit {e : Depositing} {c : ℕ} (h : Apart g i) :
    Apart (Custody.deposit e g i c).2 i := by
  unfold Custody.deposit
  dsimp only
  split
  · exact h
  split
  · exact h
  split
  · exact h
  split
  · exact h
  split
  · exact h.detach
  rename_i hdone
  rw [Bool.not_eq_true', Bool.not_eq_false] at hdone
  obtain ⟨hadded, hback⟩ := Apart.added (e := e.restoring) (o := e.add) (r := e.arrived)
    (p := .container c) nofun (detach_out hdone) (h.out_of_detach hdone)
  split
  · split
    · rename_i hread
      split <;> exact hback hread
    · exact hadded
  · split <;> exact hadded

theorem Apart.drop {e : Dropping} {square : Option ℕ} (h : Apart g i) (hnot : ¬ e.Doubles) :
    Apart (Custody.drop e g i square).2 i := by
  unfold Custody.drop
  split
  · exact h
  cases square with
  | none => exact h
  | some s =>
    dsimp only
    split
    · exact h.detach
    rename_i hdone
    rw [Bool.not_eq_true', Bool.not_eq_false] at hdone
    have hgone := detach_out hdone
    have hout := h.out_of_detach hdone
    split
    · have hrestored : Apart (Custody.restore e.restoring
          (e.add.run (Goods.add (.floor s) i) (Custody.detach e.detaching g i).2).2 i).2 i := by
        -- The call failed: it took no effect, or the item is not given back.
        cases hadd : e.add with
        | ok =>
          rename_i hfailed
          rw [hadd, Outcome.run_ok] at hfailed
          cases hfailed
        | before => exact hout.restore.apart
        | after =>
          have hback : e.restoring.add = .before := not_not.mp fun hne => hnot ⟨hadd, hne⟩
          have hstill : i ∉ (Goods.add (.floor s) i (Custody.detach e.detaching g i).2).holds
              .goblin := not_mem_added (o := .ok) nofun hgone
          refine apart_of_not_mem ?_
          rw [Outcome.run_after, Custody.restore, hback, Outcome.run_before]
          split
          · exact hstill
          · exact hstill
      split <;> exact hrestored
    · exact apart_of_not_mem (not_mem_added nofun hgone)

theorem Apart.handOver {e : HandingOver} {allowFloor : Bool} (h : Apart g i)
    (hnot : ¬ e.dropping.Doubles) : Apart (Custody.handOver e g i allowFloor).2 i := by
  have hdrop : Apart (Custody.drop e.dropping g i e.square).2 i := h.drop hnot
  unfold Custody.handOver
  dsimp only
  split
  · exact h
  split
  · exact h
  split
  · split
    · exact h.detach
    rename_i hdone
    rw [Bool.not_eq_true', Bool.not_eq_false] at hdone
    obtain ⟨hadded, hback⟩ := Apart.added (e := e.restoring) (o := e.add) (r := e.arrived)
      (p := .player) nofun (detach_out hdone) (h.out_of_detach hdone)
    split
    · split
      · rename_i hread
        split <;> exact hback hread
      · exact hadded
    · split <;> exact hadded
  · split
    · exact h
    · split
      · rename_i heq
        rw [heq] at hdrop
        exact hdrop
      · rename_i heq
        rw [heq] at hdrop
        exact hdrop

/-- **A transfer keeps the items apart**, unless its item doubles. -/
theorem Apart.order {o : Order} (h : ∀ j, Apart g j) (hnot : ¬ o.Doubles) (j : Item) :
    Apart (o.run g i).2 j := by
  by_cases hj : j = i
  · subst hj
    cases o with
    | deposit e c => exact (h j).deposit
    | handOver e allowFloor => exact (h j).handOver hnot
    | drop e square => exact (h j).drop hnot
  · exact (moves_order o g i).apart hj (h j)

end Custody

end GoblinZomboid
