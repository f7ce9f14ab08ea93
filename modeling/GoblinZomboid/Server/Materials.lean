import GoblinZomboid.Lib.Run
import GoblinZomboid.Server.Loot
/-!
# `GoblinWorld.lua`: the materials of a job

The items of a job are taken out of the inventory before the world is
changed, and given back where it does not change. What a give-back could not
confirm stays on a list, and the next reservation begins with it.
-/

namespace GoblinZomboid

namespace Custody

namespace Materials

/-- The calls of `World.reserve`. -/
structure Reserving where
  /-- The give-back of what is still pending. -/
  pending : ℕ → Restoring
  held : ℕ → Reading
  remove : ℕ → Outcome
  gone : ℕ → Reading
  /-- The give-back after an item that could not be taken out. -/
  refund : ℕ → Restoring

/-- The goods, the list of pending materials, and what became of the items
that were reserved. -/
structure Store where
  goods : Goods
  /-- `World.pendingMaterials[body]`. -/
  pending : Option (List Item) := none
  /-- Consumed by work that is seen to be done. -/
  used : List Item := []
  /-- Consumed by work whose outcome is not known. -/
  unsure : List Item := []
  /-- Reserved, and not taken out of the inventory by another job since. -/
  reserved : List Item := []

/-! ## The functions -/

/-- One round of the loop of `World.refund`. -/
def refundOne (e : Restoring) (g : Goods) (i : Item) : Bool × Goods :=
  match containsExact e.held (g.holds .goblin) i with
  | some false =>
    let added := e.add.run (Goods.add .goblin i) g
    (added.1 && containsExact e.back (added.2.holds .goblin) i == some true, added.2)
  | some true => (true, g)
  | none => (false, g)

/-- The loop of `World.refund`: whether all is restored. -/
def refundEach (e : ℕ → Restoring) : ℕ → List Item → Goods → Bool × Goods
  | _, [], g => (true, g)
  | n, i :: rest, g =>
    let one := refundOne (e n) g i
    let others := refundEach e (n + 1) rest one.2
    (one.1 && others.1, others.2)

/-- `World.refund`. -/
def refund (e : ℕ → Restoring) (s : Store) (selected : List Item) : Bool × Store :=
  let all := (s.pending.getD [] ++ selected).eraseDups
  let restored := refundEach e 0 all s.goods
  (restored.1, { s with
    goods := restored.2
    pending := if restored.1 then none else some all })

/-- The first loop of `World.reserve`. -/
def holdsAll (held : ℕ → Reading) (items : List Item) : ℕ → List Item → Bool
  | _, [] => true
  | n, i :: rest => containsExact (held n) items i = some true && holdsAll held items (n + 1) rest

/-- Its second loop: whether all were taken out. -/
def removeEach (e : Reserving) : ℕ → List Item → Goods → Bool × Goods
  | _, [], g => (true, g)
  | n, i :: rest, g =>
    let removed := (e.remove n).run (Goods.remove .goblin i) g
    if !removed.1 || containsExact (e.gone n) (removed.2.holds .goblin) i ≠ some false then
      (false, removed.2)
    else removeEach e (n + 1) rest removed.2

/-- `World.reserve`. -/
def reserve (e : Reserving) (s : Store) (selected : List Item) : Bool × Store :=
  let cleared := match s.pending with
    | none => (true, s)
    | some pending => refund e.pending s pending
  if !cleared.1 then (false, cleared.2)
  else if !holdsAll e.held (cleared.2.goods.holds .goblin) 0 selected then (false, cleared.2)
  else
    let removed := removeEach e 0 selected cleared.2.goods
    let s := { cleared.2 with goods := removed.2, reserved := cleared.2.reserved ++ selected }
    if removed.1 then (true, s) else (false, (refund e.refund s selected).2)

/-- What `Work.update` meets from the count before the work on. -/
structure Working where
  /-- A window; else the square of a blueprint. -/
  target : Bool
  /-- The kind of the blueprint. -/
  kind : String
  /-- `boardCount` or `objectCount`. -/
  before : Option ℕ
  reserving : Reserving
  /-- `windowStillOnSquare`. -/
  still : Bool
  /-- `Curtains.belongsToScope`, where the job has a scope. -/
  inScope : Bool
  /-- `Policy.access` and what it says. -/
  permitted : Except String Unit
  refunding : ℕ → Restoring
  /-- `barricade` or `build`, and the reason it gives. -/
  built : Except String Unit
  after : Option ℕ

/-- The material phase of `Work.update`: whether the job is over, and what is
announced. -/
def work (e : Working) (s : Store) (selected : List Item) : (Bool × Option String) × Store :=
  match e.before with
  | none =>
    ((true, some "cannot establish a safe pre-work state; materials were kept."), s)
  | some before =>
    let reserved := reserve e.reserving s selected
    if !reserved.1 then ((false, none), reserved.2)
    else if e.target && !e.still then
      ((false, some "window changed before boarding; materials kept."),
        (refund e.refunding reserved.2 selected).2)
    else if e.target && !e.inScope then
      ((true, some "the window left our base scope; fortification stopped."),
        (refund e.refunding reserved.2 selected).2)
    else
      match e.permitted with
      | .error detail => ((true, some detail), (refund e.refunding reserved.2 selected).2)
      | .ok () =>
        match e.built with
        | .ok () =>
          ((!e.target, some (if e.target then "one plank secured; continuing fortification."
            else e.kind ++ " built.")),
            { reserved.2 with used := reserved.2.used ++ selected })
        | .error reason =>
          match e.after with
          | none =>
            ((true, some ("work outcome could not be reconciled; materials were not duplicated. " ++
              "Inspect before retrying.")),
              { reserved.2 with unsure := reserved.2.unsure ++ selected })
          | some after =>
            if after = before then
              ((true, some ("work stopped without a world change; materials returned: " ++ reason)),
                (refund e.refunding reserved.2 selected).2)
            else if before < after then
              ((true, some ("world changed, but completion was uncertain; materials were not " ++
                "duplicated. Inspect before retrying.")),
                { reserved.2 with unsure := reserved.2.unsure ++ selected })
            else
              ((true, some ("work outcome could not be reconciled; materials were not duplicated. " ++
                "Inspect before retrying.")),
                { reserved.2 with unsure := reserved.2.unsure ++ selected })

/-- A job that uses its materials up once they are reserved, and is seen to
be done or not. -/
def spend (e : Reserving) (done : Bool) (s : Store) (selected : List Item) : Bool × Store :=
  let reserved := reserve e s selected
  if !reserved.1 then (false, reserved.2)
  else if done then (true, { reserved.2 with used := reserved.2.used ++ selected })
  else (true, { reserved.2 with unsure := reserved.2.unsure ++ selected })

/-- Sowing: `plant.state` is read afterwards. -/
def sow (e : Reserving) (seeded : Bool) (s : Store) (seed : Item) : Bool × Store :=
  spend e seeded s [seed]

/-- A repair of an engine: its condition is set without a check. -/
def repairEngine (e : Reserving) (s : Store) (material : Item) : Bool × Store :=
  spend e false s [material]

/-- `consume`, of the repair of a structure, which may fail afterwards. -/
def consume (e : Reserving) (s : Store) (selected : List Item) : Bool × Store :=
  spend e false s selected

/-! ## What a give-back does -/

variable {g g' g'' : Goods} {s : Store} {i : Item} {items selected extra extra' : List Item}

/-- Nothing changes outside the inventory, and what comes in is among these
items. -/
def Inward (g g' : Goods) (extra : List Item) : Prop :=
  (∀ p, p ≠ .goblin → g'.holds p = g.holds p) ∧
    ∀ i ∈ g'.holds .goblin, i ∈ g.holds .goblin ∨ i ∈ extra

theorem Inward.refl : Inward g g extra := ⟨fun _ _ => rfl, fun _ hi => Or.inl hi⟩

theorem Inward.trans (h : Inward g g' extra) (h' : Inward g' g'' extra')
    (hextra : ∀ i ∈ extra', i ∈ g.holds .goblin ∨ i ∈ extra) : Inward g g'' extra := by
  refine ⟨fun p hp => (h'.1 p hp).trans (h.1 p hp), fun i hi => ?_⟩
  rcases h'.2 i hi with hin | hin
  · exact h.2 i hin
  · exact hextra i hin

/-- So, where those items are nowhere else, the items stay apart. -/
theorem Inward.apart (h : Inward g g' extra) (hg : ∀ i, Apart g i)
    (hextra : ∀ i ∈ extra, Out g i) (i : Item) : Apart g' i := by
  intro hin p hp
  rw [h.1 p hp]
  rcases h.2 i hin with hold | hnew
  · exact hg i hold p hp
  · exact hextra i hnew p hp

theorem inward_add : Inward g (g.add .goblin i) [i] := by
  refine ⟨fun p hp => ?_, fun j hj => ?_⟩
  · rw [Goods.add]
    split
    · rfl
    · exact Function.update_of_ne hp _ _
  · rcases Goods.mem_add.mp hj with ⟨rfl, -⟩ | hin
    · exact Or.inr List.mem_cons_self
    · exact Or.inl hin

theorem inward_remove : Inward g (g.remove .goblin i) [] := by
  refine ⟨fun p hp => ?_, fun j hj => Or.inl (Goods.mem_remove.mp hj).2⟩
  rw [Goods.remove]
  exact Function.update_of_ne hp _ _

/-- One item: nothing leaves the inventory, and a restored item is in it. -/
theorem refundOne_spec (e : Restoring) (g : Goods) (i : Item) :
    Inward g (refundOne e g i).2 [i] ∧
      (∀ j ∈ g.holds .goblin, j ∈ (refundOne e g i).2.holds .goblin) ∧
      ((refundOne e g i).1 = true → i ∈ (refundOne e g i).2.holds .goblin) := by
  unfold refundOne
  split
  · refine ⟨?_, ?_, fun hdone => ?_⟩
    · exact run_keeps (P := fun g' => Inward g g' [i]) .refl inward_add
    · exact run_keeps (P := fun g' => ∀ j ∈ g.holds .goblin, j ∈ g'.holds .goblin)
        (fun _ hj => hj) (fun _ hj => Goods.mem_add.mpr (Or.inr hj))
    · rw [Bool.and_eq_true, beq_iff_eq] at hdone
      exact (containsExact_eq_true.mp hdone.2).2
  · rename_i hread
    exact ⟨.refl, fun _ hj => hj, fun _ => (containsExact_eq_true.mp hread).2⟩
  · exact ⟨.refl, fun _ hj => hj, nofun⟩

theorem refundEach_spec (e : ℕ → Restoring) (n : ℕ) (items : List Item) (g : Goods) :
    Inward g (refundEach e n items g).2 items ∧
      (∀ j ∈ g.holds .goblin, j ∈ (refundEach e n items g).2.holds .goblin) ∧
      ((refundEach e n items g).1 = true →
        ∀ i ∈ items, i ∈ (refundEach e n items g).2.holds .goblin) := by
  induction items generalizing n g with
  | nil => exact ⟨.refl, fun _ hj => hj, fun _ _ hi => absurd hi List.not_mem_nil⟩
  | cons i rest ih =>
    obtain ⟨hone, hstays, hin⟩ := refundOne_spec (e n) g i
    obtain ⟨hrest, hstays', hin'⟩ := ih (n + 1) (refundOne (e n) g i).2
    rw [refundEach]
    refine ⟨?_, fun j hj => hstays' j (hstays j hj), fun hdone j hj => ?_⟩
    · have hone' : Inward g (refundOne (e n) g i).2 (i :: rest) :=
        ⟨hone.1, fun j hj => (hone.2 j hj).imp_right fun h =>
          List.mem_cons.mpr (Or.inl (List.mem_singleton.mp h))⟩
      exact hone'.trans hrest fun j hj => Or.inr (List.mem_cons_of_mem _ hj)
    · rw [Bool.and_eq_true] at hdone
      rcases List.mem_cons.mp hj with rfl | hj
      · exact hstays' j (hin hdone.1)
      · exact hin' hdone.2 j hj

/-- **After a give-back** every pending or selected item is in the inventory
or on the list, and the list is empty when it reports success. -/
theorem refund_spec (e : ℕ → Restoring) (s : Store) (selected : List Item) :
    Inward s.goods (refund e s selected).2.goods (s.pending.getD [] ++ selected) ∧
      (∀ j ∈ s.goods.holds .goblin, j ∈ (refund e s selected).2.goods.holds .goblin) ∧
      (∀ i ∈ s.pending.getD [] ++ selected, i ∈ (refund e s selected).2.goods.holds .goblin ∨
        i ∈ (refund e s selected).2.pending.getD []) ∧
      ((refund e s selected).1 = true → (refund e s selected).2.pending = none) := by
  obtain ⟨hinward, hstays, hin⟩ :=
    refundEach_spec e 0 (s.pending.getD [] ++ selected).eraseDups s.goods
  have hmem : ∀ i, i ∈ (s.pending.getD [] ++ selected).eraseDups ↔
      i ∈ s.pending.getD [] ++ selected := fun i => List.mem_eraseDups
  unfold refund
  dsimp only
  refine ⟨⟨hinward.1, fun i hi => (hinward.2 i hi).imp_right (hmem i).mp⟩, hstays, ?_, ?_⟩
  · intro i hi
    cases hdone : (refundEach e 0 (s.pending.getD [] ++ selected).eraseDups s.goods).1 with
    | true => exact Or.inl (hin hdone i ((hmem i).mpr hi))
    | false => exact Or.inr ((hmem i).mpr hi)
  · intro hdone
    rw [if_pos hdone]

/-! ## What a reservation does -/

theorem mem_of_holdsAll {held : ℕ → Reading} {n : ℕ} {within : List Item}
    (h : holdsAll held within n items = true) : ∀ i ∈ items, i ∈ within := by
  induction items generalizing n with
  | nil => exact fun _ hi => absurd hi List.not_mem_nil
  | cons i rest ih =>
    rw [holdsAll, Bool.and_eq_true, decide_eq_true_eq] at h
    intro j hj
    rcases List.mem_cons.mp hj with rfl | hj
    · exact (containsExact_eq_true.mp h.1).2
    · exact ih h.2 j hj

/-- Taking out brings nothing in, and touches the selected items only. -/
theorem removeEach_spec (e : Reserving) (n : ℕ) (items : List Item) (g : Goods) :
    Inward g (removeEach e n items g).2 [] ∧
      ∀ j ∈ g.holds .goblin, j ∈ (removeEach e n items g).2.holds .goblin ∨ j ∈ items := by
  induction items generalizing n g with
  | nil => exact ⟨.refl, fun _ hj => Or.inl hj⟩
  | cons i rest ih =>
    have hinward : Inward g ((e.remove n).run (Goods.remove .goblin i) g).2 [] :=
      run_keeps (P := fun g' => Inward g g' []) .refl inward_remove
    have hothers : ∀ j ∈ g.holds .goblin,
        j ∈ ((e.remove n).run (Goods.remove .goblin i) g).2.holds .goblin ∨ j ∈ i :: rest := by
      intro j hj
      by_cases hne : j = i
      · exact Or.inr (List.mem_cons.mpr (Or.inl hne))
      · exact Or.inl ((Moves.run_remove .refl |>.mem_iff hne _).mpr hj)
    rw [removeEach]
    split
    · exact ⟨hinward, hothers⟩
    · obtain ⟨hrest, hleft⟩ := ih (n + 1) ((e.remove n).run (Goods.remove .goblin i) g).2
      refine ⟨hinward.trans hrest fun _ hj => absurd hj List.not_mem_nil, fun j hj => ?_⟩
      rcases hothers j hj with hin | hin
      · exact (hleft j hin).imp_right (List.mem_cons_of_mem _)
      · exact Or.inr hin

/-- The list is empty, or a give-back has emptied it. -/
def Cleared (e : Reserving) (s c : Store) : Prop :=
  c.pending = none ∧ (c = s ∨ ∃ pending, s.pending = some pending ∧
    c = (refund e.pending s pending).2)

/-- The store once the selected items are being taken out. -/
def Store.taking (c : Store) (e : Reserving) (selected : List Item) : Store :=
  { c with
    goods := (removeEach e 0 selected c.goods).2
    reserved := c.reserved ++ selected }

/-- **How a reservation ends.** -/
theorem reserve_cases (e : Reserving) (s : Store) (selected : List Item) :
    (∃ pending, s.pending = some pending ∧
      reserve e s selected = (false, (refund e.pending s pending).2)) ∨
    ∃ c, Cleared e s c ∧ (reserve e s selected = (false, c) ∨
      (∀ i ∈ selected, i ∈ c.goods.holds .goblin) ∧
        ((removeEach e 0 selected c.goods).1 = true ∧
            reserve e s selected = (true, c.taking e selected) ∨
          reserve e s selected = (false, (refund e.refund (c.taking e selected) selected).2))) := by
  have hgo : ∀ c, Cleared e s c →
      (reserve e s selected =
        if !holdsAll e.held (c.goods.holds .goblin) 0 selected then (false, c)
        else if (removeEach e 0 selected c.goods).1 then (true, c.taking e selected)
        else (false, (refund e.refund (c.taking e selected) selected).2)) →
      ∃ c, Cleared e s c ∧ (reserve e s selected = (false, c) ∨
        (∀ i ∈ selected, i ∈ c.goods.holds .goblin) ∧
          ((removeEach e 0 selected c.goods).1 = true ∧
              reserve e s selected = (true, c.taking e selected) ∨
            reserve e s selected =
              (false, (refund e.refund (c.taking e selected) selected).2))) := by
    intro c hc heq
    refine ⟨c, hc, ?_⟩
    rw [heq]
    split
    · exact Or.inl rfl
    · rename_i hheld
      rw [Bool.not_eq_true', Bool.not_eq_false] at hheld
      refine Or.inr ⟨mem_of_holdsAll hheld, ?_⟩
      split
      · rename_i hremoved
        exact Or.inl ⟨hremoved, rfl⟩
      · exact Or.inr rfl
  cases hpending : s.pending with
  | none =>
    refine Or.inr (hgo s ⟨hpending, Or.inl rfl⟩ ?_)
    unfold reserve
    rw [hpending]
    rfl
  | some pending =>
    cases hdone : (refund e.pending s pending).1 with
    | false =>
      refine Or.inl ⟨pending, rfl, ?_⟩
      unfold reserve
      rw [hpending]
      simp only [hdone]
      rfl
    | true =>
      obtain ⟨-, -, -, hnone⟩ := refund_spec e.pending s pending
      refine Or.inr (hgo _ ⟨hnone hdone, Or.inr ⟨pending, hpending, rfl⟩⟩ ?_)
      unfold reserve
      rw [hpending]
      simp only [hdone]
      rfl

/-! ## No item disappears -/

/-- The item is in the inventory or on the list, or a job has consumed it. -/
def Store.Accounts (s : Store) (i : Item) : Prop :=
  i ∈ s.goods.holds .goblin ∨ i ∈ s.pending.getD [] ∨ i ∈ s.used ∨ i ∈ s.unsure

/-- Every reserved item is accounted for. -/
def Store.Kept (s : Store) : Prop := ∀ i ∈ s.reserved, s.Accounts i

theorem accounts_refund {e : ℕ → Restoring} (h : s.Accounts i ∨ i ∈ selected) :
    (refund e s selected).2.Accounts i := by
  obtain ⟨-, hstays, hin, -⟩ := refund_spec e s selected
  have hlisted : i ∈ s.pending.getD [] ++ selected → (refund e s selected).2.Accounts i :=
    fun hi => (hin i hi).imp_right Or.inl
  rcases h with (hgoblin | hpending | hused | hunsure) | hselected
  · exact Or.inl (hstays i hgoblin)
  · exact hlisted (List.mem_append_left _ hpending)
  · exact Or.inr (Or.inr (Or.inl hused))
  · exact Or.inr (Or.inr (Or.inr hunsure))
  · exact hlisted (List.mem_append_right _ hselected)

theorem kept_refund {e : ℕ → Restoring} (h : ∀ i ∈ s.reserved, s.Accounts i ∨ i ∈ selected) :
    (refund e s selected).2.Kept :=
  fun i hi => accounts_refund (h i hi)

theorem Cleared.kept {e : Reserving} {c : Store} (hc : Cleared e s c) (h : s.Kept) : c.Kept := by
  rcases hc.2 with rfl | ⟨pending, -, rfl⟩
  · exact h
  · exact kept_refund fun i hi => Or.inl (h i hi)

/-- **A reservation** leaves every reserved item accounted for, but for those
it holds itself. -/
theorem accounts_reserve (e : Reserving) (h : s.Kept) :
    ∀ i ∈ (reserve e s selected).2.reserved, (reserve e s selected).2.Accounts i ∨
      (reserve e s selected).1 = true ∧ i ∈ selected := by
  rcases reserve_cases e s selected with ⟨pending, -, heq⟩ | ⟨c, hc, heq | ⟨-, htaken⟩⟩
  · rw [heq]
    exact fun i hi => Or.inl (kept_refund (fun i hi => Or.inl (h i hi)) i hi)
  · rw [heq]
    exact fun i hi => Or.inl (hc.kept h i hi)
  · have htaking : ∀ i ∈ (c.taking e selected).reserved,
        (c.taking e selected).Accounts i ∨ i ∈ selected := by
      intro i hi
      rcases List.mem_append.mp hi with hold | hnew
      · rcases hc.kept h i hold with hgoblin | hrest
        · exact ((removeEach_spec e 0 selected c.goods).2 i hgoblin).imp_left Or.inl
        · exact Or.inl (Or.inr hrest)
      · exact Or.inr hnew
    rcases htaken with ⟨-, heq⟩ | heq
    · rw [heq]
      exact fun i hi => (htaking i hi).imp_right fun hsel => ⟨rfl, hsel⟩
    · rw [heq]
      exact fun i hi => Or.inl (kept_refund htaking i hi)

/-- The held items are consumed. -/
theorem kept_used (h : ∀ i ∈ s.reserved, s.Accounts i ∨ i ∈ selected) :
    ({ s with used := s.used ++ selected } : Store).Kept := by
  intro i hi
  rcases h i hi with (hgoblin | hpending | hused | hunsure) | hselected
  · exact Or.inl hgoblin
  · exact Or.inr (Or.inl hpending)
  · exact Or.inr (Or.inr (Or.inl (List.mem_append_left _ hused)))
  · exact Or.inr (Or.inr (Or.inr hunsure))
  · exact Or.inr (Or.inr (Or.inl (List.mem_append_right _ hselected)))

theorem kept_unsure (h : ∀ i ∈ s.reserved, s.Accounts i ∨ i ∈ selected) :
    ({ s with unsure := s.unsure ++ selected } : Store).Kept := by
  intro i hi
  rcases h i hi with (hgoblin | hpending | hused | hunsure) | hselected
  · exact Or.inl hgoblin
  · exact Or.inr (Or.inl hpending)
  · exact Or.inr (Or.inr (Or.inl hused))
  · exact Or.inr (Or.inr (Or.inr (List.mem_append_left _ hunsure)))
  · exact Or.inr (Or.inr (Or.inr (List.mem_append_right _ hselected)))

theorem kept_work {e : Working} (h : s.Kept) : (work e s selected).2.Kept := by
  unfold work
  split
  · exact h
  have hreserved := @accounts_reserve s selected e.reserving h
  have hheld : ∀ i ∈ (reserve e.reserving s selected).2.reserved,
      (reserve e.reserving s selected).2.Accounts i ∨ i ∈ selected :=
    fun i hi => (hreserved i hi).imp_right And.right
  dsimp only
  split
  · rename_i hfailed
    rw [Bool.not_eq_true'] at hfailed
    intro i hi
    exact (hreserved i hi).resolve_right fun hsel => by rw [hfailed] at hsel; cases hsel.1
  split
  · exact kept_refund hheld
  split
  · exact kept_refund hheld
  split
  · exact kept_refund hheld
  split
  · exact kept_used hheld
  split
  · exact kept_unsure hheld
  split
  · exact kept_refund hheld
  split
  · exact kept_unsure hheld
  · exact kept_unsure hheld

theorem kept_spend {e : Reserving} {done : Bool} (h : s.Kept) :
    (spend e done s selected).2.Kept := by
  have hreserved := @accounts_reserve s selected e h
  have hheld : ∀ i ∈ (reserve e s selected).2.reserved,
      (reserve e s selected).2.Accounts i ∨ i ∈ selected :=
    fun i hi => (hreserved i hi).imp_right And.right
  unfold spend
  dsimp only
  split
  · rename_i hfailed
    rw [Bool.not_eq_true'] at hfailed
    intro i hi
    exact (hreserved i hi).resolve_right fun hsel => by rw [hfailed] at hsel; cases hsel.1
  split
  · exact kept_used hheld
  · exact kept_unsure hheld

/-! ## No item is in two places -/

theorem Cleared.inward {e : Reserving} {c : Store} (hc : Cleared e s c) :
    Inward s.goods c.goods (s.pending.getD []) := by
  rcases hc.2 with rfl | ⟨pending, hpending, rfl⟩
  · exact .refl
  · obtain ⟨hinward, -⟩ := refund_spec e.pending s pending
    refine ⟨hinward.1, fun i hi => (hinward.2 i hi).imp_right fun hin => ?_⟩
    rw [hpending] at hin ⊢
    exact (List.mem_append.mp hin).elim id id

/-- **What a reservation brings in** was pending; and an item it holds was in
the inventory or pending. -/
theorem inward_reserve (e : Reserving) (s : Store) (selected : List Item) :
    Inward s.goods (reserve e s selected).2.goods (s.pending.getD []) ∧
      ((reserve e s selected).1 = true → (reserve e s selected).2.pending = none ∧
        ∀ i ∈ selected, i ∈ s.goods.holds .goblin ∨ i ∈ s.pending.getD []) := by
  rcases reserve_cases e s selected with ⟨pending, hpending, heq⟩ | ⟨c, hc, heq | ⟨hheld, htaken⟩⟩
  · rw [heq]
    refine ⟨?_, nofun⟩
    obtain ⟨hinward, -⟩ := refund_spec e.pending s pending
    refine ⟨hinward.1, fun i hi => (hinward.2 i hi).imp_right fun hin => ?_⟩
    rw [hpending] at hin ⊢
    exact (List.mem_append.mp hin).elim id id
  · rw [heq]
    exact ⟨hc.inward, nofun⟩
  · have htaking : Inward s.goods (c.taking e selected).goods (s.pending.getD []) :=
      hc.inward.trans (removeEach_spec e 0 selected c.goods).1
        fun _ hj => absurd hj List.not_mem_nil
    have hselected : ∀ i ∈ selected, i ∈ s.goods.holds .goblin ∨ i ∈ s.pending.getD [] :=
      fun i hi => hc.inward.2 i (hheld i hi)
    rcases htaken with ⟨-, heq⟩ | heq
    · rw [heq]
      exact ⟨htaking, fun _ => ⟨hc.1, hselected⟩⟩
    · rw [heq]
      refine ⟨htaking.trans (refund_spec e.refund _ selected).1 fun i hi => ?_, nofun⟩
      rw [Store.taking, hc.1] at hi
      exact hselected i hi

/-- A give-back of held items. -/
theorem inward_refund_reserved {e : Reserving} {refunding : ℕ → Restoring}
    (hdone : (reserve e s selected).1 = true) :
    Inward s.goods (refund refunding (reserve e s selected).2 selected).2.goods
      (s.pending.getD []) := by
  obtain ⟨hinward, hheld⟩ := inward_reserve e s selected
  obtain ⟨hnone, hselected⟩ := hheld hdone
  refine hinward.trans (refund_spec refunding _ selected).1 fun i hi => ?_
  rw [hnone] at hi
  exact hselected i hi

theorem inward_work (e : Working) (s : Store) (selected : List Item) :
    Inward s.goods (work e s selected).2.goods (s.pending.getD []) := by
  have hinward := (inward_reserve e.reserving s selected).1
  unfold work
  split
  · exact .refl
  dsimp only
  split
  · exact hinward
  rename_i hdone
  rw [Bool.not_eq_true', Bool.not_eq_false] at hdone
  split
  · exact inward_refund_reserved hdone
  split
  · exact inward_refund_reserved hdone
  split
  · exact inward_refund_reserved hdone
  split
  · exact hinward
  split
  · exact hinward
  split
  · exact inward_refund_reserved hdone
  split
  · exact hinward
  · exact hinward

theorem inward_spend (e : Reserving) (done : Bool) (s : Store) (selected : List Item) :
    Inward s.goods (spend e done s selected).2.goods (s.pending.getD []) := by
  have hinward := (inward_reserve e s selected).1
  unfold spend
  dsimp only
  split
  · exact hinward
  split
  · exact hinward
  · exact hinward

/-! ## Runs -/

/-- What the jobs of one body do. -/
inductive Op
  | work (e : Working) (selected : List Item)
  | sow (e : Reserving) (seeded : Bool) (seed : Item)
  | repairEngine (e : Reserving) (material : Item)
  | consume (e : Reserving) (selected : List Item)
  | transfer (o : Order) (i : Item)
  | deposit (e : Loot.Depositing)

/-- Another job has moved items. -/
def Store.moved (s : Store) (g : Goods) : Store :=
  { s with
    goods := g
    reserved := s.reserved.filter fun i =>
      List.elem i (g.holds .goblin) || !List.elem i (s.goods.holds .goblin) }

def step (s : Store) : Op → Store
  | .work e selected => (work e s selected).2
  | .sow e seeded seed => (sow e seeded s seed).2
  | .repairEngine e material => (repairEngine e s material).2
  | .consume e selected => (consume e s selected).2
  | .transfer o i => s.moved (o.run s.goods i).2
  | .deposit e => s.moved (Loot.deposit e s.goods).2

/-- No pending item is elsewhere. -/
def Store.Settled (s : Store) : Prop := ∀ i ∈ s.pending.getD [], Out s.goods i

/-- A reservation begins with no pending item elsewhere, and no item that is
put down is doubled. -/
def Careful (s : Store) : Op → Prop
  | .transfer o _ => ¬ o.Doubles
  | .deposit e => e.Undoubled s.goods
  | _ => s.Settled

theorem kept_moved (h : s.Kept) : (s.moved g).Kept := by
  intro i hi
  obtain ⟨hold, hstays⟩ := List.mem_filter.mp hi
  rcases h i hold with hgoblin | hrest
  · rw [List.elem_iff.mpr hgoblin, Bool.not_true, Bool.or_false] at hstays
    exact Or.inl (List.elem_iff.mp hstays)
  · exact Or.inr hrest

/-- **No step loses a reserved item.** -/
theorem kept_step (s : Store) (op : Op) (h : s.Kept) : (step s op).Kept := by
  cases op with
  | work e selected => exact kept_work h
  | sow e seeded seed => exact kept_spend h
  | repairEngine e material => exact kept_spend h
  | consume e selected => exact kept_spend h
  | transfer o i => exact kept_moved h
  | deposit e => exact kept_moved h

/-- **No careful step doubles an item.** -/
theorem apart_step (s : Store) (op : Op) (h : ∀ i, Apart s.goods i) (hcareful : Careful s op) :
    ∀ i, Apart (step s op).goods i := by
  cases op with
  | work e selected => exact (inward_work e s selected).apart h hcareful
  | sow e seeded seed => exact (inward_spend e seeded s [seed]).apart h hcareful
  | repairEngine e material => exact (inward_spend e false s [material]).apart h hcareful
  | consume e selected => exact (inward_spend e false s selected).apart h hcareful
  | transfer o i => exact Apart.order h hcareful
  | deposit e => exact Loot.apart_deposit h hcareful

/-- No job has begun. -/
def start (g : Goods) : Store := { goods := g }

/-- **Materials stay in custody.** After every run a reserved item that no
other job has taken out is in the inventory or pending, or was consumed; and
after a careful run no item is in the inventory and elsewhere. -/
theorem custody_of_materials (g : Goods) (ops : List Op) :
    (∀ i ∈ (Machine.run step (start g) ops).reserved,
      (Machine.run step (start g) ops).Accounts i) ∧
    ((∀ i, Apart g i) → Machine.Meets step Careful (start g) ops →
      ∀ i, Apart (Machine.run step (start g) ops).goods i) := by
  constructor
  · have hkept : (Machine.run step (start g) ops).Kept :=
      Machine.invariant kept_step (fun _ hi => absurd hi List.not_mem_nil) ops
    exact hkept
  · intro hg hcareful
    have hstep : ∀ s op, (∀ i, Apart (Store.goods s) i) → Careful s op →
        ∀ i, Apart (step s op).goods i := apart_step
    have hstart : ∀ i, Apart (start g).goods i := hg
    exact Machine.invariant_of_meets hstep hstart hcareful

/-- A plank and a nail are in the inventory. -/
def stocked : Goods where
  holds := fun p => if p = .goblin then [1, 2] else []
  conjured := fun _ => false

/-- Everything answers and works. -/
def smooth : Reserving where
  pending := fun _ => ⟨.clear, .ok, .clear⟩
  held := fun _ => .clear
  remove := fun _ => .ok
  gone := fun _ => .clear
  refund := fun _ => ⟨.clear, .ok, .clear⟩

/-- A board is put up. -/
def building : Working where
  target := true
  kind := "crate"
  before := some 0
  reserving := smooth
  still := true
  inScope := true
  permitted := .ok ()
  refunding := fun _ => ⟨.clear, .ok, .clear⟩
  built := .ok ()
  after := some 1

theorem apart_stocked (i : Item) : Apart stocked i := by
  intro _ p hp
  have hnone : stocked.holds p = [] := if_neg hp
  rw [hnone]
  exact List.not_mem_nil

theorem custody_of_materials_building :
    1 ∈ (Machine.run step (start stocked) [.work building [1]]).used ∧
      ∀ i, Apart (Machine.run step (start stocked) [.work building [1]]).goods i := by
  refine ⟨by decide, (custody_of_materials stocked [.work building [1]]).2 apart_stocked ?_⟩
  refine ⟨fun i hi => ?_, trivial⟩
  cases hi

/-- The build fails, and the boards cannot be counted afterwards. -/
def unreconciled : Working := { building with built := .error "", after := none }

/-- The window is gone, and the read after the give-back does not come back. -/
def unseen : Working :=
  { building with still := false, refunding := fun _ => ⟨.clear, .ok, ⟨false, false, fun _ => true⟩⟩ }

/-- A delivery of the plank into a container. -/
def delivered : Order :=
  .deposit ⟨true, .clear, .clear, some true, ⟨.clear, .ok, .ok, .clear⟩, .ok, .clear,
    ⟨.clear, .ok, .clear⟩, true⟩ 0

/-- The plank is given back unseen, delivered and given back once more. -/
def twice : List Op := [.work unseen [1], .transfer delivered 1, .work building [2]]

/-- A build that cannot be reconciled takes the plank with it; and a plank
can end in two places. -/
theorem materials_lost_and_doubled :
    (1 ∈ (step (start stocked) (.work unreconciled [1])).reserved ∧
      1 ∉ (step (start stocked) (.work unreconciled [1])).goods.holds .goblin ∧
      (step (start stocked) (.work unreconciled [1])).pending = none ∧
      (step (start stocked) (.work unreconciled [1])).used = []) ∧
    1 ∈ (Machine.run step (start stocked) twice).goods.holds .goblin ∧
    1 ∈ (Machine.run step (start stocked) twice).goods.holds (.container 0) := by
  decide

end Materials

end Custody

end GoblinZomboid
