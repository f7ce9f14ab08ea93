import GoblinZomboid.Lib.Run
import GoblinZomboid.Server.Pickup
/-!
# The ledgers of the logistics jobs

Sorting and fetching keep a ledger of the items they carry. The entry of an
item is written before the item is picked up and taken out again when the
pickup fails, whatever became of the item. What is tracked here beside the
ledger is which items the job itself brought into Goblin's inventory.
-/

namespace GoblinZomboid

namespace Custody

/-! ## Finding an item by its id -/

/-- What a container answers to `Transfer.findById`. -/
structure Finding where
  /-- `getItems` and `size`. -/
  listed : Bool
  /-- `get`. -/
  gets : ℕ → Bool
  /-- `getID`. -/
  ids : Item → Bool

/-- The loop of `Transfer.findById`. -/
def Finding.loop (f : Finding) (id : Item) : ℕ → List Item → Option Bool
  | _, [] => some false
  | n, item :: rest =>
    if !f.gets n then none
    else if f.ids item && item == id then some true
    else loop f id (n + 1) rest

/-- `Transfer.findById`: whether the item is there, none where the container
cannot be read. -/
def findById (f : Finding) (items : List Item) (id : Item) : Option Bool :=
  if !f.listed || 10000 < items.length then none else f.loop id 0 items

/-- A container that answers everything. -/
def Finding.clear : Finding := ⟨true, fun _ => true, fun _ => true⟩

/-- The container can be read, and the id of an item in it cannot. -/
def Finding.Overlooks (f : Finding) (items : List Item) (id : Item) : Prop :=
  id ∈ items ∧ findById f items id = some false

theorem mem_of_findById {f : Finding} {items : List Item} {id : Item}
    (h : findById f items id = some true) : id ∈ items := by
  have hloop : ∀ n items, f.loop id n items = some true → id ∈ items := by
    intro n items
    induction items generalizing n with
    | nil => nofun
    | cons item rest ih =>
      intro h
      rw [Finding.loop] at h
      split at h
      · cases h
      split at h
      · rename_i hthis
        rw [Bool.and_eq_true] at hthis
        exact List.mem_cons.mpr (Or.inl (beq_iff_eq.mp hthis.2).symm)
      · exact List.mem_cons_of_mem _ (ih _ h)
  rw [findById] at h
  split at h
  · cases h
  · exact hloop 0 items h

/-- An item is overlooked when everything answers but its own `getID`. -/
theorem overlooks_iff {f : Finding} {items : List Item} {id : Item} :
    f.Overlooks items id ↔ id ∈ items ∧ f.ids id = false ∧ f.listed = true ∧
      items.length ≤ 10000 ∧ ∀ n < items.length, f.gets n = true := by
  have hloop : ∀ n items, f.loop id n items = some false ↔
      (∀ k < items.length, f.gets (n + k) = true) ∧ (id ∈ items → f.ids id = false) := by
    intro n items
    induction items generalizing n with
    | nil => simp [Finding.loop]
    | cons item rest ih =>
      rw [Finding.loop]
      have hrange : (∀ k < (item :: rest).length, f.gets (n + k) = true) ↔
          f.gets n = true ∧ ∀ k < rest.length, f.gets (n + 1 + k) = true := by
        constructor
        · intro h
          refine ⟨h 0 (Nat.succ_pos _), fun k hk => ?_⟩
          have := h (k + 1) (Nat.succ_lt_succ hk)
          rwa [show n + (k + 1) = n + 1 + k by omega] at this
        · rintro ⟨h0, h⟩ k hk
          rcases k with _ | k
          · exact h0
          · rw [show n + (k + 1) = n + 1 + k by omega]
            exact h k (Nat.lt_of_succ_lt_succ hk)
      rw [hrange]
      cases hget : f.gets n with
      | false => simp
      | true =>
        by_cases hthis : f.ids item = true ∧ item = id
        · obtain ⟨hid, rfl⟩ := hthis
          simp [hid]
        · rw [if_neg (by simp), if_neg (by simpa using hthis), ih]
          constructor
          · rintro ⟨hgets, hrest⟩
            refine ⟨⟨rfl, hgets⟩, fun hmem => ?_⟩
            rcases List.mem_cons.mp hmem with rfl | hin
            · exact Bool.eq_false_iff.mpr fun hid => hthis ⟨hid, rfl⟩
            · exact hrest hin
          · rintro ⟨⟨-, hgets⟩, hmem⟩
            exact ⟨hgets, fun hin => hmem (List.mem_cons_of_mem _ hin)⟩
  rw [Finding.Overlooks, findById]
  constructor
  · rintro ⟨hmem, h⟩
    split at h
    · cases h
    · rename_i hread
      rw [Bool.or_eq_true, not_or, Bool.not_eq_true', Bool.not_eq_false,
        decide_eq_true_eq, Nat.not_lt] at hread
      obtain ⟨hgets, hid⟩ := (hloop 0 items).mp h
      refine ⟨hmem, hid hmem, hread.1, hread.2, fun n hn => ?_⟩
      have := hgets n hn
      rwa [Nat.zero_add] at this
  · rintro ⟨hmem, hid, hlisted, hlen, hgets⟩
    refine ⟨hmem, ?_⟩
    rw [if_neg (by simp [hlisted, hlen])]
    refine (hloop 0 items).mpr ⟨fun k hk => ?_, fun _ => hid⟩
    rw [Nat.zero_add]
    exact hgets k hk

/-! ## What comes in and what goes out -/

variable {g g' : Goods} {i : Item} {s : Source}

/-- The item comes in: it is out of its container, or on the floor, and
`AddItem` takes effect. -/
def Picking.Brings (e : Picking) (g : Goods) (i : Item) (s : Source) : Prop :=
  e.taking.admits g i s = true ∧ e.taking.clears g i s ∧ e.taking.add ≠ .before

/-- Every call that follows works, and both reads of the inventory come back. -/
def Picking.Confirms (e : Picking) (g : Goods) (i : Item) (s : Source) : Prop :=
  e.taking.add = .ok ∧
    e.taking.arrived.answers (((s.cleared g i).add .goblin i).holds .goblin) = true ∧
    (match s with
    | .container _ => e.taking.sent = true
    | .floor _ => e.taking.transmit = .ok ∧ e.taking.removeFromWorld = .ok ∧
        e.taking.removeFromSquare = .ok ∧ e.taking.setWorldItem = .ok) ∧
    e.held.answers (((s.cleared g i).add .goblin i).holds .goblin) = true

/-- The item comes in and the pickup does not say so. -/
def Picking.Slips (e : Picking) (g : Goods) (i : Item) (s : Source) : Prop :=
  e.Brings g i s ∧ ¬ e.Confirms g i s

theorem goblin_remove_other {p : Place} (hp : Place.goblin ≠ p) :
    (g.remove p i).holds .goblin = g.holds .goblin := by
  rw [Goods.remove]
  exact Function.update_of_ne hp _ _

theorem goblin_add_other {p : Place} (hp : Place.goblin ≠ p) :
    (g.add p i).holds .goblin = g.holds .goblin := by
  rw [Goods.add]
  split
  · rfl
  · exact Function.update_of_ne hp _ _

theorem goblin_run {o : Outcome} {act : Goods → Goods}
    (h : (act g).holds .goblin = g.holds .goblin) :
    (o.run act g).2.holds .goblin = g.holds .goblin := by
  cases o with
  | ok => exact h
  | before => rfl
  | after => exact h

/-- Lifting an item off the floor leaves the inventory alone, and works when
all its calls do. -/
theorem goblin_liftOff (e : Taking) (g : Goods) (i : Item) (square : ℕ) :
    (liftOff e g i square).2.holds .goblin = g.holds .goblin ∧
      ((liftOff e g i square).1 = some true ↔ e.transmit = .ok ∧ e.removeFromWorld = .ok ∧
        e.removeFromSquare = .ok ∧ e.setWorldItem = .ok) ∧
      (liftOff e g i square).1 ≠ some false := by
  have hlifted : (g.remove (.floor square) i).holds .goblin = g.holds .goblin :=
    goblin_remove_other nofun
  have hagain : ((g.remove (.floor square) i).remove (.floor square) i).holds .goblin =
      g.holds .goblin := by
    rw [remove_remove]
    exact hlifted
  unfold liftOff
  cases e.transmit with
  | before => exact ⟨rfl, ⟨nofun, nofun⟩, nofun⟩
  | after => exact ⟨hlifted, ⟨nofun, nofun⟩, nofun⟩
  | ok =>
    cases e.removeFromWorld with
    | before => exact ⟨hlifted, ⟨nofun, nofun⟩, nofun⟩
    | after => exact ⟨hlifted, ⟨nofun, nofun⟩, nofun⟩
    | ok =>
      cases e.removeFromSquare with
      | before => exact ⟨hlifted, ⟨nofun, nofun⟩, nofun⟩
      | after => exact ⟨hagain, ⟨nofun, nofun⟩, nofun⟩
      | ok =>
        cases e.setWorldItem with
        | ok => exact ⟨hagain, ⟨fun _ => ⟨rfl, rfl, rfl, rfl⟩, fun _ => rfl⟩, nofun⟩
        | before => exact ⟨hagain, ⟨nofun, nofun⟩, nofun⟩
        | after => exact ⟨hagain, ⟨nofun, nofun⟩, nofun⟩

/-- The inventory refused the item, or nobody saw it come in. -/
theorem takeIn_refused {e : Taking} {added : Bool × Goods}
    (hadded : e.add.run (Goods.add .goblin i) g = added)
    (h : (!added.1 || containsExact e.arrived (added.2.holds .goblin) i ≠ some true) = true) :
    (takeIn e g i s).1 = some false ∧ (takeIn e g i s).2.holds .goblin = added.2.holds .goblin := by
  unfold takeIn
  dsimp only
  rw [hadded, if_pos h]
  cases s with
  | floor square => exact ⟨rfl, rfl⟩
  | container c =>
    dsimp only
    split
    · exact ⟨rfl, goblin_run (goblin_add_other nofun)⟩
    · exact ⟨rfl, rfl⟩

/-- The last part of `take`, for an item that is not in the inventory. -/
theorem takeIn_brings (e : Taking) (h : i ∉ g.holds .goblin) :
    (i ∈ (takeIn e g i s).2.holds .goblin ↔ e.add ≠ .before) ∧
      ((takeIn e g i s).1 = some true ↔ e.add = .ok ∧
        e.arrived.answers ((g.add .goblin i).holds .goblin) = true ∧
        (match s with
        | .container _ => e.sent = true
        | .floor _ => e.transmit = .ok ∧ e.removeFromWorld = .ok ∧
            e.removeFromSquare = .ok ∧ e.setWorldItem = .ok)) ∧
      ((takeIn e g i s).1 = some true →
        (takeIn e g i s).2.holds .goblin = (g.add .goblin i).holds .goblin) := by
  have hin : i ∈ (g.add .goblin i).holds .goblin := Goods.mem_add.mpr (Or.inl ⟨rfl, rfl⟩)
  cases hadd : e.add with
  | before =>
    have hadded : e.add.run (Goods.add .goblin i) g = (false, g) := by rw [hadd, Outcome.run_before]
    obtain ⟨hresult, hholds⟩ := takeIn_refused (s := s) hadded rfl
    rw [hresult, hholds]
    exact ⟨iff_of_false h (fun hne => hne rfl), ⟨nofun, nofun⟩, nofun⟩
  | after =>
    have hadded : e.add.run (Goods.add .goblin i) g = (false, g.add .goblin i) := by
      rw [hadd, Outcome.run_after]
    obtain ⟨hresult, hholds⟩ := takeIn_refused (s := s) hadded rfl
    rw [hresult, hholds]
    exact ⟨iff_of_true hin nofun, ⟨nofun, nofun⟩, nofun⟩
  | ok =>
    have hadded : e.add.run (Goods.add .goblin i) g = (true, g.add .goblin i) := by
      rw [hadd, Outcome.run_ok]
    by_cases harrived : e.arrived.answers ((g.add .goblin i).holds .goblin) = true
    · have hseen : containsExact e.arrived ((g.add .goblin i).holds .goblin) i = some true :=
        containsExact_eq_true.mpr ⟨harrived, hin⟩
      have hgo : takeIn e g i s = match s with
          | .container _ => (some e.sent, g.add .goblin i)
          | .floor square => liftOff e (g.add .goblin i) i square := by
        unfold takeIn
        dsimp only
        cases s with
        | container _ => rw [hadded, if_neg (by rw [hseen]; simp)]
        | floor square => rw [hadded, if_neg (by rw [hseen]; simp)]
      rw [hgo]
      cases s with
      | container c =>
        exact ⟨iff_of_true hin nofun,
          ⟨fun hsent => ⟨rfl, harrived, Option.some.inj hsent⟩, fun h => congrArg some h.2.2⟩,
          fun _ => rfl⟩
      | floor square =>
        obtain ⟨hholds, hworked, -⟩ := goblin_liftOff e (g.add .goblin i) i square
        dsimp only
        rw [hholds, hworked]
        exact ⟨iff_of_true hin nofun, ⟨fun h => ⟨rfl, harrived, h⟩, fun h => h.2.2⟩, fun _ => rfl⟩
    · have hunseen : containsExact e.arrived ((g.add .goblin i).holds .goblin) i ≠ some true :=
        fun heq => harrived (containsExact_eq_true.mp heq).1
      obtain ⟨hresult, hholds⟩ := takeIn_refused (s := s) hadded (by simp [hunseen])
      rw [hresult, hholds]
      exact ⟨iff_of_true hin nofun, ⟨nofun, fun h => absurd h.2.1 harrived⟩, nofun⟩

/-- What `take` brings in and reports, of an item that is not in the
inventory. -/
theorem take_brings (e : Picking) (h : i ∉ g.holds .goblin) :
    (i ∈ (take e.taking g i s).2.holds .goblin ↔ e.Brings g i s) ∧
      ((take e.taking g i s).1 = some true ↔ e.Brings g i s ∧ e.taking.add = .ok ∧
        e.taking.arrived.answers (((s.cleared g i).add .goblin i).holds .goblin) = true ∧
        (match s with
        | .container _ => e.taking.sent = true
        | .floor _ => e.taking.transmit = .ok ∧ e.taking.removeFromWorld = .ok ∧
            e.taking.removeFromSquare = .ok ∧ e.taking.setWorldItem = .ok)) ∧
      ((take e.taking g i s).1 = some true →
        (take e.taking g i s).2.holds .goblin = ((s.cleared g i).add .goblin i).holds .goblin) := by
  by_cases hadmits : e.taking.admits g i s = true
  · -- What comes before the inventory is reached, and fails.
    have hnot {g' : Goods} (hclears : ¬ e.taking.clears g i s)
        (hholds : g'.holds .goblin = g.holds .goblin)
        (htake : take e.taking g i s = (some false, g')) :
        (i ∈ (take e.taking g i s).2.holds .goblin ↔ e.Brings g i s) ∧
        ((take e.taking g i s).1 = some true ↔ e.Brings g i s ∧ e.taking.add = .ok ∧
          e.taking.arrived.answers (((s.cleared g i).add .goblin i).holds .goblin) = true ∧
          (match s with
          | .container _ => e.taking.sent = true
          | .floor _ => e.taking.transmit = .ok ∧ e.taking.removeFromWorld = .ok ∧
              e.taking.removeFromSquare = .ok ∧ e.taking.setWorldItem = .ok)) ∧
        ((take e.taking g i s).1 = some true → (take e.taking g i s).2.holds .goblin =
          ((s.cleared g i).add .goblin i).holds .goblin) := by
      rw [htake, hholds]
      exact ⟨iff_of_false h fun hb => hclears hb.2.1,
        iff_of_false nofun fun hb => hclears hb.1.2.1, nofun⟩
    cases s with
    | floor square =>
      have hbrings : e.Brings g i (.floor square) ↔ e.taking.add ≠ .before :=
        ⟨fun hb => hb.2.2, fun hadd => ⟨hadmits, trivial, hadd⟩⟩
      obtain ⟨hmem, hdone, hholds⟩ := takeIn_brings (s := .floor square) e.taking h
      rw [take_floor hadmits, hmem, hdone, hbrings]
      refine ⟨Iff.rfl, ⟨fun hd => ⟨?_, hd⟩, fun hd => hd.2⟩, fun hd => hholds (hdone.mpr hd)⟩
      rw [hd.1]
      nofun
    | container c =>
      have hout : (g.remove (.container c) i).holds .goblin = g.holds .goblin :=
        goblin_remove_other nofun
      have htake := take_container hadmits
      cases hremove : e.taking.remove with
      | before =>
        rw [hremove] at htake
        exact hnot (fun hc => by rw [hc.1] at hremove; cases hremove) rfl htake
      | after =>
        rw [hremove] at htake
        exact hnot (fun hc => by rw [hc.1] at hremove; cases hremove) hout htake
      | ok =>
        rw [hremove] at htake
        dsimp only at htake
        by_cases hgone :
            e.taking.gone.answers ((g.remove (.container c) i).holds (.container c)) = true
        · rw [if_pos hgone] at htake
          have hbrings : e.Brings g i (.container c) ↔ e.taking.add ≠ .before :=
            ⟨fun hb => hb.2.2, fun hadd => ⟨hadmits, ⟨hremove, hgone⟩, hadd⟩⟩
          obtain ⟨hmem, hdone, hholds⟩ := takeIn_brings (s := .container c) e.taking
            (show i ∉ (g.remove (.container c) i).holds .goblin by rw [hout]; exact h)
          rw [htake, hmem, hdone, hbrings]
          refine ⟨Iff.rfl, ⟨fun hd => ⟨?_, hd⟩, fun hd => hd.2⟩, fun hd => hholds (hdone.mpr hd)⟩
          rw [hd.1]
          nofun
        · rw [if_neg hgone] at htake
          exact hnot (fun hc => hgone hc.2) hout htake
  · rw [Bool.not_eq_true] at hadmits
    have hnot : ¬ e.Brings g i s := fun hb => by
      rw [hb.1] at hadmits
      cases hadmits
    rw [take_refused hadmits]
    exact ⟨iff_of_false h hnot, iff_of_false nofun fun hb => hnot hb.1, nofun⟩

/-- **What a pickup brings in**, of an item that is not in the inventory; and
it reports success when everything that follows works. -/
theorem pickup_brings (e : Picking) (h : i ∉ g.holds .goblin) :
    (i ∈ (pickup e g i s).2.holds .goblin ↔ e.Brings g i s) ∧
      ((∃ detail, (pickup e g i s).1 = .done detail) ↔ e.Brings g i s ∧ e.Confirms g i s) := by
  obtain ⟨hmem, hdone, hholds⟩ := @take_brings g i s e h
  rw [snd_pickup]
  refine ⟨hmem, ?_⟩
  have hreport : (∃ detail, (pickup e g i s).1 = .done detail) ↔
      (take e.taking g i s).1 = some true ∧
        containsExact e.held ((take e.taking g i s).2.holds .goblin) i = some true := by
    unfold pickup
    rcases take e.taking g i s with ⟨_ | _ | _, g'⟩
    · exact iff_of_false nofun nofun
    · dsimp only
      rw [if_neg Bool.false_ne_true]
      split
      · exact iff_of_false nofun nofun
      · exact iff_of_false nofun nofun
    · dsimp only
      rw [if_pos rfl]
      split
      · rename_i hheld
        exact iff_of_false nofun fun h => hheld h.2
      · rename_i hheld
        exact iff_of_true ⟨none, rfl⟩ ⟨rfl, not_not.mp hheld⟩
  rw [hreport]
  constructor
  · rintro ⟨htrue, hheld⟩
    obtain ⟨hbrings, hadd, harrived, hrest⟩ := hdone.mp htrue
    rw [hholds htrue] at hheld
    exact ⟨hbrings, hadd, harrived, hrest, (containsExact_eq_true.mp hheld).1⟩
  · rintro ⟨hbrings, hadd, harrived, hrest, hheld⟩
    have htrue := hdone.mpr ⟨hbrings, hadd, harrived, hrest⟩
    refine ⟨htrue, containsExact_eq_true.mpr ⟨?_, hmem.mpr hbrings⟩⟩
    rw [hholds htrue]
    exact hheld

/-- **A pickup that fails brings nothing in**, unless it slips. -/
theorem not_mem_of_failed {e : Picking} {code : Code} {detail : String}
    (h : i ∉ g.holds .goblin) (hslip : ¬ e.Slips g i s)
    (hfailed : (pickup e g i s).1 = .failed code detail) :
    i ∉ (pickup e g i s).2.holds .goblin := by
  obtain ⟨hmem, hdone⟩ := @pickup_brings g i s e h
  intro hin
  have hbrings := hmem.mp hin
  obtain ⟨d, hd⟩ := hdone.mpr ⟨hbrings, not_not.mp fun hc => hslip ⟨hbrings, hc⟩⟩
  rw [hd] at hfailed
  cases hfailed

/-- What was detached is out. -/
theorem detach_out {e : Detaching} (h : (detach e g i).1 = true) :
    i ∉ (detach e g i).2.holds .goblin := by
  unfold detach at h ⊢
  split at h
  · cases h
  · rename_i hheld
    rw [if_neg hheld]
    rw [Bool.and_eq_true, beq_iff_eq] at h
    exact (containsExact_eq_false.mp h.2).2

theorem detach_add_out {e : Detaching} {o : Outcome} {p : Place} (hp : Place.goblin ≠ p)
    (h : (detach e g i).1 = true) :
    i ∉ (o.run (Goods.add p i) (detach e g i).2).2.holds .goblin := by
  rw [goblin_run (goblin_add_other hp)]
  exact detach_out h

/-- **What a transfer reports done is out of the inventory.** -/
theorem deposit_out {e : Depositing} {c : ℕ} {detail : Option String}
    (h : (deposit e g i c).1 = .done detail) : i ∉ (deposit e g i c).2.holds .goblin := by
  unfold deposit at h ⊢
  dsimp only at h ⊢
  split at h
  · cases h
  split at h
  · cases h
  split at h
  · cases h
  split at h
  · cases h
  split at h
  · cases h
  rename_i h1 h2 h3 h4 hdetached
  rw [if_neg h1, if_neg h2, if_neg h3, if_neg h4, if_neg hdetached]
  rw [Bool.not_eq_true', Bool.not_eq_false] at hdetached
  split at h
  · split at h
    · split at h
      · cases h
      · cases h
    · cases h
  rename_i hadded
  split at h
  · cases h
  rename_i hsent
  rw [if_neg hadded, if_neg hsent]
  exact detach_add_out nofun hdetached

theorem drop_out {e : Dropping} {square : Option ℕ} {detail : Option String}
    (h : (drop e g i square).1 = .done detail) : i ∉ (drop e g i square).2.holds .goblin := by
  unfold drop at h ⊢
  dsimp only at h ⊢
  split at h
  · cases h
  rename_i h1
  rw [if_neg h1]
  cases square with
  | none => cases h
  | some square =>
    dsimp only at h ⊢
    split at h
    · cases h
    rename_i hdetached
    rw [if_neg hdetached]
    rw [Bool.not_eq_true', Bool.not_eq_false] at hdetached
    split at h
    · split at h
      · cases h
      · cases h
    rename_i hadded
    rw [if_neg hadded]
    exact detach_add_out nofun hdetached

theorem handOver_out {e : HandingOver} {allowFloor : Bool} {detail : Option String}
    (h : (handOver e g i allowFloor).1 = .done detail) :
    i ∉ (handOver e g i allowFloor).2.holds .goblin := by
  unfold handOver at h ⊢
  dsimp only at h ⊢
  split at h
  · cases h
  rename_i h1
  rw [if_neg h1]
  split at h
  · cases h
  rename_i h2
  rw [if_neg h2]
  split at h
  · rename_i hroom
    rw [if_pos hroom]
    split at h
    · cases h
    rename_i hdetached
    rw [if_neg hdetached]
    rw [Bool.not_eq_true', Bool.not_eq_false] at hdetached
    split at h
    · split at h
      · split at h
        · cases h
        · cases h
      · cases h
    rename_i hadded
    split at h
    · cases h
    rename_i hsent
    rw [if_neg hadded, if_neg hsent]
    exact detach_add_out nofun hdetached
  · rename_i hroom
    rw [if_neg hroom]
    split at h
    · cases h
    rename_i hfloor
    rw [if_neg hfloor]
    have hdrop := fun d => @drop_out g i e.dropping e.square d
    rcases hd : drop e.dropping g i e.square with ⟨_ | _, g'⟩
    · rw [hd] at hdrop
      exact hdrop _ rfl
    · rw [hd] at h
      cases h

/-- The reads of the square an item was taken from. -/
structure SquareReads where
  loaded : Bool
  /-- Its containers. -/
  containers : List (ℕ × Finding)
  /-- `getID` of the items on its floor. -/
  floor : Item → Bool

/-- The item is seen on the square. -/
def SquareReads.finds (r : SquareReads) (g : Goods) (square : ℕ) (id : Item) : Bool :=
  r.loaded &&
    ((r.containers.any fun c => findById c.2 (g.holds (.container c.1)) id == some true) ||
      (g.holds (.floor square)).any fun i => r.floor i && i == id)

/-! ## The jobs -/

/-- The codes a job ends with. -/
inductive JobCode
  | complete
  | blocked
  | engineError
  | targetChanged
  | targetUnloaded
  | interrupted
  | missingMaterial
  | noPath
  deriving DecidableEq

def Code.job : Code → JobCode
  | .blocked => .blocked
  | .engineError => .engineError
  | .targetChanged => .targetChanged
  | .targetUnloaded => .targetUnloaded

/-- What an update returns: the job goes on, or it is done. -/
inductive Result
  | working
  | ended (success : Bool) (detail : String) (code : JobCode)
  deriving DecidableEq

/-! ## The ledger -/

/-- Where the job thinks an item is. -/
inductive Stage
  | pending
  | carried
  | delivered
  | returned
  deriving DecidableEq

/-- An entry of a ledger: the item, its type for the texts, the square it was
taken from and what else the job notes of it. -/
structure Entry (Note : Type) where
  id : Item
  type : Option String
  note : Note
  square : ℕ
  stage : Stage

variable {Note : Type}

def Entry.carried (e : Entry Note) : Bool := e.stage = .carried

/-- The type of an entry in a text. -/
def Entry.typeText (e : Entry Note) : String := e.type.getD "nil"

/-- `ledgerCount` of the carried entries. -/
def carriedCount (ledger : List (Entry Note)) : ℕ := ledger.countP Entry.carried

/-- The goods, and those of them that the job brought into Goblin's inventory
and that have not left it since. -/
structure Hold where
  goods : Goods
  brought : List Item
  inside : ∀ i ∈ brought, i ∈ goods.holds .goblin

namespace Hold

/-- Nothing is tracked yet. -/
theorem inside_nil (g : Goods) : ∀ i ∈ ([] : List Item), i ∈ g.holds .goblin := nofun

/-- Items have been moved: those that left the inventory are not tracked any
more. -/
def move (h : Hold) (g' : Goods) : Hold where
  goods := g'
  brought := h.brought.filter fun i => List.elem i (g'.holds .goblin)
  inside _ hi := List.elem_iff.mp (List.mem_filter.mp hi).2

/-- The job has picked at an item: it is tracked when it was not in the
inventory before and is now. -/
def pick (h : Hold) (i : Item) (g' : Goods) : Hold where
  goods := g'
  brought :=
    (if !List.elem i (h.goods.holds .goblin) && List.elem i (g'.holds .goblin) then [i] else []) ++
      (h.move g').brought
  inside j hj := by
    rcases List.mem_append.mp hj with hnew | hold
    · split at hnew
      · rename_i hcame
        rw [Bool.and_eq_true] at hcame
        rw [List.mem_singleton.mp hnew]
        exact List.elem_iff.mp hcame.2
      · cases hnew
    · exact (h.move g').inside j hold

theorem mem_move {h : Hold} {g' : Goods} {i : Item} :
    i ∈ (h.move g').brought ↔ i ∈ h.brought ∧ i ∈ g'.holds .goblin := by
  rw [move, List.mem_filter, List.elem_iff]

theorem mem_pick {h : Hold} {i j : Item} {g' : Goods} (hj : j ∈ (h.pick i g').brought) :
    j ∈ h.brought ∨ j = i ∧ i ∉ h.goods.holds .goblin ∧ i ∈ g'.holds .goblin := by
  rcases List.mem_append.mp hj with hnew | hold
  · split at hnew
    · rename_i hcame
      rw [Bool.and_eq_true, Bool.not_eq_true', ← Bool.not_eq_true, List.elem_iff,
        List.elem_iff] at hcame
      exact Or.inr ⟨List.mem_singleton.mp hnew, hcame⟩
    · cases hnew
  · exact Or.inl (mem_move.mp hold).1

end Hold

/-- **The ledger is complete**: every item that the job brought in and that
is still there is in it as carried. -/
def Covers (ledger : List (Entry Note)) (h : Hold) : Prop :=
  ∀ i ∈ h.brought, ∃ e ∈ ledger, e.id = i ∧ e.stage = .carried

variable {ledger ledger' : List (Entry Note)} {h : Hold}

theorem Covers.mono (hc : Covers ledger h) (hsub : ∀ e ∈ ledger, e.stage = .carried → e ∈ ledger') :
    Covers ledger' h := by
  intro i hi
  obtain ⟨e, he, hid, hstage⟩ := hc i hi
  exact ⟨e, hsub e he hstage, hid, hstage⟩

theorem Covers.subset {h' : Hold} (hc : Covers ledger h)
    (hsub : ∀ i ∈ h'.brought, i ∈ h.brought) : Covers ledger h' :=
  fun i hi => hc i (hsub i hi)

/-- One entry is changed: as carried it stays, or its item is not there. -/
theorem Covers.modify {k : ℕ} {f : Entry Note → Entry Note} (hc : Covers ledger h)
    (hf : ∀ e, ledger[k]? = some e → e.id ∈ h.brought → e.stage = .carried →
      (f e).id = e.id ∧ (f e).stage = .carried) : Covers (ledger.modify k f) h := by
  intro i hi
  obtain ⟨e, he, rfl, hstage⟩ := hc i hi
  obtain ⟨j, hj⟩ := List.mem_iff_getElem?.mp he
  have hget : (ledger.modify k f)[j]? = some (if k = j then f e else e) := by
    rw [List.getElem?_modify, hj]
    split
    · rfl
    · rfl
  refine ⟨_, List.mem_of_getElem? hget, ?_⟩
  split
  · rename_i hkj
    exact hf e (hkj ▸ hj) hi hstage
  · exact ⟨rfl, hstage⟩

/-- Items that leave need no entry. -/
theorem Covers.move (hc : Covers ledger h) (g' : Goods) : Covers ledger (h.move g') :=
  fun i hi => hc i (Hold.mem_move.mp hi).1

/-! ## Loops over the ledger -/

/-- A loop that reconciles the entries one by one: those kept, how many are
uncertain and how many have arrived. -/
def reconcileAll (round : ℕ → Entry Note → Option (Entry Note) × ℕ × ℕ) :
    ℕ → List (Entry Note) → List (Entry Note) × ℕ × ℕ
  | _, [] => ([], 0, 0)
  | n, entry :: rest =>
    let first := round n entry
    let others := reconcileAll round (n + 1) rest
    (first.1.toList ++ others.1, first.2.1 + others.2.1, first.2.2 + others.2.2)

/-- A loop that changes the entries in place until a round stops it. -/
def sweep {σ ρ : Type} (round : ℕ → Entry Note → σ → Option ρ × Entry Note × σ) :
    ℕ → List (Entry Note) → σ → Option ρ × List (Entry Note) × σ
  | _, [], s => (none, [], s)
  | n, entry :: rest, s =>
    match round n entry s with
    | (some stop, entry, s) => (some stop, entry :: rest, s)
    | (none, entry, s) =>
      let others := sweep round (n + 1) rest s
      (others.1, entry :: others.2.1, others.2.2)

/-- **Reconciling keeps the ledger complete** when every round keeps the
carried entry of an item that is there. -/
theorem Covers.reconcileAll {round : ℕ → Entry Note → Option (Entry Note) × ℕ × ℕ}
    (hc : Covers ledger h)
    (hround : ∀ n e, ledger[n]? = some e → e.id ∈ h.brought → e.stage = .carried →
      ∃ e' ∈ (round n e).1, e'.id = e.id ∧ e'.stage = .carried) :
    Covers (reconcileAll round 0 ledger).1 h := by
  have hgo : ∀ n ledger, (∀ k e, ledger[k]? = some e → e.id ∈ h.brought → e.stage = .carried →
        ∃ e' ∈ (round (n + k) e).1, e'.id = e.id ∧ e'.stage = .carried) →
      ∀ i ∈ h.brought, (∃ e ∈ ledger, e.id = i ∧ e.stage = .carried) →
        ∃ e ∈ (Custody.reconcileAll round n ledger).1, e.id = i ∧ e.stage = .carried := by
    intro n ledger
    induction ledger generalizing n with
    | nil =>
      rintro - i - ⟨e, he, -⟩
      exact absurd he List.not_mem_nil
    | cons entry rest ih =>
      rintro hs i hi ⟨e, he, rfl, hstage⟩
      rw [Custody.reconcileAll]
      rcases List.mem_cons.mp he with rfl | hrest
      · obtain ⟨e', he', hkeep⟩ := hs 0 e rfl hi hstage
        exact ⟨e', List.mem_append_left _ (Option.mem_toList.mpr he'), hkeep⟩
      · obtain ⟨e', he', hkeep⟩ := ih (n + 1) (fun k e hk => by
          rw [show n + 1 + k = n + (k + 1) by omega]
          exact hs (k + 1) e (by rw [List.getElem?_cons_succ]; exact hk)) e.id hi
          ⟨e, hrest, rfl, hstage⟩
        exact ⟨e', List.mem_append_right _ he', hkeep⟩
  intro i hi
  refine hgo 0 ledger (fun k e hk hin hstage => ?_) i hi (hc i hi)
  rw [Nat.zero_add]
  exact hround k e hk hin hstage

/-- **A sweep keeps the ledger complete** when no round brings anything in and
every round keeps the carried entry of an item that stays. -/
theorem Covers.sweep {σ ρ : Type} {round : ℕ → Entry Note → σ → Option ρ × Entry Note × σ}
    (hold : σ → Hold)
    (hround : ∀ n e s, (∀ i ∈ (hold (round n e s).2.2).brought, i ∈ (hold s).brought) ∧
      (e.id ∈ (hold (round n e s).2.2).brought → e.stage = .carried →
        (round n e s).2.1.id = e.id ∧ (round n e s).2.1.stage = .carried))
    (n : ℕ) (ledger : List (Entry Note)) (s : σ) (hc : Covers ledger (hold s)) :
    Covers (Custody.sweep round n ledger s).2.1 (hold (Custody.sweep round n ledger s).2.2) := by
  have hgo : (∀ i ∈ (hold (Custody.sweep round n ledger s).2.2).brought, i ∈ (hold s).brought) ∧
      ∀ i ∈ (hold (Custody.sweep round n ledger s).2.2).brought,
        (∃ e ∈ ledger, e.id = i ∧ e.stage = .carried) →
        ∃ e ∈ (Custody.sweep round n ledger s).2.1, e.id = i ∧ e.stage = .carried := by
    clear hc
    induction ledger generalizing n s with
    | nil => exact ⟨fun i hi => hi, fun i _ h => h⟩
    | cons entry rest ih =>
      obtain ⟨hless, hkeep⟩ := hround n entry s
      rw [Custody.sweep]
      rcases hr : round n entry s with ⟨_ | stop, entry', s'⟩
      · rw [hr] at hless hkeep
        obtain ⟨hless', hkeep'⟩ := ih (n + 1) s'
        refine ⟨fun i hi => hless i (hless' i hi), ?_⟩
        rintro i hi ⟨e, he, rfl, hstage⟩
        rcases List.mem_cons.mp he with rfl | hin
        · exact ⟨entry', List.mem_cons_self, hkeep (hless' _ hi) hstage⟩
        · obtain ⟨e', he', hsame⟩ := hkeep' e.id hi ⟨e, hin, rfl, hstage⟩
          exact ⟨e', List.mem_cons_of_mem _ he', hsame⟩
      · rw [hr] at hless hkeep
        refine ⟨hless, ?_⟩
        rintro i hi ⟨e, he, rfl, hstage⟩
        rcases List.mem_cons.mp he with rfl | hin
        · exact ⟨entry', List.mem_cons_self, hkeep hi hstage⟩
        · exact ⟨e, List.mem_cons_of_mem _ hin, rfl, hstage⟩
  exact fun i hi => hgo.2 i hi (hc i (hgo.1 i hi))

/-! ## Picking up -/

/-- The part of the pickup loops that the two jobs share: the entry is written
first, and the last entry is taken out again when the pickup fails. -/
def attempt (e : Picking) (s : Source) (entry : Entry Note) (ledger : List (Entry Note)) (h : Hold) :
    Report × List (Entry Note) × Hold :=
  let picked := pickup e h.goods entry.id s
  match picked.1 with
  | .done detail =>
    (.done detail, ledger ++ [{ entry with stage := .carried }], h.pick entry.id picked.2)
  | .failed code detail =>
    (.failed code detail, (ledger ++ [entry]).dropLast, h.pick entry.id picked.2)

/-- **A pickup keeps the ledger complete**, unless it slips. -/
theorem Covers.attempt {e : Picking} {s : Source} {entry : Entry Note} (hc : Covers ledger h)
    (hslip : entry.id ∉ h.goods.holds .goblin → ¬ e.Slips h.goods entry.id s) :
    Covers (attempt e s entry ledger h).2.1 (attempt e s entry ledger h).2.2 := by
  unfold Custody.attempt
  dsimp only
  rcases hpick : pickup e h.goods entry.id s with ⟨detail | ⟨code, detail⟩, g'⟩
  · dsimp only
    intro j hj
    rcases Hold.mem_pick hj with hold | ⟨rfl, -, -⟩
    · obtain ⟨e', he', hid, hstage⟩ := hc j hold
      exact ⟨e', List.mem_append_left _ he', hid, hstage⟩
    · exact ⟨_, List.mem_append_right _ List.mem_cons_self, rfl, rfl⟩
  · dsimp only
    rw [List.dropLast_concat]
    intro j hj
    rcases Hold.mem_pick hj with hold | ⟨rfl, hnot, hin⟩
    · exact hc j hold
    · have hout := not_mem_of_failed hnot (hslip hnot) (congrArg Prod.fst hpick)
      rw [hpick] at hout
      exact absurd hin hout

/-! ## Runs -/

/-- A kind of job: what an update does, what others moving things does and
what a restart forgets. -/
structure Kind (S E : Type) where
  update : E → ℕ → S → Result × S
  others : Goods → S → S
  restart : S → S

/-- What happens to a job. -/
inductive Event (E : Type)
  | update (e : E) (now : ℕ)
  | others (g : Goods)
  | restart

/-- A job, and whether it has ended. -/
structure Job (S : Type) where
  state : S
  ended : Bool

namespace Kind

variable {S E : Type} {k : Kind S E}

/-- A job that has ended is not updated any more. -/
def step (k : Kind S E) (j : Job S) : Event E → Job S
  | .update e now =>
    if j.ended then j
    else
      let result := k.update e now j.state
      ⟨result.2, result.1 != .working⟩
  | .others g => { j with state := k.others g j.state }
  | .restart => { j with state := k.restart j.state }

/-- A condition on the updates of a job that still runs. -/
def Asks (cond : E → ℕ → S → Prop) (j : Job S) : Event E → Prop
  | .update e now => j.ended = false → cond e now j.state
  | .others _ => True
  | .restart => True

/-- **What every update keeps that meets the condition**, and what others and
a restart keep, a run keeps. -/
theorem run_keeps {cond : E → ℕ → S → Prop} {good : S → Prop}
    (hupdate : ∀ e now s, good s → cond e now s → good (k.update e now s).2)
    (hothers : ∀ g s, good s → good (k.others g s)) (hrestart : ∀ s, good s → good (k.restart s))
    {s : S} (hs : good s) {events : List (Event E)}
    (h : Machine.Meets k.step (Asks cond) ⟨s, false⟩ events) :
    good (Machine.run k.step ⟨s, false⟩ events).state := by
  refine @Machine.invariant_of_meets _ _ k.step (Asks cond) (fun j => good j.state) ?_ _ _ hs h
  intro j event hj hc
  cases event with
  | update e now =>
    rw [step]
    split
    · exact hj
    · rename_i hover
      exact hupdate e now j.state hj (hc (Bool.eq_false_iff.mpr hover))
  | others g => exact hothers g j.state hj
  | restart => exact hrestart j.state hj

end Kind

/-! ## A pickup that slips -/

/-- The item comes in, and the other peers are not told. -/
def untold : Picking := { smooth with taking := { smooth.taking with sent := false } }

theorem smooth_confirms {g : Goods} {i : Item} {c : ℕ} : smooth.Confirms g i (.container c) :=
  ⟨rfl, rfl, rfl, rfl⟩

end Custody

end GoblinZomboid
