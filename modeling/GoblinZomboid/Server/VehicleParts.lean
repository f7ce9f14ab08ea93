import GoblinZomboid.Server.Transfer
import Mathlib.Data.Int.Notation
/-!
# `GoblinVehicleService.lua`: putting a part in and taking it out

A part moves between its slot, Goblin's inventory and the floor. The moves are
chains of calls that can fail after they have acted, and a read that tells
nothing is taken for one that tells the worst.
-/

namespace GoblinZomboid

namespace Custody

namespace VehicleParts

/-! ## The slot -/

/-- `setInventoryItem`. -/
def setInventoryItem (slot : ℕ) (item : Option Item) (g : Goods) : Goods :=
  { g with holds := Function.update g.holds (.container slot) item.toList }

/-- How a read of the slot goes: it tells, tells nothing, or raises. -/
inductive SlotRead
  | told
  | silent
  | raised
  deriving DecidableEq

/-- `installed`: none is the text of an error, which is an item to nobody. -/
def installed (r : SlotRead) (slot : ℕ) (g : Goods) : Option (Option Item) :=
  match r with
  | .told => some (g.holds (.container slot)).head?
  | .silent => some none
  | .raised => none

/-- `Service.chances`, of the levels the skills ask for and those Goblin has. -/
def chances (skills : List (ℤ × ℤ)) : ℤ × ℤ :=
  let (success, failure) := skills.foldl (fun (n : ℤ × ℤ) skill =>
    if skill.2 < skill.1 then
      (n.1 - (20 + (skill.1 - skill.2) * 15), n.2 + (20 + (skill.1 - skill.2) * 15))
    else n) (100, 0)
  (min (max success 0) 100, min (max failure 0) 100)

/-- What a move tells its caller: done, and whether the part lies on the floor;
the roll failed; or an error. -/
inductive Result
  | done (dropped : Bool)
  | skill
  | undetached
  | unrecovered
  | rejected
  | alreadyRemoved
  | keptByVehicle
  | unstored
  deriving DecidableEq

/-- The detail beside a result. -/
def Result.detail : Result → Option String
  | .done false => none
  | .done true => some "dropped"
  | .skill => some "skill"
  | .undetached => some "could not detach the part item"
  | .unrecovered => some "install failed and the part item could not be recovered"
  | .rejected => some "the vehicle rejected the part; it stays with Goblin"
  | .alreadyRemoved => some "part already removed"
  | .keptByVehicle => some "the vehicle kept the part"
  | .unstored => some "removed part could not be stored; custody uncertain"

/-! ## The moves -/

/-- What `Service.installPart` meets. -/
structure Installing where
  skills : List (ℤ × ℤ)
  /-- `roll`, twice, and the loss that is drawn. -/
  roll : ℤ
  failureRoll : ℤ
  loss : ℤ
  condition : Option ℤ
  detaching : Detaching
  set : Outcome
  read : SlotRead
  back : Outcome
  seen : Reading

/-- `Service.installPart`, of a part that is not seen in the slot. -/
def giveBack (e : Installing) (g : Goods) (i : Item) : Result × Goods × Option ℤ :=
  let back := e.back.run (Goods.add .goblin i) g
  if !back.1 || containsExact e.seen (back.2.holds .goblin) i ≠ some true then
    (.unrecovered, back.2, none)
  else (.rejected, back.2, none)

/-- `Service.installPart`: its result, the goods, and the condition it writes. -/
def installPart (e : Installing) (slot : ℕ) (g : Goods) (i : Item) : Result × Goods × Option ℤ :=
  let (success, failure) := chances e.skills
  if success ≤ e.roll then
    (.skill, g, if e.failureRoll < failure then e.condition.map fun c => max 0 (c - e.loss) else none)
  else
    let detached := detach e.detaching g i
    if !detached.1 then (.undetached, detached.2, none)
    else
      let set := e.set.run (setInventoryItem slot (some i)) detached.2
      if !set.1 || installed e.read slot set.2 ≠ some (some i) then giveBack e set.2 i
      else (.done false, set.2, none)

/-- What `Service.uninstallPart` meets. -/
structure Uninstalling where
  read : SlotRead
  skills : List (ℤ × ℤ)
  roll : ℤ
  failureRoll : ℤ
  loss : ℤ
  condition : Option ℤ
  set : Outcome
  after : SlotRead
  /-- `hasRoomFor`. -/
  room : Option Bool
  add : Outcome
  stored : Reading
  /-- `getCurrentSquare`, or the square of Goblin's position. -/
  square : Option ℕ
  drop : Outcome

/-- `Service.uninstallPart`, of a part that is not seen in the inventory. -/
def setDown (e : Uninstalling) (g : Goods) (i : Item) : Result × Goods × Option ℤ :=
  let dropped := match e.square with
    | none => (false, g)
    | some square => e.drop.run (Goods.add (.floor square) i) g
  if !dropped.1 then (.unstored, dropped.2, none) else (.done true, dropped.2, none)

/-- `Service.uninstallPart`, of a part that is out of the slot. -/
def store (e : Uninstalling) (g : Goods) (i : Item) : Result × Goods × Option ℤ :=
  let added := if e.room = some true then e.add.run (Goods.add .goblin i) g else (false, g)
  if !added.1 || containsExact e.stored (added.2.holds .goblin) i ≠ some true then
    setDown e added.2 i
  else (.done false, added.2, none)

/-- `Service.uninstallPart`. -/
def uninstallPart (e : Uninstalling) (slot : ℕ) (g : Goods) : Result × Goods × Option ℤ :=
  let item := installed e.read slot g
  if item = some none then (.alreadyRemoved, g, none)
  else
    let (success, failure) := chances e.skills
    if success ≤ e.roll then
      (.skill, g,
        if e.failureRoll % max 1 failure < 100 then e.condition.map fun c => max 0 (c - e.loss) else none)
    else
      let set := e.set.run (setInventoryItem slot none) g
      if !set.1 || installed e.after slot set.2 ≠ some none then
        (.keptByVehicle, set.2, none)
      else
        match item.join with
        -- The text of an error can be put nowhere.
        | none => (.unstored, set.2, none)
        | some i => store e set.2 i

/-! ## Where the part is -/

variable {g : Goods} {i : Item} {slot : ℕ}

/-- The results that own up to an uncertain custody. -/
def Result.uncertain : Result → Bool
  | .unrecovered | .unstored => true
  | _ => false

/-- **Kept**: the part is in one place, the slot, the inventory or the floor;
or the result owns up. -/
def Kept (slot : ℕ) (i : Item) (r : Result) (g : Goods) : Prop :=
  r.uncertain = true ∨
    ∃ p, g.Lies i [p] ∧ (p = .container slot ∨ p = .goblin ∨ ∃ square, p = .floor square)

theorem lies_setInventoryItem_some {places : List Place} (h : g.Lies i places) :
    (setInventoryItem slot (some i) g).Lies i (.container slot :: places) := by
  intro p
  unfold setInventoryItem
  by_cases hp : p = .container slot
  · subst hp
    simp
  · rw [List.mem_cons, or_iff_right hp, ← h p]
    simp [hp]

theorem lies_setInventoryItem_none {places : List Place} (h : g.Lies i places) :
    (setInventoryItem slot none g).Lies i (places.filter (· ≠ .container slot)) := by
  intro p
  unfold setInventoryItem
  by_cases hp : p = .container slot
  · subst hp
    simp
  · rw [List.mem_filter, decide_eq_true hp, ← h p]
    simp [hp]

/-- An item in no place is not kept. -/
theorem not_kept_nowhere {r : Result} (h : g.Lies i []) (hr : r.uncertain = false) :
    ¬Kept slot i r g := by
  rintro (hu | ⟨p, hp, -⟩)
  · rw [hr] at hu
    cases hu
  · exact List.not_mem_nil ((hp.unique h p).1 List.mem_cons_self)

/-- An item in two places is not kept. -/
theorem not_kept_twice {r : Result} {p q : Place} (h : g.Lies i [p, q]) (hne : p ≠ q)
    (hr : r.uncertain = false) : ¬Kept slot i r g := by
  rintro (hu | ⟨p', hp', -⟩)
  · rw [hr] at hu
    cases hu
  · have hp := (h.unique hp' p).1 (by simp)
    have hq := (h.unique hp' q).1 (by simp)
    rw [List.mem_singleton] at hp hq
    exact hne (hp.trans hq.symm)

theorem kept_of_lies {r : Result} {p : Place} (h : g.Lies i [p])
    (hp : p = .container slot ∨ p = .goblin ∨ ∃ square, p = .floor square) : Kept slot i r g :=
  .inr ⟨p, h, hp⟩

theorem kept_of_uncertain {r : Result} (h : r.uncertain = true) : Kept slot i r g := .inl h

/-! ## Putting a part in -/

/-- A call of `Transfer.detach` has taken the item out. -/
def taken (e : Detaching) (g : Goods) : Bool :=
  e.held.answers (g.holds .goblin) && (e.doRemove ≠ .before || e.remove ≠ .before)

/-- What detaching leaves, whatever it reports. -/
theorem detach_left (e : Detaching) (h : i ∈ g.holds .goblin) :
    (detach e g i).2 = if taken e g then g.remove .goblin i else g := by
  unfold detach taken
  rw [containsExact_eq, decide_eq_true h]
  cases hheld : e.held.answers (g.holds .goblin) with
  | false => simp
  | true =>
    rw [if_pos rfl, if_neg (by simp)]
    cases hdo : e.doRemove with
    | ok => simp [Outcome.run]
    | before => cases hremove : e.remove <;> simp [Outcome.run]
    | after => cases hremove : e.remove <;> simp [Outcome.run, remove_remove]

/-- **How putting in slips**: the part is out of the inventory and reported as
if it were not; or it is in the slot, that is not seen, and it is given back. -/
def Installing.Slips (e : Installing) (g : Goods) (slot : ℕ) (i : Item) : Prop :=
  e.roll < (chances e.skills).1 ∧
    (e.detaching.succeeds g i = false ∧ taken e.detaching g = true ∨
      e.detaching.succeeds g i = true ∧ (e.set = .after ∨ e.set = .ok ∧ e.read ≠ .told) ∧
        e.back = .ok ∧ e.seen.answers
          (((setInventoryItem slot (some i) (g.remove .goblin i)).add .goblin i).holds .goblin) = true)

/-- What the slot tells once the part is in it. -/
theorem installed_set (r : SlotRead) (h : Goods) :
    installed r slot (setInventoryItem slot (some i) h) = some (some i) ↔ r = .told := by
  unfold installed setInventoryItem
  cases r <;> simp

/-- **Giving a part back**, which is nowhere or in the slot. -/
theorem kept_giveBack {places : List Place} (e : Installing) (h : g.Lies i places)
    (hplaces : places = [] ∨ places = [.container slot]) :
    Kept slot i (giveBack e g i).1 (giveBack e g i).2.1 ↔
      ¬(places = [.container slot] ∧ e.back = .ok ∧
        e.seen.answers ((g.add .goblin i).holds .goblin) = true) := by
  have hin : (g.add .goblin i).Lies i (.goblin :: places) := h.add
  unfold giveBack
  dsimp only
  split
  · rename_i hlost
    refine iff_of_true (kept_of_uncertain rfl) fun hgood => ?_
    obtain ⟨-, hok, hanswers⟩ := hgood
    rw [hok, Outcome.run_ok, containsExact_eq, if_pos hanswers, decide_eq_true hin.mem] at hlost
    simp at hlost
  · rename_i hfound
    simp only [Bool.or_eq_true, Bool.not_eq_true', decide_eq_true_eq, not_or, Bool.not_eq_false,
      not_not] at hfound
    obtain ⟨hok, hseen⟩ := hfound
    have hback : e.back = .ok := by
      cases hb : e.back with
      | ok => rfl
      | before =>
        rw [hb] at hok
        cases hok
      | after =>
        rw [hb] at hok
        cases hok
    rw [hback, Outcome.run_ok] at hseen ⊢
    rcases hplaces with rfl | rfl
    · exact iff_of_true (kept_of_lies hin (.inr (.inl rfl))) fun hnot => by cases hnot.1
    · refine iff_of_false (not_kept_twice hin (by simp) rfl) fun hnot => hnot ?_
      exact ⟨rfl, rfl, (containsExact_eq_true.1 hseen).1⟩

/-- **Putting a part in keeps it, unless it slips.** -/
theorem install_kept_iff (e : Installing) (h : g.Lies i [.goblin]) :
    Kept slot i (installPart e slot g i).1 (installPart e slot g i).2.1 ↔ ¬e.Slips g slot i := by
  obtain ⟨hdetach, hleft⟩ := detach_spec e.detaching h.mem
  have hstate := detach_left e.detaching h.mem
  have hnowhere : (g.remove .goblin i).Lies i [] := h.remove
  have hin : (setInventoryItem slot (some i) (g.remove .goblin i)).Lies i [.container slot] :=
    lies_setInventoryItem_some hnowhere
  unfold installPart Installing.Slips
  dsimp only
  by_cases hroll : (chances e.skills).1 ≤ e.roll
  · rw [if_pos hroll]
    exact iff_of_true (kept_of_lies h (.inr (.inl rfl))) fun hslips => by omega
  rw [if_neg hroll, hdetach]
  have hpasses : e.roll < (chances e.skills).1 := by omega
  cases hsucceeds : e.detaching.succeeds g i with
  | false =>
    rw [if_pos (by simp), hstate]
    cases htaken : taken e.detaching g with
    | false => exact iff_of_true (kept_of_lies h (.inr (.inl rfl))) (by simp)
    | true =>
      exact iff_of_false (not_kept_nowhere hnowhere rfl) fun hnot =>
        hnot ⟨hpasses, .inl ⟨rfl, rfl⟩⟩
  | true =>
    rw [if_neg (by simp), hleft hsucceeds]
    cases hset : e.set with
    | before =>
      rw [Outcome.run_before, if_pos (by simp), kept_giveBack e hnowhere (.inl rfl)]
      exact iff_of_true (by simp) (by simp)
    | after =>
      rw [Outcome.run_after, if_pos (by simp), kept_giveBack e hin (.inr rfl)]
      simp [hpasses]
    | ok =>
      rw [Outcome.run_ok]
      by_cases hread : e.read = .told
      · rw [if_neg (by simp [installed_set, hread])]
        exact iff_of_true (kept_of_lies hin (.inl rfl)) (by simp [hread])
      · rw [if_pos (by simp [installed_set, hread]), kept_giveBack e hin (.inr rfl)]
        simp [hpasses, hread]

/-! ## Taking a part out -/

/-- **How taking out slips**: the slot is empty and reported as if it were not;
or the part is in the inventory, that is not seen, and it is dropped too. -/
def Uninstalling.Slips (e : Uninstalling) (g : Goods) (slot : ℕ) (i : Item) : Prop :=
  e.read ≠ .silent ∧ e.roll < (chances e.skills).1 ∧
    (e.set = .after ∨ e.set = .ok ∧ e.after = .raised ∨
      e.set = .ok ∧ e.read = .told ∧ e.room = some true ∧
        (e.add = .after ∨ e.add = .ok ∧ e.stored.answers
          (((setInventoryItem slot none g).add .goblin i).holds .goblin) = false) ∧
        e.square ≠ none ∧ e.drop = .ok)

/-- **Setting a part down**, which is nowhere or in the inventory. -/
theorem kept_setDown {places : List Place} (e : Uninstalling) (h : g.Lies i places)
    (hplaces : places = [] ∨ places = [.goblin]) :
    Kept slot i (setDown e g i).1 (setDown e g i).2.1 ↔
      ¬(places = [.goblin] ∧ e.square ≠ none ∧ e.drop = .ok) := by
  unfold setDown
  cases e.square with
  | none =>
    dsimp only
    rw [if_pos (by simp)]
    exact iff_of_true (kept_of_uncertain rfl) (by simp)
  | some square =>
    have hfloor : (g.add (.floor square) i).Lies i (.floor square :: places) := h.add
    cases e.drop with
    | before => exact iff_of_true (kept_of_uncertain rfl) (by simp)
    | after => exact iff_of_true (kept_of_uncertain rfl) (by simp)
    | ok =>
      rcases hplaces with rfl | rfl
      · exact iff_of_true (kept_of_lies hfloor (.inr (.inr ⟨square, rfl⟩))) (by simp)
      · exact iff_of_false (not_kept_twice hfloor (by simp) rfl) (by simp)

/-- **Storing a part**, which is nowhere. -/
theorem kept_store (e : Uninstalling) (h : g.Lies i []) :
    Kept slot i (store e g i).1 (store e g i).2.1 ↔
      ¬(e.room = some true ∧
        (e.add = .after ∨ e.add = .ok ∧ e.stored.answers ((g.add .goblin i).holds .goblin) = false) ∧
        e.square ≠ none ∧ e.drop = .ok) := by
  have hin : (g.add .goblin i).Lies i [.goblin] := h.add
  unfold store
  dsimp only
  by_cases hroom : e.room = some true
  · rw [if_pos hroom]
    cases hadd : e.add with
    | before =>
      rw [Outcome.run_before, if_pos (by simp)]
      exact (kept_setDown e h (.inl rfl)).trans (iff_of_true (by simp) (by simp))
    | after =>
      rw [Outcome.run_after, if_pos (by simp)]
      exact (kept_setDown e hin (.inr rfl)).trans (by simp [hroom])
    | ok =>
      rw [Outcome.run_ok, containsExact_eq, decide_eq_true hin.mem]
      cases hanswers : e.stored.answers ((g.add .goblin i).holds .goblin) with
      | false =>
        rw [if_pos (by simp)]
        exact (kept_setDown e hin (.inr rfl)).trans (by simp [hroom])
      | true =>
        rw [if_neg (by simp)]
        exact iff_of_true (kept_of_lies hin (.inr (.inl rfl))) (by simp)
  · rw [if_neg hroom, if_pos (by simp)]
    exact (kept_setDown e h (.inl rfl)).trans (iff_of_true (by simp) (by simp [hroom]))

/-- **Taking a part out keeps it, unless it slips.** -/
theorem uninstall_kept_iff (e : Uninstalling) (h : g.Lies i [.container slot])
    (hslot : g.holds (.container slot) = [i]) :
    Kept slot i (uninstallPart e slot g).1 (uninstallPart e slot g).2.1 ↔ ¬e.Slips g slot i := by
  have hnowhere : (setInventoryItem slot none g).Lies i [] := by
    have hout : (setInventoryItem slot none g).Lies i
        ([.container slot].filter (· ≠ .container slot)) := lies_setInventoryItem_none h
    simpa using hout
  have hempty : ∀ r, installed r slot (setInventoryItem slot none g) = some none ↔ r ≠ .raised := by
    intro r
    cases r <;> simp [installed, setInventoryItem]
  unfold uninstallPart Uninstalling.Slips
  dsimp only
  have hread : installed e.read slot g = some none ↔ e.read = .silent := by
    unfold installed
    cases e.read <;> simp [hslot]
  by_cases hsilent : e.read = .silent
  · rw [if_pos (hread.2 hsilent)]
    exact iff_of_true (kept_of_lies h (.inl rfl)) (by simp [hsilent])
  rw [if_neg (fun heq => hsilent (hread.1 heq))]
  by_cases hroll : (chances e.skills).1 ≤ e.roll
  · rw [if_pos hroll]
    exact iff_of_true (kept_of_lies h (.inl rfl)) fun hslips => by omega
  rw [if_neg hroll]
  have hpasses : e.roll < (chances e.skills).1 := by omega
  cases hset : e.set with
  | before =>
    rw [Outcome.run_before, if_pos (by simp)]
    exact iff_of_true (kept_of_lies h (.inl rfl)) (by simp)
  | after =>
    rw [Outcome.run_after, if_pos (by simp)]
    exact iff_of_false (not_kept_nowhere hnowhere rfl) (by simp [hsilent, hpasses])
  | ok =>
    rw [Outcome.run_ok]
    by_cases hafter : e.after = .raised
    · rw [if_pos (by simp [hempty, hafter])]
      exact iff_of_false (not_kept_nowhere hnowhere rfl) (by simp [hsilent, hpasses, hafter])
    rw [if_neg (by simp [hempty, hafter])]
    cases hkind : e.read with
    | silent => exact absurd hkind hsilent
    | raised =>
      have hjoin : (installed .raised slot g).join = none := rfl
      rw [hjoin]
      exact iff_of_true (kept_of_uncertain rfl) (by simp [hafter])
    | told =>
      have hjoin : (installed .told slot g).join = some i := by simp [installed, hslot]
      rw [hjoin]
      exact (kept_store e hnowhere).trans (by simp [hpasses, hafter])

/-! ## Both ways -/

/-- A move of a part, and the engine it meets. -/
inductive Move
  | install (e : Installing)
  | uninstall (e : Uninstalling)

/-- Where the part lies before. -/
def Move.origin (slot : ℕ) : Move → Place
  | .install _ => .goblin
  | .uninstall _ => .container slot

def Move.run (m : Move) (slot : ℕ) (g : Goods) (i : Item) : Result × Goods × Option ℤ :=
  match m with
  | .install e => installPart e slot g i
  | .uninstall e => uninstallPart e slot g

def Move.Slips (m : Move) (g : Goods) (slot : ℕ) (i : Item) : Prop :=
  match m with
  | .install e => e.Slips g slot i
  | .uninstall e => e.Slips g slot i

/-- **A move keeps the part, exactly when it does not slip.** -/
theorem move_kept_iff (m : Move) (h : g.Lies i [m.origin slot])
    (hslot : ∀ e, m = .uninstall e → g.holds (.container slot) = [i]) :
    Kept slot i (m.run slot g i).1 (m.run slot g i).2.1 ↔ ¬m.Slips g slot i := by
  cases m with
  | install e => exact install_kept_iff e h
  | uninstall e => exact uninstall_kept_iff e h (hslot e rfl)

/-- A battery in its slot. -/
def battery : Goods := ⟨fun p => if p = .container 0 then [1] else [], fun _ => false⟩

/-- The engine empties the slot and raises an error. -/
def emptied : Uninstalling :=
  { read := .told
    skills := []
    roll := 0
    failureRoll := 0
    loss := 5
    condition := some 80
    set := .after
    after := .told
    room := some true
    add := .ok
    stored := .clear
    square := some 3
    drop := .ok }

/-- A call that works keeps the battery. -/
theorem move_kept_iff_battery :
    Kept 0 1 ((Move.uninstall { emptied with set := .ok }).run 0 battery 1).1
        ((Move.uninstall { emptied with set := .ok }).run 0 battery 1).2.1 ↔
      ¬(Move.uninstall { emptied with set := .ok }).Slips battery 0 1 :=
  move_kept_iff _ (by
    intro p
    simp only [battery, Move.origin]
    split <;> simp_all) fun _ _ => rfl

/-- **The battery is gone**: the vehicle is said to have kept it. -/
example : ((Move.uninstall emptied).run 0 battery 1).1 = .keptByVehicle ∧
    ((Move.uninstall emptied).run 0 battery 1).2.1.holds (.container 0) = [] := by decide

end VehicleParts

end Custody

end GoblinZomboid
