import GoblinZomboid.Lib.OneFault
import GoblinZomboid.Server.Custody
import Mathlib.Data.Int.Notation
/-!
# `GoblinPadlocks.lua`: taking a padlock off

The lock becomes an item and its key is used up. Each of these changes is a
call to the engine and is read back; where one of them goes wrong, those made
before are undone, and the target is never tried again.
-/

namespace GoblinZomboid

namespace Padlocks

open Custody Script

/-- What `Padlocks.remove` changes. -/
structure State where
  goods : Goods
  /-- `isLockedByPadlock` and `getKeyId` of the target. -/
  locked : Bool
  keyId : ℤ
  /-- The number of keys and the key id of the new padlock. -/
  numberOfKey : ℤ
  padlockKey : ℤ
  /-- `Padlocks.failed[target]`. -/
  failed : Bool

/-- What it meets. -/
structure Scene where
  /-- What the checks before answer: the server, the actor, the policy, no
  code, and that there is an `instanceItem`. -/
  gates : Bool
  /-- `haveThisKeyId`. -/
  haveThisKeyId : ℤ → Option Item
  /-- `getKeyId` and `getContainer` of a key. -/
  keyIdOf : Item → Option ℤ
  containerOf : Item → Option Place
  /-- The item that `instanceItem` makes. -/
  padlock : Item

/-- An item is in a place. -/
def State.has (p : Place) (i : Item) (s : State) : Bool := List.elem i (s.goods.holds p)

/-- A key that fits, where it lies, and its id. -/
structure Found where
  key : Item
  source : Place
  id : ℤ

variable (e : Scene)

/-- `Padlocks.key`, from the key that is found on. -/
def fitting (id : ℤ) (key : Item) : Script State Fault (Option Found) := do
  let own ← expect (fun _ => e.keyIdOf key) (some id)
  if own then
    let source ← probe fun _ => e.containerOf key
    match source.join with
    | none => pure none
    | some source =>
      let there ← expect (State.has source key) true
      pure (if there then some ⟨key, source, id⟩ else none)
  else pure none

/-- `Padlocks.key`. -/
def key : Script State Fault (Option Found) := do
  let s ← Script.get
  if s.failed then pure none
  else
    let id ← probe State.keyId
    match id with
    | none => pure none
    | some id =>
      if id < 0 then pure none
      else
        -- A call on an inventory that was not told answers nothing.
        let inventory ← probe fun _ => ()
        let found ← probe fun _ => e.haveThisKeyId id
        match if inventory.isSome then found.join else none with
        | none => pure none
        | some key => fitting e id key

/-- The checks of `Padlocks.remove`, and the padlock that is made. -/
def ready : Script State Fault (Option Found) := do
  if e.gates then
    let locked ← expect State.locked true
    if locked then
      let found ← key e
      match found with
      | none => pure none
      | some found =>
        let made ← probe fun _ => ()
        if made.isSome then
          let cut ← andThen (act fun s => { s with numberOfKey := 1 })
            (andThen (act fun s => { s with padlockKey := found.id })
              (expect State.padlockKey found.id))
          pure (if cut then some found else none)
        else pure none
    else pure none
  else pure none

variable (f : Found)

/-- `AddItem`, to the inventory or where the key was. -/
def State.add (p : Place) (i : Item) (s : State) : State := { s with goods := s.goods.add p i }

/-- `Remove`. -/
def State.remove (p : Place) (i : Item) (s : State) : State := { s with goods := s.goods.remove p i }

/-- The transfer: the first call that raises or assertion that fails ends it. -/
def transfer : Script State Fault Bool :=
  andThen (act (State.add .goblin e.padlock)) <|
  andThen (expect (State.has .goblin e.padlock) true) <|
  andThen (act (State.remove f.source f.key)) <|
  andThen (expect (State.has f.source f.key) false) <|
  andThen (act fun s => { s with locked := false }) <|
  andThen (act fun s => { s with keyId := -1 }) <|
  andThen (expect State.locked false) <|
  andThen (expect State.keyId (-1)) <|
  act id

/-- What undoes it. -/
def compensate : Script State Fault Unit := do
  let _ ← act fun s => { s with locked := true }
  let _ ← act fun s => { s with keyId := f.id }
  let gone ← expect (State.has f.source f.key) false
  let _ ← (if gone then act (State.add f.source f.key) else pure true)
  let there ← expect (State.has .goblin e.padlock) true
  let _ ← (if there then act (State.remove .goblin e.padlock) else pure true)
  let _ ← act id
  pure ()

/-- How `Padlocks.remove` ends: it refuses, it fails after the transfer began,
or the padlock is off. The first two return false. -/
inductive Result
  | refused
  | halted
  | removed
  deriving DecidableEq

/-- `Padlocks.remove`. -/
def remove : Script State Fault Result := do
  let found ← ready e
  match found with
  | none => pure .refused
  | some f =>
    let _ ← Script.modify fun s => { s with failed := true }
    let ok ← transfer e f
    if ok then
      let _ ← Script.modify fun s => { s with failed := false }
      pure .removed
    else
      let _ ← compensate e f
      pure .halted

/-! ## What is ready -/

variable {e f} {s₀ : State}

/-- What is known of a key that was found. -/
structure Fits (e : Scene) (f : Found) (s : State) : Prop where
  locked : s.locked = true
  keyId : s.keyId = f.id
  own : e.keyIdOf f.key = some f.id
  there : f.key ∈ s.goods.holds f.source
  fresh : s.failed = false

/-- The states that differ in the new padlock only. -/
def Same (s₀ s : State) : Prop :=
  s.goods = s₀.goods ∧ s.locked = s₀.locked ∧ s.keyId = s₀.keyId ∧ s.failed = s₀.failed

theorem holds_fitting (id : ℤ) (k : Item) (hlocked : s₀.locked = true) (hid : s₀.keyId = id)
    (hfresh : s₀.failed = false) :
    Holds (fun s => s = s₀) (fitting e id k)
      (fun found s => s = s₀ ∧ ∀ f, found = some f → Fits e f s₀) fun _ => False := by
  unfold fitting
  refine Holds.bind (Q := fun own s => s = s₀ ∧ (own = true → e.keyIdOf k = some id))
    (Holds.expect fun s hs => ⟨fun h => ⟨hs, fun _ => h⟩, hs, fun h => by cases h⟩) fun own => ?_
  refine Holds.ite (fun hown => ?_) fun _ => Holds.pure fun s hs => ⟨hs.1, fun f hf => by cases hf⟩
  refine Holds.bind (Q := fun _ s => s = s₀ ∧ e.keyIdOf k = some id)
    (Holds.probe fun s hs => ⟨⟨hs.1, hs.2 hown⟩, hs.1, hs.2 hown⟩) fun source => ?_
  cases source.join with
  | none => exact Holds.pure fun s hs => ⟨hs.1, fun f hf => by cases hf⟩
  | some source =>
    refine Holds.bind (Q := fun there s =>
        (s = s₀ ∧ e.keyIdOf k = some id) ∧ (there = true → k ∈ s₀.goods.holds source))
      (Holds.expect fun s hs => ⟨fun h => ⟨hs, fun _ => ?_⟩, hs, fun h => by cases h⟩)
      fun there => Holds.pure fun s hs => ⟨hs.1.1, fun f hf => ?_⟩
    · rw [hs.1] at h
      exact List.elem_iff.1 h
    · split at hf
      · rename_i hthere
        obtain rfl := Option.some_inj.1 hf
        exact ⟨hlocked, hid, hs.1.2, hs.2 hthere, hfresh⟩
      · cases hf

theorem holds_key (hlocked : s₀.locked = true) :
    Holds (fun s => s = s₀) (key e)
      (fun found s => s = s₀ ∧ ∀ f, found = some f → Fits e f s₀) fun _ => False := by
  unfold key
  refine Holds.bind (Q := fun s' s => s' = s₀ ∧ s = s₀) (Holds.get fun s hs => ⟨hs, hs⟩)
    fun s' => ?_
  refine Holds.ite (fun _ => Holds.pure fun s hs => ⟨hs.2, fun f hf => by cases hf⟩) fun hfailed => ?_
  refine Holds.bind (Q := fun id s => (s₀.failed = false ∧ s = s₀) ∧ ∀ i, id = some i → s₀.keyId = i)
    (Holds.probe fun s hs => ?_) fun id => ?_
  · have hfresh : s₀.failed = false := by
      rw [← hs.1]
      exact Bool.eq_false_iff.2 hfailed
    refine ⟨⟨⟨hfresh, hs.2⟩, fun i hi => ?_⟩, ⟨hfresh, hs.2⟩, fun i hi => by cases hi⟩
    rw [← hs.2]
    exact Option.some_inj.1 hi
  cases id with
  | none => exact Holds.pure fun s hs => ⟨hs.1.2, fun f hf => by cases hf⟩
  | some i =>
    refine Holds.ite (fun _ => Holds.pure fun s hs => ⟨hs.1.2, fun f hf => by cases hf⟩) fun _ => ?_
    refine Holds.bind (Q := fun _ s => (s₀.failed = false ∧ s = s₀) ∧ s₀.keyId = i)
      (Holds.probe fun s hs => ⟨⟨hs.1, hs.2 i rfl⟩, hs.1, hs.2 i rfl⟩) fun inventory => ?_
    refine Holds.bind (Q := fun _ s => (s₀.failed = false ∧ s = s₀) ∧ s₀.keyId = i)
      (Holds.probe fun s hs => ⟨hs, hs⟩) fun found => ?_
    cases (if inventory.isSome then found.join else none) with
    | none => exact Holds.pure fun s hs => ⟨hs.1.2, fun f hf => by cases hf⟩
    | some k =>
      refine Holds.start fun s₁ hs => ?_
      obtain ⟨⟨hfresh, rfl⟩, hid⟩ := hs
      exact holds_fitting i k hlocked hid hfresh

/-- **What is ready**: the key fits, and the padlock is made for it. -/
theorem holds_ready :
    Holds (fun s => s = s₀) (ready e)
      (fun found s => Same s₀ s ∧ ∀ f, found = some f → Fits e f s ∧ s.padlockKey = f.id)
      fun _ => False := by
  have hnone : ∀ s, s = s₀ →
      Same s₀ s ∧ ∀ f : Found, none = some f → Fits e f s ∧ s.padlockKey = f.id := by
    rintro s rfl
    exact ⟨⟨rfl, rfl, rfl, rfl⟩, fun f hf => by cases hf⟩
  unfold ready
  refine Holds.ite (fun _ => ?_) fun _ => Holds.pure hnone
  refine Holds.bind (Q := fun locked s => s = s₀ ∧ (locked = true → s₀.locked = true))
    (Holds.expect fun s hs => ⟨fun h => ⟨hs, fun _ => hs ▸ h⟩, hs, fun h => by cases h⟩)
    fun locked => ?_
  refine Holds.ite (fun hlocked => ?_) fun _ => Holds.pure fun s hs => hnone s hs.1
  refine Holds.start fun s₁ hs₁ => ?_
  obtain ⟨rfl, hs₁⟩ := hs₁
  refine Holds.bind (holds_key (hs₁ hlocked)) fun found => ?_
  cases found with
  | none => exact Holds.pure fun s hs => hnone s hs.1
  | some f =>
    refine Holds.bind (Q := fun _ s => s = s₁ ∧ Fits e f s₁)
      (Holds.probe fun s hs => ⟨⟨hs.1, hs.2 f rfl⟩, hs.1, hs.2 f rfl⟩) fun made => ?_
    refine Holds.ite (fun _ => ?_) fun _ => Holds.pure fun s hs => hnone s hs.1
    have hsame : ∀ s, Same s₁ s ∧ Fits e f s₁ → Same s₁ s ∧ Fits e f s := by
      rintro s ⟨⟨hgoods, hlocked', hkeyId, hfailed⟩, hfits⟩
      exact ⟨⟨hgoods, hlocked', hkeyId, hfailed⟩, hlocked'.trans hfits.locked,
        hkeyId.trans hfits.keyId, hfits.own, by rw [hgoods]; exact hfits.there,
        hfailed.trans hfits.fresh⟩
    refine Holds.bind (Q := fun cut s => (Same s₁ s ∧ Fits e f s₁) ∧
        (cut = true → s.padlockKey = f.id)) ?_ fun cut => Holds.pure fun s hs => ?_
    · refine Holds.andThen (Q := fun _ s => Same s₁ s ∧ Fits e f s₁) (Holds.act fun s hs => ?_) ?_
        fun s hs => ⟨hs, fun h => by cases h⟩
      · obtain ⟨rfl, hfits⟩ := hs
        exact ⟨fun _ => ⟨⟨rfl, rfl, rfl, rfl⟩, hfits⟩, fun _ => ⟨⟨rfl, rfl, rfl, rfl⟩, hfits⟩⟩
      refine Holds.andThen (Q := fun _ s => Same s₁ s ∧ Fits e f s₁) (Holds.act fun s hs => ?_) ?_
        fun s hs => ⟨hs, fun h => by cases h⟩
      · exact ⟨fun _ => hs, fun _ => hs⟩
      · exact Holds.expect fun s hs => ⟨fun h => ⟨hs, fun _ => h⟩, hs, fun h => by cases h⟩
    · refine ⟨hs.1.1, fun f' hf' => ?_⟩
      split at hf'
      · rename_i hcut
        obtain rfl := Option.some_inj.1 hf'
        exact ⟨(hsame s hs.1).2, hs.2 hcut⟩
      · cases hf'

/-- One call of `ready` can go wrong too. -/
theorem spends_ready : Spends (fun _ => True) (ready e) fun _ _ => True := by
  have hkey : Spends (fun _ => True) (key e) fun _ _ => True := by
    unfold key
    refine Spends.bind (Q := fun _ _ => True) (Spends.get fun _ _ => trivial) fun s => ?_
    refine Spends.ite (fun _ => Spends.pure fun _ _ => trivial) fun _ => ?_
    refine Spends.bind (Q := fun _ _ => True) (Spends.probe fun _ _ => trivial) fun id => ?_
    cases id with
    | none => exact Spends.pure fun _ _ => trivial
    | some i =>
      refine Spends.ite (fun _ => Spends.pure fun _ _ => trivial) fun _ => ?_
      refine Spends.bind (Q := fun _ _ => True) (Spends.probe fun _ _ => trivial) fun inventory => ?_
      refine Spends.bind (Q := fun _ _ => True) (Spends.probe fun _ _ => trivial) fun found => ?_
      cases (if inventory.isSome then found.join else none) with
      | none => exact Spends.pure fun _ _ => trivial
      | some k =>
        unfold fitting
        refine Spends.bind (Q := fun _ _ => True) (Spends.expect fun _ _ => trivial) fun own => ?_
        refine Spends.ite (fun _ => ?_) fun _ => Spends.pure fun _ _ => trivial
        refine Spends.bind (Q := fun _ _ => True) (Spends.probe fun _ _ => trivial) fun source => ?_
        cases source.join with
        | none => exact Spends.pure fun _ _ => trivial
        | some source =>
          exact Spends.bind (Q := fun _ _ => True) (Spends.expect fun _ _ => trivial) fun _ =>
            Spends.pure fun _ _ => trivial
  unfold ready
  refine Spends.ite (fun _ => ?_) fun _ => Spends.pure fun _ _ => trivial
  refine Spends.bind (Q := fun _ _ => True) (Spends.expect fun _ _ => trivial) fun locked => ?_
  refine Spends.ite (fun _ => ?_) fun _ => Spends.pure fun _ _ => trivial
  refine Spends.bind (Q := fun _ _ => True) hkey fun found => ?_
  cases found with
  | none => exact Spends.pure fun _ _ => trivial
  | some f =>
    refine Spends.bind (Q := fun _ _ => True) (Spends.probe fun _ _ => trivial) fun made => ?_
    refine Spends.ite (fun _ => ?_) fun _ => Spends.pure fun _ _ => trivial
    refine Spends.bind (Q := fun _ _ => True) ?_ fun _ => Spends.pure fun _ _ => trivial
    refine Spends.andThen (Q := fun _ _ => True) (Spends.act fun _ _ => trivial) ?_ fun _ _ => trivial
    refine Spends.andThen (Q := fun _ _ => True) (Spends.act fun _ _ => trivial) ?_ fun _ _ => trivial
    exact Spends.expect fun _ _ => trivial

/-! ## The transfer -/

/-- **Between two calls**: only the padlock and its key can have moved. -/
structure Mid (e : Scene) (f : Found) (s₀ s : State) : Prop where
  others : ∀ p i, ¬(p = f.source ∧ i = f.key) → ¬(p = .goblin ∧ i = e.padlock) →
    (i ∈ s.goods.holds p ↔ i ∈ s₀.goods.holds p)
  padlockKey : s.padlockKey = f.id
  failed : s.failed = true

/-- A new padlock is no key. -/
theorem Fits.ne (h : Fits e f s₀) (hnew : ∀ p, e.padlock ∉ s₀.goods.holds p) : f.key ≠ e.padlock :=
  fun heq => hnew f.source (heq ▸ h.there)

variable {s : State}

theorem has_eq_true {p : Place} {i : Item} : State.has p i s = true ↔ i ∈ s.goods.holds p :=
  List.elem_iff

theorem has_eq_false {p : Place} {i : Item} : State.has p i s = false ↔ i ∉ s.goods.holds p := by
  rw [← Bool.not_eq_true, has_eq_true]

theorem Mid.add_padlock (h : Mid e f s₀ s) : Mid e f s₀ (s.add .goblin e.padlock) := by
  refine ⟨fun p i hkey hpad => ?_, h.padlockKey, h.failed⟩
  rw [← h.others p i hkey hpad]
  exact Goods.mem_add.trans (or_iff_right fun heq => hpad ⟨heq.2, heq.1⟩)

theorem Mid.remove_padlock (h : Mid e f s₀ s) : Mid e f s₀ (s.remove .goblin e.padlock) := by
  refine ⟨fun p i hkey hpad => ?_, h.padlockKey, h.failed⟩
  rw [← h.others p i hkey hpad]
  exact Goods.mem_remove.trans (and_iff_right fun heq => hpad ⟨heq.2, heq.1⟩)

theorem Mid.add_key (h : Mid e f s₀ s) : Mid e f s₀ (s.add f.source f.key) := by
  refine ⟨fun p i hkey hpad => ?_, h.padlockKey, h.failed⟩
  rw [← h.others p i hkey hpad]
  exact Goods.mem_add.trans (or_iff_right fun heq => hkey ⟨heq.2, heq.1⟩)

theorem Mid.remove_key (h : Mid e f s₀ s) : Mid e f s₀ (s.remove f.source f.key) := by
  refine ⟨fun p i hkey hpad => ?_, h.padlockKey, h.failed⟩
  rw [← h.others p i hkey hpad]
  exact Goods.mem_remove.trans (and_iff_right fun heq => hkey ⟨heq.2, heq.1⟩)

/-- Removing the key leaves the padlock, and adding one the other. -/
theorem has_remove_key (hne : f.key ≠ e.padlock) :
    State.has .goblin e.padlock (s.remove f.source f.key) = State.has .goblin e.padlock s := by
  rw [Bool.eq_iff_iff, has_eq_true, has_eq_true]
  exact Goods.mem_remove.trans (and_iff_right fun heq => hne heq.1.symm)

/-- The padlock is off: the key is used up and the padlock with Goblin. -/
structure Off (e : Scene) (f : Found) (s : State) : Prop where
  padlock : State.has .goblin e.padlock s = true
  key : State.has f.source f.key s = false
  locked : s.locked = false
  keyId : s.keyId = -1

/-- **The transfer, whatever goes wrong**: it stays between two calls, and what
it says yes to has been read. -/
theorem holds_transfer (hne : f.key ≠ e.padlock) :
    Holds (Mid e f s₀) (transfer e f) (fun ok s => Mid e f s₀ s ∧ (ok = true → Off e f s))
      fun _ => False := by
  unfold transfer
  have hno : ∀ {I : State → Prop} (s : State), Mid e f s₀ s ∧ I s →
      Mid e f s₀ s ∧ (false = true → Off e f s) := fun s hs => ⟨hs.1, fun h => by cases h⟩
  refine Holds.andThen (Q := fun _ s => Mid e f s₀ s ∧ True)
    (Holds.act fun s hs => ⟨fun _ => ⟨hs.add_padlock, trivial⟩, fun _ => ⟨hs, trivial⟩⟩) ?_ hno
  refine Holds.andThen (Q := fun ok s => Mid e f s₀ s ∧
      (ok = true → State.has .goblin e.padlock s = true))
    (Holds.expect fun s hs => ⟨fun h => ⟨hs.1, fun _ => h⟩, hs.1, fun h => by cases h⟩) ?_ hno
  refine Holds.andThen (Q := fun _ s => Mid e f s₀ s ∧ State.has .goblin e.padlock s = true)
    (Holds.act fun s hs => ⟨fun _ => ⟨hs.1.remove_key, ?_⟩, fun _ => ⟨hs.1, hs.2 rfl⟩⟩) ?_ hno
  · rw [has_remove_key hne]
    exact hs.2 rfl
  refine Holds.andThen (Q := fun ok s => Mid e f s₀ s ∧ State.has .goblin e.padlock s = true ∧
      (ok = true → State.has f.source f.key s = false))
    (Holds.expect fun s hs => ⟨fun h => ⟨hs.1, hs.2, fun _ => h⟩, hs.1, hs.2, fun h => by cases h⟩)
    ?_ hno
  -- The flags of the target do not move an item.
  let I (s : State) := State.has .goblin e.padlock s = true ∧ State.has f.source f.key s = false
  refine Holds.andThen (Q := fun _ s => Mid e f s₀ s ∧ I s)
    (Holds.act fun s hs => ⟨fun _ => ⟨⟨hs.1.others, hs.1.padlockKey, hs.1.failed⟩, hs.2.1, hs.2.2 rfl⟩,
      fun _ => ⟨hs.1, hs.2.1, hs.2.2 rfl⟩⟩) ?_ hno
  refine Holds.andThen (Q := fun _ s => Mid e f s₀ s ∧ I s)
    (Holds.act fun s hs => ⟨fun _ => ⟨⟨hs.1.others, hs.1.padlockKey, hs.1.failed⟩, hs.2⟩,
      fun _ => hs⟩) ?_ hno
  refine Holds.andThen (Q := fun ok s => Mid e f s₀ s ∧ I s ∧ (ok = true → s.locked = false))
    (Holds.expect fun s hs => ⟨fun h => ⟨hs.1, hs.2, fun _ => h⟩, hs.1, hs.2, fun h => by cases h⟩)
    ?_ hno
  refine Holds.andThen (Q := fun ok s => Mid e f s₀ s ∧ (I s ∧ s.locked = false) ∧
      (ok = true → s.keyId = -1))
    (Holds.expect fun s hs => ⟨fun h => ⟨hs.1, ⟨hs.2.1, hs.2.2 rfl⟩, fun _ => h⟩, hs.1,
      ⟨hs.2.1, hs.2.2 rfl⟩, fun h => by cases h⟩) ?_ hno
  refine Holds.act fun s hs => ?_
  have hoff : Off e f s := ⟨hs.2.1.1.1, hs.2.1.1.2, hs.2.1.2, hs.2.2 rfl⟩
  exact ⟨fun _ => ⟨hs.1, fun _ => hoff⟩, fun _ => ⟨hs.1, fun _ => hoff⟩⟩

/-- **Without a fault the transfer says yes.** -/
theorem spends_transfer :
    Spends (fun _ => True) (transfer e f) fun ok _ => ok = true := by
  unfold transfer
  have hno : ∀ (I : State → Prop) (s : State), false = true ∧ I s → false = true := fun _ _ h => h.1
  refine Spends.andThen (Q := fun ok s => ok = true ∧ State.has .goblin e.padlock s = true)
    (Spends.act fun s _ => ⟨rfl, has_eq_true.2 (Goods.mem_add.2 (.inl ⟨rfl, rfl⟩))⟩) ?_ (hno _)
  refine Spends.andThen (Q := fun ok _ => ok = true ∧ True)
    (Spends.expect fun s hs => ⟨decide_eq_true hs.2, trivial⟩) ?_ (hno _)
  refine Spends.andThen (Q := fun ok s => ok = true ∧ State.has f.source f.key s = false)
    (Spends.act fun s _ => ⟨rfl, has_eq_false.2 fun hmem => (Goods.mem_remove.1 hmem).1 ⟨rfl, rfl⟩⟩)
    ?_ (hno _)
  refine Spends.andThen (Q := fun ok _ => ok = true ∧ True)
    (Spends.expect fun s hs => ⟨decide_eq_true hs.2, trivial⟩) ?_ (hno _)
  refine Spends.andThen (Q := fun ok s => ok = true ∧ s.locked = false)
    (Spends.act fun s _ => ⟨rfl, rfl⟩) ?_ (hno _)
  refine Spends.andThen (Q := fun ok s => ok = true ∧ s.locked = false ∧ s.keyId = -1)
    (Spends.act fun s hs => ⟨rfl, hs.2, rfl⟩) ?_ (hno _)
  refine Spends.andThen (Q := fun ok s => ok = true ∧ s.keyId = -1)
    (Spends.expect fun s hs => ⟨decide_eq_true hs.2.1, hs.2.2⟩) ?_ (hno _)
  refine Spends.andThen (Q := fun ok _ => ok = true ∧ True)
    (Spends.expect fun s hs => ⟨decide_eq_true hs.2, trivial⟩) ?_ (hno _)
  exact Spends.act fun _ _ => rfl

/-- **Undone**: everything is where it was, and the target is given up. -/
structure Undone (s₀ s : State) : Prop where
  goods : ∀ p i, i ∈ s.goods.holds p ↔ i ∈ s₀.goods.holds p
  locked : s.locked = s₀.locked
  keyId : s.keyId = s₀.keyId
  failed : s.failed = true

theorem ends_compensate (hfits : Fits e f s₀) (hnew : ∀ p, e.padlock ∉ s₀.goods.holds p) :
    Ends (· = .works) (Mid e f s₀) (compensate e f) fun _ s => Undone s₀ s := by
  have hne := hfits.ne hnew
  let J (s : State) := Mid e f s₀ s ∧ s.locked = s₀.locked ∧ s.keyId = s₀.keyId
  unfold compensate
  refine Ends.bind (Q := fun _ s => Mid e f s₀ s ∧ s.locked = s₀.locked)
    (Ends.act fun s hs => ⟨⟨hs.others, hs.padlockKey, hs.failed⟩, hfits.locked.symm⟩) fun _ => ?_
  refine Ends.bind (Q := fun _ s => J s)
    (Ends.act fun s hs => ⟨⟨hs.1.others, hs.1.padlockKey, hs.1.failed⟩, hs.2, hfits.keyId.symm⟩)
    fun _ => ?_
  refine Ends.bind (Q := fun gone s => J s ∧ (gone = false → State.has f.source f.key s = true))
    (Ends.expect fun s hs => ⟨hs, fun h => by simpa using h⟩) fun gone => ?_
  refine Ends.bind (Q := fun _ s => J s ∧ State.has f.source f.key s = true)
    (Ends.ite (fun _ => Ends.act ?_) fun hgone => Ends.pure ?_) fun _ => ?_
  · intro s hs
    exact ⟨⟨hs.1.1.add_key, hs.1.2⟩, has_eq_true.2 (Goods.mem_add.2 (.inl ⟨rfl, rfl⟩))⟩
  · intro s hs
    exact ⟨hs.1, hs.2 (by simpa using hgone)⟩
  refine Ends.bind (Q := fun there s => (J s ∧ State.has f.source f.key s = true) ∧
      (there = false → State.has .goblin e.padlock s = false))
    (Ends.expect fun s hs => ⟨hs, fun h => by simpa using h⟩) fun there => ?_
  refine Ends.bind (Q := fun _ s => (J s ∧ State.has f.source f.key s = true) ∧
      State.has .goblin e.padlock s = false)
    (Ends.ite (fun _ => Ends.act ?_) fun hthere => Ends.pure ?_) fun _ => ?_
  · intro s hs
    refine ⟨⟨⟨hs.1.1.1.remove_padlock, hs.1.1.2⟩, ?_⟩,
      has_eq_false.2 fun hmem => (Goods.mem_remove.1 hmem).1 ⟨rfl, rfl⟩⟩
    exact has_eq_true.2 (Goods.mem_remove.2 ⟨fun heq => hne heq.1, has_eq_true.1 hs.1.2⟩)
  · intro s hs
    exact ⟨hs.1, hs.2 (by simpa using hthere)⟩
  refine Ends.bind (Q := fun _ s => (J s ∧ State.has f.source f.key s = true) ∧
      State.has .goblin e.padlock s = false) (Ends.act fun s hs => hs) fun _ => ?_
  refine Ends.pure fun s hs => ⟨fun p i => ?_, hs.1.1.2.1, hs.1.1.2.2, hs.1.1.1.failed⟩
  by_cases hkey : p = f.source ∧ i = f.key
  · obtain ⟨rfl, rfl⟩ := hkey
    exact iff_of_true (has_eq_true.1 hs.1.2) hfits.there
  by_cases hpad : p = .goblin ∧ i = e.padlock
  · obtain ⟨rfl, rfl⟩ := hpad
    exact iff_of_false (has_eq_false.1 hs.2) (hnew _)
  · exact hs.1.1.1.others p i hkey hpad

/-! ## All or nothing -/

/-- What a call comes to: nothing; the padlock for its key; or, given up,
everything as before. -/
def Settles (e : Scene) (s : State) (r : Result) (s' : State) : Prop :=
  match r with
  | .refused => Same s s'
  | .halted => Undone s s' ∧ s.failed = false
  | .removed => s.failed = false ∧ s'.failed = false ∧ ∃ key source,
      e.keyIdOf key = some s.keyId ∧ key ∈ s.goods.holds source ∧
      (∀ p i, i ∈ s'.goods.holds p ↔
        (p = .goblin ∧ i = e.padlock) ∨ (¬(p = source ∧ i = key) ∧ i ∈ s.goods.holds p)) ∧
      s'.padlockKey = s.keyId ∧ s'.locked = false ∧ s'.keyId = -1

/-- **All or nothing.** Where one call goes wrong at most, a padlock that comes
off is with Goblin in place of its key; one that does not has changed nothing
but that it is given up. -/
theorem remove_allOrNothing (e : Scene) (s : State) (ts : Turns Fault)
    (hnew : ∀ p, e.padlock ∉ s.goods.holds p) (honce : Fault.Once ts) :
    ∃ r ts' s', remove e s ts = (some (r, ts'), s') ∧ Settles e s r s' := by
  obtain ⟨found, ts₁, s₁, hready, hturns⟩ := (@spends_ready e).once s ts honce trivial
  have honce₁ : Fault.Once ts₁ := hturns.elim Fault.Quiet.once And.left
  have hpost := @holds_ready e s s ts rfl
  rw [hready] at hpost
  obtain ⟨hsame, hfound⟩ := hpost
  unfold remove
  rw [bind_of_some hready]
  cases found with
  | none => exact ⟨.refused, ts₁, s₁, rfl, hsame⟩
  | some f =>
    obtain ⟨hfits, hpadlock⟩ := hfound f rfl
    have hnew₁ : ∀ p, e.padlock ∉ s₁.goods.holds p := by
      rw [hsame.1]
      exact hnew
    have hmid : Mid e f s₁ { s₁ with failed := true } :=
      ⟨fun _ _ _ _ => Iff.rfl, hpadlock, rfl⟩
    have hne := hfits.ne hnew₁
    dsimp only
    rw [bind_of_some (show Script.modify (fun s : State => { s with failed := true }) s₁ ts₁ =
      (some ((), ts₁), { s₁ with failed := true }) from rfl)]
    obtain ⟨ok, ts₂, s₂, htransfer, hturns₂⟩ :=
      (@spends_transfer e f).once { s₁ with failed := true } ts₁ honce₁ trivial
    have hpost := @holds_transfer e f s₁ hne { s₁ with failed := true } ts₁ hmid
    rw [htransfer] at hpost
    obtain ⟨hmid₂, hoff⟩ := hpost
    rw [bind_of_some htransfer]
    cases ok with
    | true =>
      obtain ⟨hin, hgone, hlocked, hkeyId⟩ := hoff rfl
      refine ⟨.removed, ts₂, _, rfl, hsame.2.2.2 ▸ hfits.fresh, rfl, f.key, f.source, ?_, ?_, ?_, ?_,
        hlocked, hkeyId⟩
      · rw [← hsame.2.2.1, hfits.keyId]
        exact hfits.own
      · rw [← hsame.1]
        exact hfits.there
      · intro p i
        show i ∈ s₂.goods.holds p ↔ _
        rw [← hsame.1]
        by_cases hpad : p = .goblin ∧ i = e.padlock
        · obtain ⟨rfl, rfl⟩ := hpad
          exact iff_of_true (has_eq_true.1 hin) (.inl ⟨rfl, rfl⟩)
        by_cases hkey : p = f.source ∧ i = f.key
        · obtain ⟨rfl, rfl⟩ := hkey
          refine iff_of_false (has_eq_false.1 hgone) ?_
          rintro (h | h)
          · exact hpad h
          · exact h.1 ⟨rfl, rfl⟩
        · rw [hmid₂.others p i hkey hpad, or_iff_right hpad, and_iff_right hkey]
      · show s₂.padlockKey = _
        rw [hmid₂.padlockKey, ← hfits.keyId, hsame.2.2.1]
    | false =>
      have hquiet : Fault.Quiet ts₂ := hturns₂.elim id fun h => by cases h.2
      obtain ⟨done, ts₃, s₃, hcomp, -, hundone⟩ := ends_compensate hfits hnew₁ s₂ ts₂ hquiet hmid₂
      rw [if_neg (by simp), bind_of_some hcomp]
      refine ⟨.halted, ts₃, s₃, rfl, ⟨fun p i => ?_, ?_, ?_, hundone.failed⟩, ?_⟩
      · rw [← hsame.1]
        exact hundone.goods p i
      · exact hundone.locked.trans hsame.2.1
      · exact hundone.keyId.trans hsame.2.2.1
      · exact hsame.2.2.2 ▸ hfits.fresh

/-- A gate whose key Goblin carries. -/
def gate : Scene :=
  { gates := true
    haveThisKeyId := fun id => if id = 7 then some 1 else none
    keyIdOf := fun i => if i = 1 then some 7 else none
    containerOf := fun i => if i = 1 then some .goblin else none
    padlock := 2 }

/-- The gate, padlocked. -/
def padlocked : State :=
  ⟨⟨fun p => if p = .goblin then [1] else [], fun _ => false⟩, true, 7, 0, 0, false⟩

/-- The thirteenth call goes wrong after it has taken the key, and the key is
given back. -/
theorem remove_allOrNothing_gate :
    ((remove gate padlocked fun i => if i = 13 then .after else .works).1.map Prod.fst) =
        some .halted ∧
      ∃ r ts' s', (remove gate padlocked fun i => if i = 13 then .after else .works) =
        (some (r, ts'), s') ∧ Settles gate padlocked r s' :=
  ⟨by decide, remove_allOrNothing gate padlocked _
    (by intro p; cases p <;> simp [padlocked, gate]) (Fault.once_at 13 .after)⟩

end Padlocks

end GoblinZomboid
