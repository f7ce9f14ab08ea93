import GoblinZomboid.Lib.Run
import GoblinZomboid.Server.Envelope
import Mathlib.Algebra.Group.Nat.Defs
import Mathlib.Data.Set.Function
/-!
# `GoblinPersistence.lua`, `ServerSupport.java`: inventory snapshots

The inventory of a companion lies in a file of its own. A body may write it
only once it has read what was there, or has found nothing; what it wrote last
it remembers by its digest, so that an inventory that has not changed is not
written again.
-/

namespace GoblinZomboid

namespace Persistence

open Envelope (Digest envelope maxInventory)

/-- The id of a companion. -/
abbrev Id := Bytes

/-- What is not the mod's own: the digest, and how the game writes the items
of a container and reads them. -/
structure Game (ι : Type) where
  hash : Bytes → Digest
  save : List ι → Bytes
  load : Bytes → BitVec 32 → Option (List ι × Bytes)

/-- What `Persistence.states` holds for a body. -/
structure Held where
  id : Id
  restored : Bool
  nextSave : ℤ
  deriving DecidableEq

/-- The snapshots under their paths, the bodies, and what the two sides
remember of each body: `RESTORED`, `SAVED_HASHES`, `Persistence.states`. -/
structure World (ι : Type) where
  files : Digest → Option Bytes
  version : BitVec 32
  live : Id → Option ℕ
  next : ℕ
  goblinId : ℕ → Id
  inventory : ℕ → List ι
  restored : ℕ → Option Id
  savedHashes : ℕ → Option Digest
  states : ℕ → Option Held

/-- What the two functions of `ServerSupport` answer. -/
inductive Status
  | new
  | ready
  | restored (items : ℕ)
  | saved
  | unchanged
  | notRestored
  | error
  deriving DecidableEq

variable {ι : Type} (g : Game ι)

/-! ## `ServerSupport` -/

/-- `inventoryPath`. -/
def inventoryPath (id : Id) : Digest := g.hash id

/-- `serialize`: the smallest buffer that holds the inventory. -/
def serialize (items : List ι) : Option Bytes :=
  (((List.range 8).map fun k => 65536 * 2 ^ k).find? fun size => (g.save items).length ≤ size).map
    fun _ => g.save items

/-- The version a snapshot says it was written under. -/
def savedVersion (bytes : Bytes) : BitVec 32 :=
  match ByteBuffer.getInt (bytes.drop 4) with
  | .ok (v, _) => v
  | .error _ => 0

/-- What `restoreInventory` stages of a snapshot. -/
def staged (version : BitVec 32) (bytes : Bytes) : Option (List ι) :=
  match Envelope.payload g.hash bytes version with
  | .error _ => none
  | .ok data =>
    match g.load data (savedVersion bytes) with
    | some (items, []) => some items
    | _ => none

/-- What the engine answers during a restore: whether the helper is there,
whether the body is a Goblin of the server, whether the file can be read, and
what is left in the body where a call on it raises. -/
structure Restoring (ι : Type) where
  available : Bool
  goblin : Bool
  reads : Bool
  raises : Option (List ι)

/-- `ServerSupport.restoreInventory`. -/
def restoreInventory (e : Restoring ι) (b : ℕ) (id : Id) (w : World ι) : Status × World ι :=
  if !e.goblin || w.goblinId b ≠ id then (.error, w)
  else if w.restored b = some id then (.ready, w)
  else
    match w.files (inventoryPath g id) with
    | none => (.new, { w with restored := Function.update w.restored b (some id) })
    | some bytes =>
      match if e.reads then staged g w.version bytes else none with
      | none => (.error, w)
      | some items =>
        match e.raises with
        | some left => (.error, { w with inventory := Function.update w.inventory b left })
        | none =>
          (.restored items.length,
            { w with
              inventory := Function.update w.inventory b items
              restored := Function.update w.restored b (some id) })

/-- How `atomicWrite` goes: it writes; it fails before the move or in it; or
it fails once the file was moved, as the temporary one is deleted. -/
inductive Write
  | ok
  | failed
  | late
  deriving DecidableEq

structure Saving where
  goblin : Bool
  write : Write

/-- `ServerSupport.saveInventory`. -/
def saveInventory (e : Saving) (b : ℕ) (id : Id) (w : World ι) : Status × World ι :=
  if !e.goblin || w.goblinId b ≠ id then (.error, w)
  else if w.restored b ≠ some id then (.notRestored, w)
  else
    match serialize g (w.inventory b) with
    | none => (.error, w)
    | some payload =>
      if w.savedHashes b = some (g.hash payload) then (.unchanged, w)
      else
        let files := Function.update w.files (inventoryPath g id)
          (some (envelope g.hash payload w.version))
        match e.write with
        | .failed => (.error, w)
        | .late => (.error, { w with files := files })
        | .ok =>
          (.saved,
            { w with
              files := files
              savedHashes := Function.update w.savedHashes b (some (g.hash payload)) })

/-! ## `GoblinPersistence` -/

/-- The answer is `new`, `ready` or `restored:n`. -/
def Status.restores : Status → Bool
  | .new | .ready | .restored _ => true
  | _ => false

/-- The answer is `saved` or `unchanged`. -/
def Status.saves : Status → Bool
  | .saved | .unchanged => true
  | _ => false

/-- What a call answers, with what the server said if it was asked. -/
structure Answer where
  ok : Bool
  status : Option Status
  deriving DecidableEq

/-- `Persistence.restore`. -/
def restore (e : Restoring ι) (b : ℕ) (id : Id) (w : World ι) : Answer × World ι :=
  if (w.states b).any fun st => st.restored && st.id = id then (⟨true, none⟩, w)
  else if !e.available then (⟨false, none⟩, w)
  else
    let r := restoreInventory g e b id w
    (⟨r.1.restores, some r.1⟩,
      { r.2 with states := Function.update r.2.states b (some ⟨id, r.1.restores, 0⟩) })

/-- `Persistence.save`. -/
def save (e : Saving) (b : ℕ) (force : Bool) (now : ℤ) (w : World ι) : Answer × World ι :=
  match w.states b with
  | none => (⟨false, none⟩, w)
  | some st =>
    if !st.restored then (⟨false, none⟩, w)
    else if !force && now < st.nextSave then (⟨true, none⟩, w)
    else
      let r := saveInventory g e b st.id
        { w with states := Function.update w.states b (some { st with nextSave := now + 2000 }) }
      (⟨r.1.saves, some r.1⟩, r.2)

/-! ## What the two calls do -/

section

variable {g} {e : Restoring ι} {b : ℕ} {id : Id} {w : World ι}

/-- Everything that a restore of this body leaves as it is. -/
structure Aside (b : ℕ) (w w' : World ι) : Prop where
  files : w'.files = w.files
  version : w'.version = w.version
  live : w'.live = w.live
  next : w'.next = w.next
  goblinId : w'.goblinId = w.goblinId
  hashes : w'.savedHashes = w.savedHashes
  restored : ∀ b', b' ≠ b → w'.restored b' = w.restored b'
  states : ∀ b', b' ≠ b → w'.states b' = w.states b'

theorem Aside.refl (b : ℕ) (w : World ι) : Aside b w w :=
  ⟨rfl, rfl, rfl, rfl, rfl, rfl, fun _ _ => rfl, fun _ _ => rfl⟩

/-- What a restore that found its way answers and leaves. -/
inductive Entered (g : Game ι) (b : ℕ) (id : Id) (w w' : World ι) : Status → Prop
  | new (h : w.files (inventoryPath g id) = none) : Entered g b id w w' .new
  | restored {bytes : Bytes} {items : List ι} (h : w.files (inventoryPath g id) = some bytes)
      (hstaged : staged g w.version bytes = some items) (hitems : w'.inventory b = items) :
      Entered g b id w w' (.restored items.length)

/-- **A restore** remembers the body only once it found nothing, or put what
the snapshot holds into it. -/
theorem restoreInventory_cases : Aside b w (restoreInventory g e b id w).2 ∧
    (restoreInventory g e b id w).2.states = w.states ∧
    ((restoreInventory g e b id w).1 = .error ∧
        (restoreInventory g e b id w).2.restored = w.restored ∨
      (restoreInventory g e b id w).1 = .ready ∧ w.restored b = some id ∧
        (restoreInventory g e b id w).2.restored = w.restored ∨
      w.restored b ≠ some id ∧ w.goblinId b = id ∧
        (restoreInventory g e b id w).2.restored b = some id ∧
          Entered g b id w (restoreInventory g e b id w).2 (restoreInventory g e b id w).1) := by
  have hmarked : ∀ inventory, Aside b w { w with
      inventory := inventory
      restored := Function.update w.restored b (some id) } := fun inventory =>
    ⟨rfl, rfl, rfl, rfl, rfl, rfl, fun b' hne => Function.update_of_ne hne _ _, fun _ _ => rfl⟩
  unfold restoreInventory
  split
  · exact ⟨.refl b w, rfl, .inl ⟨rfl, rfl⟩⟩
  · rename_i hgoblin
    have hid : w.goblinId b = id := by
      by_contra hne
      exact hgoblin (by rw [decide_eq_true hne, Bool.or_true])
    split
    · rename_i hready
      exact ⟨.refl b w, rfl, .inr (.inl ⟨rfl, hready, rfl⟩)⟩
    · rename_i hready
      split
      · rename_i hfile
        exact ⟨hmarked w.inventory, rfl,
          .inr (.inr ⟨hready, hid, Function.update_self _ _ _, .new hfile⟩)⟩
      · rename_i bytes hfile
        split
        · exact ⟨.refl b w, rfl, .inl ⟨rfl, rfl⟩⟩
        · rename_i items hread
          have hstaged : staged g w.version bytes = some items := by
            split at hread
            · exact hread
            · cases hread
          split
          · exact ⟨⟨rfl, rfl, rfl, rfl, rfl, rfl, fun _ _ => rfl, fun _ _ => rfl⟩, rfl,
              .inl ⟨rfl, rfl⟩⟩
          · exact ⟨hmarked _, rfl, .inr (.inr ⟨hready, hid, Function.update_self _ _ _,
              .restored hfile hstaged (Function.update_self _ _ _)⟩)⟩

/-- The script remembers a body as restored only where the server does. -/
def Agreed (w : World ι) : Prop :=
  ∀ b st, w.states b = some st → st.restored = true → w.restored b = some st.id

/-- **`Persistence.restore`**: either the server entered the body now, or what
it remembers of bodies and files is as before. -/
theorem restore_cases (hagreed : Agreed w) : Aside b w (restore g e b id w).2 ∧
    Agreed (restore g e b id w).2 ∧
    ((restore g e b id w).2.restored = w.restored ∧
        (∀ st, (restore g e b id w).1.status = some st → st = .error ∨ st = .ready) ∨
      w.restored b ≠ some id ∧ w.goblinId b = id ∧
        (restore g e b id w).2.restored b = some id ∧
          ∃ st, (restore g e b id w).1.status = some st ∧
            Entered g b id w (restore g e b id w).2 st) := by
  unfold restore
  split
  · exact ⟨.refl b w, hagreed, .inl ⟨rfl, nofun⟩⟩
  · split
    · exact ⟨.refl b w, hagreed, .inl ⟨rfl, nofun⟩⟩
    · obtain ⟨haside, hstates, hend⟩ := @restoreInventory_cases ι g e b id w
      dsimp only
      generalize restoreInventory g e b id w = r at haside hstates hend ⊢
      obtain ⟨st, w'⟩ := r
      dsimp only at haside hstates hend ⊢
      have haside' : Aside b w { w' with
          states := Function.update w'.states b (some ⟨id, st.restores, 0⟩) } :=
        { haside with
          states := fun b' hne => by
            dsimp only
            rw [Function.update_of_ne hne, hstates] }
      have hkeep : (st.restores = true → w'.restored b = some id) → Agreed { w' with
          states := Function.update w'.states b (some ⟨id, st.restores, 0⟩) } := by
        intro hmine b' st' hst' hrestored
        dsimp only at hst' ⊢
        by_cases hb : b' = b
        · subst hb
          rw [Function.update_self] at hst'
          obtain rfl := Option.some.inj hst'
          exact hmine hrestored
        · rw [Function.update_of_ne hb, hstates] at hst'
          rw [haside.restored b' hb]
          exact hagreed b' st' hst' hrestored
      rcases hend with ⟨rfl, hsame⟩ | ⟨rfl, hready, hsame⟩ | ⟨hready, hid, hmine, hentered⟩
      · exact ⟨haside', hkeep nofun, .inl ⟨hsame, fun st h => .inl (Option.some.inj h).symm⟩⟩
      · exact ⟨haside', hkeep fun _ => hsame ▸ hready,
          .inl ⟨hsame, fun st h => .inr (Option.some.inj h).symm⟩⟩
      · refine ⟨haside', hkeep fun _ => hmine, .inr ⟨hready, hid, hmine, st, rfl, ?_⟩⟩
        cases hentered with
        | new h => exact .new h
        | restored h hstaged hitems => exact .restored h hstaged hitems

/-- A restore that nothing stops puts the snapshot into the body. -/
theorem restore_eq_restored {bytes : Bytes} {items : List ι}
    (hfresh : (w.states b).any (fun st => st.restored && st.id = id) = false)
    (havailable : e.available = true) (hgoblin : e.goblin = true) (hid : w.goblinId b = id)
    (hready : w.restored b ≠ some id) (hfile : w.files (inventoryPath g id) = some bytes)
    (hreads : e.reads = true) (hstaged : staged g w.version bytes = some items)
    (hraises : e.raises = none) :
    (restore g e b id w).1 = ⟨true, some (.restored items.length)⟩ ∧
      (restore g e b id w).2.inventory b = items := by
  have hserver : restoreInventory g e b id w = (.restored items.length,
      { w with
        inventory := Function.update w.inventory b items
        restored := Function.update w.restored b (some id) }) := by
    unfold restoreInventory
    rw [if_neg (by rw [hgoblin, hid]; simp), if_neg hready, hfile]
    dsimp only
    rw [hreads, if_pos rfl, hstaged, hraises]
  unfold restore
  rw [hfresh, if_neg Bool.false_ne_true, havailable, hserver]
  exact ⟨rfl, Function.update_self _ _ _⟩

/-- The call gets as far as writing this payload. -/
structure Writes (g : Game ι) (e : Saving) (b : ℕ) (force : Bool) (now : ℤ) (w : World ι)
    (id : Id) (payload : Bytes) : Prop where
  goblin : e.goblin = true
  due : ∃ nextSave, w.states b = some ⟨id, true, nextSave⟩ ∧ (force = true ∨ nextSave ≤ now)
  own : w.goblinId b = id
  restored : w.restored b = some id
  fits : serialize g (w.inventory b) = some payload
  changed : w.savedHashes b ≠ some (g.hash payload)

/-- Everything that a save leaves as it is. -/
structure Beside (b : ℕ) (w w' : World ι) : Prop where
  version : w'.version = w.version
  live : w'.live = w.live
  next : w'.next = w.next
  goblinId : w'.goblinId = w.goblinId
  inventory : w'.inventory = w.inventory
  restored : w'.restored = w.restored
  hashes : ∀ b', b' ≠ b → w'.savedHashes b' = w.savedHashes b'
  states : ∀ b', b' ≠ b → w'.states b' = w.states b'

/-- What a save does to the files. -/
inductive Kept (g : Game ι) (e : Saving) (b : ℕ) (force : Bool) (now : ℤ) (w w' : World ι) :
    Option Status → Prop
  /-- Nothing, and it does not say that it saved. -/
  | quiet {st : Option Status} (hst : ∀ st', st = some st' → st'.saves = false)
      (hfiles : w'.files = w.files) (hhashes : w'.savedHashes = w.savedHashes) :
      Kept g e b force now w w' st
  | unchanged {id : Id} {payload : Bytes} (hid : w.goblinId b = id)
      (hrestored : w.restored b = some id) (hfits : serialize g (w.inventory b) = some payload)
      (hsame : w.savedHashes b = some (g.hash payload)) (hfiles : w'.files = w.files)
      (hhashes : w'.savedHashes = w.savedHashes) : Kept g e b force now w w' (some .unchanged)
  | saved {id : Id} {payload : Bytes} (hwrites : Writes g e b force now w id payload)
      (hfiles : w'.files = Function.update w.files (inventoryPath g id)
        (some (envelope g.hash payload w.version)))
      (hhashes : w'.savedHashes = Function.update w.savedHashes b (some (g.hash payload))) :
      Kept g e b force now w w' (some .saved)
  | late {id : Id} {payload : Bytes} (hwrites : Writes g e b force now w id payload)
      (hwrite : e.write = .late)
      (hfiles : w'.files = Function.update w.files (inventoryPath g id)
        (some (envelope g.hash payload w.version)))
      (hhashes : w'.savedHashes = w.savedHashes) : Kept g e b force now w w' (some .error)

/-- **`Persistence.save`** changes no file but that of a body that was
restored, and says that it saved only then. -/
theorem save_cases {e : Saving} {force : Bool} {now : ℤ} (hagreed : Agreed w) :
    Beside b w (save g e b force now w).2 ∧ Agreed (save g e b force now w).2 ∧
      Kept g e b force now w (save g e b force now w).2 (save g e b force now w).1.status := by
  have hrefl : Beside b w w := ⟨rfl, rfl, rfl, rfl, rfl, rfl, fun _ _ => rfl, fun _ _ => rfl⟩
  unfold save
  split
  · exact ⟨hrefl, hagreed, .quiet nofun rfl rfl⟩
  · rename_i st hst
    split
    · exact ⟨hrefl, hagreed, .quiet nofun rfl rfl⟩
    · rename_i hrestored
      rw [Bool.not_eq_true', Bool.not_eq_false] at hrestored
      split
      · exact ⟨hrefl, hagreed, .quiet nofun rfl rfl⟩
      · rename_i hdue
        have hforce : force = true ∨ st.nextSave ≤ now := by
          by_contra hnot
          rw [not_or] at hnot
          refine hdue ?_
          rw [Bool.and_eq_true, Bool.not_eq_true', decide_eq_true_eq]
          exact ⟨Bool.eq_false_of_not_eq_true hnot.1, by omega⟩
        generalize hw₁ : { w with
          states := Function.update w.states b (some { st with nextSave := now + 2000 }) } = w₁
        have hbeside : Beside b w w₁ := by
          subst hw₁
          exact { hrefl with states := fun b' hne => Function.update_of_ne hne _ _ }
        have hfiles : w₁.files = w.files := by
          subst hw₁
          rfl
        have hhashes : w₁.savedHashes = w.savedHashes := by
          subst hw₁
          rfl
        have hagreed₁ : Agreed w₁ := by
          subst hw₁
          intro b' st' hst' hrestored'
          dsimp only at hst' ⊢
          by_cases hb : b' = b
          · subst hb
            rw [Function.update_self] at hst'
            obtain rfl := Option.some.inj hst'
            exact hagreed b' st hst hrestored
          · rw [Function.update_of_ne hb] at hst'
            exact hagreed b' st' hst' hrestored'
        dsimp only
        unfold saveInventory
        split
        · exact ⟨hbeside, hagreed₁, .quiet (fun st' h => Option.some.inj h ▸ rfl) hfiles hhashes⟩
        · rename_i hgoblin
          rw [Bool.or_eq_true, not_or, Bool.not_eq_true', Bool.not_eq_false, decide_eq_true_eq,
            not_not, hbeside.goblinId] at hgoblin
          split
          · exact ⟨hbeside, hagreed₁, .quiet (fun st' h => Option.some.inj h ▸ rfl) hfiles hhashes⟩
          · rename_i hready
            rw [not_not, hbeside.restored] at hready
            split
            · exact ⟨hbeside, hagreed₁,
                .quiet (fun st' h => Option.some.inj h ▸ rfl) hfiles hhashes⟩
            · rename_i payload hfits
              rw [hbeside.inventory] at hfits
              split
              · rename_i hsame
                exact ⟨hbeside, hagreed₁,
                  .unchanged hgoblin.2 hready hfits (hhashes ▸ hsame) hfiles hhashes⟩
              · rename_i hchanged
                rw [hhashes] at hchanged
                have hwrites : Writes g e b force now w st.id payload := by
                  refine ⟨hgoblin.1, ⟨st.nextSave, ?_, hforce⟩, hgoblin.2, hready, hfits, hchanged⟩
                  obtain ⟨id, restored, nextSave⟩ := st
                  dsimp only at hrestored
                  rw [hst, hrestored]
                dsimp only
                split
                · exact ⟨hbeside, hagreed₁,
                    .quiet (fun st' h => Option.some.inj h ▸ rfl) hfiles hhashes⟩
                · rename_i hwrite
                  refine ⟨{ hbeside with }, hagreed₁, .late hwrites hwrite ?_ hhashes⟩
                  rw [hfiles, hbeside.version]
                · refine ⟨{ hbeside with hashes := fun b' hne => ?_ }, hagreed₁,
                    .saved hwrites ?_ ?_⟩
                  · dsimp only
                    rw [Function.update_of_ne hne, hhashes]
                  · rw [hfiles, hbeside.version]
                  · rw [hhashes]

end

/-! ## A run -/

/-- What can happen: a fresh body of a companion that has none, with what it
carries; its death; the snapshot is damaged or lost while there is no body;
the inventory of the body changes; a restore, under some id; a save. -/
inductive Event (ι : Type)
  | spawn (id : Id) (items : List ι)
  | die (id : Id)
  | damage (id : Id) (file : Option Bytes)
  | change (id : Id) (items : List ι)
  | restore (id asked : Id) (e : Restoring ι)
  | save (id : Id) (force : Bool) (now : ℤ) (e : Saving)

/-- The world, the inventory of the last save that said it saved, what a body
found when it was restored, and what it wrote last. -/
structure Log (ι : Type) where
  world : World ι
  kept : Id → Option (List ι)
  found : ℕ → Option (Option Bytes)
  own : ℕ → Option Bytes

/-- A restore, as the log has it. -/
def Log.restored (l : Log ι) (b : ℕ) (id : Id) (r : Answer × World ι) : Log ι :=
  { l with
    world := r.2
    found := match r.1.status with
      | some .new => Function.update l.found b (some none)
      | some (.restored _) => Function.update l.found b (some (l.world.files (inventoryPath g id)))
      | _ => l.found }

/-- A save, as the log has it. -/
def Log.saved (l : Log ι) (b : ℕ) (id : Id) (r : Answer × World ι) : Log ι :=
  { l with
    world := r.2
    kept := if r.1.status.any Status.saves then
        Function.update l.kept id (some (l.world.inventory b))
      else l.kept
    own := if r.2.files (inventoryPath g id) = l.world.files (inventoryPath g id) then l.own
      else Function.update l.own b (r.2.files (inventoryPath g id)) }

def Log.step (l : Log ι) : Event ι → Log ι
  | .spawn id items =>
    match l.world.live id with
    | some _ => l
    | none =>
      { l with world := { l.world with
          live := Function.update l.world.live id (some l.world.next)
          next := l.world.next + 1
          goblinId := Function.update l.world.goblinId l.world.next id
          inventory := Function.update l.world.inventory l.world.next items } }
  | .die id => { l with world := { l.world with live := Function.update l.world.live id none } }
  | .damage id file =>
    match l.world.live id with
    | some _ => l
    | none =>
      { l with
        world := { l.world with
          files := Function.update l.world.files (inventoryPath g id) file }
        kept := Function.update l.kept id none }
  | .change id items =>
    match l.world.live id with
    | none => l
    | some b =>
      { l with world := { l.world with
          inventory := Function.update l.world.inventory b items } }
  | .restore id asked e =>
    match l.world.live id with
    | none => l
    | some b => l.restored g b asked (restore g e b asked l.world)
  | .save id force now e =>
    match l.world.live id with
    | none => l
    | some b => l.saved g b id (save g e b force now l.world)

/-- Before the first body, whatever the files hold. -/
def Log.start (files : Digest → Option Bytes) (version : BitVec 32) : Log ι where
  world := ⟨files, version, fun _ => none, 0, fun _ => [], fun _ => [], fun _ => none,
    fun _ => none, fun _ => none⟩
  kept := fun _ => none
  found := fun _ => none
  own := fun _ => none

/-- The body found nothing, or a snapshot it could read, and the file is what
it found or what it wrote since. -/
def Entitled (l : Log ι) (id : Id) (b : ℕ) : Prop :=
  ∃ f, l.found b = some f ∧
    (∀ bytes, f = some bytes → (staged g l.world.version bytes).isSome) ∧
      l.world.files (inventoryPath g id) = (l.own b).or f

/-- **No snapshot is overwritten blindly.** -/
structure Lawful (l : Log ι) (e : Event ι) : Prop where
  /-- A save succeeds only for a body that is entitled to it. -/
  entitled : ∀ id force now se b st, e = .save id force now se → l.world.live id = some b →
    (save g se b force now l.world).1.status = some st → st.saves = true → Entitled g l id b
  /-- What cannot be read stays as it is until it is damaged further. -/
  untouched : ∀ d bytes, l.world.files d = some bytes → staged g l.world.version bytes = none →
    (∀ id file, e = .damage id file → inventoryPath g id ≠ d) →
      (l.step g e).world.files d = some bytes
  /-- A restore never overlooks what was saved, and yields nothing else. -/
  yields : ∀ id asked re b items, e = .restore id asked re → l.world.live id = some b →
    l.kept id = some items →
      (restore g re b asked l.world).1.status ≠ some .new ∧
      ∀ n, (restore g re b asked l.world).1.status = some (.restored n) →
        n = items.length ∧ (restore g re b asked l.world).2.inventory b = items
  /-- A restore that nothing stops yields it. -/
  unstopped : ∀ id re b items, e = .restore id id re → l.world.live id = some b →
    l.kept id = some items → l.world.restored b = none →
      re.available = true → re.goblin = true → re.reads = true → re.raises = none →
        (restore g re b id l.world).1 = ⟨true, some (.restored items.length)⟩ ∧
          (restore g re b id l.world).2.inventory b = items

/-- The write of this save fails only after it replaced the snapshot of a
save that succeeded, with another inventory. -/
def Spoils (l : Log ι) : Event ι → Prop
  | .save id force now e => e.write = .late ∧ ∃ b items payload, l.world.live id = some b ∧
      l.kept id = some items ∧ Writes g e b force now l.world id payload ∧ g.save items ≠ payload
  | _ => False

/-- What the event has hashed is among these. -/
def Hashes (known : Set Bytes) (l : Log ι) : Event ι → Prop
  | .spawn id _ | .damage id _ => id ∈ known
  | .save id _ _ _ => ∀ b, l.world.live id = some b → g.save (l.world.inventory b) ∈ known
  | _ => True

/-! ## What holds between two events -/

/-- How the game behaves: items are read as they were written, and no two of
the things that are hashed have one digest. -/
structure Faithful (known : Set Bytes) : Prop where
  load_save : ∀ items v, g.load (g.save items) v = some (items, [])
  injOn : Set.InjOn g.hash known

structure Sound (known : Set Bytes) (l : Log ι) : Prop where
  version : 1 ≤ l.world.version.toInt
  agreed : Agreed l.world
  fresh : ∀ b, l.world.next ≤ b → l.world.restored b = none
  owner : ∀ id b, l.world.live id = some b → b < l.world.next ∧ l.world.goblinId b = id ∧ id ∈ known
  ids : ∀ b id, l.world.restored b = some id → l.world.goblinId b = id
  unread : ∀ b, l.world.restored b = none → l.world.savedHashes b = none ∧ l.own b = none
  based : ∀ id b, l.world.live id = some b → l.world.restored b = some id → Entitled g l id b
  written : ∀ b bytes, l.own b = some bytes → (staged g l.world.version bytes).isSome
  cached : ∀ id b h, l.world.live id = some b → l.world.savedHashes b = some h →
    ∃ items, l.kept id = some items ∧ h = g.hash (g.save items)
  kept : ∀ id items, l.kept id = some items → id ∈ known ∧ g.save items ∈ known ∧
    (g.save items).length ≤ maxInventory ∧ l.world.files (inventoryPath g id) =
      some (envelope g.hash (g.save items) l.world.version)

section

variable {g} {known : Set Bytes} {l : Log ι}

theorem serialize_eq_some {items : List ι} {payload : Bytes}
    (h : serialize g items = some payload) :
    payload = g.save items ∧ (g.save items).length ≤ maxInventory := by
  unfold serialize at h
  obtain ⟨size, hsize, rfl⟩ := Option.map_eq_some_iff.mp h
  obtain ⟨k, hk, rfl⟩ := List.mem_map.mp (List.mem_of_find?_eq_some hsize)
  have hfound := List.find?_some hsize
  have hfits : (g.save items).length ≤ 65536 * 2 ^ k := of_decide_eq_true hfound
  have hpow : 2 ^ k ≤ 2 ^ 7 :=
    Nat.pow_le_pow_right (by decide) (Nat.le_of_lt_succ (List.mem_range.mp hk))
  refine ⟨rfl, ?_⟩
  rw [maxInventory]
  omega

/-- A snapshot that was written can be read, and holds what was written. -/
theorem staged_envelope (hg : Faithful g known) {items : List ι} {v : BitVec 32}
    (hv : 1 ≤ v.toInt) (hfits : (g.save items).length ≤ maxInventory) :
    staged g v (envelope g.hash (g.save items) v) = some items := by
  unfold staged
  rw [Envelope.payload_envelope hfits hv le_rfl]
  dsimp only
  rw [hg.load_save]

/-- Two companions do not share a path. -/
theorem inventoryPath_ne (hg : Faithful g known) {id id' : Id} (hid : id ∈ known)
    (hid' : id' ∈ known) (hne : id ≠ id') : inventoryPath g id ≠ inventoryPath g id' :=
  fun h => hne (hg.injOn hid hid' h)

theorem sound_start (files : Digest → Option Bytes) {version : BitVec 32}
    (hv : 1 ≤ version.toInt) : Sound g known (Log.start files version) where
  version := hv
  agreed := nofun
  fresh _ _ := rfl
  owner := nofun
  ids := nofun
  unread _ _ := ⟨rfl, rfl⟩
  based := nofun
  written := nofun
  cached := nofun
  kept := nofun

/-- The body of a companion is its own. -/
theorem Sound.eq_of_live (h : Sound g known l) {id id' : Id} {b : ℕ}
    (hb : l.world.live id = some b) (hb' : l.world.live id' = some b) : id = id' :=
  (h.owner id b hb).2.1.symm.trans (h.owner id' b hb').2.1

/-- A body that was not entered under its own id was not entered at all. -/
theorem Sound.restored_eq_none (h : Sound g known l) {id : Id} {b : ℕ}
    (hid : l.world.goblinId b = id) (hready : l.world.restored b ≠ some id) :
    l.world.restored b = none := by
  cases hr : l.world.restored b with
  | none => rfl
  | some id' =>
    rw [← h.ids b id' hr, hid] at hr
    exact absurd hr hready

/-- A fresh body has done nothing yet. -/
theorem Sound.spawn (h : Sound g known l) {id : Id} (items : List ι) (hid : id ∈ known) :
    Sound g known (l.step g (.spawn id items)) := by
  cases hlive : l.world.live id with
  | some b =>
    simp only [Log.step, hlive]
    exact h
  | none =>
    simp only [Log.step, hlive]
    have hlives : ∀ id' b, Function.update l.world.live id (some l.world.next) id' = some b →
        id' = id ∧ b = l.world.next ∨ b < l.world.next ∧ l.world.live id' = some b := by
      intro id' b hb
      by_cases hid' : id' = id
      · subst hid'
        rw [Function.update_self] at hb
        exact .inl ⟨rfl, (Option.some.inj hb).symm⟩
      · rw [Function.update_of_ne hid'] at hb
        exact .inr ⟨(h.owner id' b hb).1, hb⟩
    have hold : ∀ {b : ℕ}, b < l.world.next →
        Function.update l.world.goblinId l.world.next id b = l.world.goblinId b :=
      fun hb => Function.update_of_ne (by omega) _ _
    refine ⟨h.version, h.agreed, fun b hb => h.fresh b (Nat.le_of_succ_le hb), ?_, ?_, h.unread, ?_,
      h.written, ?_, h.kept⟩
    · intro id' b hb
      rcases hlives id' b hb with ⟨rfl, rfl⟩ | ⟨hlt, hb⟩
      · exact ⟨Nat.lt_succ_self _, Function.update_self _ _ _, hid⟩
      · exact ⟨Nat.lt_succ_of_lt hlt, (hold hlt).trans (h.owner id' b hb).2.1, (h.owner id' b hb).2.2⟩
    · intro b id' hr
      by_cases hb : b < l.world.next
      · exact (hold hb).trans (h.ids b id' hr)
      · rw [h.fresh b (Nat.le_of_not_lt hb)] at hr
        cases hr
    · intro id' b hb hr
      rcases hlives id' b hb with ⟨rfl, rfl⟩ | ⟨hlt, hb⟩
      · rw [h.fresh _ le_rfl] at hr
        cases hr
      · exact h.based id' b hb hr
    · intro id' b hash hb hh
      rcases hlives id' b hb with ⟨rfl, rfl⟩ | ⟨hlt, hb⟩
      · rw [(h.unread _ (h.fresh _ le_rfl)).1] at hh
        cases hh
      · exact h.cached id' b hash hb hh

theorem Sound.die (h : Sound g known l) (id : Id) : Sound g known (l.step g (.die id)) := by
  have hlives : ∀ id' b, Function.update l.world.live id none id' = some b →
      l.world.live id' = some b := by
    intro id' b hb
    by_cases hid : id' = id
    · subst hid
      rw [Function.update_self] at hb
      cases hb
    · rwa [Function.update_of_ne hid] at hb
  exact ⟨h.version, h.agreed, h.fresh, fun id' b hb => h.owner id' b (hlives id' b hb), h.ids,
    h.unread, fun id' b hb => h.based id' b (hlives id' b hb), h.written,
    fun id' b hash hb => h.cached id' b hash (hlives id' b hb), h.kept⟩

theorem Sound.change (h : Sound g known l) (id : Id) (items : List ι) :
    Sound g known (l.step g (.change id items)) := by
  cases hlive : l.world.live id with
  | none =>
    simp only [Log.step, hlive]
    exact h
  | some b =>
    simp only [Log.step, hlive]
    exact ⟨h.version, h.agreed, h.fresh, h.owner, h.ids, h.unread, h.based, h.written, h.cached,
      h.kept⟩

/-- Damage concerns no body, for there is none. -/
theorem Sound.damage (hg : Faithful g known) (h : Sound g known l) {id : Id}
    (file : Option Bytes) (hid : id ∈ known) : Sound g known (l.step g (.damage id file)) := by
  cases hlive : l.world.live id with
  | some b =>
    simp only [Log.step, hlive]
    exact h
  | none =>
    simp only [Log.step, hlive]
    have hfiles : ∀ id', id' ∈ known → id' ≠ id →
        Function.update l.world.files (inventoryPath g id) file (inventoryPath g id') =
          l.world.files (inventoryPath g id') :=
      fun id' hid' hne => Function.update_of_ne (inventoryPath_ne hg hid' hid hne) _ _
    have hne : ∀ id' b, l.world.live id' = some b → id' ≠ id := by
      rintro id' b hb rfl
      rw [hlive] at hb
      cases hb
    have hkept : ∀ id', id' ≠ id → Function.update l.kept id none id' = l.kept id' :=
      fun id' hid' => Function.update_of_ne hid' _ _
    refine ⟨h.version, h.agreed, h.fresh, h.owner, h.ids, h.unread, ?_, h.written, ?_, ?_⟩
    · intro id' b hb hr
      obtain ⟨f, hf, hread, hfile⟩ := h.based id' b hb hr
      exact ⟨f, hf, hread, (hfiles id' (h.owner id' b hb).2.2 (hne id' b hb)).trans hfile⟩
    · intro id' b hash hb hh
      dsimp only
      rw [hkept id' (hne id' b hb)]
      exact h.cached id' b hash hb hh
    · intro id' items hk
      dsimp only at hk ⊢
      by_cases hid' : id' = id
      · subst hid'
        rw [Function.update_self] at hk
        cases hk
      · rw [hkept id' hid'] at hk
        obtain ⟨hmem, hsave, hfits, hfile⟩ := h.kept id' items hk
        exact ⟨hmem, hsave, hfits, (hfiles id' hmem hid').trans hfile⟩

/-- **A restore** entitles the body to what it found, and changes no file. -/
theorem Sound.restore (h : Sound g known l) (id asked : Id) (e : Restoring ι) :
    Sound g known (l.step g (.restore id asked e)) := by
  cases hb : l.world.live id with
  | none =>
    simp only [Log.step, hb]
    exact h
  | some b =>
    simp only [Log.step, hb]
    obtain ⟨haside, hagreed, hend⟩ := @restore_cases ι g e b asked l.world h.agreed
    generalize Persistence.restore g e b asked l.world = r at haside hagreed hend
    obtain ⟨⟨ok, st⟩, w'⟩ := r
    dsimp only at haside hagreed hend
    obtain ⟨hfiles, hversion, hlive, hnext, hgoblin, hhashes, hothers, -⟩ := haside
    have hrest (found : ℕ → Option (Option Bytes))
        (hfresh : ∀ b', w'.next ≤ b' → w'.restored b' = none)
        (hids : ∀ b' id', w'.restored b' = some id' → w'.goblinId b' = id')
        (hunread : ∀ b', w'.restored b' = none → w'.savedHashes b' = none ∧ l.own b' = none)
        (hbased : ∀ id' b', w'.live id' = some b' → w'.restored b' = some id' →
          Entitled g ⟨w', l.kept, found, l.own⟩ id' b') :
        Sound g known ⟨w', l.kept, found, l.own⟩ := by
      refine ⟨hversion ▸ h.version, hagreed, hfresh, ?_, hids, hunread, hbased, ?_, ?_, ?_⟩
      · dsimp only
        rw [hlive, hnext, hgoblin]
        exact h.owner
      · dsimp only
        rw [hversion]
        exact h.written
      · dsimp only
        rw [hlive, hhashes]
        exact h.cached
      · dsimp only
        rw [hfiles, hversion]
        exact h.kept
    rcases hend with ⟨hsame, hst⟩ | ⟨hready, hid, hmine, st', rfl, hentered⟩
    · have hfound : (l.restored g b asked (⟨ok, st⟩, w')).found = l.found := by
        unfold Log.restored
        dsimp only
        split
        · exact absurd (hst .new rfl) (by decide)
        · exact absurd (hst _ rfl) (by simp)
        · rfl
      have hsound := hrest l.found
      rw [hsame, hnext, hgoblin, hhashes, hlive] at hsound
      have heq : l.restored g b asked (⟨ok, st⟩, w') = ⟨w', l.kept, l.found, l.own⟩ := by
        rw [← hfound]
        rfl
      rw [heq]
      refine hsound h.fresh h.ids h.unread fun id' b' hb' hr => ?_
      obtain ⟨f, hf, hread, hfile⟩ := h.based id' b' hb' hr
      refine ⟨f, hf, ?_, ?_⟩
      · dsimp only
        rw [hversion]
        exact hread
      · dsimp only
        rw [hfiles]
        exact hfile
    · have hnone := h.restored_eq_none hid hready
      have hown : l.own b = none := (h.unread b hnone).2
      have howner := h.owner id b hb
      obtain rfl : asked = id := hid.symm.trans howner.2.1
      have hfound : ∃ f, (l.restored g b asked (⟨ok, some st'⟩, w')).found =
          Function.update l.found b (some f) ∧
          (∀ bytes, f = some bytes → (staged g l.world.version bytes).isSome) ∧
            l.world.files (inventoryPath g asked) = f := by
        unfold Log.restored
        cases hentered with
        | new hfile => exact ⟨none, rfl, nofun, hfile⟩
        | restored hfile hstaged =>
          refine ⟨_, rfl, fun bytes hbytes => ?_, rfl⟩
          rw [hfile] at hbytes
          rw [← Option.some.inj hbytes, hstaged]
          rfl
      obtain ⟨f, hfound, hread, hfile⟩ := hfound
      have heq : l.restored g b asked (⟨ok, some st'⟩, w') =
          ⟨w', l.kept, Function.update l.found b (some f), l.own⟩ := by
        rw [← hfound]
        rfl
      rw [heq]
      refine hrest _ ?_ ?_ ?_ ?_
      · intro b' hb'
        rw [hnext] at hb'
        rw [hothers b' (by omega)]
        exact h.fresh b' hb'
      · intro b' id' hr
        rw [hgoblin]
        by_cases hbb : b' = b
        · subst hbb
          rw [hmine] at hr
          rw [hid]
          exact Option.some.inj hr
        · rw [hothers b' hbb] at hr
          exact h.ids b' id' hr
      · intro b' hr
        rw [hhashes]
        by_cases hbb : b' = b
        · subst hbb
          rw [hmine] at hr
          cases hr
        · rw [hothers b' hbb] at hr
          exact h.unread b' hr
      · intro id' b' hb' hr
        rw [hlive] at hb'
        unfold Entitled
        dsimp only
        rw [hversion, hfiles]
        by_cases hbb : b' = b
        · subst hbb
          rw [hmine] at hr
          obtain rfl := Option.some.inj hr
          refine ⟨f, Function.update_self _ _ _, hread, ?_⟩
          rw [hown, Option.none_or]
          exact hfile
        · rw [hothers b' hbb] at hr
          obtain ⟨f', hf', hread', hfile'⟩ := h.based id' b' hb' hr
          exact ⟨f', (Function.update_of_ne hbb _ _).trans hf', hread', hfile'⟩

/-- **A file is replaced** by the body of its companion, with what that body
carries. -/
theorem Sound.replace (hg : Faithful g known) (h : Sound g known l) {id : Id} {b : ℕ}
    {w' : World ι} {kept : Id → Option (List ι)} {payload : Bytes}
    (hb : l.world.live id = some b) (hbeside : Beside b l.world w') (hagreed : Agreed w')
    (hrestored : l.world.restored b = some id)
    (hfits : serialize g (l.world.inventory b) = some payload)
    (hfiles : w'.files = Function.update l.world.files (inventoryPath g id)
      (some (envelope g.hash payload l.world.version)))
    (hcached : ∀ h', w'.savedHashes b = some h' →
      ∃ items, kept id = some items ∧ h' = g.hash (g.save items))
    (hkept : ∀ items, kept id = some items → g.save items = payload ∧ payload ∈ known)
    (hothers : ∀ id', id' ≠ id → kept id' = l.kept id') :
    Sound g known ⟨w', kept, l.found,
      if w'.files (inventoryPath g id) = l.world.files (inventoryPath g id) then l.own
      else Function.update l.own b (w'.files (inventoryPath g id))⟩ := by
  obtain ⟨hversion, hlive, hnext, hgoblin, -, hmemory, hhashes, -⟩ := hbeside
  obtain ⟨rfl, hsize⟩ := serialize_eq_some hfits
  obtain ⟨hlt, hid, hmem⟩ := h.owner id b hb
  have hfile : w'.files (inventoryPath g id) =
      some (envelope g.hash (g.save (l.world.inventory b)) l.world.version) := by
    rw [hfiles, Function.update_self]
  have hother : ∀ id', id' ∈ known → id' ≠ id → w'.files (inventoryPath g id') =
      l.world.files (inventoryPath g id') := by
    intro id' hid' hne
    rw [hfiles, Function.update_of_ne (inventoryPath_ne hg hid' hmem hne)]
  generalize hown : (if w'.files (inventoryPath g id) = l.world.files (inventoryPath g id)
    then l.own else Function.update l.own b (w'.files (inventoryPath g id))) = own
  have howns : ∀ b', b' ≠ b → own b' = l.own b' := by
    intro b' hne
    rw [← hown]
    split
    · rfl
    · rw [Function.update_of_ne hne]
  have hmine : own b = l.own b ∧ w'.files (inventoryPath g id) =
      l.world.files (inventoryPath g id) ∨ own b = w'.files (inventoryPath g id) := by
    rw [← hown]
    split
    · rename_i hsame
      exact .inl ⟨rfl, hsame⟩
    · exact .inr (Function.update_self _ _ _)
  refine ⟨hversion ▸ h.version, hagreed, ?_, ?_, ?_, ?_, ?_, ?_, ?_, ?_⟩
  · dsimp only
    rw [hnext, hmemory]
    exact h.fresh
  · dsimp only
    rw [hlive, hnext, hgoblin]
    exact h.owner
  · dsimp only
    rw [hmemory, hgoblin]
    exact h.ids
  · intro b' hr
    dsimp only at hr ⊢
    rw [hmemory] at hr
    have hne : b' ≠ b := by
      rintro rfl
      rw [hrestored] at hr
      cases hr
    rw [hhashes b' hne, howns b' hne]
    exact h.unread b' hr
  · intro id' b' hb' hr
    dsimp only at hb' hr
    rw [hlive] at hb'
    rw [hmemory] at hr
    obtain ⟨f, hf, hread, hbased⟩ := h.based id' b' hb' hr
    refine ⟨f, hf, fun bytes hbytes => ?_, ?_⟩
    · dsimp only
      rw [hversion]
      exact hread bytes hbytes
    · dsimp only
      by_cases hne : b' = b
      · subst hne
        obtain rfl := h.eq_of_live hb hb'
        rcases hmine with ⟨hsame, hfilesame⟩ | hsame
        · rw [hsame, hfilesame, hbased]
        · rw [hsame, hfile, Option.some_or]
      · have hne' : id' ≠ id := by
          rintro rfl
          rw [hb] at hb'
          exact hne (Option.some.inj hb').symm
        rw [howns b' hne, hother id' (h.owner id' b' hb').2.2 hne', hbased]
  · intro b' bytes hbytes
    dsimp only at hbytes ⊢
    rw [hversion]
    by_cases hne : b' = b
    · subst hne
      rcases hmine with ⟨hsame, -⟩ | hsame
      · rw [hsame] at hbytes
        exact h.written b' bytes hbytes
      · rw [hsame, hfile] at hbytes
        rw [← Option.some.inj hbytes, staged_envelope hg h.version hsize]
        rfl
    · rw [howns b' hne] at hbytes
      exact h.written b' bytes hbytes
  · intro id' b' h' hb' hh'
    dsimp only at hb' hh' ⊢
    rw [hlive] at hb'
    by_cases hne : b' = b
    · subst hne
      obtain rfl := h.eq_of_live hb hb'
      exact hcached h' hh'
    · have hne' : id' ≠ id := by
        rintro rfl
        rw [hb] at hb'
        exact hne (Option.some.inj hb').symm
      rw [hhashes b' hne] at hh'
      rw [hothers id' hne']
      exact h.cached id' b' h' hb' hh'
  · intro id' items hk
    dsimp only at hk ⊢
    by_cases hne' : id' = id
    · subst hne'
      obtain ⟨hsave, hknown⟩ := hkept items hk
      rw [hsave, hversion]
      exact ⟨hmem, hknown, hsize, hfile⟩
    · rw [hothers id' hne'] at hk
      obtain ⟨hid', hsave, hfits', hfile'⟩ := h.kept id' items hk
      rw [hversion]
      exact ⟨hid', hsave, hfits', (hother id' hid' hne').trans hfile'⟩

/-- **A save** that spoils nothing keeps the files and their owners sound. -/
theorem Sound.save (hg : Faithful g known) (h : Sound g known l) {id : Id} {force : Bool}
    {now : ℤ} {e : Saving} (hknown : Hashes g known l (.save id force now e))
    (hspoils : ¬ Spoils g l (.save id force now e)) :
    Sound g known (l.step g (.save id force now e)) := by
  cases hb : l.world.live id with
  | none =>
    simp only [Log.step, hb]
    exact h
  | some b =>
    simp only [Log.step, hb]
    have howner := h.owner id b hb
    have hpayload : g.save (l.world.inventory b) ∈ known := hknown b hb
    obtain ⟨hbeside, hagreed, hend⟩ := @save_cases ι g b l.world e force now h.agreed
    generalize Persistence.save g e b force now l.world = r at hbeside hagreed hend
    obtain ⟨⟨ok, st⟩, w'⟩ := r
    dsimp only at hbeside hagreed hend
    unfold Log.saved
    dsimp only
    -- the body is a Goblin of this id, so what it writes lies under this path
    have hown {id' : Id} (hid : l.world.goblinId b = id') : id = id' := howner.2.1.symm.trans hid
    have hstays (hfiles : w'.files = l.world.files)
        (hhashes : w'.savedHashes = l.world.savedHashes) :
        Sound g known ⟨w', l.kept, l.found, l.own⟩ := by
      obtain ⟨hversion, hlive, hnext, hgoblin, -, hmemory, -, -⟩ := hbeside
      refine ⟨hversion ▸ h.version, hagreed, ?_, ?_, ?_, ?_, ?_, ?_, ?_, ?_⟩
      · dsimp only
        rw [hnext, hmemory]
        exact h.fresh
      · dsimp only
        rw [hlive, hnext, hgoblin]
        exact h.owner
      · dsimp only
        rw [hmemory, hgoblin]
        exact h.ids
      · dsimp only
        rw [hmemory, hhashes]
        exact h.unread
      · dsimp only [Entitled]
        rw [hmemory, hlive, hversion, hfiles]
        exact h.based
      · dsimp only
        rw [hversion]
        exact h.written
      · dsimp only
        rw [hlive, hhashes]
        exact h.cached
      · dsimp only
        rw [hfiles, hversion]
        exact h.kept
    cases hend with
    | quiet hst hfiles hhashes =>
      have hany : st.any Status.saves = false := by
        cases st with
        | none => rfl
        | some st' => exact hst st' rfl
      rw [if_neg (by rw [hany]; exact Bool.false_ne_true), if_pos (by rw [hfiles])]
      exact hstays hfiles hhashes
    | unchanged hid hrestored hfits hsame hfiles hhashes =>
      obtain rfl := hown hid
      obtain ⟨rfl, -⟩ := serialize_eq_some hfits
      obtain ⟨items, hkept, hhash⟩ := h.cached _ b _ hb hsame
      have hsave : g.save (l.world.inventory b) = g.save items :=
        hg.injOn hpayload (h.kept _ items hkept).2.1 hhash
      have hitems : l.world.inventory b = items := by
        have hload := hg.load_save (l.world.inventory b) 0
        rw [hsave, hg.load_save] at hload
        exact (Prod.mk.inj (Option.some.inj hload)).1.symm
      have hkepts : Function.update l.kept id (some (l.world.inventory b)) = l.kept := by
        rw [hitems, ← hkept, Function.update_eq_self]
      rw [if_pos (by rfl), hkepts, if_pos (by rw [hfiles])]
      exact hstays hfiles hhashes
    | saved hwrites hfiles hhashes =>
      obtain rfl := hown hwrites.own
      obtain ⟨rfl, -⟩ := serialize_eq_some hwrites.fits
      rw [if_pos (by rfl)]
      refine h.replace hg hb hbeside hagreed hwrites.restored hwrites.fits hfiles ?_ ?_ ?_
      · intro h' hh'
        rw [hhashes, Function.update_self] at hh'
        exact ⟨_, Function.update_self _ _ _, (Option.some.inj hh').symm⟩
      · intro items hk
        rw [Function.update_self] at hk
        rw [← Option.some.inj hk]
        exact ⟨rfl, hpayload⟩
      · exact fun id' hne => Function.update_of_ne hne _ _
    | @late _ payload hwrites hwrite hfiles hhashes =>
      obtain rfl := hown hwrites.own
      rw [if_neg (by exact Bool.false_ne_true)]
      refine h.replace hg hb hbeside hagreed hwrites.restored hwrites.fits hfiles ?_ ?_ ?_
      · intro h' hh'
        rw [hhashes] at hh'
        exact h.cached _ b h' hb hh'
      · intro items hk
        have hsave : g.save items = payload := by
          by_contra hne
          exact hspoils ⟨hwrite, b, items, payload, hb, hk, hwrites, hne⟩
        refine ⟨hsave, ?_⟩
        rw [(serialize_eq_some hwrites.fits).1]
        exact hpayload
      · exact fun _ _ => rfl

/-- **One step** that spoils nothing. -/
theorem Sound.step (hg : Faithful g known) (h : Sound g known l) {e : Event ι}
    (hknown : Hashes g known l e) (hspoils : ¬ Spoils g l e) : Sound g known (l.step g e) := by
  cases e with
  | spawn id items => exact h.spawn items hknown
  | die id => exact h.die id
  | damage id file => exact h.damage hg file hknown
  | change id items => exact h.change id items
  | restore id asked e => exact h.restore id asked e
  | save id force now e => exact h.save hg hknown hspoils

/-! ## The law -/

/-- Only the body of a companion writes its file, and only if the file could
be read. -/
theorem Sound.untouched (h : Sound g known l) {e : Event ι} {d : Digest} {bytes : Bytes}
    (hfile : l.world.files d = some bytes) (hstaged : staged g l.world.version bytes = none)
    (hdamage : ∀ id file, e = .damage id file → inventoryPath g id ≠ d) :
    (l.step g e).world.files d = some bytes := by
  cases e with
  | spawn id items =>
    cases hlive : l.world.live id with
    | none =>
      simp only [Log.step, hlive]
      exact hfile
    | some b =>
      simp only [Log.step, hlive]
      exact hfile
  | die id => exact hfile
  | damage id file =>
    cases hlive : l.world.live id with
    | none =>
      simp only [Log.step, hlive]
      rw [Function.update_of_ne (hdamage id file rfl).symm, hfile]
    | some b =>
      simp only [Log.step, hlive]
      exact hfile
  | change id items =>
    cases hlive : l.world.live id with
    | none =>
      simp only [Log.step, hlive]
      exact hfile
    | some b =>
      simp only [Log.step, hlive]
      exact hfile
  | restore id asked e =>
    cases hlive : l.world.live id with
    | none =>
      simp only [Log.step, hlive]
      exact hfile
    | some b =>
      simp only [Log.step, hlive, Log.restored]
      rw [(@restore_cases ι g e b asked l.world h.agreed).1.files]
      exact hfile
  | save id force now e =>
    cases hb : l.world.live id with
    | none =>
      simp only [Log.step, hb]
      exact hfile
    | some b =>
      simp only [Log.step, hb, Log.saved]
      have hwritten {id' : Id} {payload : Bytes} {files : Digest → Option Bytes}
          (hwrites : Writes g e b force now l.world id' payload)
          (hfiles : files = Function.update l.world.files (inventoryPath g id')
            (some (envelope g.hash payload l.world.version))) : files d = some bytes := by
        by_cases hd : d = inventoryPath g id'
        · -- the body could read the file when it was entered, or wrote it
          obtain rfl : id' = id := hwrites.own.symm.trans (h.owner id b hb).2.1
          obtain ⟨f, -, hread, hbased⟩ := h.based id' b hb hwrites.restored
          rw [← hd, hfile] at hbased
          cases hown : l.own b with
          | none =>
            rw [hown, Option.none_or] at hbased
            have hsome := hread bytes hbased.symm
            rw [hstaged] at hsome
            cases hsome
          | some bytes' =>
            rw [hown, Option.some_or] at hbased
            have hsome := h.written b bytes' hown
            rw [← Option.some.inj hbased, hstaged] at hsome
            cases hsome
        · rw [hfiles, Function.update_of_ne hd, hfile]
      obtain ⟨-, -, hend⟩ := @save_cases ι g b l.world e force now h.agreed
      generalize Persistence.save g e b force now l.world = r at hend
      obtain ⟨⟨ok, st⟩, w'⟩ := r
      cases hend with
      | quiet _ hfiles _ => exact (congrFun hfiles d).trans hfile
      | unchanged _ _ _ _ hfiles _ => exact (congrFun hfiles d).trans hfile
      | saved hwrites hfiles _ => exact hwritten hwrites hfiles
      | late hwrites _ hfiles _ => exact hwritten hwrites hfiles

/-- **Between two sound states the law holds.** -/
theorem Sound.lawful (hg : Faithful g known) (h : Sound g known l) (e : Event ι) :
    Lawful g l e := by
  refine ⟨?_, fun d bytes hfile hstaged hdamage => h.untouched hfile hstaged hdamage, ?_, ?_⟩
  · rintro id force now se b st rfl hb hst hsaves
    obtain ⟨-, -, hend⟩ := @save_cases ι g b l.world se force now h.agreed
    rw [hst] at hend
    have howner := (h.owner id b hb).2.1
    cases hend with
    | quiet hquiet _ _ =>
      rw [hquiet st rfl] at hsaves
      cases hsaves
    | unchanged hid hrestored _ _ _ _ =>
      exact h.based id b hb (by rw [hrestored, ← howner, hid])
    | saved hwrites _ _ =>
      exact h.based id b hb (by rw [hwrites.restored, ← howner, hwrites.own])
    | late _ _ _ _ => cases hsaves
  · rintro id asked re b items rfl hb hkept
    obtain ⟨-, -, hsize, hfile⟩ := h.kept id items hkept
    have howner := (h.owner id b hb).2.1
    obtain ⟨-, -, hend⟩ := @restore_cases ι g re b asked l.world h.agreed
    rcases hend with ⟨-, hst⟩ | ⟨-, hid, -, st, hst, hentered⟩
    · refine ⟨fun hnew => ?_, fun n hn => ?_⟩
      · rcases hst _ hnew with hst | hst <;> cases hst
      · rcases hst _ hn with hst | hst <;> cases hst
    · obtain rfl : asked = id := hid.symm.trans howner
      rw [hst]
      cases hentered with
      | new hnone =>
        rw [hfile] at hnone
        cases hnone
      | restored hbytes hstaged hitems =>
        rw [hfile] at hbytes
        obtain rfl := Option.some.inj hbytes
        rw [staged_envelope hg h.version hsize] at hstaged
        obtain rfl := Option.some.inj hstaged
        refine ⟨nofun, fun n hn => ?_⟩
        exact ⟨(Status.restored.inj (Option.some.inj hn)).symm, hitems⟩
  · rintro id re b items rfl hb hkept hnone havailable hgoblin hreads hraises
    obtain ⟨-, -, hsize, hfile⟩ := h.kept id items hkept
    refine restore_eq_restored ?_ havailable hgoblin (h.owner id b hb).2.1 (by rw [hnone]; nofun)
      hfile hreads (staged_envelope hg h.version hsize) hraises
    cases hst : l.world.states b with
    | none => rfl
    | some st =>
      cases hrestored : st.restored with
      | false => simp [hrestored]
      | true =>
        have hagreed := h.agreed b st hst hrestored
        rw [hnone] at hagreed
        cases hagreed

/-- **No snapshot is overwritten blindly**, and what was saved is what is
restored, as long as no write fails after it replaced what was saved. -/
theorem lawful_of_unspoilt {g : Game ι} {known : Set Bytes} (hg : Faithful g known)
    (files : Digest → Option Bytes) {version : BitVec 32} (hv : 1 ≤ version.toInt)
    (before after : List (Event ι)) (e : Event ι)
    (hmeets : Machine.Meets (Log.step g) (fun l e => Hashes g known l e ∧ ¬ Spoils g l e)
      (Log.start files version) (before ++ e :: after)) :
    Lawful g (Machine.run (Log.step g) (Log.start files version) before) e := by
  obtain ⟨hbefore, -⟩ := Machine.meets_append.mp hmeets
  have hsound : Sound g known (Machine.run (Log.step g) (Log.start files version) before) :=
    Machine.invariant_of_meets (fun l e hl he => hl.step hg he.1 he.2) (sound_start files hv) hbefore
  exact hsound.lawful hg e

end

/-- A game whose items are all alike: an inventory is as many bytes as it has
items. -/
def counting : Game Unit where
  hash bytes := Vector.replicate 32 (UInt8.ofNat bytes.length)
  save items := List.replicate items.length 0
  load bytes _ := some (List.replicate bytes.length (), [])

/-- A restore that nothing stops. -/
def unhindered : Restoring Unit := ⟨true, true, true, none⟩

/-- The id of the one companion. -/
def horse : Id := Bytes.lit "horse"

/-- One item is saved, and the next body gets it. -/
theorem lawful_of_unspoilt_respawn : Lawful counting
    (Machine.run (Log.step counting) (Log.start (fun _ => none) 1)
      [.spawn horse [()], .restore horse horse unhindered, .save horse true 0 ⟨true, .ok⟩,
        .die horse, .spawn horse []]) (.restore horse horse unhindered) := by
  have hg : Faithful counting {horse, counting.save [()]} := by
    refine ⟨fun items v => ?_, ?_⟩
    · have hitems : List.replicate items.length () = items :=
        (List.eq_replicate_of_mem fun _ _ => rfl).symm
      simp only [counting, List.length_replicate, hitems]
    · rintro a (rfl | rfl) b (rfl | rfl) h
      · rfl
      · exact absurd h (by decide)
      · exact absurd h (by decide)
      · rfl
  refine lawful_of_unspoilt hg (fun _ => none) (by decide) _ [] _ ⟨⟨.inl rfl, nofun⟩,
    ⟨trivial, nofun⟩, ⟨fun b hb => ?_, fun h => nomatch h.1⟩, ⟨trivial, nofun⟩, ⟨.inl rfl, nofun⟩,
    ⟨trivial, nofun⟩, trivial⟩
  have hlive : (0 : ℕ) = b := Option.some.inj (Eq.trans (by decide) hb)
  subst hlive
  right
  show _ = _
  decide

/-- An empty inventory is saved; one item is written, and the call fails as
the temporary file is deleted; the inventory is empty again, which is
`unchanged`. The next body gets the item. -/
theorem not_lawful_late : ¬ Lawful counting
    (Machine.run (Log.step counting) (Log.start (fun _ => none) 1)
      [.spawn horse [], .restore horse horse unhindered, .save horse true 0 ⟨true, .ok⟩,
        .change horse [()], .save horse true 1 ⟨true, .late⟩, .change horse [],
        .save horse true 2 ⟨true, .ok⟩, .die horse, .spawn horse []])
      (.restore horse horse unhindered) := by
  intro h
  obtain ⟨-, hyields⟩ := h.yields horse horse unhindered 1 [] rfl (by decide)
    (by decide)
  exact absurd (hyields 1 (by decide)).1 (by decide)

end Persistence

end GoblinZomboid
