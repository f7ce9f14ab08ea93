import GoblinZomboid.Server.Spawner
import GoblinZomboid.Lib.Run
import Mathlib.Data.List.Forall2
import Mathlib.Data.List.Induction
/-!
# Owner isolation

Records and bodies are kept by key, so two owners share them exactly when
their keys collide. This file says which names collide, shows that every
operation keeps records and bodies under the key of the name they were
made for, and concludes that names that do not collide never see each
other's.
-/

namespace GoblinZomboid

namespace Spawner

/-! ## Which names collide -/

/-- The byte is an underscore, or one the fold makes an underscore. -/
def Blurred (b : UInt8) : Prop := b = 95 ∨ ¬ (Bytes.isLower b || Bytes.isDigit b || b == 45) = true

instance (b : UInt8) : Decidable (Blurred b) := inferInstanceAs (Decidable (_ ∨ _))

/-- **The names fold alike**: in lower case they have the same length, and
where they differ both bytes are blurred. -/
def FoldAlike (a b : Bytes) : Prop :=
  List.Forall₂ (fun x y => x = y ∨ Blurred x ∧ Blurred y) (Bytes.lower a) (Bytes.lower b)

theorem keyByte_eq_iff (x y : UInt8) :
    keyByte x = keyByte y ↔ x = y ∨ Blurred x ∧ Blurred y := by
  have hblur : ∀ b, Blurred b ↔ keyByte b = 95 := Bytes.forall_byte (by decide +kernel)
  have hkeep : ∀ b, ¬ Blurred b → keyByte b = b := Bytes.forall_byte (by decide +kernel)
  by_cases hx : Blurred x <;> by_cases hy : Blurred y
  · exact ⟨fun _ => Or.inr ⟨hx, hy⟩, fun _ => by rw [(hblur x).1 hx, (hblur y).1 hy]⟩
  · constructor
    · intro h
      exact absurd ((hblur y).2 (h ▸ (hblur x).1 hx)) hy
    · rintro (rfl | h)
      · rfl
      · exact absurd h.2 hy
  · constructor
    · intro h
      exact absurd ((hblur x).2 (h.trans ((hblur y).1 hy))) hx
    · rintro (rfl | h)
      · rfl
      · exact absurd h.1 hx
  · rw [hkeep x hx, hkeep y hy]
    exact ⟨Or.inl, fun h => h.resolve_right fun h => hx h.1⟩

/-- **Keys coincide exactly for names that fold alike.** -/
theorem ownerKey_eq_iff {a b : Bytes} (ha : a ≠ []) (hb : b ≠ []) :
    ownerKey a = ownerKey b ↔ FoldAlike a b := by
  have hcons : ∀ c : Bytes, c ≠ [] → ownerKey c = some ((Bytes.lower c).map keyByte) := by
    intro c hc
    simp [ownerKey, hc]
  have hpointwise : ∀ l m : Bytes, l = m ↔ List.Forall₂ (· = ·) l m := by
    simp [List.forall₂_eq_eq_eq]
  rw [hcons a ha, hcons b hb, Option.some.injEq, FoldAlike, hpointwise,
    List.forall₂_map_left_iff, List.forall₂_map_right_iff]
  simp only [keyByte_eq_iff]

theorem npcIdForOwner_eq_iff {a b : Bytes} :
    npcIdForOwner a = npcIdForOwner b ↔ ownerKey a = ownerKey b := by
  unfold npcIdForOwner
  exact (Option.map_injective (List.append_right_injective _)).eq_iff

/-! ## What every operation keeps -/

section

variable {N : Bytes → Prop} {s : Registry} {key owner : Bytes} {ref : ℕ} {r : Record} {z : Zombie}

/-- The record under `key` was created for a name of that key, and names
one as its owner. -/
structure Kept (N : Bytes → Prop) (key : Bytes) (r : Record) : Prop where
  createdFor : N r.createdFor
  owner : N r.owner
  key_createdFor : ownerKey r.createdFor = some key
  key_owner : ownerKey r.owner = some key

/-- The body was made for a name with the key of the one it carries. -/
structure Owned (N : Bytes → Prop) (z : Zombie) : Prop where
  markedFor : N z.markedFor
  owner : N z.data.goblinOwner
  key : ownerKey z.markedFor = ownerKey z.data.goblinOwner

/-- The zombie carries a name of this key. -/
def HasKey (s : Registry) (ref : ℕ) (key : Bytes) : Prop :=
  ∃ z, s.zombies[ref]? = some z ∧ ownerKey z.data.goblinOwner = some key

/-- **The registry invariant.** `N` holds of the names in play. -/
structure Consistent (N : Bytes → Prop) (s : Registry) : Prop where
  record : ∀ {key r}, s.records key = some r → Kept N key r
  zombie : ∀ {ref : ℕ} {z : Zombie}, s.zombies[ref]? = some z → Owned N z
  body : ∀ {key ref}, s.bodies key = some ref → HasKey s ref key

theorem Consistent.setRecord (h : Consistent N s) (hr : Kept N key r) :
    Consistent N (s.setRecord key r) where
  record {k r'} hk := by
    simp only [Registry.setRecord] at hk
    by_cases hkey : k = key
    · rw [hkey, Function.update_self, Option.some.injEq] at hk
      rw [hkey, ← hk]
      exact hr
    · rw [Function.update_of_ne hkey] at hk
      exact h.record hk
  zombie := h.zombie
  body := h.body

theorem HasKey.modifyZombie {f : Zombie → Zombie} {ref' : ℕ} {key' : Bytes}
    (hf : ∀ z, s.zombies[ref]? = some z →
      ownerKey (f z).data.goblinOwner = ownerKey z.data.goblinOwner)
    (h : HasKey s ref' key') : HasKey (s.modifyZombie ref f) ref' key' := by
  obtain ⟨z, hz, hkey⟩ := h
  by_cases href : ref = ref'
  · subst href
    exact ⟨f z, by simp [Registry.modifyZombie, hz], by rw [hf z hz, hkey]⟩
  · exact ⟨z, by simp [Registry.modifyZombie, href, hz], hkey⟩

theorem Consistent.modifyZombie (h : Consistent N s) {f : Zombie → Zombie}
    (hf : ∀ z, s.zombies[ref]? = some z → Owned N (f z) ∧
      ownerKey (f z).data.goblinOwner = ownerKey z.data.goblinOwner) :
    Consistent N (s.modifyZombie ref f) where
  record := h.record
  zombie {ref' z'} hz' := by
    simp only [Registry.modifyZombie, List.getElem?_modify] at hz'
    cases hz : s.zombies[ref']? with
    | none => simp [hz] at hz'
    | some z =>
      by_cases href : ref = ref'
      · subst href
        simp only [hz, if_true, Option.map_eq_map, Option.map_some, Option.some.injEq] at hz'
        rw [← hz']
        exact (hf z hz).1
      · simp only [hz, href, if_false, Option.map_eq_map, Option.map_some, Option.some.injEq] at hz'
        rw [← hz']
        exact h.zombie hz
  body hk := (h.body hk).modifyZombie fun z hz => (hf z hz).2

theorem Consistent.setBody_none (h : Consistent N s) : Consistent N (s.setBody key none) where
  record := h.record
  zombie := h.zombie
  body {k ref} hk := by
    simp only [Registry.setBody] at hk
    by_cases hkey : k = key
    · simp [hkey] at hk
    · rw [Function.update_of_ne hkey] at hk
      exact h.body hk

theorem Consistent.setBody_some (h : Consistent N s) (href : HasKey s ref key) :
    Consistent N (s.setBody key (some ref)) where
  record := h.record
  zombie := h.zombie
  body {k ref'} hk := by
    simp only [Registry.setBody] at hk
    by_cases hkey : k = key
    · rw [hkey, Function.update_self, Option.some.injEq] at hk
      rw [hkey, ← hk]
      exact href
    · rw [Function.update_of_ne hkey] at hk
      exact h.body hk

theorem HasKey.removeBody {ref' : ℕ} {key' : Bytes} (h : HasKey s ref' key') :
    HasKey (removeBody s ref) ref' key' :=
  h.modifyZombie fun _ _ => rfl

theorem Consistent.removeBody (h : Consistent N s) : Consistent N (removeBody s ref) :=
  h.modifyZombie fun _ hz => ⟨⟨(h.zombie hz).markedFor, (h.zombie hz).owner, (h.zombie hz).key⟩, rfl⟩

theorem Consistent.removeBodies (h : Consistent N s) (refs : List ℕ) :
    Consistent N (refs.foldl Spawner.removeBody s) := by
  induction refs generalizing s with
  | nil => exact h
  | cons ref refs ih => exact ih h.removeBody

theorem HasKey.removeBodies (h : HasKey s ref key) (refs : List ℕ) :
    HasKey (refs.foldl Spawner.removeBody s) ref key := by
  induction refs generalizing s with
  | nil => exact h
  | cons ref refs ih => exact ih h.removeBody

/-! ### Records -/

/-- **What `recordFor` does**: it may write the record it returns, which is
the one under the owner's key with the owner's name in it. -/
theorem recordFor_cases (owner : Bytes) (create : Bool) (s : Registry) :
    recordFor owner create s = (none, s) ∨
      ∃ key r, ownerKey owner = some key ∧ recordFor owner create s = (some r, s.setRecord key r) ∧
        r.owner = owner ∧ (r.createdFor = owner ∨ ∃ r₀, s.records key = some r₀ ∧
          r.createdFor = r₀.createdFor) := by
  unfold recordFor
  cases hkey : ownerKey owner with
  | none => exact Or.inl rfl
  | some key =>
    cases hr : s.records key with
    | some r₀ =>
      refine Or.inr ⟨key, refresh owner (Config.npcPrefix ++ key) r₀, rfl, ?_, rfl,
        Or.inr ⟨r₀, hr, rfl⟩⟩
      simp only [hr]
    | none =>
      cases create with
      | false => exact Or.inl (by simp [hr])
      | true =>
        refine Or.inr ⟨key, refresh owner (Config.npcPrefix ++ key)
          (newRecord owner (Config.npcPrefix ++ key)), rfl, ?_, rfl, Or.inl rfl⟩
        simp only [hr, if_true]

/-- In a consistent registry the record returned is kept, and so is the
registry. -/
theorem Consistent.recordFor (h : Consistent N s) (hN : N owner) (create : Bool) :
    (recordFor owner create s = (none, s)) ∨
      ∃ key r, ownerKey owner = some key ∧ recordFor owner create s = (some r, s.setRecord key r) ∧
        Kept N key r ∧ Consistent N (s.setRecord key r) := by
  rcases recordFor_cases owner create s with hnone | ⟨key, r, hkey, heq, howner, hfrom⟩
  · exact Or.inl hnone
  · have hkept : Kept N key r := by
      refine ⟨?_, by rw [howner]; exact hN, ?_, by rw [howner]; exact hkey⟩
      · rcases hfrom with hself | ⟨r₀, hr₀, hsame⟩
        · rw [hself]; exact hN
        · rw [hsame]; exact (h.record hr₀).createdFor
      · rcases hfrom with hself | ⟨r₀, hr₀, hsame⟩
        · rw [hself]; exact hkey
        · rw [hsame]; exact (h.record hr₀).key_createdFor
    exact Or.inr ⟨key, r, hkey, heq, hkept, h.setRecord hkept⟩

theorem HasKey.setRecord {ref' : ℕ} {key' : Bytes} (h : HasKey s ref' key') :
    HasKey (s.setRecord key r) ref' key' := h

/-- Fields other than the names may change. -/
theorem Kept.of_names {r' : Record} (h : Kept N key r) (hcreated : r'.createdFor = r.createdFor)
    (howner : r'.owner = r.owner) : Kept N key r' :=
  ⟨hcreated ▸ h.createdFor, howner ▸ h.owner, hcreated ▸ h.key_createdFor, howner ▸ h.key_owner⟩

theorem Consistent.updateRecord (h : Consistent N s) (hN : N owner) (create : Bool)
    {f : Record → Record} (hf : ∀ r, (f r).createdFor = r.createdFor ∧ (f r).owner = r.owner) :
    Consistent N (updateRecord owner create f s) := by
  unfold Spawner.updateRecord
  rcases h.recordFor hN create with hnone | ⟨key, r, hkey, heq, hkept, hs⟩
  · rw [hnone]
    cases ownerKey owner <;> exact h
  · rw [hkey, heq]
    exact hs.setRecord (hkept.of_names (hf r).1 (hf r).2)

/-- **Applying a record of the same key** leaves the body with a name of
that key. -/
theorem applyRecord_owned (hr : Kept N key r) (hz : Owned N z)
    (hkey : ownerKey z.data.goblinOwner = some key) :
    Owned N (applyRecord r z) ∧
      ownerKey (applyRecord r z).data.goblinOwner = ownerKey z.data.goblinOwner := by
  have howner : (applyRecord r z).data.goblinOwner = r.owner := by
    cases hrestored : z.restored <;> simp [applyRecord, hrestored, Body.setTask]
  have hmarked : (applyRecord r z).markedFor = z.markedFor := by
    cases hrestored : z.restored <;> simp [applyRecord, hrestored]
  refine ⟨⟨hmarked ▸ hz.markedFor, howner ▸ hr.owner, ?_⟩, ?_⟩
  · rw [hmarked, howner, hz.key, hkey, hr.key_owner]
  · rw [howner, hkey, hr.key_owner]

/-! ### Discovery -/

/-- The first pass keeps the registry consistent, and every best body under
its own key. -/
structure ScanOk (N : Bytes → Prop) (scan : Scan) : Prop where
  registry : Consistent N scan.registry
  best : ∀ {key ref}, scan.best key = some ref → HasKey scan.registry ref key

theorem scanOne_ok {scan : Scan} (h : ScanOk N scan) (ref : ℕ) : ScanOk N (scanOne scan ref) := by
  unfold scanOne
  cases hz : scan.registry.zombies[ref]? with
  | none => exact h
  | some z =>
    dsimp only
    split
    · exact h
    · rcases h.registry.recordFor (h.registry.zombie hz).owner true with
        hnone | ⟨key, r, hkey, heq, -, hs⟩
      · rw [hnone]
        cases ownerKey z.data.goblinOwner <;> exact ⟨h.registry, h.best⟩
      · rw [hkey, heq]
        have hself : HasKey (scan.registry.setRecord key r) ref key := ⟨z, hz, hkey⟩
        -- A body replaces the best of its key and no other.
        have hupdate : ∀ {key' ref'}, Function.update scan.best key (some ref) key' = some ref' →
            HasKey (scan.registry.setRecord key r) ref' key' := by
          intro key' ref' hb
          by_cases hk : key' = key
          · rw [hk, Function.update_self, Option.some.injEq] at hb
            rw [hk, ← hb]
            exact hself
          · rw [Function.update_of_ne hk] at hb
            exact h.best hb
        dsimp only
        split
        · exact ⟨hs, h.best⟩
        · split
          · exact ⟨hs, hupdate⟩
          · split
            · exact ⟨hs, hupdate⟩
            · exact ⟨hs, h.best⟩

theorem settleOne_consistent (h : Consistent N s) (restore : ℕ → Bool) (ref : ℕ) :
    Consistent N (settleOne restore s ref) := by
  unfold settleOne
  cases hz : s.zombies[ref]? with
  | none => exact h
  | some z =>
    dsimp only
    cases hkey : ownerKey z.data.goblinOwner with
    | none => exact h
    | some key =>
      dsimp only
      split
      · exact h
      · rcases h.recordFor (h.zombie hz).owner true with hnone | ⟨key', r, hkey', heq, hkept, hs⟩
        · rw [hnone]
          exact h
        · obtain rfl : key' = key := Option.some.inj (hkey'.symm.trans hkey)
          rw [heq]
          dsimp only
          split
          · have hkept' : Kept N key' { r with
                generation := max r.generation z.data.goblinGeneration, bodyPresent := true } :=
              hkept.of_names rfl rfl
            refine (hs.setRecord hkept').modifyZombie fun z' hz' => ?_
            obtain rfl : z' = z := Option.some.inj (hz'.symm.trans hz)
            exact applyRecord_owned hkept' (h.zombie hz) hkey
          · have hkept' : Kept N key' { r with
                generation := max r.generation z.data.goblinGeneration, bodyPresent := false } :=
              hkept.of_names rfl rfl
            exact (hs.setRecord hkept').removeBody.setBody_none

theorem Consistent.discoverBodies (h : Consistent N s) (restore : ℕ → Bool) :
    Consistent N (discoverBodies restore s) := by
  unfold Spawner.discoverBodies
  have hscan : ScanOk N ((List.range s.zombies.length).foldl scanOne ⟨s, fun _ => none, []⟩) :=
    List.foldlRecOn _ scanOne ⟨h, by simp⟩ fun scan hok ref _ => scanOne_ok hok ref
  refine List.foldlRecOn _ (settleOne restore) ?_ fun _ hc ref _ =>
    settleOne_consistent hc restore ref
  have hclean := hscan.registry.removeBodies
    ((List.range s.zombies.length).foldl scanOne ⟨s, fun _ => none, []⟩).duplicates
  exact ⟨hclean.record, hclean.zombie, fun hb => (hscan.best hb).removeBodies _⟩

/-- **`findForOwner` returns a body of the owner's key.** -/
theorem Consistent.findForOwner (h : Consistent N s) (restore : ℕ → Bool) (owner : Bytes) :
    Consistent N (findForOwner restore owner s).2 ∧
      ∀ {ref}, (Spawner.findForOwner restore owner s).1 = some ref →
        ∃ key, ownerKey owner = some key ∧ HasKey (Spawner.findForOwner restore owner s).2 ref key := by
  unfold Spawner.findForOwner
  cases hkey : ownerKey owner with
  | none => exact ⟨h, by simp⟩
  | some key =>
    dsimp only
    split
    · rename_i ref hcached
      refine ⟨h, fun {ref'} href => ⟨key, rfl, h.body ?_⟩⟩
      rw [← href]
      exact (Option.filter_eq_some_iff.1 hcached).1
    · have hd : Consistent N (Spawner.discoverBodies restore (s.setBody key none)) :=
        h.setBody_none.discoverBodies restore
      refine ⟨hd, fun {ref'} href => ⟨key, rfl, hd.body ?_⟩⟩
      exact (Option.filter_eq_some_iff.1 href).1

/-! ### The other operations -/

/-- Applying a kept record to a body of its key. -/
theorem Consistent.applyRecord (h : Consistent N s) (hkept : Kept N key r)
    (hkey : HasKey s ref key) : Consistent N (s.modifyZombie ref (applyRecord r)) := by
  obtain ⟨z, hz, hzkey⟩ := hkey
  refine h.modifyZombie fun z' hz' => ?_
  obtain rfl : z' = z := Option.some.inj (hz'.symm.trans hz)
  exact applyRecord_owned hkept (h.zombie hz) hzkey

/-- `recordFor` keeps the registry consistent, whether it returns a record
or not. -/
theorem Consistent.recordFor_snd (h : Consistent N s) (hN : N owner) (create : Bool) :
    Consistent N (Spawner.recordFor owner create s).2 := by
  rcases h.recordFor hN create with hnone | ⟨key, r, -, heq, -, hs⟩
  · rw [hnone]; exact h
  · rw [heq]; exact hs

theorem Consistent.keepBody (h : Consistent N s) (restore : ℕ → Bool) (hkey : HasKey s ref key) :
    Consistent N (keepBody restore key ref s) := by
  unfold Spawner.keepBody
  cases hr : s.records key with
  | none => exact h
  | some r =>
    have hkept : Kept N key { r with bodyPresent := true } := (h.record hr).of_names rfl rfl
    dsimp only
    split
    · exact (h.setRecord hkept).applyRecord hkept hkey.setRecord
    · exact h.setRecord hkept

/-- A fresh body carries the name it is made for. -/
theorem Consistent.addZombie (h : Consistent N s) (hz : Owned N z) :
    Consistent N (s.addZombie z) where
  record := h.record
  zombie {ref z'} hz' := by
    simp only [Registry.addZombie, List.getElem?_append] at hz'
    split at hz'
    · exact h.zombie hz'
    · rw [List.getElem?_singleton] at hz'
      split at hz'
      · rw [← Option.some.inj hz']; exact hz
      · simp at hz'
  body hk := by
    obtain ⟨z', hz', hkey⟩ := h.body hk
    have hlt := (List.getElem?_eq_some_iff.1 hz').1
    exact ⟨z', by rw [Registry.addZombie, List.getElem?_append_left hlt, hz'], hkey⟩

theorem Consistent.spawnBody (h : Consistent N s) (restore : ℕ → Bool) (hN : N owner)
    (hkey : ownerKey owner = some key) : Consistent N (spawnBody restore owner key s) := by
  unfold Spawner.spawnBody
  cases hr : s.records key with
  | none => exact h
  | some r =>
    have hkept : ∀ present generation,
        Kept N key { r with generation := generation, bodyPresent := present } := fun _ _ =>
      (h.record hr).of_names rfl rfl
    have hgrown : Consistent N (s.addZombie
        ⟨owner, Body.mark (r.generation + 1) owner r.npcId, true, true, false⟩) :=
      h.addZombie ⟨hN, hN, rfl⟩
    have hself : HasKey (s.addZombie
        ⟨owner, Body.mark (r.generation + 1) owner r.npcId, true, true, false⟩)
        s.zombies.length key :=
      ⟨⟨owner, Body.mark (r.generation + 1) owner r.npcId, true, true, false⟩,
        by simp [Registry.addZombie], hkey⟩
    dsimp only
    split
    · refine ((hgrown.setRecord (hkept true _)).applyRecord (hkept true _)
        hself.setRecord).setBody_some ?_
      obtain ⟨z, hz, hzkey⟩ := hself
      refine HasKey.modifyZombie (fun z' hz' => ?_) ⟨z, hz, hzkey⟩
      obtain rfl : z' = z := Option.some.inj (hz'.symm.trans hz)
      exact (applyRecord_owned (hkept true _) (hgrown.zombie hz) hzkey).2
    · exact (hgrown.setRecord (hkept false _)).removeBody

theorem Consistent.ensureForPlayer (h : Consistent N s) (hN : N owner) (restore : ℕ → Bool)
    (ownerDead spawn : Bool) : Consistent N (ensureForPlayer restore owner ownerDead spawn s) := by
  unfold Spawner.ensureForPlayer
  cases hkey : ownerKey owner with
  | none => exact h
  | some key =>
    obtain ⟨hfound, hof⟩ := (h.recordFor_snd hN true).findForOwner restore owner
    dsimp only
    split
    · exact hfound
    · split
      · rename_i ref href
        obtain ⟨key', hkey', hhas⟩ := hof href
        obtain rfl : key' = key := Option.some.inj (hkey'.symm.trans hkey)
        exact hfound.keepBody restore hhas
      · split
        · exact hfound.spawnBody restore hN hkey
        · exact hfound

theorem Consistent.takeBody (h : Consistent N s) (restore : ℕ → Bool) (hkept : Kept N key r)
    (hkey : HasKey s ref key) : Consistent N (takeBody restore key ref r s) := by
  have hkept' : ∀ present, Kept N key { r with bodyPresent := present } := fun _ =>
    hkept.of_names rfl rfl
  unfold Spawner.takeBody
  split
  · exact ((h.setRecord (hkept' true)).setBody_some hkey.setRecord).applyRecord (hkept' true) hkey
  · exact (h.setRecord (hkept' false)).setBody_none.removeBody

theorem Consistent.onZombieCreate (h : Consistent N s) (restore : ℕ → Bool) (ref : ℕ) :
    Consistent N (onZombieCreate restore ref s) := by
  unfold Spawner.onZombieCreate
  cases hz : s.zombies[ref]? with
  | none => exact h
  | some z =>
    dsimp only
    split
    · exact h
    · rcases h.recordFor (h.zombie hz).owner true with hnone | ⟨key, r, hkey, heq, hkept, hs⟩
      · rw [hnone]
        cases ownerKey z.data.goblinOwner <;> exact h
      · rw [hkey, heq]
        have hhas : HasKey (s.setRecord key r) ref key := ⟨z, hz, hkey⟩
        dsimp only
        split
        · exact hs.removeBody
        · split
          · exact hs.takeBody restore (hkept.of_names rfl rfl) hhas
          · split
            · exact hs.removeBody
            · exact hs.removeBody.takeBody restore (hkept.of_names rfl rfl) hhas.removeBody

theorem Consistent.onZombieDead (h : Consistent N s) (ref : ℕ) :
    Consistent N (onZombieDead ref s) := by
  unfold Spawner.onZombieDead
  cases hz : s.zombies[ref]? with
  | none => exact h
  | some z =>
    dsimp only
    split
    · exact h
    · have hs := h.updateRecord (h.zombie hz).owner true (f := fun r =>
        { r with bodyPresent := false, task := .follow,
                 taskPayload := Body.ownerPayload z.data.goblinOwner }) fun r => ⟨rfl, rfl⟩
      split
      · split
        · exact hs.setBody_none
        · exact hs
      · exact hs

theorem Consistent.removeForPlayer (h : Consistent N s) (hN : N owner) (restore : ℕ → Bool) :
    Consistent N (removeForPlayer restore owner s) := by
  unfold Spawner.removeForPlayer
  cases hkey : ownerKey owner with
  | none => exact h
  | some key =>
    obtain ⟨hfound, -⟩ := h.findForOwner restore owner
    dsimp only
    split
    · exact hfound.removeBody.setBody_none.updateRecord hN true fun r => ⟨rfl, rfl⟩
    · exact hfound.setBody_none.updateRecord hN true fun r => ⟨rfl, rfl⟩

theorem Consistent.setTask (h : Consistent N s) (ref : ℕ) (task : Task) (payload : LuaValue) :
    Consistent N (setTask ref task payload s).2 := by
  unfold Spawner.setTask
  cases hz : s.zombies[ref]? with
  | none => exact h
  | some z =>
    dsimp only
    split
    · exact h
    · rcases h.recordFor (h.zombie hz).owner true with hnone | ⟨key, r, hkey, heq, hkept, hs⟩
      · rw [hnone]
        cases ownerKey z.data.goblinOwner <;> exact h
      · rw [hkey, heq]
        have hordered : Kept N key { r with task := task, taskPayload := payload } :=
          hkept.of_names rfl rfl
        refine (hs.setRecord hordered).modifyZombie fun z' hz' => ⟨?_, rfl⟩
        obtain rfl : z' = z := Option.some.inj (hz'.symm.trans hz)
        exact ⟨(h.zombie hz).markedFor, (h.zombie hz).owner, (h.zombie hz).key⟩

theorem Consistent.setBaseForOwnerAt (h : Consistent N s) (hN : N owner) (restore : ℕ → Bool)
    (point : Option Point) : Consistent N (setBaseForOwnerAt restore owner point s) := by
  unfold Spawner.setBaseForOwnerAt
  have hs : Consistent N (Spawner.updateRecord owner true
      (fun r => { r with baseSet := point.isSome, base := point }) s) :=
    h.updateRecord hN true fun r => ⟨rfl, rfl⟩
  have hfound := (hs.findForOwner restore owner).1
  dsimp only
  split <;> rename_i heq <;> rw [heq] at hfound
  · exact hfound.modifyZombie fun z hz =>
      ⟨⟨(hfound.zombie hz).markedFor, (hfound.zombie hz).owner, (hfound.zombie hz).key⟩, rfl⟩
  · exact hfound

end

/-! ## Runs -/

/-- One call into the spawner, or a change the engine makes: `engine` sets
which bodies are alive and loaded, `restart` loses what is not persisted. -/
inductive Op
  | recordFor (owner : Bytes) (create : Bool)
  | updateRecord (owner : Bytes) (bodyPresent freewill : Bool)
  | findForOwner (restore : ℕ → Bool) (owner : Bytes)
  | discoverBodies (restore : ℕ → Bool)
  | ensureForPlayer (restore : ℕ → Bool) (owner : Bytes) (ownerDead spawn : Bool)
  | onZombieCreate (restore : ℕ → Bool) (ref : ℕ)
  | onZombieDead (ref : ℕ)
  | removeForPlayer (restore : ℕ → Bool) (owner : Bytes)
  | setTask (ref : ℕ) (task : Task) (payload : LuaValue)
  | setBaseForOwnerAt (restore : ℕ → Bool) (owner : Bytes) (point : Option Point)
  | engine (present listed : ℕ → Bool)
  | restart

/-- The user names an operation is called with. -/
def Op.names : Op → List Bytes
  | recordFor owner _ => [owner]
  | updateRecord owner _ _ => [owner]
  | findForOwner _ owner => [owner]
  | ensureForPlayer _ owner _ _ => [owner]
  | removeForPlayer _ owner => [owner]
  | setBaseForOwnerAt _ owner _ => [owner]
  | _ => []

def Registry.step (s : Registry) : Op → Registry
  | .recordFor owner create => (Spawner.recordFor owner create s).2
  | .updateRecord owner bodyPresent freewill =>
    Spawner.updateRecord owner true
      (fun r => { r with bodyPresent := bodyPresent, freewill := freewill }) s
  | .findForOwner restore owner => (Spawner.findForOwner restore owner s).2
  | .discoverBodies restore => Spawner.discoverBodies restore s
  | .ensureForPlayer restore owner ownerDead spawn =>
    Spawner.ensureForPlayer restore owner ownerDead spawn s
  | .onZombieCreate restore ref => Spawner.onZombieCreate restore ref s
  | .onZombieDead ref => Spawner.onZombieDead ref s
  | .removeForPlayer restore owner => Spawner.removeForPlayer restore owner s
  | .setTask ref task payload => (Spawner.setTask ref task payload s).2
  | .setBaseForOwnerAt restore owner point => Spawner.setBaseForOwnerAt restore owner point s
  | .engine present listed =>
    { s with zombies := s.zombies.mapIdx fun i z =>
        { z with present := present i, listed := listed i } }
  | .restart =>
    { s with bodies := fun _ => none
             zombies := s.zombies.map fun z => { z with restored := false } }

/-- Every operation called with names in play keeps the registry
consistent. -/
theorem Consistent.step {N : Bytes → Prop} {s : Registry} (h : Consistent N s) (op : Op)
    (hN : ∀ n ∈ op.names, N n) : Consistent N (s.step op) := by
  cases op with
  | recordFor owner create => exact h.recordFor_snd (hN owner (by simp [Op.names])) create
  | updateRecord owner bodyPresent freewill =>
    exact h.updateRecord (hN owner (by simp [Op.names])) true fun _ => ⟨rfl, rfl⟩
  | findForOwner restore owner => exact (h.findForOwner restore owner).1
  | discoverBodies restore => exact h.discoverBodies restore
  | ensureForPlayer restore owner ownerDead spawn =>
    exact h.ensureForPlayer (hN owner (by simp [Op.names])) restore ownerDead spawn
  | onZombieCreate restore ref => exact h.onZombieCreate restore ref
  | onZombieDead ref => exact h.onZombieDead ref
  | removeForPlayer restore owner => exact h.removeForPlayer (hN owner (by simp [Op.names])) restore
  | setTask ref task payload => exact h.setTask ref task payload
  | setBaseForOwnerAt restore owner point =>
    exact h.setBaseForOwnerAt (hN owner (by simp [Op.names])) restore point
  | engine present listed =>
    refine ⟨h.record, fun {ref z'} hz' => ?_, fun {key ref} hk => ?_⟩
    · simp only [Registry.step, List.getElem?_mapIdx, Option.map_eq_some_iff] at hz'
      obtain ⟨z, hz, rfl⟩ := hz'
      exact ⟨(h.zombie hz).markedFor, (h.zombie hz).owner, (h.zombie hz).key⟩
    · obtain ⟨z, hz, hkey⟩ := h.body hk
      refine ⟨{ z with present := present ref, listed := listed ref }, ?_, hkey⟩
      simp only [Registry.step, List.getElem?_mapIdx, hz, Option.map_some]
  | restart =>
    refine ⟨h.record, fun {ref z'} hz' => ?_, fun hk => by simp [Registry.step] at hk⟩
    simp only [Registry.step, List.getElem?_map, Option.map_eq_some_iff] at hz'
    obtain ⟨z, hz, rfl⟩ := hz'
    exact ⟨(h.zombie hz).markedFor, (h.zombie hz).owner, (h.zombie hz).key⟩

/-- **A run keeps records and bodies under the keys of the names they were
made for.** -/
theorem consistent_run {N : Bytes → Prop} {ops : List Op}
    (hN : ∀ op ∈ ops, ∀ n ∈ op.names, N n) :
    Consistent N (Machine.run Registry.step Registry.empty ops) := by
  induction ops using List.reverseRecOn with
  | nil => exact ⟨by simp [Registry.empty], by simp [Registry.empty], by simp [Registry.empty]⟩
  | append_singleton ops op ih =>
    rw [Machine.run_snoc]
    exact (ih fun op' hop' => hN op' (by simp [hop'])).step op (hN op (by simp))

/-- **The owner's lookups are their own**: the body and the record found for
the name were made for it, case aside. -/
structure IsolatedFor (owner : Bytes) (s : Registry) : Prop where
  body : ∀ restore ref, (findForOwner restore owner s).1 = some ref →
    ∃ z, (findForOwner restore owner s).2.zombies[ref]? = some z ∧
      Bytes.lower z.markedFor = Bytes.lower owner
  record : ∀ create r, (recordFor owner create s).1 = some r →
    Bytes.lower r.createdFor = Bytes.lower owner

theorem ne_nil_of_ownerKey {owner key : Bytes} (h : ownerKey owner = some key) : owner ≠ [] := by
  rintro rfl
  simp [ownerKey] at h

/-- **Owner isolation.** For a set of user names in play, all keys and npc
ids differ and every lookup in every run finds only the owner's own,
exactly when no two of the names fold alike without being one name in
lower case. -/
theorem owner_isolation_iff (names : List Bytes) (hnames : ∀ a ∈ names, a ≠ []) :
    ((∀ a ∈ names, ∀ b ∈ names, Bytes.lower a ≠ Bytes.lower b →
        ownerKey a ≠ ownerKey b ∧ npcIdForOwner a ≠ npcIdForOwner b) ∧
      ∀ ops : List Op, (∀ op ∈ ops, ∀ n ∈ op.names, n ∈ names) → ∀ owner ∈ names,
        IsolatedFor owner (Machine.run Registry.step Registry.empty ops)) ↔
      ∀ a ∈ names, ∀ b ∈ names, FoldAlike a b → Bytes.lower a = Bytes.lower b := by
  constructor
  · rintro ⟨hkeys, -⟩ a ha b hb halike
    by_contra hne
    exact (hkeys a ha b hb hne).1 ((ownerKey_eq_iff (hnames a ha) (hnames b hb)).2 halike)
  · intro hapart
    -- Names in play under one key are one name.
    have hone : ∀ a ∈ names, ∀ b ∈ names, ownerKey a = ownerKey b →
        Bytes.lower a = Bytes.lower b := fun a ha b hb hkey =>
      hapart a ha b hb ((ownerKey_eq_iff (hnames a ha) (hnames b hb)).1 hkey)
    refine ⟨fun a ha b hb hne => ?_, fun ops hops owner howner => ?_⟩
    · have hkey : ownerKey a ≠ ownerKey b := fun h => hne (hone a ha b hb h)
      exact ⟨hkey, fun h => hkey (npcIdForOwner_eq_iff.1 h)⟩
    · have hs : Consistent (· ∈ names) (Machine.run Registry.step Registry.empty ops) :=
        consistent_run hops
      constructor
      · intro restore ref href
        obtain ⟨hafter, hof⟩ := hs.findForOwner restore owner
        obtain ⟨key, hkey, z, hz, hzkey⟩ := hof href
        have hown := hafter.zombie hz
        exact ⟨z, hz, hone _ hown.markedFor _ howner (by rw [hown.key, hzkey, hkey])⟩
      · intro create r hr
        rcases hs.recordFor howner create with hnone | ⟨key, r', hkey, heq, hkept, -⟩
        · rw [hnone] at hr
          simp at hr
        · rw [heq] at hr
          obtain rfl : r' = r := Option.some.inj hr
          exact hone _ hkept.createdFor _ howner (by rw [hkept.key_createdFor, hkey])

theorem owner_isolation_iff_plain :
    ownerKey (Bytes.lit "Alice") ≠ ownerKey (Bytes.lit "bob-2") ∧
      IsolatedFor (Bytes.lit "bob-2") (Machine.run Registry.step Registry.empty
        [.ensureForPlayer (fun _ => true) (Bytes.lit "Alice") false true,
          .ensureForPlayer (fun _ => true) (Bytes.lit "bob-2") false true]) := by
  have hapart : ∀ a ∈ [Bytes.lit "Alice", Bytes.lit "bob-2"],
      ∀ b ∈ [Bytes.lit "Alice", Bytes.lit "bob-2"], FoldAlike a b → Bytes.lower a = Bytes.lower b := by
    unfold FoldAlike
    decide
  have h := (owner_isolation_iff [Bytes.lit "Alice", Bytes.lit "bob-2"] (by decide)).2 hapart
  exact ⟨(h.1 _ (by simp) _ (by simp) (by decide)).1, h.2 _ (by simp [Op.names]) _ (by simp)⟩

/-- **Punctuation collides.** `a.b` and `a_b` share a key, and the owner of
one is given the body made for the other. -/
theorem owner_isolation_fails :
    ¬ ((∀ a b, a ≠ [] → b ≠ [] → Bytes.lower a ≠ Bytes.lower b →
        ownerKey a ≠ ownerKey b ∧ npcIdForOwner a ≠ npcIdForOwner b) ∧
      ∀ (ops : List Op) (owner : Bytes),
        IsolatedFor owner (Machine.run Registry.step Registry.empty ops)) := by
  rintro ⟨-, h⟩
  obtain ⟨z, hz, hlower⟩ := (h [.ensureForPlayer (fun _ => true) (Bytes.lit "a.b") false true]
    (Bytes.lit "a_b")).body (fun _ => true) 0 (by decide)
  have hmarked : ((findForOwner (fun _ => true) (Bytes.lit "a_b")
      (Machine.run Registry.step Registry.empty
        [.ensureForPlayer (fun _ => true) (Bytes.lit "a.b") false true])).2.zombies[0]?.map
      Zombie.markedFor) = some (Bytes.lit "a.b") := by decide
  rw [hz, Option.map_some, Option.some.injEq] at hmarked
  rw [hmarked] at hlower
  exact absurd hlower (by decide)

end Spawner

end GoblinZomboid
