import GoblinZomboid.Server.Isolation
/-!
# One body per owner

Bodies stream in when the cell loads them, and are swept when they are
discovered. Whatever generations they have and in whatever order they are
met, what is left of a key is the body its table names, and it is the newest.
-/

namespace GoblinZomboid

namespace Spawner

/-! ## What does not change -/

section

variable {s s' s'' : Registry} {key : Bytes} {ref ref' : ℕ} {r : Record} {z : Zombie}
  {f : Zombie → Zombie}

/-- The key a zombie's owner has. -/
def keyAt (s : Registry) (ref : ℕ) : Option Bytes :=
  (s.zombies[ref]?).bind fun z => ownerKey z.data.goblinOwner

/-- The zombie is managed. -/
def goblinAt (s : Registry) (ref : ℕ) : Prop :=
  ∃ z, s.zombies[ref]? = some z ∧ Body.isGoblin ⟨z.data, z.present⟩ = true

/-- The zombie has not been removed. -/
def Present (s : Registry) (ref : ℕ) : Prop := ∃ z, s.zombies[ref]? = some z ∧ z.present = true

/-- The generation stored for a key. -/
def storedGeneration (s : Registry) (key : Bytes) : ℕ :=
  ((s.records key).map fun r => r.generation).getD 0

/-- Zombies keep their key, their generation and their marks, and none comes
back. -/
structure Ages (s s' : Registry) : Prop where
  key : ∀ ref, keyAt s' ref = keyAt s ref
  generation : ∀ ref, generationOf s' ref = generationOf s ref
  goblin : ∀ ref, goblinAt s ref → goblinAt s' ref
  present : ∀ ref, Present s' ref → Present s ref

theorem Ages.refl (s : Registry) : Ages s s :=
  ⟨fun _ => rfl, fun _ => rfl, fun _ h => h, fun _ h => h⟩

theorem Ages.trans (h : Ages s s') (h' : Ages s' s'') : Ages s s'' where
  key ref := (h'.key ref).trans (h.key ref)
  generation ref := (h'.generation ref).trans (h.generation ref)
  goblin ref hg := h'.goblin ref (h.goblin ref hg)
  present ref hp := h.present ref (h'.present ref hp)

/-- Only the zombies count. -/
theorem Ages.of_zombies (h : s'.zombies = s.zombies) : Ages s s' := by
  constructor
  · intro ref
    rw [keyAt, keyAt, h]
  · intro ref
    rw [generationOf, generationOf, h]
  · intro ref hg
    rw [goblinAt, h]
    exact hg
  · intro ref hp
    rw [Present, h] at hp
    exact hp

theorem getElem?_modifyZombie (ref' : ℕ) : (s.modifyZombie ref f).zombies[ref']? =
    if ref = ref' then (s.zombies[ref']?).map f else s.zombies[ref']? := by
  rw [Registry.modifyZombie, List.getElem?_modify]
  split
  · rfl
  · rw [Option.map_eq_map, Option.map_id']

/-- A change of one zombie that keeps these of it. -/
theorem Ages.modifyZombie (hf : ∀ z, s.zombies[ref]? = some z →
    ownerKey (f z).data.goblinOwner = ownerKey z.data.goblinOwner ∧
      (f z).data.goblinGeneration = z.data.goblinGeneration ∧
      (Body.isGoblin ⟨z.data, z.present⟩ = true →
        Body.isGoblin ⟨(f z).data, (f z).present⟩ = true) ∧
      ((f z).present = true → z.present = true)) : Ages s (s.modifyZombie ref f) := by
  constructor
  · intro ref'
    rw [keyAt, keyAt, getElem?_modifyZombie]
    split
    · rename_i heq
      subst heq
      cases hz : s.zombies[ref]? with
      | none => rfl
      | some z => exact (hf z hz).1
    · rfl
  · intro ref'
    rw [generationOf, generationOf, getElem?_modifyZombie]
    split
    · rename_i heq
      subst heq
      cases hz : s.zombies[ref]? with
      | none => rfl
      | some z => exact (hf z hz).2.1
    · rfl
  · rintro ref' ⟨z, hz, hg⟩
    by_cases heq : ref = ref'
    · subst heq
      exact ⟨f z, by rw [getElem?_modifyZombie, if_pos rfl, hz]; rfl, (hf z hz).2.2.1 hg⟩
    · exact ⟨z, by rw [getElem?_modifyZombie, if_neg heq, hz], hg⟩
  · rintro ref' ⟨z', hz', hp⟩
    rw [getElem?_modifyZombie] at hz'
    split at hz'
    · rename_i heq
      subst heq
      obtain ⟨z, hz, rfl⟩ := Option.map_eq_some_iff.mp hz'
      exact ⟨z, hz, (hf z hz).2.2.2 hp⟩
    · exact ⟨z', hz', hp⟩

theorem ages_removeBody (s : Registry) (ref : ℕ) : Ages s (removeBody s ref) :=
  Ages.modifyZombie fun _ _ => ⟨rfl, rfl, fun h => h, fun h => by cases h⟩

/-- What is removed is gone. -/
theorem not_present_removeBody (s : Registry) (ref : ℕ) : ¬ Present (removeBody s ref) ref := by
  rintro ⟨z', hz', hp⟩
  rw [removeBody, getElem?_modifyZombie, if_pos rfl] at hz'
  obtain ⟨z, -, rfl⟩ := Option.map_eq_some_iff.mp hz'
  cases hp

/-- And nothing else is. -/
theorem present_removeBody (h : Present s ref') (hne : ref ≠ ref') :
    Present (removeBody s ref) ref' := by
  obtain ⟨z, hz, hp⟩ := h
  exact ⟨z, by rw [removeBody, getElem?_modifyZombie, if_neg hne, hz], hp⟩

/-- Applying a record of the body's owner. -/
theorem Ages.applyRecord {suffix : Bytes} (howner : ∀ z, s.zombies[ref]? = some z →
      r.owner = z.data.goblinOwner) (hnpc : r.npcId = Config.npcPrefix ++ suffix) :
    Ages s (s.modifyZombie ref (applyRecord r)) := by
  refine Ages.modifyZombie fun z hz => ?_
  have hown := howner z hz
  have hid : (Config.npcPrefix.isPrefixOf r.npcId) = true := by
    rw [hnpc, List.isPrefixOf_iff_prefix]
    exact List.prefix_append _ _
  have hmarks : ∀ data : Data, data.goblinNPC = z.data.goblinNPC →
      data.goblinOwned = z.data.goblinOwned → data.goblinID = r.npcId →
      Body.isGoblin ⟨z.data, z.present⟩ = true → Body.isGoblin ⟨data, z.present⟩ = true := by
    intro data hn ho hi hg
    unfold Body.isGoblin at hg ⊢
    simp only [Bool.and_eq_true] at hg ⊢
    rw [hn, ho, hi, hid, Bool.or_true]
    exact ⟨hg.1, rfl⟩
  unfold Spawner.applyRecord
  dsimp only
  split
  · exact ⟨by rw [hown], rfl, hmarks _ rfl rfl rfl, fun h => h⟩
  · exact ⟨by rw [Body.setTask, hown], rfl, hmarks _ rfl rfl rfl, fun h => h⟩

/-- Live is present and managed. -/
theorem live?_isSome : (live? s ref).isSome = true ↔ Present s ref ∧ goblinAt s ref := by
  unfold live? Present goblinAt bodyLive
  cases hz : s.zombies[ref]? with
  | none => simp
  | some z =>
    simp only [Option.filter_some, Option.some.injEq, exists_eq_left']
    cases hp : z.present with
    | false => simp
    | true =>
      cases hg : Body.isGoblin ⟨z.data, true⟩ with
      | false => simp
      | true => simp

/-- **What `recordFor` returns** for an owner with a key. -/
theorem recordFor_spec {owner : Bytes} (hkey : ownerKey owner = some key) :
    ∃ r, recordFor owner true s = (some r, s.setRecord key r) ∧ r.owner = owner ∧
      r.npcId = Config.npcPrefix ++ key ∧ r.generation = storedGeneration s key := by
  unfold recordFor storedGeneration
  rw [hkey]
  dsimp only
  cases hr : s.records key with
  | some r => exact ⟨_, rfl, rfl, rfl, rfl⟩
  | none => exact ⟨_, rfl, rfl, rfl, rfl⟩

theorem storedGeneration_setRecord (k : Bytes) : storedGeneration (s.setRecord key r) k =
    if k = key then r.generation else storedGeneration s k := by
  unfold storedGeneration Registry.setRecord
  split
  · rename_i heq
    rw [heq]
    dsimp only
    rw [Function.update_self]
    rfl
  · rename_i hne
    dsimp only
    rw [Function.update_of_ne hne]

end

/-! ## The law -/

section

variable {before s : Registry} {done : List ((ℕ → Bool) × ℕ)}

/-- The managed zombies the hook was called for. -/
def Streamed (before : Registry) (done : List ((ℕ → Bool) × ℕ)) (key : Bytes) (ref : ℕ) : Prop :=
  (∃ op ∈ done, op.2 = ref) ∧ goblinAt before ref ∧ keyAt before ref = some key

/-- A call in which the inventory of this body was not restored. -/
def Failed (done : List ((ℕ → Bool) × ℕ)) (ref : ℕ) : Prop :=
  ∃ op ∈ done, op.2 = ref ∧ op.1 ref = false

/-- What holds between two calls of the hook. -/
structure Streaming (before : Registry) (done : List ((ℕ → Bool) × ℕ)) (s : Registry) : Prop where
  ages : Ages before s
  keyed : ∀ key ref, s.bodies key = some ref → keyAt before ref = some key
  stored : ∀ key, storedGeneration before key ≤ storedGeneration s key
  /-- What is left is the tracked body, and the record knows its generation. -/
  settled : ∀ key ref, Streamed before done key ref → Present s ref →
    s.bodies key = some ref ∧ storedGeneration s key = generationOf before ref
  /-- None was newer than the record or the live tracked body. -/
  covered : ∀ key ref, Streamed before done key ref →
    generationOf before ref ≤ storedGeneration s key ∨
      ∃ e, s.bodies key = some e ∧ (live? s e).isSome = true ∧
        generationOf before ref ≤ generationOf before e
  failed : ∀ key ref, Streamed before done key ref → Failed done ref → ¬ Present s ref

/-- The candidates after one more call. -/
theorem streamed_snoc {op : (ℕ → Bool) × ℕ} {key : Bytes} {ref : ℕ}
    (h : Streamed before (done ++ [op]) key ref) :
    Streamed before done key ref ∨
      ref = op.2 ∧ goblinAt before op.2 ∧ keyAt before op.2 = some key := by
  obtain ⟨⟨d, hd, rfl⟩, hg, hkey⟩ := h
  rcases List.mem_append.mp hd with hold | hnew
  · exact Or.inl ⟨⟨d, hold, rfl⟩, hg, hkey⟩
  · obtain rfl := List.mem_singleton.mp hnew
    exact Or.inr ⟨rfl, hg, hkey⟩

theorem failed_snoc {op : (ℕ → Bool) × ℕ} {ref : ℕ} (h : Failed (done ++ [op]) ref) :
    Failed done ref ∨ ref = op.2 ∧ op.1 op.2 = false := by
  obtain ⟨d, hd, rfl, hfalse⟩ := h
  rcases List.mem_append.mp hd with hold | hnew
  · exact Or.inl ⟨d, hold, rfl, hfalse⟩
  · obtain rfl := List.mem_singleton.mp hnew
    exact Or.inr ⟨rfl, hfalse⟩

/-- A call about a zombie that is no candidate. -/
theorem Streaming.skip {op : (ℕ → Bool) × ℕ} (h : Streaming before done s)
    (hno : ∀ key, goblinAt before op.2 → keyAt before op.2 ≠ some key) :
    Streaming before (done ++ [op]) s := by
  have hold : ∀ key ref, Streamed before (done ++ [op]) key ref → Streamed before done key ref := by
    intro key ref hc
    rcases streamed_snoc hc with hc | ⟨-, hg, hkey⟩
    · exact hc
    · exact absurd hkey (hno key hg)
  refine ⟨h.ages, h.keyed, h.stored, fun key ref hc => h.settled key ref (hold key ref hc),
    fun key ref hc => h.covered key ref (hold key ref hc), fun key ref hc hf => ?_⟩
  rcases failed_snoc hf with hf | ⟨rfl, -⟩
  · exact h.failed key ref (hold key ref hc) hf
  · exact absurd hc.2.2 (hno key hc.2.1)

/-- The body is removed: an older one than the record, or than the live
tracked body. -/
theorem Streaming.remove {op : (ℕ → Bool) × ℕ} {key : Bytes} {r : Record}
    (h : Streaming before done s) (hkey : keyAt before op.2 = some key)
    (hr : r.generation = storedGeneration s key)
    (holder : generationOf before op.2 < storedGeneration s key ∨
      ∃ e, e ≠ op.2 ∧ s.bodies key = some e ∧ (live? s e).isSome = true ∧
        generationOf before op.2 ≤ generationOf before e) :
    Streaming before (done ++ [op]) (removeBody (s.setRecord key r) op.2) := by
  have hrecord : Ages s (s.setRecord key r) := Ages.of_zombies rfl
  have hages : Ages s (removeBody (s.setRecord key r) op.2) := hrecord.trans (ages_removeBody _ _)
  have hstored : ∀ k, storedGeneration (removeBody (s.setRecord key r) op.2) k =
      storedGeneration s k := by
    intro k
    have hset : storedGeneration (removeBody (s.setRecord key r) op.2) k =
        storedGeneration (s.setRecord key r) k := rfl
    rw [hset, storedGeneration_setRecord]
    split
    · rename_i heq
      rw [heq, hr]
    · rfl
  -- A live body other than the removed one stays live.
  have hlive : ∀ e, e ≠ op.2 → (live? s e).isSome = true →
      (live? (removeBody (s.setRecord key r) op.2) e).isSome = true := by
    intro e hne he
    obtain ⟨hp, hg⟩ := live?_isSome.mp he
    refine live?_isSome.mpr ⟨present_removeBody ?_ (Ne.symm hne), hages.goblin e hg⟩
    exact hp
  refine ⟨h.ages.trans hages, h.keyed, fun k => hstored k ▸ h.stored k, ?_, ?_, ?_⟩
  · intro k ref hc hp
    rcases streamed_snoc hc with hc | ⟨rfl, -, -⟩
    · rw [hstored]
      exact h.settled k ref hc (hages.present ref hp)
    · exact absurd hp (not_present_removeBody _ _)
  · intro k ref hc
    rw [hstored]
    -- What the removed body covered, the record or its rival covers.
    have hself : k = key → generationOf before ref ≤ generationOf before op.2 →
        generationOf before ref ≤ storedGeneration s k ∨
          ∃ e, (removeBody (s.setRecord key r) op.2).bodies k = some e ∧
            (live? (removeBody (s.setRecord key r) op.2) e).isSome = true ∧
            generationOf before ref ≤ generationOf before e := by
      rintro rfl hle
      rcases holder with hlt | ⟨e, hne, he, helive, hge⟩
      · exact Or.inl (by omega)
      · exact Or.inr ⟨e, he, hlive e hne helive, hle.trans hge⟩
    rcases streamed_snoc hc with hc | ⟨rfl, -, hk⟩
    · rcases h.covered k ref hc with hle | ⟨e, he, helive, hle⟩
      · exact Or.inl hle
      · by_cases heq : e = op.2
        · subst heq
          exact hself (Option.some.inj ((h.keyed k _ he).symm.trans hkey)) hle
        · exact Or.inr ⟨e, he, hlive e heq helive, hle⟩
    · exact hself (Option.some.inj (hk.symm.trans hkey)) le_rfl
  · intro k ref hc hf hp
    rcases streamed_snoc hc with hc | ⟨rfl, -, -⟩
    · rcases failed_snoc hf with hf | ⟨rfl, -⟩
      · exact h.failed k ref hc hf (hages.present ref hp)
      · exact not_present_removeBody _ _ hp
    · exact not_present_removeBody _ _ hp

/-- The state in which a body takes its key: the rival is gone, and nothing
else has changed. -/
structure Ready (s s' : Registry) (key : Bytes) (ref : ℕ) : Prop where
  ages : Ages s s'
  bodies : s'.bodies = s.bodies
  stored : ∀ k, storedGeneration s' k = storedGeneration s k
  rival : ∀ e, e ≠ ref → s.bodies key = some e → goblinAt s e → ¬ Present s' e
  others : ∀ e, s.bodies key ≠ some e → Present s e → Present s' e

/-- The body takes its key, or is removed as its inventory cannot be
restored. -/
theorem Streaming.take {op : (ℕ → Bool) × ℕ} {key : Bytes} {r : Record} {s' : Registry}
    (h : Streaming before done s) (hready : Ready s s' key op.2)
    (hkey : keyAt before op.2 = some key)
    (howner : ∀ z, s'.zombies[op.2]? = some z → r.owner = z.data.goblinOwner)
    (hnpc : r.npcId = Config.npcPrefix ++ key) (hr : r.generation = generationOf before op.2)
    (hge : storedGeneration s key ≤ generationOf before op.2)
    (hrival : ∀ e, e ≠ op.2 → s.bodies key = some e → (live? s e).isSome = true →
      generationOf before e ≤ generationOf before op.2) :
    Streaming before (done ++ [op]) (takeBody op.1 key op.2 r s') := by
  -- The old bodies of the key are gone, and were not newer.
  have hgone : ∀ ref, ref ≠ op.2 → Streamed before done key ref → ¬ Present s' ref := by
    intro ref hne hc hp
    have htracked := (h.settled key ref hc (hready.ages.present ref hp)).1
    exact hready.rival ref hne htracked (h.ages.goblin ref hc.2.1) hp
  have holder : ∀ ref, Streamed before done key ref →
      generationOf before ref ≤ generationOf before op.2 := by
    intro ref hc
    rcases h.covered key ref hc with hle | ⟨e, he, helive, hle⟩
    · omega
    · by_cases heq : e = op.2
      · rw [← heq]
        exact hle
      · exact hle.trans (hrival e heq he helive)
  -- Of the other keys everything is as it was.
  have hother : ∀ k ref, k ≠ key → Streamed before (done ++ [op]) k ref →
      Streamed before done k ref := by
    intro k ref hk hc
    rcases streamed_snoc hc with hc | ⟨rfl, -, hk'⟩
    · exact hc
    · exact absurd (Option.some.inj (hk'.symm.trans hkey)) hk
  have hlive : ∀ k e, k ≠ key → s.bodies k = some e → (live? s e).isSome = true →
      Present s' e ∧ goblinAt s' e := by
    intro k e hk he helive
    obtain ⟨hp, hge⟩ := live?_isSome.mp helive
    refine ⟨hready.others e (fun hkeyed => hk ?_) hp, hready.ages.goblin e hge⟩
    exact Option.some.inj ((h.keyed k e he).symm.trans (h.keyed key e hkeyed))
  have hstored : ∀ k r', r'.generation = generationOf before op.2 →
      storedGeneration (s'.setRecord key r') k =
        if k = key then generationOf before op.2 else storedGeneration s k := by
    intro k r' hr'
    rw [storedGeneration_setRecord, hr', hready.stored]
  have hgrows : ∀ k, storedGeneration before k ≤
      if k = key then generationOf before op.2 else storedGeneration s k := by
    intro k
    have hbefore := h.stored k
    split
    · rename_i heq
      rw [heq] at hbefore ⊢
      omega
    · exact hbefore
  unfold takeBody
  cases hrestore : op.1 op.2 with
  | true =>
    rw [if_pos rfl]
    generalize htaken : (((s'.setRecord key { r with bodyPresent := true }).setBody key
      (some op.2)).modifyZombie op.2 (applyRecord { r with bodyPresent := true })) = taken
    have hages : Ages s' taken := by
      have hbare : Ages s' ((s'.setRecord key { r with bodyPresent := true }).setBody key
          (some op.2)) := Ages.of_zombies rfl
      rw [← htaken]
      exact hbare.trans (Ages.applyRecord howner hnpc)
    have hstays : ∀ e, Present s' e → Present taken e := by
      rintro e ⟨z, hz, hp⟩
      rw [← htaken]
      refine ⟨if op.2 = e then applyRecord { r with bodyPresent := true } z else z, ?_, ?_⟩
      · rw [getElem?_modifyZombie]
        split
        · exact congrArg (Option.map _) hz
        · exact hz
      · split
        · unfold Spawner.applyRecord
          dsimp only
          split <;> exact hp
        · exact hp
    have hbodies : ∀ k, taken.bodies k = if k = key then some op.2 else s.bodies k := by
      intro k
      rw [← htaken, ← hready.bodies]
      exact Function.update_apply _ _ _ _
    have hgenerations : ∀ k, storedGeneration taken k =
        if k = key then generationOf before op.2 else storedGeneration s k := by
      intro k
      rw [← htaken, ← hstored k { r with bodyPresent := true } hr]
      rfl
    refine ⟨h.ages.trans (hready.ages.trans hages), ?_, ?_, ?_, ?_, ?_⟩
    · intro k ref htracked
      rw [hbodies] at htracked
      split at htracked
      · rename_i heq
        rw [heq, ← Option.some.inj htracked]
        exact hkey
      · exact h.keyed k ref htracked
    · intro k
      rw [hgenerations]
      exact hgrows k
    · intro k ref hc hp
      rw [hbodies, hgenerations]
      by_cases hk : k = key
      · subst hk
        rw [if_pos rfl, if_pos rfl]
        by_cases heq : ref = op.2
        · rw [heq]
          exact ⟨rfl, rfl⟩
        · rcases streamed_snoc hc with hc | ⟨hself, -⟩
          · exact absurd (hages.present ref hp) (hgone ref heq hc)
          · exact absurd hself heq
      · rw [if_neg hk, if_neg hk]
        exact h.settled k ref (hother k ref hk hc) (hready.ages.present ref (hages.present ref hp))
    · intro k ref hc
      rw [hbodies, hgenerations]
      by_cases hk : k = key
      · subst hk
        rw [if_pos rfl]
        rcases streamed_snoc hc with hc | ⟨rfl, -⟩
        · exact Or.inl (holder ref hc)
        · exact Or.inl le_rfl
      · rw [if_neg hk, if_neg hk]
        rcases h.covered k ref (hother k ref hk hc) with hle | ⟨e, he, helive, hle⟩
        · exact Or.inl hle
        · obtain ⟨hp, hge⟩ := hlive k e hk he helive
          exact Or.inr ⟨e, he, live?_isSome.mpr ⟨hstays e hp, hages.goblin e hge⟩, hle⟩
    · intro k ref hc hf hp
      have hpast := hready.ages.present ref (hages.present ref hp)
      rcases failed_snoc hf with hf | ⟨rfl, hfalse⟩
      · rcases streamed_snoc hc with hc | ⟨rfl, hg', hk'⟩
        · exact h.failed k ref hc hf hpast
        · obtain ⟨d, hd, heq, hfalse⟩ := hf
          exact h.failed k op.2 ⟨⟨d, hd, heq⟩, hg', hk'⟩ ⟨d, hd, heq, hfalse⟩ hpast
      · rw [hrestore] at hfalse
        cases hfalse
  | false =>
    rw [if_neg Bool.false_ne_true]
    generalize htaken : removeBody ((s'.setRecord key { r with bodyPresent := false }).setBody key
      none) op.2 = taken
    have hages : Ages s' taken := by
      have hbare : Ages s' ((s'.setRecord key { r with bodyPresent := false }).setBody key none) :=
        Ages.of_zombies rfl
      rw [← htaken]
      exact hbare.trans (ages_removeBody _ _)
    have hremoved : ¬ Present taken op.2 := by
      rw [← htaken]
      exact not_present_removeBody _ _
    have hstays : ∀ e, e ≠ op.2 → Present s' e → Present taken e := by
      intro e hne hp
      rw [← htaken]
      exact present_removeBody hp (Ne.symm hne)
    have hbodies : ∀ k, taken.bodies k = if k = key then none else s.bodies k := by
      intro k
      rw [← htaken, ← hready.bodies]
      exact Function.update_apply _ _ _ _
    have hgenerations : ∀ k, storedGeneration taken k =
        if k = key then generationOf before op.2 else storedGeneration s k := by
      intro k
      rw [← htaken, ← hstored k { r with bodyPresent := false } hr]
      rfl
    have hout : ∀ k ref, Streamed before (done ++ [op]) k ref → Present taken ref → k ≠ key := by
      rintro k ref hc hp rfl
      by_cases heq : ref = op.2
      · rw [heq] at hp
        exact hremoved hp
      · rcases streamed_snoc hc with hc | ⟨hself, -⟩
        · exact hgone ref heq hc (hages.present ref hp)
        · exact heq hself
    refine ⟨h.ages.trans (hready.ages.trans hages), ?_, ?_, ?_, ?_, ?_⟩
    · intro k ref htracked
      rw [hbodies] at htracked
      split at htracked
      · cases htracked
      · exact h.keyed k ref htracked
    · intro k
      rw [hgenerations]
      exact hgrows k
    · intro k ref hc hp
      have hk := hout k ref hc hp
      rw [hbodies, hgenerations, if_neg hk, if_neg hk]
      exact h.settled k ref (hother k ref hk hc) (hready.ages.present ref (hages.present ref hp))
    · intro k ref hc
      rw [hbodies, hgenerations]
      by_cases hk : k = key
      · subst hk
        rw [if_pos rfl]
        rcases streamed_snoc hc with hc | ⟨rfl, -⟩
        · exact Or.inl (holder ref hc)
        · exact Or.inl le_rfl
      · rw [if_neg hk, if_neg hk]
        rcases h.covered k ref (hother k ref hk hc) with hle | ⟨e, he, helive, hle⟩
        · exact Or.inl hle
        · obtain ⟨hp, hge⟩ := hlive k e hk he helive
          have hne : e ≠ op.2 := by
            rintro rfl
            exact hk (Option.some.inj ((h.keyed k _ he).symm.trans hkey))
          exact Or.inr ⟨e, he, live?_isSome.mpr ⟨hstays e hne hp, hages.goblin e hge⟩, hle⟩
    · intro k ref hc hf hp
      have hk := hout k ref hc hp
      have hpast := hready.ages.present ref (hages.present ref hp)
      rcases failed_snoc hf with hf | ⟨rfl, -⟩
      · exact h.failed k ref (hother k ref hk hc) hf hpast
      · exact hremoved hp

/-- **A call of the hook** keeps what holds between calls. -/
theorem Streaming.step (h : Streaming before done s) (op : (ℕ → Bool) × ℕ) :
    Streaming before (done ++ [op]) (onZombieCreate op.1 op.2 s) := by
  unfold onZombieCreate
  have hskip : (∀ z key, s.zombies[op.2]? = some z →
      Body.isGoblin ⟨z.data, z.present⟩ = true → ownerKey z.data.goblinOwner ≠ some key) →
      Streaming before (done ++ [op]) s := by
    intro hno
    refine h.skip fun key hg hkey => ?_
    obtain ⟨z, hz, hgoblin⟩ := h.ages.goblin op.2 hg
    rw [← h.ages.key op.2, keyAt, hz] at hkey
    exact hno z key hz hgoblin hkey
  cases hz : s.zombies[op.2]? with
  | none => exact hskip fun z key hz' => by rw [hz] at hz'; cases hz'
  | some z =>
    dsimp only
    split
    · rename_i hno
      rw [Bool.not_eq_true'] at hno
      refine hskip fun z' key hz' hg => ?_
      obtain rfl : z' = z := Option.some.inj (hz'.symm.trans hz)
      rw [hno] at hg
      cases hg
    rename_i hgoblin
    rw [Bool.not_eq_true', Bool.not_eq_false] at hgoblin
    cases hkeyed : ownerKey z.data.goblinOwner with
    | none =>
      have hnone : recordFor z.data.goblinOwner true s = (none, s) := by
        rw [recordFor, hkeyed]
      rw [hnone]
      refine hskip fun z' key hz' _ => ?_
      obtain rfl : z' = z := Option.some.inj (hz'.symm.trans hz)
      rw [hkeyed]
      nofun
    | some key =>
      obtain ⟨r, hrecord, howner, hnpc, hgeneration⟩ := recordFor_spec (s := s) hkeyed
      rw [hrecord]
      dsimp only
      have hkey : keyAt before op.2 = some key := by
        rw [← h.ages.key op.2, keyAt, hz]
        exact hkeyed
      have hgen : z.data.goblinGeneration = generationOf before op.2 := by
        rw [← h.ages.generation op.2, generationOf, hz]
        rfl
      have hgens : ∀ e, generationOf (s.setRecord key r) e = generationOf before e :=
        fun e => h.ages.generation e
      split
      · rename_i hlt
        rw [hgen, hgeneration] at hlt
        exact h.remove hkey hgeneration (Or.inl hlt)
      rename_i hge
      rw [hgen, hgeneration] at hge
      have hmax : max r.generation z.data.goblinGeneration = generationOf before op.2 := by
        rw [hgen, hgeneration]
        omega
      have hrecorded : Ages s (s.setRecord key r) := Ages.of_zombies rfl
      have hsame : ∀ k, storedGeneration (s.setRecord key r) k = storedGeneration s k := by
        intro k
        rw [storedGeneration_setRecord]
        split
        · rename_i heq
          rw [heq, hgeneration]
        · rfl
      split
      · -- No rival is live.
        rename_i hfree
        have hnorival : ∀ e, e ≠ op.2 → s.bodies key = some e → ¬ (live? s e).isSome = true := by
          intro e hne he helive
          have hkeep : (s.bodies key).filter (fun e => (live? s e).isSome && e != op.2) = some e := by
            rw [Option.filter_eq_some_iff]
            refine ⟨he, ?_⟩
            rw [helive, Bool.true_and, bne_iff_ne]
            exact hne
          rw [show (s.setRecord key r).bodies = s.bodies from rfl] at hfree
          have hsamelive : ∀ e, live? (s.setRecord key r) e = live? s e := fun _ => rfl
          simp only [hsamelive] at hfree
          rw [hkeep] at hfree
          cases hfree
        refine h.take ⟨hrecorded, rfl, hsame, ?_, fun e _ hp => hp⟩ hkey ?_ hnpc hmax (by omega) ?_
        · intro e hne he hg hp
          exact hnorival e hne he (live?_isSome.mpr ⟨hp, hg⟩)
        · intro z' hz'
          obtain rfl : z' = z := Option.some.inj (hz'.symm.trans hz)
          exact howner
        · intro e hne he helive
          exact absurd helive (hnorival e hne he)
      · rename_i existing hexisting
        obtain ⟨htracked, hother⟩ := Option.filter_eq_some_iff.mp hexisting
        rw [Bool.and_eq_true, bne_iff_ne] at hother
        obtain ⟨helive, hne⟩ := hother
        have htracked' : s.bodies key = some existing := htracked
        have helive' : (live? s existing).isSome = true := helive
        split
        · rename_i hle
          rw [hgen, hgens] at hle
          exact h.remove hkey hgeneration (Or.inr ⟨existing, hne, htracked', helive', hle⟩)
        · rename_i hlt
          rw [hgen, hgens] at hlt
          have hswept : Ages s (removeBody (s.setRecord key r) existing) :=
            hrecorded.trans (ages_removeBody _ _)
          refine h.take ⟨hswept, rfl, hsame, ?_, ?_⟩ hkey ?_ hnpc hmax (by omega) ?_
          · intro e _ he _ hp
            obtain rfl : existing = e := Option.some.inj (htracked'.symm.trans he)
            exact not_present_removeBody _ _ hp
          · intro e hnot hp
            refine present_removeBody hp ?_
            rintro rfl
            exact hnot htracked'
          · intro z' hz'
            rw [removeBody, getElem?_modifyZombie, if_neg hne] at hz'
            obtain rfl : z' = z := Option.some.inj (hz'.symm.trans hz)
            exact howner
          · intro e _ he _
            obtain rfl : existing = e := Option.some.inj (htracked'.symm.trans he)
            omega

/-- The live managed zombies of the cell. -/
def Loaded (before : Registry) (key : Bytes) (ref : ℕ) : Prop :=
  (∃ z, before.zombies[ref]? = some z ∧ z.listed = true ∧ bodyLive z = true) ∧
    keyAt before ref = some key

/-- What holds in the first pass, after these zombies. -/
structure Scanning (before : Registry) (seen : List ℕ) (scan : Scan) : Prop where
  zombies : scan.registry.zombies = before.zombies
  stored : ∀ key, storedGeneration scan.registry key = storedGeneration before key
  sorted : ∀ key ref, ref ∈ seen → Loaded before key ref →
    ref ∈ scan.duplicates ∨ scan.best key = some ref
  best : ∀ key b, scan.best key = some b → storedGeneration before key ≤ generationOf before b ∧
    ∀ ref ∈ seen, Loaded before key ref → generationOf before ref ≤ generationOf before b
  older : ∀ key, scan.best key = none → ∀ ref ∈ seen, Loaded before key ref →
    generationOf before ref < storedGeneration before key

/-- A zombie that is no candidate changes nothing but the duplicates. -/
theorem Scanning.skip {seen : List ℕ} {scan scan' : Scan} {ref : ℕ} (h : Scanning before seen scan)
    (hno : ∀ key, ¬ Loaded before key ref) (hregistry : scan'.registry = scan.registry)
    (hbest : scan'.best = scan.best) (hdup : ∀ d ∈ scan.duplicates, d ∈ scan'.duplicates) :
    Scanning before (seen ++ [ref]) scan' := by
  have hold : ∀ key r, r ∈ seen ++ [ref] → Loaded before key r → r ∈ seen := by
    intro key r hr hl
    rcases List.mem_append.mp hr with hr | hr
    · exact hr
    · rw [List.mem_singleton.mp hr] at hl
      exact absurd hl (hno key)
  refine ⟨hregistry ▸ h.zombies, fun k => hregistry ▸ h.stored k, ?_, ?_, ?_⟩
  · intro key r hr hl
    rw [hbest]
    exact (h.sorted key r (hold key r hr hl) hl).imp_left (hdup r)
  · intro key b hb
    rw [hbest] at hb
    exact ⟨(h.best key b hb).1, fun r hr hl => (h.best key b hb).2 r (hold key r hr hl) hl⟩
  · intro key hb r hr hl
    rw [hbest] at hb
    exact h.older key hb r (hold key r hr hl) hl

/-- **One zombie of the first pass.** -/
theorem Scanning.one {seen : List ℕ} {scan : Scan} (h : Scanning before seen scan) (ref : ℕ) :
    Scanning before (seen ++ [ref]) (scanOne scan ref) := by
  unfold scanOne
  cases hz : scan.registry.zombies[ref]? with
  | none =>
    refine h.skip (fun key hl => ?_) rfl rfl fun _ hd => hd
    obtain ⟨⟨z, hz', -⟩, -⟩ := hl
    rw [← h.zombies, hz] at hz'
    cases hz'
  | some z =>
    have hz' : before.zombies[ref]? = some z := by rw [← h.zombies, hz]
    dsimp only
    split
    · rename_i hidden
      refine h.skip (fun key hl => ?_) rfl rfl fun _ hd => hd
      obtain ⟨⟨z', hz'', hlisted, hlive⟩, -⟩ := hl
      obtain rfl : z' = z := Option.some.inj (hz''.symm.trans hz')
      rw [hlisted, hlive] at hidden
      cases hidden
    cases hkeyed : ownerKey z.data.goblinOwner with
    | none =>
      have hnone : recordFor z.data.goblinOwner true scan.registry = (none, scan.registry) := by
        rw [recordFor, hkeyed]
      rw [hnone]
      refine h.skip (fun key hl => ?_) rfl rfl fun _ hd => List.mem_append_left _ hd
      have hkey : ownerKey z.data.goblinOwner = some key := by
        rw [← hl.2, keyAt, hz']
        rfl
      rw [hkeyed] at hkey
      cases hkey
    | some key =>
      obtain ⟨r, hrecord, -, -, hgeneration⟩ := recordFor_spec (s := scan.registry) hkeyed
      rw [hrecord]
      dsimp only
      have hkey : keyAt before ref = some key := by
        rw [keyAt, hz']
        exact hkeyed
      have hgen : z.data.goblinGeneration = generationOf before ref := by
        rw [generationOf, hz']
        rfl
      have hgens : ∀ e, generationOf (scan.registry.setRecord key r) e = generationOf before e := by
        intro e
        rw [generationOf, generationOf, Registry.setRecord, h.zombies]
      have hrecorded : r.generation = storedGeneration before key := by rw [hgeneration, h.stored]
      have hstored : ∀ k, storedGeneration (scan.registry.setRecord key r) k =
          storedGeneration before k := by
        intro k
        rw [storedGeneration_setRecord]
        split
        · rename_i heq
          rw [heq, hrecorded]
        · exact h.stored k
      -- The seen candidates, and this one, which has no other key.
      have hseen : ∀ k ref', ref' ∈ seen ++ [ref] → Loaded before k ref' →
          ref' ∈ seen ∨ ref' = ref ∧ k = key := by
        intro k ref' hin hl
        rcases List.mem_append.mp hin with hin | hin
        · exact Or.inl hin
        · obtain rfl := List.mem_singleton.mp hin
          exact Or.inr ⟨rfl, Option.some.inj (hl.2.symm.trans hkey)⟩
      have hupdate : ∀ k, Function.update scan.best key (some ref) k =
          if k = key then some ref else scan.best k := fun k => Function.update_apply _ _ _ _
      rw [hgen, hrecorded]
      split
      · rename_i hlt
        refine ⟨h.zombies, hstored, ?_, ?_, ?_⟩
        · intro k ref' hin hl
          rcases hseen k ref' hin hl with hin | ⟨rfl, -⟩
          · exact (h.sorted k ref' hin hl).imp_left (List.mem_append_left _)
          · exact Or.inl (List.mem_append_right _ List.mem_cons_self)
        · intro k b hb
          refine ⟨(h.best k b hb).1, fun ref' hin hl => ?_⟩
          rcases hseen k ref' hin hl with hin | ⟨rfl, rfl⟩
          · exact (h.best k b hb).2 ref' hin hl
          · exact hlt.le.trans (h.best k b hb).1
        · intro k hb ref' hin hl
          rcases hseen k ref' hin hl with hin | ⟨rfl, rfl⟩
          · exact h.older k hb ref' hin hl
          · exact hlt
      rename_i hge
      split
      · -- The first body of its key.
        rename_i hnone
        refine ⟨h.zombies, hstored, ?_, ?_, ?_⟩
        · intro k ref' hin hl
          dsimp only
          rw [hupdate]
          rcases hseen k ref' hin hl with hin | ⟨rfl, rfl⟩
          · rcases h.sorted k ref' hin hl with hdup | hbest
            · exact Or.inl hdup
            · have hk : k ≠ key := by
                rintro rfl
                rw [hnone] at hbest
                cases hbest
              rw [if_neg hk]
              exact Or.inr hbest
          · exact Or.inr (if_pos rfl)
        · intro k b hb
          dsimp only at hb
          rw [hupdate] at hb
          split at hb
          · rename_i hk
            subst hk
            obtain rfl := Option.some.inj hb
            refine ⟨by omega, fun ref' hin hl => ?_⟩
            rcases hseen k ref' hin hl with hin | ⟨rfl, -⟩
            · have hlt := h.older k hnone ref' hin hl
              omega
            · exact le_rfl
          · rename_i hk
            refine ⟨(h.best k b hb).1, fun ref' hin hl => ?_⟩
            rcases hseen k ref' hin hl with hin | ⟨-, heq⟩
            · exact (h.best k b hb).2 ref' hin hl
            · exact absurd heq hk
        · intro k hb ref' hin hl
          dsimp only at hb
          rw [hupdate] at hb
          split at hb
          · cases hb
          · rename_i hk
            rcases hseen k ref' hin hl with hin | ⟨-, heq⟩
            · exact h.older k hb ref' hin hl
            · exact absurd heq hk
      · rename_i existing hexisting
        rw [hgens]
        split
        · -- A newer one: the body met before becomes a duplicate.
          rename_i hlt
          refine ⟨h.zombies, hstored, ?_, ?_, ?_⟩
          · intro k ref' hin hl
            dsimp only
            rw [hupdate]
            rcases hseen k ref' hin hl with hin | ⟨rfl, rfl⟩
            · rcases h.sorted k ref' hin hl with hdup | hbest
              · exact Or.inl (List.mem_append_left _ hdup)
              · by_cases hk : k = key
                · subst hk
                  obtain rfl := Option.some.inj (hbest.symm.trans hexisting)
                  exact Or.inl (List.mem_append_right _ List.mem_cons_self)
                · rw [if_neg hk]
                  exact Or.inr hbest
            · exact Or.inr (if_pos rfl)
          · intro k b hb
            dsimp only at hb
            rw [hupdate] at hb
            split at hb
            · rename_i hk
              subst hk
              obtain rfl := Option.some.inj hb
              refine ⟨by omega, fun ref' hin hl => ?_⟩
              rcases hseen k ref' hin hl with hin | ⟨rfl, -⟩
              · exact ((h.best k existing hexisting).2 ref' hin hl).trans hlt.le
              · exact le_rfl
            · rename_i hk
              refine ⟨(h.best k b hb).1, fun ref' hin hl => ?_⟩
              rcases hseen k ref' hin hl with hin | ⟨-, heq⟩
              · exact (h.best k b hb).2 ref' hin hl
              · exact absurd heq hk
          · intro k hb ref' hin hl
            dsimp only at hb
            rw [hupdate] at hb
            split at hb
            · cases hb
            · rename_i hk
              rcases hseen k ref' hin hl with hin | ⟨-, heq⟩
              · exact h.older k hb ref' hin hl
              · exact absurd heq hk
        · rename_i hnot
          refine ⟨h.zombies, hstored, ?_, ?_, ?_⟩
          · intro k ref' hin hl
            rcases hseen k ref' hin hl with hin | ⟨rfl, -⟩
            · exact (h.sorted k ref' hin hl).imp_left (List.mem_append_left _)
            · exact Or.inl (List.mem_append_right _ List.mem_cons_self)
          · intro k b hb
            refine ⟨(h.best k b hb).1, fun ref' hin hl => ?_⟩
            rcases hseen k ref' hin hl with hin | ⟨rfl, rfl⟩
            · exact (h.best k b hb).2 ref' hin hl
            · obtain rfl := Option.some.inj (hb.symm.trans hexisting)
              omega
          · intro k hb ref' hin hl
            rcases hseen k ref' hin hl with hin | ⟨rfl, rfl⟩
            · exact h.older k hb ref' hin hl
            · dsimp only at hb
              rw [hexisting] at hb
              cases hb

/-- The first pass over a list of zombies. -/
theorem Scanning.pass {seen : List ℕ} {scan : Scan} (h : Scanning before seen scan)
    (refs : List ℕ) :
    Scanning before (seen ++ refs) (refs.foldl scanOne scan) := by
  induction refs generalizing seen scan with
  | nil =>
    rw [List.append_nil]
    exact h
  | cons ref refs ih =>
    have hnext := ih (h.one ref)
    rwa [List.append_assoc, List.singleton_append] at hnext

/-- What holds in the last pass, after these zombies. -/
structure Settling (before : Registry) (best : Bytes → Option ℕ) (restore : ℕ → Bool)
    (settled : List ℕ) (s : Registry) : Prop where
  ages : Ages before s
  tracked : ∀ key ref, Loaded before key ref → Present s ref → s.bodies key = some ref
  best : ∀ key ref, s.bodies key = some ref → best key = some ref
  failed : ∀ key ref, ref ∈ settled → Loaded before key ref → restore ref = false → ¬ Present s ref

section

variable {best : Bytes → Option ℕ} {restore : ℕ → Bool} {settled : List ℕ} {s' : Registry} {ref : ℕ}

/-- A zombie whose key keeps its body. -/
theorem Settling.keep (h : Settling before best restore settled s) (hages : Ages s s')
    (hbodies : s'.bodies = s.bodies)
    (hfailed : ∀ key, Loaded before key ref → restore ref = false → ¬ Present s' ref) :
    Settling before best restore (settled ++ [ref]) s' := by
  refine ⟨h.ages.trans hages, ?_, ?_, ?_⟩
  · intro key r hl hp
    rw [hbodies]
    exact h.tracked key r hl (hages.present r hp)
  · intro key r hb
    rw [hbodies] at hb
    exact h.best key r hb
  · intro key r hin hl hr hp
    rcases List.mem_append.mp hin with hin | hin
    · exact h.failed key r hin hl hr (hages.present r hp)
    · obtain rfl := List.mem_singleton.mp hin
      exact hfailed key hl hr hp

/-- A zombie whose inventory could not be restored: it is removed, and its key
has no body. -/
theorem Settling.remove {key : Bytes} (h : Settling before best restore settled s)
    (hzombies : s'.zombies = s.zombies) (htable : s'.bodies = s.bodies)
    (htracked : s.bodies key = some ref) :
    Settling before best restore (settled ++ [ref]) ((removeBody s' ref).setBody key none) := by
  have hbodies : ∀ k, ((removeBody s' ref).setBody key none).bodies k =
      if k = key then none else s.bodies k := by
    intro k
    rw [← htable]
    exact Function.update_apply _ _ _ _
  have hages : Ages s ((removeBody s' ref).setBody key none) :=
    (Ages.of_zombies hzombies).trans ((ages_removeBody s' ref).trans (Ages.of_zombies rfl))
  have hgone : ¬ Present ((removeBody s' ref).setBody key none) ref := not_present_removeBody s' ref
  refine ⟨h.ages.trans hages, ?_, ?_, ?_⟩
  · intro k ref' hl hp
    have hold := h.tracked k ref' hl (hages.present ref' hp)
    have hk : k ≠ key := by
      rintro rfl
      obtain rfl : ref = ref' := Option.some.inj (htracked.symm.trans hold)
      exact hgone hp
    rw [hbodies, if_neg hk]
    exact hold
  · intro k ref' hb
    rw [hbodies] at hb
    split at hb
    · cases hb
    · exact h.best k ref' hb
  · intro k ref' hin hl hr hp
    rcases List.mem_append.mp hin with hin | hin
    · exact h.failed k ref' hin hl hr (hages.present ref' hp)
    · obtain rfl := List.mem_singleton.mp hin
      exact hgone hp

/-- **One zombie of the last pass.** -/
theorem Settling.one (h : Settling before best restore settled s) (ref : ℕ) :
    Settling before best restore (settled ++ [ref]) (settleOne restore s ref) := by
  unfold settleOne
  cases hz : s.zombies[ref]? with
  | none =>
    refine h.keep (.refl s) rfl fun key hl hr hp => ?_
    obtain ⟨z, hz', -⟩ := hp
    rw [hz] at hz'
    cases hz'
  | some z =>
    -- A candidate has the key its zombie still has.
    have hsame : ∀ key, Loaded before key ref → ownerKey z.data.goblinOwner = some key := by
      intro key hl
      rw [← hl.2, ← h.ages.key ref, keyAt, hz]
      rfl
    dsimp only
    cases hkeyed : ownerKey z.data.goblinOwner with
    | none =>
      refine h.keep (.refl s) rfl fun key hl => ?_
      have hkey := hsame key hl
      rw [hkeyed] at hkey
      cases hkey
    | some key =>
      dsimp only
      split
      · rename_i hother
        refine h.keep (.refl s) rfl fun key' hl hr hp => ?_
        obtain rfl : key = key' := Option.some.inj (hkeyed.symm.trans (hsame key' hl))
        exact hother (h.tracked key ref hl hp)
      · rename_i htracked
        rw [not_not] at htracked
        obtain ⟨r, hrecord, howner, hnpc, -⟩ := recordFor_spec (s := s) hkeyed
        rw [hrecord]
        dsimp only
        split
        · rename_i hrestored
          refine h.keep ?_ rfl fun key' hl hr => ?_
          · have hset : Ages s ((s.setRecord key r).setRecord key { r with
                generation := max r.generation z.data.goblinGeneration, bodyPresent := true }) :=
              Ages.of_zombies rfl
            refine hset.trans (Ages.applyRecord ?_ hnpc)
            intro z' hz'
            obtain rfl : z' = z := Option.some.inj (hz'.symm.trans hz)
            exact howner
          · rw [hrestored] at hr
            cases hr
        · exact h.remove rfl rfl htracked

/-- The last pass over a list of zombies. -/
theorem Settling.pass (h : Settling before best restore settled s) (refs : List ℕ) :
    Settling before best restore (settled ++ refs) (refs.foldl (settleOne restore) s) := by
  induction refs generalizing settled s with
  | nil =>
    rw [List.append_nil]
    exact h
  | cons ref refs ih =>
    have hnext := ih (h.one ref)
    rwa [List.append_assoc, List.singleton_append] at hnext

end

/-- Every registry the program reaches is such a one. -/
theorem keyAt_of_run (ops : List Op) {key : Bytes} {ref : ℕ}
    (hb : (Machine.run Registry.step Registry.empty ops).bodies key = some ref) :
    keyAt (Machine.run Registry.step Registry.empty ops) ref = some key := by
  have hs : Consistent (fun _ => True) (Machine.run Registry.step Registry.empty ops) :=
    consistent_run fun _ _ _ _ => trivial
  obtain ⟨z, hz, hkey⟩ := hs.body hb
  rw [keyAt, hz]
  exact hkey

end

end Spawner

end GoblinZomboid
