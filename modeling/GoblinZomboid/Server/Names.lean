import GoblinZomboid.Lib.LuaValue
import GoblinZomboid.Lib.Probing
import GoblinZomboid.Lib.Run
import GoblinZomboid.Server.Spawner
/-!
# `GoblinIdentity.lua`: what a companion is called

A name is hashed from the owner's and numbered until no record has it.
`recordFor` gives one to every record that has none.
-/

namespace GoblinZomboid

namespace Identity

def firstNames : List Bytes :=
  ["Grubsnarl", "Rattlefang", "Muckbite", "Scabclaw", "Feral Gristle", "Ratspit", "Boggnash",
    "Scrapgnaw", "Moldmaw", "Sootfang", "Gutterclaw", "Nettletooth"].map Bytes.lit

def lastNames : List Bytes :=
  ["Tinchewer", "Bonepicker", "Nailhoarder", "Windowbiter", "Mudhowler", "Soupthief", "Ashlicker",
    "Bootgnasher", "Rustbelly", "Fencegnawer", "Bucketlurker", "Plankgobber"].map Bytes.lit

/-- The hash of an owner. -/
def hash (owner : Bytes) : ℕ :=
  (Bytes.lower owner).foldl (fun h b => (h * 31 + b.toNat) % 2147483647) 0

def base (owner : Bytes) : Bytes :=
  firstNames.getD (hash owner % firstNames.length) [] ++ Bytes.lit " " ++
    lastNames.getD (hash owner / firstNames.length % lastNames.length) []

/-- The candidate with this suffix. -/
def candidate (base : Bytes) (suffix : ℕ) : Bytes :=
  if suffix = 1 then base else base ++ Bytes.lit " " ++ Bytes.decimal suffix

/-- The `name` field of every record, under its key. -/
abbrev Names := List (Bytes × LuaValue)

/-- The names in use; a candidate is a text, so only texts are met. -/
def used (records : Names) : List Bytes := records.filterMap fun e => e.2.str?

/-- The loop of `Identity.name`, in so many rounds. -/
def nameWithin (rounds : ℕ) (owner : Bytes) (records : Names) : Option Bytes :=
  (Probing.probe (candidate (base owner)) (used records) rounds 1).map (candidate (base owner))

/-- `Identity.name`. -/
def name (owner : Bytes) (records : Names) : Option Bytes :=
  nameWithin (records.length + 1) owner records

/-- The names as `recordFor` leaves them. -/
def recordFor (records : Names) (owner : Bytes) (create : Bool) : Names :=
  match Spawner.ownerKey owner with
  | none => records
  | some key =>
    let records := if List.elem key (records.map Prod.fst) then records
      else if create then records ++ [(key, .nil)] else records
    records.map fun e =>
      if e.1 = key ∧ e.2.str? = none then (key, ((name owner records).map LuaValue.str).getD .nil)
      else e

/-! ## The loop ends -/

variable {records : Names} {owner key : Bytes} {create : Bool}

theorem candidate_injective (base : Bytes) : Function.Injective (candidate base) := by
  have hlonger : ∀ n, base ≠ base ++ Bytes.lit " " ++ Bytes.decimal n := by
    intro n h
    have hlen := congrArg List.length h
    have hblank : (Bytes.lit " ").length = 1 := by decide
    rw [List.length_append, List.length_append, hblank] at hlen
    omega
  intro m n h
  unfold candidate at h
  split at h
  · rename_i hm
    split at h
    · rename_i hn
      rw [hm, hn]
    · exact absurd h (hlonger n)
  · split at h
    · exact absurd h.symm (hlonger m)
    · exact Bytes.decimal_injective (List.append_cancel_left h)

theorem length_used_le (records : Names) : (used records).length ≤ records.length :=
  List.length_filterMap_le _ _

/-- **`Identity.name` ends**, whatever names are in use, and more rounds give
the same name. -/
theorem name_terminates (owner : Bytes) (records : Names) :
    ∃ text, name owner records = some text ∧ text ∉ used records ∧
      ∀ rounds, records.length < rounds → nameWithin rounds owner records = some text := by
  have hlen := length_used_le records
  have hsome := Probing.probe_isSome (n := 1) (candidate_injective (base owner))
    (show (used records).length < records.length + 1 by omega)
  obtain ⟨k, hk⟩ := Option.isSome_iff_exists.mp hsome
  refine ⟨candidate (base owner) k, ?_, (Probing.probe_eq_some hk).2.1, fun rounds hrounds => ?_⟩
  · rw [name, nameWithin, hk]
    rfl
  · rw [nameWithin, Probing.probe_mono hk hrounds]
    rfl

/-! ## The names are distinct -/

/-- One record per key, and no two records with one name. -/
structure Distinct (records : Names) : Prop where
  keys : (records.map Prod.fst).Nodup
  names : (used records).Nodup

/-- A record is added where its key has none. -/
theorem Distinct.append (h : Distinct records) (hkey : key ∉ records.map Prod.fst) :
    Distinct (records ++ [(key, .nil)]) where
  keys := by
    rw [List.map_append, List.map_singleton]
    exact h.keys.append (List.nodup_singleton _) (by simpa using hkey)
  names := by
    have hsame : used (records ++ [(key, .nil)]) = used records := by
      simp [used, LuaValue.str?]
    rw [hsame]
    exact h.names

/-- The record of a key is named. -/
def setName (key : Bytes) (text : Bytes) (records : Names) : Names :=
  records.map fun e => if e.1 = key ∧ e.2.str? = none then (key, .str text) else e

theorem keys_setName (key text : Bytes) (records : Names) :
    (setName key text records).map Prod.fst = records.map Prod.fst := by
  rw [setName, List.map_map]
  refine List.map_congr_left fun e _ => ?_
  rw [Function.comp_apply]
  split
  · rename_i h
    exact h.1.symm
  · rfl

theorem mem_used_setName {text other : Bytes} (h : other ∈ used (setName key text records)) :
    other = text ∨ other ∈ used records := by
  obtain ⟨e, he, hother⟩ := List.mem_filterMap.mp h
  obtain ⟨d, hd, rfl⟩ := List.mem_map.mp he
  split at hother
  · exact Or.inl (Option.some.inj hother).symm
  · exact Or.inr (List.mem_filterMap.mpr ⟨d, hd, hother⟩)

/-- **A free name** leaves the names distinct. -/
theorem Distinct.setName {text : Bytes} (h : Distinct records) (hfree : text ∉ used records) :
    Distinct (setName key text records) := by
  refine ⟨by rw [keys_setName]; exact h.keys, ?_⟩
  -- By induction on the records: the key occurs once, so one record is named at most.
  obtain ⟨hkeys, hnames⟩ := h
  induction records with
  | nil => exact List.nodup_nil
  | cons e rest ih =>
    rw [List.map_cons, List.nodup_cons] at hkeys
    have hrest : used (e :: rest) = (e.2.str?).toList ++ used rest := by
      rw [used, List.filterMap_cons]
      cases e.2.str? <;> rfl
    rw [hrest] at hfree hnames
    rw [List.mem_append, not_or] at hfree
    have htail := ih hfree.2 hkeys.2 (List.Nodup.of_append_right hnames)
    by_cases hthis : e.1 = key ∧ e.2.str? = none
    · -- The others keep their names, as their keys differ.
      have hothers : Identity.setName key text rest = rest := by
        rw [Identity.setName]
        refine (List.map_congr_left fun d hd => ?_).trans (List.map_id' rest)
        refine if_neg fun hd' => hkeys.1 ?_
        rw [hthis.1, ← hd'.1]
        exact List.mem_map_of_mem hd
      have hnamed : used (Identity.setName key text (e :: rest)) = text :: used rest := by
        rw [Identity.setName, List.map_cons, if_pos hthis, used, List.filterMap_cons]
        rw [← Identity.setName, hothers]
        rfl
      rw [hnamed, List.nodup_cons]
      rw [hthis.2] at hnames
      exact ⟨hfree.2, hnames⟩
    · have hkept : used (Identity.setName key text (e :: rest)) =
          (e.2.str?).toList ++ used (Identity.setName key text rest) := by
        rw [Identity.setName, List.map_cons, if_neg hthis, used, List.filterMap_cons]
        rw [← Identity.setName]
        cases e.2.str? <;> rfl
      rw [hkept]
      refine (List.nodup_append'.mp hnames).1.append htail fun other hother hin => ?_
      rcases mem_used_setName hin with rfl | hin
      · exact hfree.1 hother
      · exact (List.nodup_append'.mp hnames).2.2 hother hin

/-- **A call keeps the names distinct**, and names the record it is for. -/
theorem distinct_recordFor (h : Distinct records) (owner : Bytes) (create : Bool) :
    Distinct (recordFor records owner create) := by
  unfold recordFor
  split
  · exact h
  rename_i key hkey
  have hready : Distinct (if List.elem key (records.map Prod.fst) then records
      else if create then records ++ [(key, .nil)] else records) := by
    split
    · exact h
    rename_i hnew
    split
    · exact h.append fun hin => hnew (List.elem_iff.mpr hin)
    · exact h
  dsimp only
  obtain ⟨text, htext, hfree, -⟩ := name_terminates owner
    (if List.elem key (records.map Prod.fst) then records
      else if create then records ++ [(key, .nil)] else records)
  rw [htext]
  exact hready.setName hfree

/-- The record under a key has a name. -/
def Named (key : Bytes) (records : Names) : Prop := ∃ text, (key, .str text) ∈ records

/-- A call that may create a record leaves one with a name. -/
theorem named_recordFor (hkey : Spawner.ownerKey owner = some key) :
    Named key (recordFor records owner true) := by
  unfold recordFor
  rw [hkey]
  dsimp only
  have hready : key ∈ (if List.elem key (records.map Prod.fst) = true then records
      else if true = true then records ++ [(key, LuaValue.nil)] else records).map Prod.fst := by
    split
    · rename_i hin
      exact List.elem_iff.mp hin
    · rw [if_pos rfl, List.map_append]
      exact List.mem_append_right _ List.mem_cons_self
  obtain ⟨text, htext, -, -⟩ := name_terminates owner
    (if List.elem key (records.map Prod.fst) = true then records
      else if true = true then records ++ [(key, LuaValue.nil)] else records)
  rw [htext]
  obtain ⟨⟨k, v⟩, he, hk⟩ := List.mem_map.mp hready
  obtain rfl : k = key := hk
  cases hv : v.str? with
  | none =>
    refine ⟨text, List.mem_map.mpr ⟨(k, v), he, if_pos ⟨rfl, hv⟩⟩⟩
  | some other =>
    refine ⟨other, List.mem_map.mpr ⟨(k, v), he, ?_⟩⟩
    have hnamed : ¬ (k = k ∧ v.str? = none) := by
      rw [hv]
      rintro ⟨-, hnone⟩
      cases hnone
    rw [if_neg hnamed, LuaValue.str?_eq_some.mp hv]

/-- A call gives no name away. -/
theorem Named.recordFor (h : Named key records) (owner : Bytes) (create : Bool) :
    Named key (recordFor records owner create) := by
  obtain ⟨text, hin⟩ := h
  unfold Identity.recordFor
  split
  · exact ⟨text, hin⟩
  refine ⟨text, List.mem_map.mpr ⟨(key, .str text), ?_, if_neg fun h => by cases h.2⟩⟩
  split
  · exact hin
  · split
    · exact List.mem_append_left _ hin
    · exact hin

/-- The records that have names are those of the registry. -/
def Tracks (s : Spawner.Registry) (records : Names) : Prop :=
  ∀ key, (s.records key).isSome = true ↔ key ∈ records.map Prod.fst

/-- **The two sides of `recordFor`** create the same records. -/
theorem Tracks.recordFor {s : Spawner.Registry} (h : Tracks s records) (owner : Bytes)
    (create : Bool) :
    Tracks (Spawner.recordFor owner create s).2 (recordFor records owner create) := by
  unfold Spawner.recordFor Identity.recordFor
  cases hkey : Spawner.ownerKey owner with
  | none => exact h
  | some key =>
    dsimp only
    -- Naming a record leaves the keys as they are.
    have hkeys : ∀ (l : Names) (v : LuaValue), (l.map fun e =>
        if e.1 = key ∧ e.2.str? = none then (key, v) else e).map Prod.fst = l.map Prod.fst := by
      intro l v
      rw [List.map_map]
      refine List.map_congr_left fun e _ => ?_
      rw [Function.comp_apply]
      split
      · rename_i hthis
        exact hthis.1.symm
      · rfl
    intro k
    rw [hkeys]
    cases hr : s.records key with
    | some r =>
      have hin : key ∈ records.map Prod.fst := (h key).mp (by rw [hr]; rfl)
      rw [if_pos (List.elem_iff.mpr hin), ← h k]
      by_cases hk : k = key
      · subst hk
        simp [Spawner.Registry.setRecord, hr]
      · simp [Spawner.Registry.setRecord, hk]
    | none =>
      have hnew : key ∉ records.map Prod.fst := by
        rw [← h key, hr]
        exact Bool.false_ne_true
      rw [if_neg fun hin => hnew (List.elem_iff.mp hin)]
      cases create with
      | false =>
        rw [if_neg Bool.false_ne_true, if_neg Bool.false_ne_true]
        exact h k
      | true =>
        rw [if_pos rfl, if_pos rfl, List.map_append, List.mem_append, ← h k]
        by_cases hk : k = key
        · subst hk
          simp [Spawner.Registry.setRecord]
        · simp [Spawner.Registry.setRecord, hk]

/-- Calls of `recordFor`, one after the other. -/
def step (records : Names) (call : Bytes × Bool) : Names := recordFor records call.1 call.2

/-- **Companions are called differently.** Where the records have distinct
names, they do after any calls of `recordFor`, which leave the record they
are for with a name; and the search for one ends whatever names are in use,
with one that is not. -/
theorem companion_names (records : Names) (calls : List (Bytes × Bool)) :
    (Distinct records → Distinct (Machine.run step records calls)) ∧
      (∀ owner key, (owner, true) ∈ calls → Spawner.ownerKey owner = some key →
        Named key (Machine.run step records calls)) ∧
      ∀ owner (inUse : Names), ∃ text, text ∉ used inUse ∧ ∀ rounds, inUse.length < rounds →
        nameWithin rounds owner inUse = some text := by
  have hstep : ∀ records call, Distinct records → Distinct (step records call) :=
    fun _ call hd => distinct_recordFor hd call.1 call.2
  refine ⟨fun h => Machine.invariant hstep h calls, ?_, ?_⟩
  · intro owner key hcall hkey
    obtain ⟨before, after, rfl⟩ := List.append_of_mem hcall
    rw [Machine.run_append, Machine.run_cons]
    have hnamed : ∀ records call, Named key records → Named key (step records call) :=
      fun _ call hn => hn.recordFor call.1 call.2
    exact Machine.invariant hnamed (named_recordFor hkey) after
  · intro owner inUse
    obtain ⟨text, -, hfree, hrounds⟩ := name_terminates owner inUse
    exact ⟨text, hfree, hrounds⟩

/-- Two players join. -/
def calls : List (Bytes × Bool) := [(Bytes.lit "Anna", true), (Bytes.lit "Bob", true)]

theorem companion_names_two : Distinct (Machine.run step [] calls) :=
  (companion_names [] calls).1 ⟨List.nodup_nil, List.nodup_nil⟩

end Identity

end GoblinZomboid
