import GoblinZomboid.Shared.Grammar
import GoblinZomboid.Shared.Tables
/-!
# What `encodeValue` writes

The JSON text of a value, and the values that are written: every table inside
is a dense array or an object, and every number is printed without an
exponent.
-/

namespace GoblinZomboid

namespace JSON

open JsonText (Blanks Piece Pieces Padded Doc)

/-! ## The text of a value -/

/-- A part without blanks. -/
def bare {α : Type} (a : α) : Padded α := ⟨.none, a, .none⟩

/-- The keys of an object in order. -/
def sortedKeys (keys : List LuaKey) : List Bytes := (keys.filterMap strOf).mergeSort fun a b => a ≤ b

/-- The text of a table, of the texts of its values. -/
def tableDoc (docs : List (LuaKey × Doc)) : Doc :=
  let docOf (key : LuaKey) : Padded Doc := bare ((lookup docs key).getD .null)
  if (docs.map Prod.fst).any fun key => (strOf key).isSome then
    .object ((sortedKeys (docs.map Prod.fst)).map fun s => (bare (piecesOf s), docOf (.str s)))
  else if docs.isEmpty then .emptyArray .none
  else .array ((List.range' 1 docs.length).map fun index => docOf (indexKey index))

mutual

/-- The JSON text of a value. -/
def Stored.doc : Stored → Doc
  | .nil => .null
  | .bool b => .bool b
  | .num (.finite q) minus => .number (Double.general minus q)
  | .num _ _ => .null
  | .str s => .string (piecesOf s)
  | .table entries => tableDoc (entryDocs entries)

def entryDocs : List (LuaKey × Stored) → List (LuaKey × Doc)
  | [] => []
  | (k, v) :: entries => (k, v.doc) :: entryDocs entries

end

mutual

/-- How many tables with values are inside each other. -/
def Stored.level : Stored → ℕ
  | .table entries => entriesLevel entries
  | .nil | .bool _ | .num _ _ | .str _ => 0

def entriesLevel : List (LuaKey × Stored) → ℕ
  | [] => 0
  | (_, v) :: entries => max (1 + v.level) (entriesLevel entries)

end

mutual

/-- The values inside a value, itself included. -/
def Stored.inside : Stored → List Stored
  | .table entries => .table entries :: entriesInside entries
  | v => [v]

def entriesInside : List (LuaKey × Stored) → List Stored
  | [] => []
  | (_, v) :: entries => v.inside ++ entriesInside entries

end

/-- The value by itself can be written. -/
def Stored.Writable : Stored → Prop
  | .num (.finite q) minus => (Double.general minus q).exponent = []
  | .num _ _ => False
  | .table entries => Dense (entries.map Prod.fst) ∨ StringKeyed (entries.map Prod.fst)
  | .nil | .bool _ | .str _ => True

/-- No key is twice in the value by itself. -/
def Stored.Keyed : Stored → Prop
  | .table entries => (entries.map Prod.fst).Nodup
  | .nil | .bool _ | .num _ _ | .str _ => True

theorem entryDocs_eq (entries : List (LuaKey × Stored)) :
    entryDocs entries = entries.map fun e => (e.1, e.2.doc) := by
  induction entries with
  | nil => rfl
  | cons e entries ih => rw [entryDocs, ih, List.map_cons]

theorem entryValues_eq (entries : List (LuaKey × Stored)) :
    entryValues entries = entries.map fun e => (e.1, e.2.value) := by
  induction entries with
  | nil => rfl
  | cons e entries ih => rw [entryValues, ih, List.map_cons]

theorem entryWriters_eq (limit : Limit) (entries : List (LuaKey × Stored)) :
    entryWriters limit entries = entries.map fun e => (e.1, encodeValue limit e.2) := by
  induction entries with
  | nil => rfl
  | cons e entries ih => rw [entryWriters, ih, List.map_cons]

theorem entriesInside_eq (entries : List (LuaKey × Stored)) :
    entriesInside entries = entries.flatMap fun e => e.2.inside := by
  induction entries with
  | nil => rfl
  | cons e entries ih => rw [entriesInside, ih, List.flatMap_cons]

theorem forall_inside_table {entries : List (LuaKey × Stored)} {p : Stored → Prop} :
    (∀ w ∈ (Stored.table entries).inside, p w) ↔
      p (.table entries) ∧ ∀ e ∈ entries, ∀ w ∈ e.2.inside, p w := by
  rw [Stored.inside, List.forall_mem_cons, entriesInside_eq]
  refine and_congr_right fun _ => ⟨fun h e he w hw => ?_, fun h w hw => ?_⟩
  · exact h w (List.mem_flatMap.2 ⟨e, he, hw⟩)
  · obtain ⟨e, he, hw⟩ := List.mem_flatMap.1 hw
    exact h e he w hw

theorem entriesLevel_le_iff {entries : List (LuaKey × Stored)} {n : ℕ} :
    entriesLevel entries ≤ n ↔ ∀ e ∈ entries, 1 + e.2.level ≤ n := by
  induction entries with
  | nil => exact iff_of_true (Nat.zero_le n) nofun
  | cons e entries ih => rw [entriesLevel, max_le_iff, ih, List.forall_mem_cons]

theorem level_table_le {entries : List (LuaKey × Stored)} {depth : ℕ} :
    depth + (Stored.table entries).level ≤ maxDepth ↔
      depth ≤ maxDepth ∧ ∀ e ∈ entries, depth + 1 + e.2.level ≤ maxDepth := by
  have hle := @entriesLevel_le_iff entries (maxDepth - depth)
  rw [Stored.level]
  constructor
  · intro h
    refine ⟨by omega, fun e he => ?_⟩
    have hlevel := hle.1 (by omega) e he
    omega
  · rintro ⟨hdepth, hall⟩
    have hlevel := hle.2 fun e he => by
      have := hall e he
      omega
    omega

/-- **Induction** over a stored value: what holds of the values of a table
holds of it. -/
theorem Stored.induction {P : Stored → Prop} (nil : P .nil) (bool : ∀ b, P (.bool b))
    (num : ∀ n minus, P (.num n minus)) (str : ∀ s, P (.str s))
    (table : ∀ entries, (∀ e ∈ entries, P e.2) → P (.table entries)) (v : Stored) : P v := by
  refine @Stored.rec P (fun entries => ∀ e ∈ entries, P e.2) (fun e => P e.2)
    nil bool num str table nofun ?_ (fun _ _ h => h) v
  intro head tail hhead htail
  exact List.forall_mem_cons.2 ⟨hhead, htail⟩

/-! ## The values of a table -/

theorem lookup_map {α β : Type} (entries : List (LuaKey × α)) (f : α → β) (key : LuaKey) :
    lookup (entries.map fun e => (e.1, f e.2)) key = (lookup entries key).map f := by
  unfold lookup
  rw [List.find?_map, Option.map_map, Option.map_map]
  rfl

theorem lookup_of_mem {α : Type} {entries : List (LuaKey × α)} {key : LuaKey}
    (h : key ∈ entries.map Prod.fst) :
    ∃ a, lookup entries key = some a ∧ (key, a) ∈ entries := by
  obtain ⟨e, he, hkey⟩ := List.mem_map.1 h
  have hsome : (entries.find? fun e => e.1 = key).isSome :=
    List.find?_isSome.2 ⟨e, he, decide_eq_true hkey⟩
  obtain ⟨e', he'⟩ := Option.isSome_iff_exists.1 hsome
  have hkey' : e'.1 = key := of_decide_eq_true (List.find?_some he' :)
  refine ⟨e'.2, by rw [lookup, he', Option.map_some], ?_⟩
  rw [← hkey']
  exact List.mem_of_find?_eq_some he'

/-- Under different keys, a table holds one value under each. -/
theorem field_eq {table : List (LuaKey × LuaValue)} (hnodup : (table.map Prod.fst).Nodup)
    {name : String} {w : LuaValue} (h : (.str (Bytes.lit name), w) ∈ table) :
    (LuaValue.table table).field name = w := by
  have hkey : .str (Bytes.lit name) ∈ table.map Prod.fst := List.mem_map_of_mem h
  obtain ⟨a, hlookup, hmem⟩ := lookup_of_mem hkey
  have hone : ((LuaKey.str (Bytes.lit name), a) : LuaKey × LuaValue) = (.str (Bytes.lit name), w) :=
    List.inj_on_of_nodup_map hnodup hmem h rfl
  have hsame : a = w := congrArg Prod.snd hone
  rw [← hsame]
  show (lookup table (.str (Bytes.lit name))).getD .nil = a
  rw [hlookup, Option.getD_some]

/-- The value under a key. -/
def childAt (entries : List (LuaKey × Stored)) (key : LuaKey) : Stored :=
  (lookup entries key).getD .nil

theorem lookup_eq_childAt {entries : List (LuaKey × Stored)} {key : LuaKey}
    (h : key ∈ entries.map Prod.fst) :
    lookup entries key = some (childAt entries key) ∧ (key, childAt entries key) ∈ entries := by
  obtain ⟨v, hv, hmem⟩ := lookup_of_mem h
  have hchild : childAt entries key = v := by rw [childAt, hv, Option.getD_some]
  rw [hchild]
  exact ⟨hv, hmem⟩

theorem doc_childAt (entries : List (LuaKey × Stored)) (key : LuaKey) :
    (lookup (entryDocs entries) key).getD .null = (childAt entries key).doc := by
  rw [entryDocs_eq, lookup_map, childAt]
  cases lookup entries key <;> rfl

/-- The keys of a table in any order give its values in that order. -/
theorem perm_entries {κ : Type} {ks : List κ} {key : κ → LuaKey}
    {entries : List (LuaKey × Stored)} (hnodup : (entries.map Prod.fst).Nodup)
    (hperm : (ks.map key).Perm (entries.map Prod.fst)) :
    (ks.map fun k => (key k, childAt entries (key k))).Perm entries := by
  have hkeys : ((ks.map fun k => (key k, childAt entries (key k))).map Prod.fst) = ks.map key := by
    rw [List.map_map]
    rfl
  have hleft : (ks.map fun k => (key k, childAt entries (key k))).Nodup := by
    refine List.Nodup.of_map Prod.fst ?_
    rw [hkeys]
    exact hperm.nodup_iff.2 hnodup
  refine (List.perm_ext_iff_of_nodup hleft (hnodup.of_map Prod.fst)).2 fun e => ?_
  have hchild (k : κ) (hk : k ∈ ks) : (key k, childAt entries (key k)) ∈ entries :=
    (lookup_eq_childAt (hperm.mem_iff.1 (List.mem_map_of_mem hk))).2
  constructor
  · intro he
    obtain ⟨k, hk, rfl⟩ := List.mem_map.1 he
    exact hchild k hk
  · intro he
    obtain ⟨k, hk, hkey⟩ := List.mem_map.1 (hperm.mem_iff.2 (List.mem_map_of_mem he))
    have hsame : (key k, childAt entries (key k)) = e :=
      List.inj_on_of_nodup_map hnodup (hchild k hk) he hkey
    rw [← hsame]
    exact List.mem_map_of_mem hk

/-- Parts with a comma before every part but the first. -/
theorem flatMap_comma {α : Type} {index : α → ℕ} {text : α → Bytes} {l : List α}
    (hfirst : ∀ a ∈ l.head?, index a = 1) (hrest : ∀ a ∈ l.tail, 1 < index a) :
    l.flatMap (fun a => (if 1 < index a then [44] else []) ++ text a) =
      ([44] : Bytes).intercalate (l.map text) := by
  rcases l with _ | ⟨a, l⟩
  · rfl
  rw [List.flatMap_cons, hfirst a rfl, if_neg (lt_irrefl 1), List.nil_append, List.map_cons]
  have hcommas : l.flatMap (fun a => (if 1 < index a then [44] else []) ++ text a) =
      l.flatMap fun a => 44 :: text a :=
    List.flatMap_congr fun b hb => by rw [if_pos (hrest b hb), List.singleton_append]
  rw [hcommas]
  clear hcommas hfirst hrest
  induction l generalizing a with
  | nil => rw [List.flatMap_nil, List.append_nil, List.map_nil, List.intercalate_singleton]
  | cons b l ih =>
    rw [List.flatMap_cons, List.map_cons, intercalate_cons (List.cons_ne_nil _ _), ← ih b,
      List.cons_append]

/-! ## Writing a table -/

variable {limit : Limit} {depth : ℕ}

/-- What is written between the brackets of an array, and they. -/
def writeArray (limit : Limit) (writers : List (LuaKey × Writer)) (depth count : ℕ) (state : State) :
    Option State :=
  ((addPart limit [91] state).bind fun state =>
    (List.range' 1 count).foldlM (writeItem limit writers depth) state).bind (addPart limit [93])

/-- What is written between the braces of an object, and they. -/
def writeObject (limit : Limit) (writers : List (LuaKey × Writer)) (depth : ℕ) (keys : List LuaKey)
    (state : State) : Option State :=
  ((addPart limit [123] state).bind fun state =>
    ((sortedKeys keys).zipIdx 1).foldlM (writeMember limit writers depth) state).bind
      (addPart limit [125])

/-- What the first loop finds in a table, and what is done on it. -/
theorem encodeTable_eq_some {writers : List (LuaKey × Writer)} {keys : List LuaKey}
    {state state' : State} (hkeys : writers.map Prod.fst = keys) (hnodes : state.nodes ≤ maxNodes) :
    encodeTable limit writers depth state = some state' ↔
      depth ≤ maxDepth ∧ (∀ key ∈ keys, Visited key) ∧ state.nodes + keys.length ≤ maxNodes ∧
        if (keys.any fun key => (strOf key).isSome) = true then
          (∀ key ∈ keys, isNumber key = false) ∧
            writeObject limit writers depth keys (state.add [] keys.length) = some state'
        else
          keys.foldl maxStep (some 0) = some keys.length ∧
            writeArray limit writers depth keys.length (state.add [] keys.length) = some state' := by
  have hadd : (state.add [] keys.length) = { state with nodes := state.nodes + keys.length } := by
    rw [State.add, List.append_nil]
  unfold encodeTable
  by_cases hdepth : maxDepth < depth
  · rw [if_pos hdepth]
    exact ⟨(fun h => by cases h), fun h => absurd h.1 (not_le.2 hdepth)⟩
  rw [if_neg hdepth, hkeys, hadd]
  rcases hfold : keys.foldlM visitKey ⟨0, some 0, true, [], state.nodes⟩ with _ | shape
  · refine ⟨(fun h => by cases h), ?_⟩
    rintro ⟨-, hvisited, hmax, -⟩
    rw [(foldlM_visitKey hnodes).2 ⟨hvisited, hmax, rfl⟩] at hfold
    cases hfold
  · obtain ⟨hvisited, hmax, rfl⟩ := (foldlM_visitKey hnodes).1 hfold
    dsimp only at hmax ⊢
    rw [Bool.true_and, Nat.zero_add, List.nil_append]
    refine Iff.trans ?_ (and_iff_right (not_lt.1 hdepth)).symm
    refine Iff.trans ?_ (and_iff_right hvisited).symm
    refine Iff.trans ?_ (and_iff_right hmax).symm
    by_cases hstring : (keys.any fun key => (strOf key).isSome) = true
    · rw [hstring, Bool.not_true, if_neg Bool.false_ne_true, if_pos rfl]
      show (if keys.any isNumber = true then none else writeObject limit writers depth keys
        { state with nodes := state.nodes + keys.length }) = _ ↔ _
      by_cases hmixed : keys.any isNumber = true
      · rw [if_pos hmixed]
        refine ⟨(fun h => by cases h), fun h => ?_⟩
        obtain ⟨key, hkey, hnum⟩ := List.any_eq_true.1 hmixed
        rw [h.1 key hkey] at hnum
        cases hnum
      · rw [if_neg hmixed]
        refine (and_iff_right ?_).symm
        simpa using hmixed
    · rw [Bool.not_eq_true] at hstring
      rw [hstring, Bool.not_false, if_pos rfl, if_neg Bool.false_ne_true]
      by_cases htop : keys.foldl maxStep (some 0) = some keys.length
      · rw [if_neg (not_not.2 htop)]
        exact (and_iff_right htop).symm
      · rw [if_pos htop]
        exact ⟨(fun h => by cases h), fun h => absurd h.1 htop⟩

theorem bare_text {α : Type} (text : α → Bytes) (a : α) : (bare a).text text = text a :=
  (List.nil_append _).trans (List.append_nil _)

/-- The keys of an object in order are its keys. -/
theorem map_sortedKeys_perm {keys : List LuaKey} (h : StringKeyed keys) :
    ((sortedKeys keys).map LuaKey.str).Perm keys := by
  have hback : (keys.filterMap strOf).map LuaKey.str = keys := by
    obtain ⟨-, hall⟩ := h
    induction keys with
    | nil => rfl
    | cons key keys ih =>
      obtain ⟨⟨s, rfl⟩, hrest⟩ := List.forall_mem_cons.1 hall
      show .str s :: (keys.filterMap strOf).map LuaKey.str = _
      rw [ih hrest]
  have hsort := (List.mergeSort_perm (keys.filterMap strOf) fun a b => a ≤ b).map LuaKey.str
  rwa [hback] at hsort

/-- The values of an array in order are its values. -/
theorem perm_array {entries : List (LuaKey × Stored)} (hnodup : (entries.map Prod.fst).Nodup)
    (hdense : Dense (entries.map Prod.fst)) :
    ((List.range' 1 entries.length).map fun index =>
      (indexKey index, childAt entries (indexKey index))).Perm entries := by
  have hkeys := hdense.symm
  rw [List.length_map] at hkeys
  exact perm_entries hnodup hkeys

/-- The values of an object in the order of its keys are its values. -/
theorem perm_object {entries : List (LuaKey × Stored)} (hnodup : (entries.map Prod.fst).Nodup)
    (hkeyed : StringKeyed (entries.map Prod.fst)) :
    ((sortedKeys (entries.map Prod.fst)).map fun s =>
      (LuaKey.str s, childAt entries (.str s))).Perm entries :=
  perm_entries hnodup (map_sortedKeys_perm hkeyed)

section children

variable {κ : Type} {ks : List κ} {key : κ → LuaKey} {entries : List (LuaKey × Stored)}

theorem forall_childAt (hperm : (ks.map fun k => (key k, childAt entries (key k))).Perm entries)
    {p : Stored → Prop} :
    (∀ k ∈ ks, p (childAt entries (key k))) ↔ ∀ e ∈ entries, p e.2 := by
  constructor
  · intro h e he
    obtain ⟨k, hk, rfl⟩ := List.mem_map.1 (hperm.mem_iff.2 he)
    exact h k hk
  · intro h k hk
    exact h _ (hperm.mem_iff.1 (List.mem_map_of_mem hk))

theorem sum_childAt (hperm : (ks.map fun k => (key k, childAt entries (key k))).Perm entries)
    (f : Stored → ℕ) :
    (ks.map fun k => f (childAt entries (key k))).sum = (entries.map fun e => f e.2).sum := by
  have h := (hperm.map fun e => f e.2).sum_eq
  rw [List.map_map] at h
  exact h

end children

/-! ## The text of a table -/

section text

variable {entries : List (LuaKey × Stored)}

theorem map_fst_entryDocs : (entryDocs entries).map Prod.fst = entries.map Prod.fst := by
  rw [entryDocs_eq, List.map_map]
  rfl

theorem map_fst_entryWriters (limit : Limit) :
    (entryWriters limit entries).map Prod.fst = entries.map Prod.fst := by
  rw [entryWriters_eq, List.map_map]
  rfl

theorem tableDoc_object (h : ((entries.map Prod.fst).any fun key => (strOf key).isSome) = true) :
    tableDoc (entryDocs entries) = .object ((sortedKeys (entries.map Prod.fst)).map fun s =>
      (bare (piecesOf s), bare (childAt entries (.str s)).doc)) := by
  have hdocs : (fun s => (bare (piecesOf s),
      bare ((lookup (entryDocs entries) (.str s)).getD .null))) =
      fun s => (bare (piecesOf s), bare (childAt entries (.str s)).doc) :=
    funext fun s => by rw [doc_childAt]
  unfold tableDoc
  rw [map_fst_entryDocs, if_pos h, hdocs]

theorem tableDoc_array (h : ((entries.map Prod.fst).any fun key => (strOf key).isSome) = false) :
    tableDoc (entryDocs entries) = if entries = [] then .emptyArray .none
      else .array ((List.range' 1 entries.length).map fun index =>
        bare (childAt entries (indexKey index)).doc) := by
  have hdocs : (fun index => bare ((lookup (entryDocs entries) (indexKey index)).getD .null)) =
      fun index => bare (childAt entries (indexKey index)).doc :=
    funext fun index => by rw [doc_childAt]
  have hlength : (entryDocs entries).length = entries.length := by
    rw [entryDocs_eq, List.length_map]
  unfold tableDoc
  rw [map_fst_entryDocs, if_neg (by rw [h]; exact Bool.false_ne_true), hdocs, hlength]
  cases entries <;> rfl

theorem text_object {α : Type} (l : List α) (key : α → Bytes) (d : α → Doc) :
    (Doc.object (l.map fun a => (bare (piecesOf (key a)), bare (d a)))).text =
      123 :: (([44] : Bytes).intercalate (l.map fun a =>
        JsonText.quoted (piecesOf (key a)) ++ 58 :: (d a).text) ++ [125]) := by
  rw [Doc.text, JsonText.memberTexts_eq, List.map_map]
  have hparts : ((fun e : Padded Pieces × Padded Doc =>
      e.1.text JsonText.quoted ++ 58 :: e.2.text Doc.text) ∘
      fun a => (bare (piecesOf (key a)), bare (d a))) = fun a =>
        JsonText.quoted (piecesOf (key a)) ++ 58 :: (d a).text :=
    funext fun a => by rw [Function.comp_apply, bare_text, bare_text]
  rw [hparts]
  rfl

theorem text_array {α : Type} (l : List α) (d : α → Doc) :
    (Doc.array (l.map fun a => bare (d a))).text =
      91 :: (([44] : Bytes).intercalate (l.map fun a => (d a).text) ++ [93]) := by
  rw [Doc.text, JsonText.itemTexts_eq, List.map_map]
  have hparts : (fun p : Padded Doc => p.text Doc.text) ∘ (fun a => bare (d a)) =
      fun a => (d a).text :=
    funext fun a => by rw [Function.comp_apply, bare_text]
  rw [hparts]
  rfl

theorem sum_nodes : entries.length + (entries.map fun e => e.2.doc.nodes - 1).sum =
    (entries.map fun e => e.2.doc.nodes).sum := by
  induction entries with
  | nil => rfl
  | cons e entries ih =>
    have hpos := e.2.doc.nodes_pos
    rw [List.length_cons, List.map_cons, List.map_cons, List.sum_cons, List.sum_cons, ← ih]
    omega

end text

/-- A table counts its keys and writes its values. -/
theorem writes_encodeTable {P Ok : Prop} {body : State → Option State} {text : Bytes}
    {count n : ℕ} {writers : List (LuaKey × Writer)}
    (hiff : ∀ state state' : State, state.nodes ≤ maxNodes →
      (encodeTable limit writers depth state = some state' ↔ depth ≤ maxDepth ∧ P ∧
        state.nodes + n ≤ maxNodes ∧ body (state.add [] n) = some state'))
    (hbody : P → Writes limit body Ok text count) :
    Writes limit (encodeTable limit writers depth) (depth ≤ maxDepth ∧ P ∧ Ok) text (n + count) := by
  intro state state' hwithin
  have hadd : (state.add [] n).add text count = state.add text (n + count) := by
    rw [State.add_add, List.nil_append]
  rw [hiff state state' hwithin.2, ← hadd]
  constructor
  · rintro ⟨hdepth, hP, hmax, hwrite⟩
    have hcounted : Within limit (state.add [] n) := by
      refine ⟨?_, hmax⟩
      rw [State.add, List.append_nil]
      exact hwithin.1
    obtain ⟨hok, hfits, rfl⟩ := (hbody hP _ state' hcounted).1 hwrite
    exact ⟨⟨hdepth, hP, hok⟩, hfits, rfl⟩
  · rintro ⟨⟨hdepth, hP, hok⟩, hfits, rfl⟩
    have hcounted := within_of_add hfits
    exact ⟨hdepth, hP, hcounted.2, (hbody hP _ _ hcounted).2 ⟨hok, hfits, rfl⟩⟩

theorem any_string_of_dense {keys : List LuaKey} (hnodup : keys.Nodup) (h : Dense keys) :
    (keys.any fun key => (strOf key).isSome) = false := ((dense_iff hnodup).2 h).2.1

theorem stringKeyed_iff {keys : List LuaKey}
    (hstring : (keys.any fun key => (strOf key).isSome) = true) :
    (∀ key ∈ keys, Visited key) ∧ (∀ key ∈ keys, isNumber key = false) ↔ StringKeyed keys := by
  constructor
  · rintro ⟨hvisited, hnumber⟩
    refine ⟨?_, fun key hkey => ?_⟩
    · rintro rfl
      cases hstring
    · rcases hvisited key hkey with hstr | ⟨n, index, rfl, -⟩
      · exact hstr
      · exact nomatch hnumber _ hkey
  · rintro ⟨-, hall⟩
    refine ⟨fun key hkey => .inl (hall key hkey), fun key hkey => ?_⟩
    obtain ⟨s, rfl⟩ := hall key hkey
    rfl

theorem any_string_of_stringKeyed {keys : List LuaKey} (h : StringKeyed keys) :
    (keys.any fun key => (strOf key).isSome) = true := by
  obtain ⟨hne, hall⟩ := h
  obtain ⟨key, hkey⟩ := List.exists_mem_of_ne_nil keys hne
  obtain ⟨s, rfl⟩ := hall key hkey
  exact List.any_eq_true.2 ⟨_, hkey, rfl⟩

section values

variable {entries : List (LuaKey × Stored)}

/-- The value is written from every depth that leaves it room. -/
def Written (limit : Limit) (v : Stored) : Prop :=
  ∀ depth, Writes limit (encodeValue limit v depth)
    (depth + v.level ≤ maxDepth ∧ ∀ w ∈ v.inside, w.Writable) v.doc.text (v.doc.nodes - 1)

theorem lookup_entryWriters {key : LuaKey} (h : key ∈ entries.map Prod.fst) :
    lookup (entryWriters limit entries) key = some (encodeValue limit (childAt entries key)) := by
  rw [entryWriters_eq, lookup_map, (lookup_eq_childAt h).1, Option.map_some]

/-- A round of the loop over an array. -/
theorem writes_item {index : ℕ} (hmem : indexKey index ∈ entries.map Prod.fst) {Ok : Prop}
    {text : Bytes} {count : ℕ}
    (h : Writes limit (encodeValue limit (childAt entries (indexKey index)) (depth + 1)) Ok text
      count) :
    Writes limit (fun state => writeItem limit (entryWriters limit entries) depth state index) Ok
      ((if 1 < index then [44] else []) ++ text) count := by
  have hlookup : lookup (entryWriters limit entries) (.num (.finite index)) =
      some (encodeValue limit (childAt entries (indexKey index))) := lookup_entryWriters hmem
  unfold writeItem
  rw [hlookup]
  exact ((Writes.comma index).bind h).congr (and_iff_right trivial) rfl (Nat.zero_add _)

/-- A round of the loop over the keys of an object. -/
theorem writes_member {s : Bytes} {index : ℕ} (hmem : .str s ∈ entries.map Prod.fst) {Ok : Prop}
    {text : Bytes} {count : ℕ}
    (h : Writes limit (encodeValue limit (childAt entries (.str s)) (depth + 1)) Ok text count) :
    Writes limit
      (fun state => writeMember limit (entryWriters limit entries) depth state (s, index)) Ok
      ((if 1 < index then [44] else []) ++ (JsonText.quoted (piecesOf s) ++ 58 :: text)) count := by
  have hlookup : lookup (entryWriters limit entries) (.str s) =
      some (encodeValue limit (childAt entries (.str s))) := lookup_entryWriters hmem
  unfold writeMember
  rw [hlookup]
  refine ((((Writes.comma index).bind (writes_escapeString s)).bind (Writes.part [58])).bind h).congr
    (by simp only [true_and]) ?_ (by omega)
  rw [List.append_assoc, List.append_assoc, List.singleton_append]

variable (hnodup : (entries.map Prod.fst).Nodup) (hwritten : ∀ e ∈ entries, Written limit e.2)

include hnodup hwritten

theorem writes_writeArray (hdense : Dense (entries.map Prod.fst)) :
    Writes limit (writeArray limit (entryWriters limit entries) depth entries.length)
      (∀ e ∈ entries, depth + 1 + e.2.level ≤ maxDepth ∧ ∀ w ∈ e.2.inside, w.Writable)
      (91 :: (([44] : Bytes).intercalate ((List.range' 1 entries.length).map fun index =>
        (childAt entries (indexKey index)).doc.text) ++ [93]))
      (entries.map fun e => e.2.doc.nodes - 1).sum := by
  have hperm := perm_array hnodup hdense
  have hitem (index : ℕ) (hindex : index ∈ List.range' 1 entries.length) :
      Writes limit (fun state => writeItem limit (entryWriters limit entries) depth state index)
        (depth + 1 + (childAt entries (indexKey index)).level ≤ maxDepth ∧
          ∀ w ∈ (childAt entries (indexKey index)).inside, w.Writable)
        ((if 1 < index then [44] else []) ++ (childAt entries (indexKey index)).doc.text)
        ((childAt entries (indexKey index)).doc.nodes - 1) := by
    have hchild := hperm.mem_iff.1 (List.mem_map_of_mem hindex)
    exact writes_item (List.mem_map_of_mem hchild) (hwritten _ hchild (depth + 1))
  have hcomma : (List.range' 1 entries.length).flatMap (fun index =>
      (if 1 < index then [44] else []) ++ (childAt entries (indexKey index)).doc.text) =
      ([44] : Bytes).intercalate ((List.range' 1 entries.length).map fun index =>
        (childAt entries (indexKey index)).doc.text) := by
    refine flatMap_comma (fun index hindex => ?_) fun index hindex => ?_
    · rw [List.head?_range'] at hindex
      split at hindex
      · cases hindex
      · exact (Option.some_inj.1 hindex).symm
    · rw [List.tail_range'] at hindex
      have hlow := (List.mem_range'_1.1 hindex).1
      omega
  refine (((Writes.part [91]).bind (Writes.fold hitem)).bind (Writes.part [93])).congr ?_ ?_ ?_
  · rw [true_and, and_true]
    exact forall_childAt hperm
      (p := fun v => depth + 1 + v.level ≤ maxDepth ∧ ∀ w ∈ v.inside, w.Writable)
  · rw [hcomma, List.append_assoc, List.singleton_append]
  · rw [Nat.zero_add, Nat.add_zero]
    exact sum_childAt hperm fun v => v.doc.nodes - 1

theorem writes_writeObject (hkeyed : StringKeyed (entries.map Prod.fst)) :
    Writes limit (writeObject limit (entryWriters limit entries) depth (entries.map Prod.fst))
      (∀ e ∈ entries, depth + 1 + e.2.level ≤ maxDepth ∧ ∀ w ∈ e.2.inside, w.Writable)
      (123 :: (([44] : Bytes).intercalate ((sortedKeys (entries.map Prod.fst)).map fun s =>
        JsonText.quoted (piecesOf s) ++ 58 :: (childAt entries (.str s)).doc.text) ++ [125]))
      (entries.map fun e => e.2.doc.nodes - 1).sum := by
  have hnumbered {α : Type} (f : Bytes → α) : ((sortedKeys (entries.map Prod.fst)).zipIdx 1).map
      (fun e => f e.1) = (sortedKeys (entries.map Prod.fst)).map f := by
    conv_rhs => rw [← List.zipIdx_map_fst 1 (sortedKeys (entries.map Prod.fst)), List.map_map]
    rfl
  have hperm : (((sortedKeys (entries.map Prod.fst)).zipIdx 1).map fun e =>
      (LuaKey.str e.1, childAt entries (.str e.1))).Perm entries := by
    rw [hnumbered fun s => (LuaKey.str s, childAt entries (.str s))]
    exact perm_object hnodup hkeyed
  have hmember (e : Bytes × ℕ) (he : e ∈ (sortedKeys (entries.map Prod.fst)).zipIdx 1) :
      Writes limit (fun state => writeMember limit (entryWriters limit entries) depth state e)
        (depth + 1 + (childAt entries (.str e.1)).level ≤ maxDepth ∧
          ∀ w ∈ (childAt entries (.str e.1)).inside, w.Writable)
        ((if 1 < e.2 then [44] else []) ++
          (JsonText.quoted (piecesOf e.1) ++ 58 :: (childAt entries (.str e.1)).doc.text))
        ((childAt entries (.str e.1)).doc.nodes - 1) := by
    have hchild := hperm.mem_iff.1 (List.mem_map_of_mem he)
    exact writes_member (List.mem_map_of_mem hchild) (hwritten _ hchild (depth + 1))
  have hcomma : ((sortedKeys (entries.map Prod.fst)).zipIdx 1).flatMap (fun e =>
      (if 1 < e.2 then [44] else []) ++
        (JsonText.quoted (piecesOf e.1) ++ 58 :: (childAt entries (.str e.1)).doc.text)) =
      ([44] : Bytes).intercalate ((sortedKeys (entries.map Prod.fst)).map fun s =>
        JsonText.quoted (piecesOf s) ++ 58 :: (childAt entries (.str s)).doc.text) := by
    rw [← hnumbered]
    generalize sortedKeys (entries.map Prod.fst) = l
    refine flatMap_comma (fun e he => ?_) fun e he => ?_
    · cases l with
      | nil => cases he
      | cons s l => rw [← Option.some_inj.1 he]
    · cases l with
      | nil => cases he
      | cons s l =>
        have hlow := List.le_snd_of_mem_zipIdx he
        omega
  refine (((Writes.part [123]).bind (Writes.fold hmember)).bind (Writes.part [125])).congr ?_ ?_ ?_
  · rw [true_and, and_true]
    exact forall_childAt hperm
      (p := fun v => depth + 1 + v.level ≤ maxDepth ∧ ∀ w ∈ v.inside, w.Writable)
  · rw [hcomma, List.append_assoc, List.singleton_append]
  · rw [Nat.zero_add, Nat.add_zero]
    exact sum_childAt hperm fun v => v.doc.nodes - 1

/-- **A table is written** as its keys say. -/
theorem writes_table : Writes limit (encodeTable limit (entryWriters limit entries) depth)
    (depth ≤ maxDepth ∧ (Dense (entries.map Prod.fst) ∨ StringKeyed (entries.map Prod.fst)) ∧
      ∀ e ∈ entries, depth + 1 + e.2.level ≤ maxDepth ∧ ∀ w ∈ e.2.inside, w.Writable)
    (tableDoc (entryDocs entries)).text ((tableDoc (entryDocs entries)).nodes - 1) := by
  have hlength : (entries.map Prod.fst).length = entries.length := List.length_map _
  rcases hstring : (entries.map Prod.fst).any fun key => (strOf key).isSome with _ | _
  · have hdense := dense_iff hnodup
    rw [hstring, hlength] at hdense
    have honly : Dense (entries.map Prod.fst) ∨ StringKeyed (entries.map Prod.fst) →
        Dense (entries.map Prod.fst) := by
      rintro (h | h)
      · exact h
      · rw [any_string_of_stringKeyed h] at hstring
        cases hstring
    refine (writes_encodeTable (n := entries.length) (fun state state' hnodes => ?_)
      (@writes_writeArray limit depth entries hnodup hwritten)).congr_of_ok ?_ ?_ ?_
    · rw [encodeTable_eq_some (map_fst_entryWriters limit) hnodes, hstring,
        if_neg Bool.false_ne_true, hlength, ← hdense]
      constructor
      · rintro ⟨hdepth, hvisited, hmax, htop, hwrite⟩
        exact ⟨hdepth, ⟨hvisited, rfl, htop⟩, hmax, hwrite⟩
      · rintro ⟨hdepth, ⟨hvisited, -, htop⟩, hmax, hwrite⟩
        exact ⟨hdepth, hvisited, hmax, htop, hwrite⟩
    · exact and_congr_right fun _ => and_congr_left fun _ => ⟨.inl, honly⟩
    · intro _
      rw [tableDoc_array hstring]
      split
      · rename_i hnil
        subst hnil
        rfl
      · rw [text_array]
    · rintro ⟨-, hkeys, -⟩
      rw [sum_nodes, tableDoc_array hstring]
      split
      · rename_i hnil
        subst hnil
        rfl
      · rw [Doc.nodes, JsonText.itemNodes_eq, List.map_map, Nat.add_sub_cancel_left]
        exact (sum_childAt (perm_array hnodup (honly hkeys)) fun v => v.doc.nodes).symm
  · have honly : Dense (entries.map Prod.fst) ∨ StringKeyed (entries.map Prod.fst) →
        StringKeyed (entries.map Prod.fst) := by
      rintro (h | h)
      · rw [any_string_of_dense hnodup h] at hstring
        cases hstring
      · exact h
    refine (writes_encodeTable (n := entries.length) (fun state state' hnodes => ?_)
      (@writes_writeObject limit depth entries hnodup hwritten)).congr_of_ok ?_ ?_ ?_
    · rw [encodeTable_eq_some (map_fst_entryWriters limit) hnodes, hstring, if_pos rfl, hlength,
        ← stringKeyed_iff hstring]
      constructor
      · rintro ⟨hdepth, hvisited, hmax, hnumber, hwrite⟩
        exact ⟨hdepth, ⟨hvisited, hnumber⟩, hmax, hwrite⟩
      · rintro ⟨hdepth, ⟨hvisited, hnumber⟩, hmax, hwrite⟩
        exact ⟨hdepth, hvisited, hmax, hnumber, hwrite⟩
    · exact and_congr_right fun _ => and_congr_left fun _ => ⟨.inr, honly⟩
    · intro _
      rw [tableDoc_object hstring, text_object]
    · rintro ⟨-, hkeys, -⟩
      rw [sum_nodes, tableDoc_object hstring, Doc.nodes, JsonText.memberNodes_eq, List.map_map,
        Nat.add_sub_cancel_left]
      exact (sum_childAt (perm_object hnodup (honly hkeys)) fun v => v.doc.nodes).symm

end values

/-! ## Writing a value -/

theorem level_zero_iff {Ok : Prop} : (¬maxDepth < depth ∧ Ok) ↔ depth + 0 ≤ maxDepth ∧ Ok := by
  rw [Nat.add_zero, not_lt]

/-- **A value is written** exactly with tables that are arrays or objects,
numbers without exponents, and room. -/
theorem written {v : Stored} (h : ∀ w ∈ v.inside, w.Keyed) : Written limit v := by
  induction v using Stored.induction with
  | nil =>
    intro depth
    refine (Writes.guard _ (Writes.part (Bytes.lit "null"))).congr ?_ rfl rfl
    rw [level_zero_iff, Stored.inside, List.forall_mem_singleton]
    · exact Iff.rfl
    · exact nofun
  | bool b =>
    intro depth
    refine (Writes.guard _ (Writes.part (if b then Bytes.lit "true" else Bytes.lit "false"))).congr
      ?_ ?_ rfl
    · rw [level_zero_iff, Stored.inside, List.forall_mem_singleton]
      · exact Iff.rfl
      · exact nofun
    · cases b <;> rfl
  | num n minus =>
    intro depth
    cases n with
    | finite q =>
      have hprint : Writes limit (fun state =>
          if numberText (Utf8.encode (Double.general minus q).text) then
            addPart limit (Utf8.encode (Double.general minus q).text) state else none)
          ((Double.general minus q).exponent = []) (Utf8.encode (Double.general minus q).text) 0 := by
        rcases htext : numberText (Utf8.encode (Double.general minus q).text) with _ | _
        · refine (Writes.fail _ 0).congr (iff_of_false not_false ?_) rfl rfl
          rw [← numberText_general, htext]
          exact Bool.false_ne_true
        · exact (Writes.part _).congr
            (iff_of_true trivial ((numberText_general minus q).1 htext)) rfl rfl
      refine (Writes.guard _ hprint).congr ?_ rfl rfl
      rw [level_zero_iff, Stored.inside, List.forall_mem_singleton]
      · exact Iff.rfl
      · exact nofun
    | huge negative =>
      refine (Writes.fail _ _).congr (iff_of_false not_false ?_) rfl rfl
      exact fun h => h.2 _ List.mem_cons_self
    | nan =>
      refine (Writes.fail _ _).congr (iff_of_false not_false ?_) rfl rfl
      exact fun h => h.2 _ List.mem_cons_self
  | str s =>
    intro depth
    refine (Writes.guard _ (writes_escapeString s)).congr ?_ rfl rfl
    rw [level_zero_iff, Stored.inside, List.forall_mem_singleton]
    · exact Iff.rfl
    · exact nofun
  | table entries ih =>
    intro depth
    obtain ⟨hnodup, hinside⟩ := forall_inside_table.1 h
    have hwritten (e : LuaKey × Stored) (he : e ∈ entries) : Written limit e.2 :=
      ih e he (hinside e he)
    refine (Writes.guard _ (writes_table hnodup hwritten)).congr ?_ rfl rfl
    rw [level_table_le, forall_inside_table]
    constructor
    · rintro ⟨-, hdepth, hkeys, hall⟩
      exact ⟨⟨hdepth, fun e he => (hall e he).1⟩, hkeys, fun e he => (hall e he).2⟩
    · rintro ⟨⟨hdepth, hlevel⟩, hkeys, hall⟩
      exact ⟨not_lt.2 hdepth, hdepth, hkeys, fun e he => ⟨hlevel e he, hall e he⟩⟩

/-- **What `JSON.encode` returns**, and when it returns something. -/
theorem encode_eq_some {v : Stored} (h : ∀ w ∈ v.inside, w.Keyed) {maxBytes : LuaValue}
    {text : Bytes} : encode v maxBytes = some text ↔
      (v.level ≤ maxDepth ∧ ∀ w ∈ v.inside, w.Writable) ∧ v.doc.nodes ≤ maxNodes ∧
        overLimit (limitOf maxBytes) v.doc.text.length = false ∧ text = v.doc.text := by
  have hpos := v.doc.nodes_pos
  have hempty : Within (limitOf maxBytes) ⟨[], 1⟩ := by
    refine ⟨?_, by decide⟩
    rw [overLimit, Option.any_eq_false]
    exact fun n _ => by simp
  have hadd : (⟨[], 1⟩ : State).add v.doc.text (v.doc.nodes - 1) = ⟨v.doc.text, v.doc.nodes⟩ := by
    rw [State.add, List.nil_append, Nat.add_sub_cancel' hpos]
  have hspec (state : State) := @written (limitOf maxBytes) v h 0 ⟨[], 1⟩ state hempty
  simp only [hadd, Nat.zero_add] at hspec
  unfold encode
  constructor
  · intro hencode
    split at hencode
    · rename_i state hwrite
      obtain ⟨hok, ⟨hbytes, hnodes⟩, rfl⟩ := (hspec state).1 hwrite
      dsimp only at hencode hbytes hnodes
      rw [hbytes, if_neg Bool.false_ne_true] at hencode
      exact ⟨hok, hnodes, hbytes, (Option.some_inj.1 hencode).symm⟩
    · cases hencode
  · rintro ⟨hok, hnodes, hbytes, rfl⟩
    rw [(hspec _).2 ⟨hok, ⟨hbytes, hnodes⟩, rfl⟩]
    dsimp only
    rw [hbytes, if_neg Bool.false_ne_true]

end JSON

end GoblinZomboid
