import GoblinZomboid.Shared.Encoding
/-!
# `JSON.lua`: encode, then decode

Of a value that Lua can store: when `JSON.encode` returns a text, and what
`JSON.decode` makes of that text.
-/

namespace GoblinZomboid

namespace JSON

open JsonText (Blanks Piece Pieces Padded Doc)

/-! ## Values -/

/-- What Lua can store, of the value by itself: a finite number is a double,
and a table has a value under every key and no key twice. -/
def Stored.Proper : Stored → Prop
  | .num (.finite q) _ => Double.IsDouble q
  | .table entries => (entries.map Prod.fst).Nodup ∧ ∀ e ∈ entries, e.2 ≠ .nil
  | .nil | .bool _ | .num _ _ | .str _ => True

/-- A value that Lua can store. -/
structure LuaData where
  stored : Stored
  proper : ∀ w ∈ stored.inside, w.Proper

/-- The same value: equal, or tables with the same keys and the same values
under them. -/
inductive Same : LuaValue → LuaValue → Prop
  | refl (v : LuaValue) : Same v v
  | table {a b : List (LuaKey × LuaValue)} (keys : (a.map Prod.fst).Perm (b.map Prod.fst))
      (values : ∀ key v w, (key, v) ∈ a → (key, w) ∈ b → Same v w) : Same (.table a) (.table b)

theorem Stored.Proper.keyed {w : Stored} (h : w.Proper) : w.Keyed := by
  cases w with
  | table entries => exact h.1
  | _ => trivial

theorem LuaData.keyed (v : LuaData) : ∀ w ∈ v.stored.inside, w.Keyed :=
  fun w hw => (v.proper w hw).keyed

theorem exponent_eq_nil_iff {minus : Bool} {q : ℚ} (hq : Double.IsDouble q) :
    (Double.general minus q).exponent = [] ↔ q = 0 ∨ (1 / 10 ^ 4 ≤ |q| ∧ |q| < 10 ^ 17) := by
  rw [← Double.fixed_iff hq]
  show Double.exponentPart (Double.scientific |q|).2 = [] ↔ _
  rw [Double.exponentPart]
  split
  · rename_i hfixed
    exact iff_of_true rfl hfixed
  · rename_i hfixed
    exact iff_of_false (List.cons_ne_nil _ _) hfixed

/-! ## What is returned -/

/-- The value by itself is a string, a boolean, a finite number, or a table
that is a dense array or keyed by strings. -/
def Stored.Made : Stored → Prop
  | .num n _ => ∃ q, n = .finite q
  | .table entries => Dense (entries.map Prod.fst) ∨ StringKeyed (entries.map Prod.fst)
  | .bool _ | .str _ => True
  | .nil => False

/-- The value is made of what JSON has, and it keeps the bounds. -/
structure Encodable (maxBytes : LuaValue) (v : Stored) : Prop where
  made : ∀ w ∈ v.inside, w.Made
  level : v.level ≤ maxDepth
  nodes : v.doc.nodes ≤ maxNodes
  bytes : overLimit (limitOf maxBytes) v.doc.text.length = false

/-- **When `JSON.encode` returns a text**: every number inside is zero, or its
magnitude is at least `0.0001` and below `1e17`. For any other number `%.17g`
prints the sign of an exponent, which the pattern refuses. -/
theorem encode_returns_iff (v : LuaData) (maxBytes : LuaValue) (h : Encodable maxBytes v.stored) :
    (∃ text, encode v.stored maxBytes = some text) ↔
      ∀ q minus, .num (.finite q) minus ∈ v.stored.inside →
        q = 0 ∨ (1 / 10 ^ 4 ≤ |q| ∧ |q| < 10 ^ 17) := by
  have hwritable : (∃ text, encode v.stored maxBytes = some text) ↔
      ∀ w ∈ v.stored.inside, w.Writable := by
    constructor
    · rintro ⟨text, htext⟩
      exact ((encode_eq_some v.keyed).1 htext).1.2
    · intro hall
      exact ⟨_, (encode_eq_some v.keyed).2 ⟨⟨h.level, hall⟩, h.nodes, h.bytes, rfl⟩⟩
  rw [hwritable]
  constructor
  · intro hall q minus hmem
    exact (exponent_eq_nil_iff (v.proper _ hmem)).1 (hall _ hmem)
  · intro hall w hw
    have hmade := h.made w hw
    cases w with
    | num n minus =>
      obtain ⟨q, rfl⟩ := hmade
      exact (exponent_eq_nil_iff (v.proper _ hw)).2 (hall q minus hw)
    | table entries => exact hmade
    | _ => trivial

/-- A report with one coordinate. -/
def report (q : ℚ) : Stored := .table [(.str (Bytes.lit "x"), .num (.finite q) false)]

theorem encodable_report {q : ℚ} (hnodes : (report q).doc.nodes ≤ maxNodes)
    (hbytes : overLimit (limitOf .nil) (report q).doc.text.length = false) :
    Encodable .nil (report q) := by
  refine ⟨?_, ?_, hnodes, hbytes⟩
  · rw [report, forall_inside_table]
    refine ⟨.inr ⟨List.cons_ne_nil _ _, ?_⟩, ?_⟩
    · intro key hkey
      exact ⟨_, List.mem_singleton.1 hkey⟩
    · intro e he w hw
      obtain rfl := List.mem_singleton.1 he
      obtain rfl := List.mem_singleton.1 hw
      exact ⟨q, rfl⟩
  · show (1 : ℕ) ≤ maxDepth
    decide

def reportData (q : ℚ) (hq : Double.IsDouble q) : LuaData where
  stored := report q
  proper := by
    rw [report, forall_inside_table]
    refine ⟨⟨List.nodup_singleton _, ?_⟩, ?_⟩
    · intro e he
      obtain rfl := List.mem_singleton.1 he
      exact nofun
    · intro e he w hw
      obtain rfl := List.mem_singleton.1 he
      obtain rfl := List.mem_singleton.1 hw
      exact hq

theorem isDouble_half : Double.IsDouble (1 / 2) := by
  unfold Double.IsDouble
  decide +kernel

/-- A report of half a square is returned. -/
theorem encode_returns_half :
    ∃ text, encode (reportData (1 / 2) isDouble_half).stored .nil = some text := by
  refine (encode_returns_iff (reportData (1 / 2) isDouble_half) .nil
    (encodable_report (by decide +kernel) (by decide +kernel))).2 fun q minus hmem => .inr ?_
  have hq : q = 1 / 2 := by
    rcases List.mem_cons.1 hmem with h | h
    · cases h
    · have hone := List.mem_singleton.1 h
      injection hone with hnum
      exact LuaNum.finite.inj hnum
  subst hq
  norm_num [abs_of_pos]

theorem isDouble_small : Double.IsDouble (1 / 131072) := by
  unfold Double.IsDouble
  decide +kernel

/-- **One small coordinate** is enough: no text is returned. -/
theorem encode_small : ¬ ∀ (v : LuaData) (maxBytes : LuaValue), Encodable maxBytes v.stored →
    ∃ text, encode v.stored maxBytes = some text := by
  intro h
  obtain ⟨text, htext⟩ := h (reportData (1 / 131072) isDouble_small) .nil
    (encodable_report (by decide +kernel) (by decide +kernel))
  have hwritable := ((encode_eq_some (LuaData.keyed _)).1 htext).1.2
  have hprinted : (Double.general false (1 / 131072)).exponent = [] :=
    hwritable (.num (.finite (1 / 131072)) false) (List.mem_cons_of_mem _ List.mem_cons_self)
  exact absurd hprinted (by decide +kernel)

/-! ## What is read back -/

/-- What is printed of a double without an exponent is that double. -/
theorem number_general {minus : Bool} {q : ℚ} (hq : Double.IsDouble q)
    (hprinted : (Double.general minus q).exponent = []) :
    JsonText.number (Double.general minus q) = .finite q := by
  refine Double.ofRat_general hq ?_
  by_contra hfixed
  have hpart : Double.exponentPart (Double.scientific |q|).2 = [] := hprinted
  rw [Double.exponentPart, if_neg hfixed] at hpart
  cases hpart

theorem value_doc_ne_nil {v : Stored} (hne : v ≠ .nil) (hwritable : v.Writable) :
    v.doc.value ≠ .nil := by
  cases v with
  | nil => exact absurd rfl hne
  | bool b => exact nofun
  | num n minus =>
    cases n with
    | finite q => exact nofun
    | huge negative => exact hwritable.elim
    | nan => exact hwritable.elim
  | str s => exact nofun
  | table entries =>
    rw [Stored.doc, tableDoc]
    split
    · exact nofun
    · split <;> exact nofun

/-- A table of the values that are read back under the keys, in some order. -/
theorem same_table {κ : Type} {ks : List κ} {key : κ → LuaKey} {entries : List (LuaKey × Stored)}
    (hnodup : (entries.map Prod.fst).Nodup)
    (hperm : (ks.map fun k => (key k, childAt entries (key k))).Perm entries)
    (hsame : ∀ e ∈ entries, Same e.2.value e.2.doc.value) :
    Same (Stored.table entries).value
      (.table (ks.map fun k => (key k, (childAt entries (key k)).doc.value))) := by
  rw [Stored.value, entryValues_eq]
  have hkeys := hperm.map Prod.fst
  rw [List.map_map] at hkeys
  refine .table ?_ fun name v w hv hw => ?_
  · rw [List.map_map, List.map_map]
    exact hkeys.symm
  · obtain ⟨e, he, heq⟩ := List.mem_map.1 hv
    obtain ⟨k, hk, hkeq⟩ := List.mem_map.1 hw
    have hchild : (key k, childAt entries (key k)) ∈ entries :=
      hperm.mem_iff.1 (List.mem_map_of_mem hk)
    obtain ⟨rfl, rfl⟩ := Prod.mk.inj heq
    obtain ⟨hname, rfl⟩ := Prod.mk.inj hkeq
    have hone : (key k, childAt entries (key k)) = e :=
      List.inj_on_of_nodup_map hnodup hchild he hname
    have hvalue : childAt entries (key k) = e.2 := congrArg Prod.snd hone
    rw [hvalue]
    exact hsame e he

theorem zipIdx_range' (first count : ℕ) :
    (List.range' first count).zipIdx first =
      (List.range' first count).map fun index => (index, index) := by
  induction count generalizing first with
  | zero => rfl
  | succ count ih => rw [List.range'_succ, List.zipIdx_cons, ih, List.map_cons]

theorem value_array {α : Type} {l : List α} {d : α → Doc} (h : ∀ a ∈ l, (d a).value ≠ .nil) :
    (Doc.array (l.map fun a => bare (d a))).value =
      .table ((l.zipIdx 1).map fun e => (indexKey e.2, (d e.1).value)) := by
  have hvalues : JsonText.itemValues (l.map fun a => bare (d a)) = l.map fun a => (d a).value := by
    rw [JsonText.itemValues_eq, List.map_map]
    rfl
  rw [Doc.value, hvalues, JsonText.ofItems, List.zipIdx_map, List.filterMap_map]
  congr 1
  rw [← List.filterMap_eq_map]
  refine List.filterMap_congr fun e he => ?_
  have hmem : e.1 ∈ l := List.fst_mem_of_mem_zipIdx he
  have hne : ¬(d e.1).value.isNil = true := fun hnil => h e.1 hmem (LuaValue.isNil_iff.1 hnil)
  exact if_neg hne

theorem value_object {α : Type} {l : List α} {key : α → Bytes} {d : α → Doc}
    (h : ∀ a ∈ l, (d a).value ≠ .nil) :
    (Doc.object (l.map fun a => (bare (piecesOf (key a)), bare (d a)))).value =
      .table (l.map fun a => (.str (key a), (d a).value)) := by
  have hvalues : JsonText.memberValues (l.map fun a => (bare (piecesOf (key a)), bare (d a))) =
      l.map fun a => (key a, (d a).value) := by
    rw [JsonText.memberValues_eq, List.map_map]
    exact List.map_congr_left fun a _ => by rw [Function.comp_apply, bare, bytes_piecesOf]; rfl
  rw [Doc.value, hvalues, JsonText.ofMembers, List.filterMap_map]
  congr 1
  rw [← List.filterMap_eq_map]
  refine List.filterMap_congr fun a ha => ?_
  have hne : ¬(d a).value.isNil = true := fun hnil => h a ha (LuaValue.isNil_iff.1 hnil)
  exact if_neg hne

/-- What the text of a value says. -/
structure ReadsBack (v : Stored) : Prop where
  same : Same v.value v.doc.value
  valid : v.doc.Valid
  depth : v.doc.depth ≤ v.level + 1

theorem readsBack {v : Stored} (hproper : ∀ w ∈ v.inside, w.Proper)
    (hwritable : ∀ w ∈ v.inside, w.Writable) : ReadsBack v := by
  induction v using Stored.induction with
  | nil => exact ⟨.refl _, trivial, Nat.zero_le _⟩
  | bool b => exact ⟨.refl _, trivial, Nat.zero_le _⟩
  | num n minus =>
    have hprinted := hwritable _ List.mem_cons_self
    cases n with
    | finite q =>
      have hnumber := number_general (hproper _ List.mem_cons_self) hprinted
      refine ⟨?_, ⟨q, hnumber⟩, Nat.zero_le _⟩
      rw [Stored.value, Stored.doc, Doc.value, hnumber]
      exact .refl _
    | huge negative => exact hprinted.elim
    | nan => exact hprinted.elim
  | str s =>
    refine ⟨?_, trivial, Nat.zero_le _⟩
    rw [Stored.value, Stored.doc, Doc.value, bytes_piecesOf]
    exact .refl _
  | table entries ih =>
    obtain ⟨⟨hnodup, hnil⟩, hproper⟩ := forall_inside_table.1 hproper
    obtain ⟨hkeys, hwritable⟩ := forall_inside_table.1 hwritable
    have hback (e : LuaKey × Stored) (he : e ∈ entries) : ReadsBack e.2 :=
      ih e he (hproper e he) (hwritable e he)
    have hself (v : Stored) : v ∈ v.inside := by cases v <;> exact List.mem_cons_self
    have hvalue (e : LuaKey × Stored) (he : e ∈ entries) : e.2.doc.value ≠ .nil :=
      value_doc_ne_nil (hnil e he) (hwritable e he _ (hself e.2))
    have hlevel (e : LuaKey × Stored) (he : e ∈ entries) :
        e.2.doc.depth ≤ (Stored.table entries).level := by
      have hdepth := (hback e he).depth
      have hle := entriesLevel_le_iff.1 (le_refl (entriesLevel entries)) e he
      rw [Stored.level]
      omega
    rcases hkeys with hdense | hkeyed
    · have hperm := perm_array hnodup hdense
      have hchild (index : ℕ) (h : index ∈ List.range' 1 entries.length) :
          (indexKey index, childAt entries (indexKey index)) ∈ entries :=
        hperm.mem_iff.1 (List.mem_map_of_mem h)
      have hdoc : (Stored.table entries).doc = _ :=
        tableDoc_array (any_string_of_dense hnodup hdense)
      by_cases hempty : entries = []
      · subst hempty
        exact ⟨.refl _, trivial, le_rfl⟩
      rw [if_neg hempty] at hdoc
      refine ⟨?_, ?_, ?_⟩
      · rw [hdoc, value_array fun index h => hvalue _ (hchild index h), zipIdx_range', List.map_map]
        exact same_table hnodup hperm fun e he => (hback e he).same
      · rw [hdoc, Doc.Valid, JsonText.itemsValid_iff, List.forall_mem_map]
        exact fun index h => (hback _ (hchild index h)).valid
      · rw [hdoc, Doc.depth, Nat.add_comm, Nat.add_le_add_iff_right, JsonText.itemDepth_le_iff,
          List.forall_mem_map]
        exact fun index h => hlevel _ (hchild index h)
    · have hperm := perm_object hnodup hkeyed
      have hchild (s : Bytes) (h : s ∈ sortedKeys (entries.map Prod.fst)) :
          (LuaKey.str s, childAt entries (.str s)) ∈ entries :=
        hperm.mem_iff.1 (List.mem_map_of_mem h)
      have hdoc : (Stored.table entries).doc = _ :=
        tableDoc_object (any_string_of_stringKeyed hkeyed)
      refine ⟨?_, ?_, ?_⟩
      · rw [hdoc, value_object fun s h => hvalue _ (hchild s h)]
        exact same_table hnodup hperm fun e he => (hback e he).same
      · have hnames : (sortedKeys (entries.map Prod.fst)).Nodup :=
          ((map_sortedKeys_perm hkeyed).nodup_iff.2 hnodup).of_map LuaKey.str
        have hkeys : (JsonText.memberValues ((sortedKeys (entries.map Prod.fst)).map fun s =>
            (bare (piecesOf s), bare (childAt entries (.str s)).doc))).map Prod.fst =
            sortedKeys (entries.map Prod.fst) := by
          rw [JsonText.memberValues_eq, List.map_map, List.map_map]
          exact (List.map_congr_left fun s _ => bytes_piecesOf s).trans (List.map_id _)
        rw [hdoc, Doc.Valid, hkeys, JsonText.membersValid_iff, List.forall_mem_map]
        exact ⟨hnames, fun s h => (hback _ (hchild s h)).valid⟩
      · rw [hdoc, Doc.depth, Nat.add_comm, Nat.add_le_add_iff_right, JsonText.memberDepth_le_iff,
          List.forall_mem_map]
        exact fun s h => hlevel _ (hchild s h)

/-- **What is encoded is decoded** to the same value: `JSON.decode` accepts
every text that `JSON.encode` returns under the same bound. -/
theorem decode_of_encode (v : LuaData) (maxBytes : LuaValue) (text : Bytes)
    (h : encode v.stored maxBytes = some text) :
    ∃ w, decodeInternal (steps text) text (limitOf maxBytes) = .ok w ∧
      decode (.str text) maxBytes = w ∧ Same v.stored.value w := by
  obtain ⟨⟨hlevel, hwritable⟩, hnodes, hbytes, rfl⟩ := (encode_eq_some v.keyed).1 h
  obtain ⟨hsame, hvalid, hdepth⟩ := readsBack v.proper hwritable
  have hblank : v.stored.doc.text = Blanks.none.bytes ++ (v.stored.doc.text ++ Blanks.none.bytes) :=
    (List.append_nil _).symm
  have haccepts : Accepts (limitOf maxBytes) v.stored.doc.text v.stored.doc :=
    ⟨⟨.none, .none, hblank⟩, hvalid, by omega, hnodes, hbytes⟩
  have hok := (decodeInternal_eq_ok le_rfl).2 ⟨_, haccepts, rfl⟩
  refine ⟨_, hok, ?_, hsame⟩
  rw [decode, hok]

/-- A report of half a square is read back. -/
theorem decode_of_encode_half : ∃ w,
    decodeInternal (steps (Bytes.lit "\x7b\"x\":0.5\x7d")) (Bytes.lit "\x7b\"x\":0.5\x7d")
      (limitOf .nil) = .ok w ∧
    decode (.str (Bytes.lit "\x7b\"x\":0.5\x7d")) .nil = w ∧ Same (report (1 / 2)).value w :=
  decode_of_encode (reportData (1 / 2) isDouble_half) .nil _ (by decide +kernel)

end JSON

end GoblinZomboid
