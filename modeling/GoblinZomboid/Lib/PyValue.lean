import GoblinZomboid.Lib.PyRegex
import GoblinZomboid.Lib.Utf8
import Mathlib.Data.Int.Notation
import Mathlib.Algebra.BigOperators.Group.List.Basic
import Mathlib.Algebra.Order.BigOperators.Group.List
/-!
# Python values and their texts

The values a decoded JSON message holds, with what `repr` and `json.dumps`
write of them. Texts are measured as the bytes of their UTF-8 encoding; a
character of a string takes at most ten of them in either text.
-/

/-- A value. A float is known by its text; a dictionary has its entries in
the order of insertion. -/
inductive PyValue
  | none
  | bool (b : Bool)
  | int (n : ℤ)
  | float (text : PyText)
  | str (t : PyText)
  | list (items : List PyValue)
  | dict (entries : List (PyText × PyValue))

namespace PyValue

/-- **Induction** over a value: what holds of the items of a list, or of the
values of a dictionary, holds of it. -/
theorem induction {P : PyValue → Prop} (none : P .none) (bool : ∀ b, P (.bool b))
    (int : ∀ n, P (.int n)) (float : ∀ text, P (.float text)) (str : ∀ t, P (.str t))
    (list : ∀ items, (∀ v ∈ items, P v) → P (.list items))
    (dict : ∀ entries, (∀ e ∈ entries, P e.2) → P (.dict entries)) (v : PyValue) : P v := by
  refine @PyValue.rec P (fun items => ∀ v ∈ items, P v) (fun entries => ∀ e ∈ entries, P e.2)
    (fun e => P e.2) none bool int float str list dict nofun ?_ nofun ?_ (fun _ _ h => h) v
  · intro head tail hhead htail v hv
    rcases List.mem_cons.1 hv with rfl | hv
    · exact hhead
    · exact htail v hv
  · intro head tail hhead htail e he
    rcases List.mem_cons.1 he with rfl | he
    · exact hhead
    · exact htail e he

/-! ## `repr` -/

/-- A number below `16 ^ width` in hexadecimal, with its leading zeros. -/
def hex (width n : ℕ) : PyText :=
  (List.range width).map fun i => Nat.digitChar (n / 16 ^ (width - 1 - i) % 16)

/-- One character of a string's `repr` between these quotes. -/
def reprChar (u : Unicode) (quote c : Char) : PyText :=
  if c == quote || c == '\\' then ['\\', c]
  else if c == '\t' then ['\\', 't']
  else if c == '\n' then ['\\', 'n']
  else if c == '\r' then ['\\', 'r']
  else if 32 ≤ c.toNat && c.toNat < 127 then [c]
  else if 127 < c.toNat && u.printable c then [c]
  else if c.toNat < 256 then '\\' :: 'x' :: hex 2 c.toNat
  else if c.toNat < 65536 then '\\' :: 'u' :: hex 4 c.toNat
  else '\\' :: 'U' :: hex 8 c.toNat

/-- The quote a string is written with. -/
def quoteOf (t : PyText) : Char := if List.elem '\'' t && !List.elem '"' t then '"' else '\''

def reprStr (u : Unicode) (t : PyText) : PyText :=
  quoteOf t :: t.flatMap (reprChar u (quoteOf t)) ++ [quoteOf t]

/-- A text for each part, between two brackets. -/
def enclose (left : Char) (sep : String) (right : Char) (parts : List PyText) : PyText :=
  left :: (PyText.lit sep).intercalate parts ++ [right]

mutual

/-- `repr(v)`. -/
def repr (u : Unicode) : PyValue → PyText
  | .none => PyText.lit "None"
  | .bool true => PyText.lit "True"
  | .bool false => PyText.lit "False"
  | .int n => PyText.lit (toString n)
  | .float text => text
  | .str t => reprStr u t
  | .list items => enclose '[' ", " ']' (reprItems u items)
  | .dict entries => enclose '{' ", " '}' (reprEntries u entries)

def reprItems (u : Unicode) : List PyValue → List PyText
  | [] => []
  | v :: items => repr u v :: reprItems u items

def reprEntries (u : Unicode) : List (PyText × PyValue) → List PyText
  | [] => []
  | (k, v) :: entries => (reprStr u k ++ PyText.lit ": " ++ repr u v) :: reprEntries u entries

end

/-! ## JSON -/

/-- One character of a string under `ensure_ascii=False`. -/
def jsonChar (c : Char) : PyText :=
  if c == '"' || c == '\\' then ['\\', c]
  else if c == '\n' then ['\\', 'n']
  else if c == '\r' then ['\\', 'r']
  else if c == '\t' then ['\\', 't']
  else if c.toNat == 12 then ['\\', 'f']
  else if c.toNat == 8 then ['\\', 'b']
  else if c.toNat < 32 then '\\' :: 'u' :: hex 4 c.toNat
  else [c]

def jsonStr (t : PyText) : PyText := '"' :: t.flatMap jsonChar ++ ['"']

mutual

/-- `json.dumps(v, ensure_ascii=False, separators=(",", ":"))`. -/
def json : PyValue → PyText
  | .none => PyText.lit "null"
  | .bool true => PyText.lit "true"
  | .bool false => PyText.lit "false"
  | .int n => PyText.lit (toString n)
  | .float text => text
  | .str t => jsonStr t
  | .list items => enclose '[' "," ']' (jsonItems items)
  | .dict entries => enclose '{' "," '}' (jsonEntries entries)

def jsonItems : List PyValue → List PyText
  | [] => []
  | v :: items => json v :: jsonItems items

def jsonEntries : List (PyText × PyValue) → List PyText
  | [] => []
  | (k, v) :: entries => (jsonStr k ++ ':' :: json v) :: jsonEntries entries

end

/-- The texts of the floats that are no numbers. -/
def nonFinite : List PyText := [PyText.lit "nan", PyText.lit "inf", PyText.lit "-inf"]

mutual

/-- `json.dumps(v, allow_nan=False)` does not raise: every float is finite and
every number short enough to be written. -/
def dumpable : PyValue → Bool
  | .int n => decide (n.natAbs < 10 ^ 4300)
  | .float text => !List.elem text nonFinite
  | .list items => dumpableItems items
  | .dict entries => dumpableEntries entries
  | .none | .bool _ | .str _ => true

def dumpableItems : List PyValue → Bool
  | [] => true
  | v :: items => dumpable v && dumpableItems items

def dumpableEntries : List (PyText × PyValue) → Bool
  | [] => true
  | (_, v) :: entries => dumpable v && dumpableEntries entries

end

/-- The bytes a text is sent as. -/
def size (t : PyText) : ℕ := (Utf8.encode t).length

/-- A number of few digits can be written. -/
theorem dumpable_int {n k : ℕ} (h : n < 10 ^ k) (hk : k ≤ 4300) : dumpable (.int n) = true := by
  rw [dumpable, decide_eq_true_eq, Int.natAbs_natCast]
  exact lt_of_lt_of_le h (Nat.pow_le_pow_right (by decide) hk)

theorem dumpableItems_eq_true {items : List PyValue} :
    dumpableItems items = true ↔ ∀ v ∈ items, dumpable v = true := by
  induction items with
  | nil => simp [dumpableItems]
  | cons v items ih => simp [dumpableItems, ih]

theorem dumpableEntries_eq_true {entries : List (PyText × PyValue)} :
    dumpableEntries entries = true ↔ ∀ e ∈ entries, dumpable e.2 = true := by
  induction entries with
  | nil => simp [dumpableEntries]
  | cons e entries ih => simp [dumpableEntries, ih]

/-! ## Sizes -/

@[simp] theorem size_nil : size [] = 0 := rfl

theorem size_cons (c : Char) (t : PyText) : size (c :: t) = c.utf8Size + size t := by
  simp [size]

theorem size_append (t t' : PyText) : size (t ++ t') = size t + size t' := by
  simp [size]

/-- A text of ASCII has as many bytes as characters. -/
theorem size_of_ascii {t : PyText} (h : ∀ c ∈ t, c.toNat < 128) : size t = t.length := by
  induction t with
  | nil => rfl
  | cons c t ih =>
    have hc : c.utf8Size = 1 := by
      have := h c List.mem_cons_self
      rw [Char.utf8Size_eq_one_iff, UInt32.le_iff_toNat_le]
      exact Nat.le_of_lt_succ this
    rw [size_cons, hc, ih fun d hd => h d (List.mem_cons_of_mem _ hd), List.length_cons, add_comm]

theorem size_hex (width n : ℕ) : size (hex width n) = width := by
  rw [size_of_ascii]
  · simp [hex]
  · intro c hc
    obtain ⟨i, -, rfl⟩ := List.mem_map.1 hc
    have hall : ∀ k : Fin 16, (Nat.digitChar k).toNat < 128 := by decide
    exact hall ⟨_, Nat.mod_lt _ (by decide)⟩

/-- A character takes at most ten bytes in a `repr`. -/
theorem size_reprChar_le (u : Unicode) (quote c : Char) : size (reprChar u quote c) ≤ 10 := by
  have hc := c.utf8Size_le_four
  have hslash : Char.utf8Size '\\' = 1 := by decide
  have hone (d : Char) (hd : Char.utf8Size d = 1) : size ['\\', d] ≤ 10 := by
    simp only [size_cons, size_nil, hslash, hd]
    omega
  have hself : size [c] ≤ 10 := by
    simp only [size_cons, size_nil]
    omega
  have hhex (d : Char) (hd : Char.utf8Size d = 1) (width : ℕ) (hw : width ≤ 8) :
      size ('\\' :: d :: hex width c.toNat) ≤ 10 := by
    simp only [size_cons, size_hex, hslash, hd]
    omega
  unfold reprChar
  split_ifs
  · simp only [size_cons, size_nil, hslash]
    omega
  · exact hone 't' (by decide)
  · exact hone 'n' (by decide)
  · exact hone 'r' (by decide)
  · exact hself
  · exact hself
  · exact hhex 'x' (by decide) 2 (by omega)
  · exact hhex 'u' (by decide) 4 (by omega)
  · exact hhex 'U' (by decide) 8 (by omega)

theorem size_flatMap_le {f : Char → PyText} {k : ℕ} (h : ∀ c, size (f c) ≤ k) (t : PyText) :
    size (t.flatMap f) ≤ k * t.length := by
  induction t with
  | nil => simp
  | cons c t ih =>
    have hc := h c
    rw [List.flatMap_cons, size_append, List.length_cons, Nat.mul_succ]
    omega

theorem utf8Size_quoteOf (t : PyText) : (quoteOf t).utf8Size = 1 := by
  unfold quoteOf
  split
  · decide
  · decide

theorem size_reprStr_le (u : Unicode) (t : PyText) : size (reprStr u t) ≤ 10 * t.length + 2 := by
  have hbody := size_flatMap_le (size_reprChar_le u (quoteOf t)) t
  unfold reprStr
  simp only [size_append, size_cons, size_nil, utf8Size_quoteOf]
  omega

/-- A character that `repr` and JSON write as it is, between any quotes. -/
def plain (c : Char) : Bool :=
  32 ≤ c.toNat && c.toNat < 127 && c != '\'' && c != '"' && c != '\\'

/-- Text of plain characters gets its quotes and nothing else. -/
theorem size_reprStr_of_plain (u : Unicode) {t : PyText} (h : ∀ c ∈ t, plain c = true) :
    size (reprStr u t) = t.length + 2 := by
  have hquote : quoteOf t = '\'' := by
    have hno : List.elem '\'' t = false := by
      rw [Bool.eq_false_iff]
      intro hmem
      have hc := h _ (List.elem_iff.1 hmem)
      revert hc
      decide
    unfold quoteOf
    rw [hno, Bool.false_and]
    rfl
  have hchar : ∀ c ∈ t, reprChar u '\'' c = [c] := by
    intro c hc
    have hp := h c hc
    simp only [plain, Bool.and_eq_true, decide_eq_true_eq, bne_iff_ne, ne_eq] at hp
    obtain ⟨⟨⟨⟨hlow, hhigh⟩, hq⟩, -⟩, hs⟩ := hp
    have hne (d : Char) (hd : d.toNat < 32) : c ≠ d := by
      rintro rfl
      omega
    simp [reprChar, hq, hs, hlow, hhigh, hne '\t' (by decide), hne '\n' (by decide),
      hne '\r' (by decide)]
  have hbody : t.flatMap (reprChar u '\'') = t := by
    rw [List.flatMap_congr hchar]
    simp
  have hascii : ∀ c ∈ t, c.toNat < 128 := by
    intro c hc
    have hp := h c hc
    simp only [plain, Bool.and_eq_true, decide_eq_true_eq] at hp
    omega
  have hone : Char.utf8Size '\'' = 1 := by decide
  unfold reprStr
  rw [hquote, hbody]
  simp only [size_append, size_cons, size_nil, hone, size_of_ascii hascii]
  omega

theorem size_jsonStr_le (t : PyText) : size (jsonStr t) ≤ 6 * t.length + 2 := by
  have hchar (c : Char) : size (jsonChar c) ≤ 6 := by
    have hc := c.utf8Size_le_four
    have hslash : Char.utf8Size '\\' = 1 := by decide
    have hone (d : Char) (hd : Char.utf8Size d = 1) : size ['\\', d] ≤ 6 := by
      simp only [size_cons, size_nil, hslash, hd]
      omega
    unfold jsonChar
    split_ifs
    · simp only [size_cons, size_nil, hslash]
      omega
    · exact hone 'n' (by decide)
    · exact hone 'r' (by decide)
    · exact hone 't' (by decide)
    · exact hone 'f' (by decide)
    · exact hone 'b' (by decide)
    · have hu : Char.utf8Size 'u' = 1 := by decide
      simp only [size_cons, size_hex, hslash, hu]
      omega
    · simp only [size_cons, size_nil]
      omega
  have hbody := size_flatMap_le hchar t
  have hquote : Char.utf8Size '"' = 1 := by decide
  unfold jsonStr
  simp only [size_append, size_cons, size_nil, hquote]
  omega

/-- A list of texts with separators. -/
theorem size_intercalate_le (sep : PyText) (parts : List PyText) :
    size (sep.intercalate parts) ≤ (parts.map fun t => size t + size sep).sum := by
  induction parts with
  | nil => simp [List.intercalate]
  | cons t parts ih =>
    cases parts with
    | nil => simp [List.intercalate]
    | cons t' parts =>
      have hstep : sep.intercalate (t :: t' :: parts) = t ++ sep ++ sep.intercalate (t' :: parts) := by
        simp [List.intercalate, List.intersperse]
      rw [hstep, size_append, size_append, List.map_cons, List.sum_cons]
      omega

theorem size_enclose_le (left right : Char) (sep : String) (parts : List PyText)
    (hleft : left.utf8Size = 1) (hright : right.utf8Size = 1) :
    size (enclose left sep right parts) ≤
      (parts.map fun t => size t + size (PyText.lit sep)).sum + 2 := by
  have hbody := size_intercalate_le (PyText.lit sep) parts
  unfold enclose
  simp only [size_append, size_cons, size_nil, hleft, hright]
  omega

/-- **The text of a dictionary**: the texts of the entries and four bytes
each. -/
theorem size_repr_dict_le (u : Unicode) (entries : List (PyText × PyValue)) :
    size (repr u (.dict entries)) ≤
      (entries.map fun e => size (reprStr u e.1) + size (repr u e.2) + 4).sum + 2 := by
  have hsep : size (PyText.lit ", ") = 2 := by decide
  have hcolon : size (PyText.lit ": ") = 2 := by decide
  have hsum : ((reprEntries u entries).map fun t => size t + size (PyText.lit ", ")).sum =
      (entries.map fun e => size (reprStr u e.1) + size (repr u e.2) + 4).sum := by
    induction entries with
    | nil => rfl
    | cons e entries ih =>
      simp only [reprEntries, List.map_cons, List.sum_cons, size_append, hcolon]
      rw [ih, hsep]
      omega
  have hbody := size_enclose_le '{' '}' ", " (reprEntries u entries) (by decide) (by decide)
  rw [hsum] at hbody
  rwa [repr]

theorem size_json_dict_le (entries : List (PyText × PyValue)) :
    size (json (.dict entries)) ≤
      (entries.map fun e => size (jsonStr e.1) + size (json e.2) + 2).sum + 2 := by
  have hsep : size (PyText.lit ",") = 1 := by decide
  have hcolon : Char.utf8Size ':' = 1 := by decide
  have hsum : ((jsonEntries entries).map fun t => size t + size (PyText.lit ",")).sum =
      (entries.map fun e => size (jsonStr e.1) + size (json e.2) + 2).sum := by
    induction entries with
    | nil => rfl
    | cons e entries ih =>
      simp only [jsonEntries, List.map_cons, List.sum_cons, size_append, size_cons, hcolon]
      rw [ih, hsep]
      omega
  have hbody := size_enclose_le '{' '}' "," (jsonEntries entries) (by decide) (by decide)
  rw [hsum] at hbody
  rwa [json]

/-- A number takes a byte for each digit. -/
theorem size_repr_int_le (u : Unicode) {n k : ℕ} (hk : 0 < k) (h : n < 10 ^ k) :
    size (repr u (.int n)) ≤ k ∧ size (json (.int n)) ≤ k := by
  have htext : PyText.lit (toString (n : ℤ)) = Nat.toDigits 10 n := by
    have hstring : toString (n : ℤ) = Nat.repr n := rfl
    rw [PyText.lit, hstring, Nat.repr]
    simp
  have hascii : ∀ c ∈ Nat.toDigits 10 n, c.toNat < 128 := by
    intro c hc
    have hdigit : c.isDigit = true := Nat.isDigit_of_mem_toDigits (by decide) (by decide) hc
    simp only [Char.isDigit, Bool.and_eq_true, decide_eq_true_eq, UInt32.le_iff_toNat_le] at hdigit
    have hhigh : c.toNat ≤ 57 := hdigit.2
    omega
  have hlen := (Nat.length_toDigits_le_iff (by decide) hk).2 h
  simp only [repr, json, htext, size_of_ascii hascii]
  exact ⟨hlen, hlen⟩

/-! ## What is inside a value -/

mutual

/-- The values inside a value, itself included. -/
def inside : PyValue → List PyValue
  | .list items => .list items :: insideItems items
  | .dict entries => .dict entries :: insideEntries entries
  | v => [v]

def insideItems : List PyValue → List PyValue
  | [] => []
  | v :: items => inside v ++ insideItems items

def insideEntries : List (PyText × PyValue) → List PyValue
  | [] => []
  | (_, v) :: entries => inside v ++ insideEntries entries

end

mutual

/-- How many lists and dictionaries are inside each other. -/
def depth : PyValue → ℕ
  | .list items => 1 + depthItems items
  | .dict entries => 1 + depthEntries entries
  | .none | .bool _ | .int _ | .float _ | .str _ => 0

def depthItems : List PyValue → ℕ
  | [] => 0
  | v :: items => max (depth v) (depthItems items)

def depthEntries : List (PyText × PyValue) → ℕ
  | [] => 0
  | (_, v) :: entries => max (depth v) (depthEntries entries)

end

mutual

/-- How many values a value has, itself included. -/
def nodes : PyValue → ℕ
  | .list items => 1 + nodesItems items
  | .dict entries => 1 + nodesEntries entries
  | .none | .bool _ | .int _ | .float _ | .str _ => 1

def nodesItems : List PyValue → ℕ
  | [] => 0
  | v :: items => nodes v + nodesItems items

def nodesEntries : List (PyText × PyValue) → ℕ
  | [] => 0
  | (_, v) :: entries => nodes v + nodesEntries entries

end

theorem self_mem_inside (v : PyValue) : v ∈ v.inside := by
  cases v <;> exact List.mem_cons_self

theorem forall_inside_list {items : List PyValue} {p : PyValue → Prop} :
    (∀ w ∈ inside (.list items), p w) ↔ p (.list items) ∧ ∀ v ∈ items, ∀ w ∈ v.inside, p w := by
  have hitems : (∀ w ∈ insideItems items, p w) ↔ ∀ v ∈ items, ∀ w ∈ v.inside, p w := by
    induction items with
    | nil => exact iff_of_true nofun nofun
    | cons v items ih => rw [insideItems, List.forall_mem_append, ih, List.forall_mem_cons]
  rw [inside, List.forall_mem_cons, hitems]

theorem forall_inside_dict {entries : List (PyText × PyValue)} {p : PyValue → Prop} :
    (∀ w ∈ inside (.dict entries), p w) ↔
      p (.dict entries) ∧ ∀ e ∈ entries, ∀ w ∈ e.2.inside, p w := by
  have hentries : (∀ w ∈ insideEntries entries, p w) ↔ ∀ e ∈ entries, ∀ w ∈ e.2.inside, p w := by
    induction entries with
    | nil => exact iff_of_true nofun nofun
    | cons e entries ih => rw [insideEntries, List.forall_mem_append, ih, List.forall_mem_cons]
  rw [inside, List.forall_mem_cons, hentries]

theorem depthItems_le_iff {items : List PyValue} {n : ℕ} :
    depthItems items ≤ n ↔ ∀ v ∈ items, depth v ≤ n := by
  induction items with
  | nil => exact iff_of_true (Nat.zero_le n) nofun
  | cons v items ih => rw [depthItems, max_le_iff, ih, List.forall_mem_cons]

theorem depthEntries_le_iff {entries : List (PyText × PyValue)} {n : ℕ} :
    depthEntries entries ≤ n ↔ ∀ e ∈ entries, depth e.2 ≤ n := by
  induction entries with
  | nil => exact iff_of_true (Nat.zero_le n) nofun
  | cons e entries ih => rw [depthEntries, max_le_iff, ih, List.forall_mem_cons]

theorem nodesItems_eq (items : List PyValue) : nodesItems items = (items.map nodes).sum := by
  induction items with
  | nil => rfl
  | cons v items ih => rw [nodesItems, ih, List.map_cons, List.sum_cons]

theorem nodesEntries_eq (entries : List (PyText × PyValue)) :
    nodesEntries entries = (entries.map fun e => nodes e.2).sum := by
  induction entries with
  | nil => rfl
  | cons e entries ih => rw [nodesEntries, ih, List.map_cons, List.sum_cons]

end PyValue
