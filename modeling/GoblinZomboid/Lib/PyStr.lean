import GoblinZomboid.Lib.PyText
import GoblinZomboid.Lib.PyRegex
import GoblinZomboid.Lib.PyNumber
/-!
# Python strings with lone surrogates

A Python string may hold half of a surrogate pair: `json.loads` makes one of
an escape `\ud800` that no other half follows. Such a string is a value like
any other until something encodes it as UTF-8, which raises.
-/

/-- A code point of a string: a character, or a surrogate standing alone. -/
inductive PyChar
  | char (c : Char)
  | lone (n : Fin 2048)
  deriving DecidableEq

/-- A Python string, code point by code point. -/
abbrev PyStr := List PyChar

namespace PyStr

/-- The string a text is. -/
def ofText (t : PyText) : PyStr := t.map .char

/-- A literal. -/
def lit (s : String) : PyStr := ofText (PyText.lit s)

/-- The number of a code point, by which strings are compared. -/
def ord : PyChar → ℕ
  | .char c => c.toNat
  | .lone n => 0xD800 + n

/-- `str.isspace` of one code point. -/
def isSpace : PyChar → Bool
  | .char c => PyText.isSpace c
  | .lone _ => false

/-- `not text.strip()`. -/
def blank (t : PyStr) : Bool := t.all isSpace

/-- `text.split()`. -/
def split (t : PyStr) : List PyStr := (t.splitOnP isSpace).filter fun word => !word.isEmpty

/-- `text.upper()`. -/
def upper (u : Unicode) (t : PyStr) : PyStr :=
  t.flatMap fun
    | .char c => ofText (u.upper c)
    | .lone n => [.lone n]

/-- `text.casefold()`. -/
def casefold (u : Unicode) (t : PyStr) : PyStr :=
  t.flatMap fun
    | .char c => ofText (u.casefold c)
    | .lone n => [.lone n]

/-- `phrase in text`. -/
def contains (t phrase : PyStr) : Bool := decide (phrase <:+: t)

/-- The text a string encodes to, which one with a lone surrogate has not. -/
def encode (t : PyStr) : Option PyText :=
  t.mapM fun
    | .char c => some c
    | .lone _ => none

@[simp] theorem encode_ofText (t : PyText) : encode (ofText t) = some t := by
  induction t with
  | nil => rfl
  | cons c t ih =>
    unfold encode ofText at ih ⊢
    rw [List.map_cons, List.mapM_cons, ih]
    rfl

/-- What encodes is a text. -/
theorem encode_eq_some {t : PyStr} {text : PyText} : encode t = some text ↔ t = ofText text := by
  constructor
  · intro h
    induction t generalizing text with
    | nil =>
      cases h
      rfl
    | cons c t ih =>
      unfold encode at h ih
      rw [List.mapM_cons] at h
      obtain ⟨d, hd, h⟩ := Option.bind_eq_some_iff.1 h
      obtain ⟨rest, hrest, h⟩ := Option.bind_eq_some_iff.1 h
      cases h
      cases c with
      | char c =>
        cases hd
        rw [ih hrest]
        rfl
      | lone n => cases hd
  · rintro rfl
    exact encode_ofText text

theorem isSome_encode {t : PyStr} : (encode t).isSome ↔ ∃ text, t = ofText text := by
  rw [Option.isSome_iff_exists]
  exact exists_congr fun _ => encode_eq_some

theorem isSome_encode_append {s t : PyStr} (hs : (encode s).isSome) (ht : (encode t).isSome) :
    (encode (s ++ t)).isSome := by
  obtain ⟨a, rfl⟩ := isSome_encode.1 hs
  obtain ⟨b, rfl⟩ := isSome_encode.1 ht
  exact isSome_encode.2 ⟨a ++ b, (List.map_append ..).symm⟩

theorem isSome_encode_take {t : PyStr} (ht : (encode t).isSome) (n : ℕ) :
    (encode (t.take n)).isSome := by
  obtain ⟨a, rfl⟩ := isSome_encode.1 ht
  exact isSome_encode.2 ⟨a.take n, (List.map_take ..).symm⟩

theorem isSome_encode_lit (s : String) : (encode (lit s)).isSome := isSome_encode.2 ⟨_, rfl⟩

/-! ## Phrases in a text -/

/-- A phrase without the separator lies on one side of it. -/
theorem infix_append_cons_iff {α : Type*} {w s t : List α} {b : α} (hb : b ∉ w) :
    w <:+: s ++ b :: t ↔ w <:+: s ∨ w <:+: t := by
  have hfront : ∀ a : List α, w <+: a ++ b :: t → w <+: a := by
    intro a h
    rcases List.prefix_or_prefix_of_prefix h (List.prefix_append a (b :: t)) with h' | ⟨v, rfl⟩
    · exact h'
    -- What reaches past `a` starts with the separator.
    · rw [List.prefix_append_right_inj, List.prefix_cons_iff] at h
      rcases h with rfl | ⟨v', rfl, -⟩
      · simp
      · simp at hb
  constructor
  · intro h
    induction s with
    | nil =>
      rw [List.nil_append, List.infix_cons_iff] at h
      rcases h with h | h
      · exact .inl (hfront [] h).isInfix
      · exact .inr h
    | cons a s ih =>
      rw [List.cons_append, List.infix_cons_iff] at h
      rcases h with h | h
      · exact .inl (hfront (a :: s) h).isInfix
      · exact (ih h).imp_left fun h' => List.infix_cons h'
  · rintro (h | h)
    · exact h.trans (List.infix_append' [] s (b :: t))
    · exact h.trans ⟨s ++ [b], [], by simp⟩

theorem contains_iff {t phrase : PyStr} : contains t phrase = true ↔ phrase <:+: t :=
  decide_eq_true_iff

theorem upper_append (u : Unicode) (s t : PyStr) : upper u (s ++ t) = upper u s ++ upper u t :=
  List.flatMap_append

/-- Capital ASCII letters and what has no case stay as they are. -/
theorem upper_ofText (u : Unicode) {t : PyText}
    (h : t.all (fun c => c.toNat < 128 && c.toUpper == c) = true) :
    upper u (ofText t) = ofText t := by
  have hone : ∀ c ∈ t, ofText (u.upper c) = [.char c] := by
    intro c hc
    have hup := List.all_eq_true.1 h c hc
    simp only [Bool.and_eq_true, decide_eq_true_eq, beq_iff_eq] at hup
    rw [u.upper_ascii c hup.1, hup.2]
    rfl
  calc upper u (ofText t) = t.flatMap fun c => ofText (u.upper c) := List.flatMap_map ..
    _ = t.flatMap fun c => [.char c] := List.flatMap_congr hone
    _ = ofText t := List.map_eq_flatMap.symm

theorem ofText_append (s t : PyText) : ofText (s ++ t) = ofText s ++ ofText t := List.map_append

end PyStr

/-- What a value of the model's output may be: what `json.loads` makes. A float
is known by its text; a dictionary has its entries in the order of insertion. -/
inductive PyData
  | none
  | bool (b : Bool)
  | int (n : ℤ)
  | float (text : PyText)
  | str (t : PyStr)
  | list (items : List PyData)
  | dict (entries : List (PyStr × PyData))

namespace PyData

/-- `d.get(key)`. -/
def get (entries : List (PyStr × PyData)) (key : String) : PyData :=
  (entries.lookup (PyStr.lit key)).getD .none

/-- `bool(v)`. -/
def truthy : PyData → Bool
  | .none => false
  | .bool b => b
  | .int n => n != 0
  | .float text => PyValue.truthy (.float text)
  | .str t => !t.isEmpty
  | .list items => !items.isEmpty
  | .dict entries => !entries.isEmpty

/-! ## JSON -/

/-- One code point of a string under `ensure_ascii=False`. -/
def jsonChar : PyChar → PyStr
  | .char c => PyStr.ofText (PyValue.jsonChar c)
  | .lone n => [.lone n]

def jsonStr (t : PyStr) : PyStr := PyStr.lit "\"" ++ t.flatMap jsonChar ++ PyStr.lit "\""

/-- Parts between two brackets, with commas. -/
def enclose (left right : Char) (parts : List PyStr) : PyStr :=
  .char left :: (PyStr.lit ",").intercalate parts ++ [.char right]

mutual

/-- `json.dumps(v, ensure_ascii=False, separators=(",", ":"))`. -/
def json : PyData → PyStr
  | .none => PyStr.lit "null"
  | .bool true => PyStr.lit "true"
  | .bool false => PyStr.lit "false"
  | .int n => PyStr.lit (toString n)
  | .float text => PyStr.ofText text
  | .str t => jsonStr t
  | .list items => enclose '[' ']' (jsonItems items)
  | .dict entries => enclose '{' '}' (jsonEntries entries)

def jsonItems : List PyData → List PyStr
  | [] => []
  | v :: items => json v :: jsonItems items

def jsonEntries : List (PyStr × PyData) → List PyStr
  | [] => []
  | (k, v) :: entries => (jsonStr k ++ .char ':' :: json v) :: jsonEntries entries

end

mutual

/-- Every number is short enough to be written. -/
def writable : PyData → Bool
  | .int n => decide (n.natAbs < 10 ^ 4300)
  | .list items => writableItems items
  | .dict entries => writableEntries entries
  | .none | .bool _ | .float _ | .str _ => true

def writableItems : List PyData → Bool
  | [] => true
  | v :: items => writable v && writableItems items

def writableEntries : List (PyStr × PyData) → Bool
  | [] => true
  | (_, v) :: entries => writable v && writableEntries entries

end

mutual

/-- A value that was read from a text has no lone surrogate in it. -/
def ofValue : PyValue → PyData
  | .none => .none
  | .bool b => .bool b
  | .int n => .int n
  | .float text => .float text
  | .str t => .str (PyStr.ofText t)
  | .list items => .list (ofItems items)
  | .dict entries => .dict (ofEntries entries)

def ofItems : List PyValue → List PyData
  | [] => []
  | v :: items => ofValue v :: ofItems items

def ofEntries : List (PyText × PyValue) → List (PyStr × PyData)
  | [] => []
  | (k, v) :: entries => (PyStr.ofText k, ofValue v) :: ofEntries entries

end

end PyData
