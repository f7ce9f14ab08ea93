import GoblinZomboid.Lib.Double
import GoblinZomboid.Lib.Numeral
import GoblinZomboid.Lib.Utf8
/-!
# JSON texts

The grammar of JSON over bytes, with the blanks around every part, and the
Lua value a text stands for. A table has no entry for a null.
-/

namespace JsonText

/-! ## Blanks, strings, numbers -/

def isBlank (b : UInt8) : Bool := b == 32 || b == 9 || b == 10 || b == 13

/-- A run of blanks. -/
structure Blanks where
  bytes : Bytes
  blank : ∀ b ∈ bytes, isBlank b = true

def Blanks.none : Blanks := ⟨[], nofun⟩

/-- A byte that stands for itself in a string: no quote, no backslash, no
control byte. -/
def isPlain (b : UInt8) : Bool := 32 ≤ b && b != 34 && b != 92

/-- What may follow a backslash, and the byte it stands for. -/
def escapes : List (UInt8 × UInt8) :=
  [(34, 34), (92, 92), (47, 47), (98, 8), (102, 12), (110, 10), (114, 13), (116, 9)]

def hexDigit (b : UInt8) : Option ℕ :=
  if 48 ≤ b && b ≤ 57 then some (b.toNat - 48)
  else if 65 ≤ b && b ≤ 70 then some (b.toNat - 55)
  else if 97 ≤ b && b ≤ 102 then some (b.toNat - 87)
  else none

def hex4 (a b c d : UInt8) : Option ℕ :=
  match hexDigit a, hexDigit b, hexDigit c, hexDigit d with
  | some a, some b, some c, some d => some (((a * 16 + b) * 16 + c) * 16 + d)
  | _, _, _, _ => none

/-- A part of a string. A character is never a surrogate. -/
inductive Piece
  | plain (b : UInt8) (h : isPlain b = true)
  | short (e b : UInt8) (h : (e, b) ∈ escapes)
  | unicode (a b c d : UInt8) (char : Char) (h : hex4 a b c d = some char.toNat)

def Piece.text : Piece → Bytes
  | plain b _ => [b]
  | short e _ _ => [92, e]
  | unicode a b c d _ _ => [92, 117, a, b, c, d]

/-- The bytes a part stands for. -/
def Piece.bytes : Piece → Bytes
  | plain b _ => [b]
  | short _ b _ => [b]
  | unicode _ _ _ _ char _ => String.utf8EncodeChar char

/-- A string, as its parts. -/
abbrev Pieces := List Piece

def Pieces.text (t : Pieces) : Bytes := t.flatMap Piece.text

def Pieces.bytes (t : Pieces) : Bytes := t.flatMap Piece.bytes

def quoted (t : Pieces) : Bytes := 34 :: (t.text ++ [34])

/-- The double a numeral is read as. -/
def number (p : Numeral.Parts) : LuaNum := Double.ofRat (Decimal.value p.text)

/-! ## Texts -/

/-- A part with the blanks around it. -/
structure Padded (α : Type) where
  before : Blanks
  inner : α
  after : Blanks

def Padded.text {α : Type} (text : α → Bytes) (p : Padded α) : Bytes :=
  p.before.bytes ++ (text p.inner ++ p.after.bytes)

/-- A JSON text. -/
inductive Doc
  | null
  | bool (b : Bool)
  | number (p : Numeral.Parts)
  | string (t : Pieces)
  | emptyArray (blanks : Blanks)
  | array (items : List (Padded Doc))
  | emptyObject (blanks : Blanks)
  | object (members : List (Padded Pieces × Padded Doc))

/-- Parts between brackets, with commas. -/
def enclose (left right : UInt8) (parts : List Bytes) : Bytes :=
  left :: (([44] : Bytes).intercalate parts ++ [right])

mutual

/-- The bytes of a text. -/
def Doc.text : Doc → Bytes
  | .null => Bytes.lit "null"
  | .bool true => Bytes.lit "true"
  | .bool false => Bytes.lit "false"
  | .number p => Utf8.encode p.text
  | .string t => quoted t
  | .emptyArray blanks => 91 :: (blanks.bytes ++ [93])
  | .array items => enclose 91 93 (itemTexts items)
  | .emptyObject blanks => 123 :: (blanks.bytes ++ [125])
  | .object members => enclose 123 125 (memberTexts members)

def itemTexts : List (Padded Doc) → List Bytes
  | [] => []
  | ⟨before, d, after⟩ :: items => (before.bytes ++ (d.text ++ after.bytes)) :: itemTexts items

def memberTexts : List (Padded Pieces × Padded Doc) → List Bytes
  | [] => []
  | (key, ⟨before, d, after⟩) :: members =>
    (key.text quoted ++ 58 :: (before.bytes ++ (d.text ++ after.bytes))) :: memberTexts members

end

/-- The table of an array: a null leaves its place empty. -/
def ofItems (values : List LuaValue) : LuaValue :=
  .table ((values.zipIdx 1).filterMap fun e =>
    if e.1.isNil then none else some (.num (.finite e.2), e.1))

/-- The table of an object: a null leaves its key out. -/
def ofMembers (members : List (Bytes × LuaValue)) : LuaValue :=
  .table (members.filterMap fun e => if e.2.isNil then none else some (.str e.1, e.2))

mutual

/-- What a text stands for. -/
def Doc.value : Doc → LuaValue
  | .null => .nil
  | .bool b => .bool b
  | .number p => .num (JsonText.number p)
  | .string t => .str t.bytes
  | .emptyArray _ => ofItems []
  | .array items => ofItems (itemValues items)
  | .emptyObject _ => ofMembers []
  | .object members => ofMembers (memberValues members)

def itemValues : List (Padded Doc) → List LuaValue
  | [] => []
  | ⟨_, d, _⟩ :: items => d.value :: itemValues items

def memberValues : List (Padded Pieces × Padded Doc) → List (Bytes × LuaValue)
  | [] => []
  | (key, ⟨_, d, _⟩) :: members => (key.inner.bytes, d.value) :: memberValues members

end

mutual

/-- How many values a text has. -/
def Doc.nodes : Doc → ℕ
  | .array items => 1 + itemNodes items
  | .object members => 1 + memberNodes members
  | .null | .bool _ | .number _ | .string _ | .emptyArray _ | .emptyObject _ => 1

def itemNodes : List (Padded Doc) → ℕ
  | [] => 0
  | ⟨_, d, _⟩ :: items => d.nodes + itemNodes items

def memberNodes : List (Padded Pieces × Padded Doc) → ℕ
  | [] => 0
  | (_, ⟨_, d, _⟩) :: members => d.nodes + memberNodes members

end

mutual

/-- How many arrays and objects are inside each other. -/
def Doc.depth : Doc → ℕ
  | .array items => 1 + itemDepth items
  | .object members => 1 + memberDepth members
  | .emptyArray _ | .emptyObject _ => 1
  | .null | .bool _ | .number _ | .string _ => 0

def itemDepth : List (Padded Doc) → ℕ
  | [] => 0
  | ⟨_, d, _⟩ :: items => max d.depth (itemDepth items)

def memberDepth : List (Padded Pieces × Padded Doc) → ℕ
  | [] => 0
  | (_, ⟨_, d, _⟩) :: members => max d.depth (memberDepth members)

end

mutual

/-- Every number is a finite double, and no object has a key twice. -/
def Doc.Valid : Doc → Prop
  | .number p => ∃ q, JsonText.number p = .finite q
  | .array items => ItemsValid items
  | .object members => ((memberValues members).map Prod.fst).Nodup ∧ MembersValid members
  | .null | .bool _ | .string _ | .emptyArray _ | .emptyObject _ => True

def ItemsValid : List (Padded Doc) → Prop
  | [] => True
  | ⟨_, d, _⟩ :: items => d.Valid ∧ ItemsValid items

def MembersValid : List (Padded Pieces × Padded Doc) → Prop
  | [] => True
  | (_, ⟨_, d, _⟩) :: members => d.Valid ∧ MembersValid members

end

/-- **Induction** over a text: what holds of the items of an array, or of the
values of an object, holds of it. -/
theorem Doc.induction {P : Doc → Prop} (null : P .null) (bool : ∀ b, P (.bool b))
    (number : ∀ p, P (.number p)) (string : ∀ t, P (.string t))
    (emptyArray : ∀ blanks, P (.emptyArray blanks))
    (array : ∀ items, (∀ p ∈ items, P p.inner) → P (.array items))
    (emptyObject : ∀ blanks, P (.emptyObject blanks))
    (object : ∀ members, (∀ e ∈ members, P e.2.inner) → P (.object members)) (d : Doc) : P d := by
  refine @Doc.rec P (fun items => ∀ p ∈ items, P p.inner)
    (fun members => ∀ e ∈ members, P e.2.inner) (fun p => P p.inner) (fun e => P e.2.inner)
    null bool number string emptyArray array emptyObject object nofun ?_ nofun ?_
    (fun _ _ _ h => h) (fun _ _ h => h) d
  · intro head tail hhead htail
    exact List.forall_mem_cons.2 ⟨hhead, htail⟩
  · intro head tail hhead htail
    exact List.forall_mem_cons.2 ⟨hhead, htail⟩

/-- A text is never empty. -/
theorem Doc.length_text_pos (d : Doc) : 0 < d.text.length := by
  cases d with
  | null => exact Nat.succ_pos 3
  | bool b => cases b <;> exact Nat.succ_pos _
  | number p =>
    have hwhole : 0 < (Utf8.encode p.whole).length := by
      have hshape := p.isWhole
      generalize p.whole = whole at hshape ⊢
      have hsize (c : Char) (t : PyText) : 0 < (Utf8.encode (c :: t)).length := by
        rw [Utf8.encode_cons, List.length_append, String.length_utf8EncodeChar]
        exact Nat.add_pos_left (Char.utf8Size_pos c) _
      cases hshape with
      | zero => exact hsize _ _
      | digits => exact hsize _ _
    rw [Doc.text, Numeral.Parts.text, Utf8.encode_append, Utf8.encode_append, List.length_append,
      List.length_append]
    omega
  | _ =>
    rw [Doc.text]
    exact Nat.succ_pos _

/-! ## Items and members -/

theorem itemTexts_eq (items : List (Padded Doc)) :
    itemTexts items = items.map fun p => p.text Doc.text := by
  induction items with
  | nil => rfl
  | cons p items ih => rw [itemTexts, ih, List.map_cons, Padded.text]

theorem memberTexts_eq (members : List (Padded Pieces × Padded Doc)) :
    memberTexts members = members.map fun e => e.1.text quoted ++ 58 :: e.2.text Doc.text := by
  induction members with
  | nil => rfl
  | cons e members ih =>
    rw [memberTexts, ih, List.map_cons]
    rfl

theorem itemValues_eq (items : List (Padded Doc)) :
    itemValues items = items.map fun p => p.inner.value := by
  induction items with
  | nil => rfl
  | cons p items ih => rw [itemValues, ih, List.map_cons]

theorem memberValues_eq (members : List (Padded Pieces × Padded Doc)) :
    memberValues members = members.map fun e => (e.1.inner.bytes, e.2.inner.value) := by
  induction members with
  | nil => rfl
  | cons e members ih => rw [memberValues, ih, List.map_cons]

theorem itemNodes_eq (items : List (Padded Doc)) :
    itemNodes items = (items.map fun p => p.inner.nodes).sum := by
  induction items with
  | nil => rfl
  | cons p items ih => rw [itemNodes, ih, List.map_cons, List.sum_cons]

theorem memberNodes_eq (members : List (Padded Pieces × Padded Doc)) :
    memberNodes members = (members.map fun e => e.2.inner.nodes).sum := by
  induction members with
  | nil => rfl
  | cons e members ih => rw [memberNodes, ih, List.map_cons, List.sum_cons]

theorem itemsValid_iff (items : List (Padded Doc)) :
    ItemsValid items ↔ ∀ p ∈ items, p.inner.Valid := by
  induction items with
  | nil => exact iff_of_true trivial nofun
  | cons p items ih => rw [ItemsValid, ih, List.forall_mem_cons]

theorem membersValid_iff (members : List (Padded Pieces × Padded Doc)) :
    MembersValid members ↔ ∀ e ∈ members, e.2.inner.Valid := by
  induction members with
  | nil => exact iff_of_true trivial nofun
  | cons e members ih => rw [MembersValid, ih, List.forall_mem_cons]

theorem itemDepth_le_iff {items : List (Padded Doc)} {n : ℕ} :
    itemDepth items ≤ n ↔ ∀ p ∈ items, p.inner.depth ≤ n := by
  induction items with
  | nil => exact iff_of_true (Nat.zero_le n) nofun
  | cons p items ih => rw [itemDepth, max_le_iff, ih, List.forall_mem_cons]

theorem memberDepth_le_iff {members : List (Padded Pieces × Padded Doc)} {n : ℕ} :
    memberDepth members ≤ n ↔ ∀ e ∈ members, e.2.inner.depth ≤ n := by
  induction members with
  | nil => exact iff_of_true (Nat.zero_le n) nofun
  | cons e members ih => rw [memberDepth, max_le_iff, ih, List.forall_mem_cons]

theorem Doc.nodes_pos (d : Doc) : 0 < d.nodes := by
  cases d with
  | array => exact Nat.add_pos_left Nat.one_pos _
  | object => exact Nat.add_pos_left Nat.one_pos _
  | _ => exact Nat.one_pos

end JsonText
