import GoblinZomboid.Lib.LuaPattern
import GoblinZomboid.Lib.Printf
import GoblinZomboid.Shared.Decode
/-!
# `JSON.lua`: encode

The text of a value, written part by part. A table is an array when its keys
are `1` to their number and an object when they are strings; anything else
is refused, and so is a text of too many bytes, values or levels.
-/

namespace GoblinZomboid

namespace JSON

/-- A value as it is stored: a zero has a sign, which no comparison sees. -/
inductive Stored
  | nil
  | bool (b : Bool)
  | num (n : LuaNum) (minus : Bool)
  | str (s : Bytes)
  | table (entries : List (LuaKey × Stored))

mutual

/-- The value that is stored. -/
def Stored.value : Stored → LuaValue
  | .nil => .nil
  | .bool b => .bool b
  | .num n _ => .num n
  | .str s => .str s
  | .table entries => .table (entryValues entries)

def entryValues : List (LuaKey × Stored) → List (LuaKey × LuaValue)
  | [] => []
  | (k, v) :: entries => (k, v.value) :: entryValues entries

end

/-- The parts that are written, joined, and the count of nodes; `state.size` is
the length of the parts. -/
structure State where
  parts : Bytes
  nodes : ℕ

/-- What writes a value at a depth; none is an error. -/
abbrev Writer := ℕ → State → Option State

/-- `addPart`. -/
def addPart (limit : Limit) (value : Bytes) (state : State) : Option State :=
  if overLimit limit (state.parts.length + value.length) then none
  else some { state with parts := state.parts ++ value }

/-- A digit of `%04x`. -/
def hexByte (n : ℕ) : UInt8 := if n < 10 then (48 + n).toUInt8 else (87 + n).toUInt8

/-- The part that is written for a byte of a string. -/
def escapeByte (byte : UInt8) : Bytes :=
  if byte == 34 then [92, 34]
  else if byte == 92 then [92, 92]
  else if byte == 8 then [92, 98]
  else if byte == 12 then [92, 102]
  else if byte == 10 then [92, 110]
  else if byte == 13 then [92, 114]
  else if byte == 9 then [92, 116]
  else if byte < 32 then [92, 117, 48, 48, hexByte (byte.toNat / 16), hexByte (byte.toNat % 16)]
  else [byte]

/-- `escapeString`. -/
def escapeString (limit : Limit) (value : Bytes) (state : State) : Option State :=
  if overLimit limit value.length then none
  else
    ((addPart limit [34] state).bind fun state =>
      value.foldlM (fun state byte => addPart limit (escapeByte byte) state) state).bind fun state =>
        addPart limit [34] state

/-- `string.find(encoded, "^[%+%-]?[%d%.eE]+$") ~= nil`. -/
def numberText (encoded : Bytes) : Bool := LuaPattern.found "^[%+%-]?[%d%.eE]+$" encoded

/-- What the first loop over a table has seen; no index is `math.huge`. -/
structure Shape where
  count : ℕ
  maxIndex : Option ℕ
  isArray : Bool
  keys : List Bytes
  nodes : ℕ

/-- `key >= 1 and math.floor(key) == key`, and the index it is. -/
def indexOf : LuaNum → Option (Option ℕ)
  | .finite q => if 1 ≤ q && q.den == 1 then some (some q.num.toNat) else none
  | .huge false => some none
  | _ => none

/-- One round of the first loop. -/
def visitKey (shape : Shape) (key : LuaKey) : Option Shape :=
  if maxNodes < shape.nodes + 1 then none
  else
    match key with
    | .str s => some ⟨shape.count + 1, shape.maxIndex, false, shape.keys ++ [s], shape.nodes + 1⟩
    | .num n =>
      match indexOf n with
      | some index =>
        some ⟨shape.count + 1, (shape.maxIndex.bind fun m => index.map (max m)), shape.isArray,
          shape.keys, shape.nodes + 1⟩
      | none => none
    | .bool _ => none

/-- `value[key]`, of what is there under the keys. -/
def lookup {α : Type} (entries : List (LuaKey × α)) (key : LuaKey) : Option α :=
  (entries.find? fun e => e.1 = key).map Prod.snd

/-- One round of the loop over an array. -/
def writeItem (limit : Limit) (writers : List (LuaKey × Writer)) (depth : ℕ) (state : State)
    (index : ℕ) : Option State :=
  match lookup writers (.num (.finite index)) with
  | none => none
  | some write =>
    (if 1 < index then addPart limit [44] state else some state).bind (write (depth + 1))

/-- One round of the loop over the keys of an object. -/
def writeMember (limit : Limit) (writers : List (LuaKey × Writer)) (depth : ℕ) (state : State)
    (entry : Bytes × ℕ) : Option State :=
  match lookup writers (.str entry.1) with
  | none => none
  | some write =>
    (((if 1 < entry.2 then addPart limit [44] state else some state).bind
      (escapeString limit entry.1)).bind (addPart limit [58])).bind (write (depth + 1))

/-- `encodeTable`, of what writes its values. -/
def encodeTable (limit : Limit) (writers : List (LuaKey × Writer)) : Writer := fun depth state =>
  if maxDepth < depth then none
  else
    match (writers.map Prod.fst).foldlM visitKey ⟨0, some 0, true, [], state.nodes⟩ with
    | none => none
    | some shape =>
      let state := { state with nodes := shape.nodes }
      if shape.isArray then
        if shape.maxIndex ≠ some shape.count then none
        else
          ((addPart limit [91] state).bind fun state =>
            (List.range' 1 shape.count).foldlM (writeItem limit writers depth) state).bind
              (addPart limit [93])
      else if (writers.map Prod.fst).any fun key => key matches .num _ then none
      else
        ((addPart limit [123] state).bind fun state =>
          ((shape.keys.mergeSort fun a b => a ≤ b).zipIdx 1).foldlM
            (writeMember limit writers depth) state).bind (addPart limit [125])

mutual

/-- `encodeValue`. -/
def encodeValue (limit : Limit) : Stored → Writer
  | .nil => fun depth state =>
    if maxDepth < depth then none else addPart limit (Bytes.lit "null") state
  | .bool b => fun depth state =>
    if maxDepth < depth then none
    else addPart limit (if b then Bytes.lit "true" else Bytes.lit "false") state
  | .str s => fun depth state => if maxDepth < depth then none else escapeString limit s state
  | .num (.finite q) minus => fun depth state =>
    if maxDepth < depth then none
    else
      let encoded := Utf8.encode (Double.general minus q).text
      if numberText encoded then addPart limit encoded state else none
  | .num _ _ => fun _ _ => none
  | .table entries => fun depth state =>
    if maxDepth < depth then none else encodeTable limit (entryWriters limit entries) depth state

def entryWriters (limit : Limit) : List (LuaKey × Stored) → List (LuaKey × Writer)
  | [] => []
  | (k, v) :: entries => (k, encodeValue limit v) :: entryWriters limit entries

end

/-- `JSON.encode`. -/
def encode (v : Stored) (maxBytes : LuaValue) : Option Bytes :=
  match encodeValue (limitOf maxBytes) v 0 ⟨[], 1⟩ with
  | some state => if overLimit (limitOf maxBytes) state.parts.length then none else some state.parts
  | none => none

end JSON

end GoblinZomboid
