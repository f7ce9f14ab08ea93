import GoblinZomboid.Lib.JsonText
/-!
# `JSON.lua`: decode

A parser by recursive descent over bytes, with bounds on the depth, the
values and the bytes of a text. A position is what is left of the input from
there. A call that would need more steps than it is given is `spent`, which
is apart from a failure.
-/

namespace GoblinZomboid

namespace JSON

open JsonText (Blanks Piece Pieces Padded Doc)

/-- A bound on bytes; none is `math.huge`. -/
abbrev Limit := Option ℕ

/-- `n > maxBytes`. -/
def overLimit (limit : Limit) (n : ℕ) : Bool := limit.any (· < n)

def defaultMaxBytes : ℕ := 262144

def maxDepth : ℕ := 16

def maxNodes : ℕ := 20000

/-- `(type(maxBytes) == "number" and maxBytes > 0) and math.floor(maxBytes) or
DEFAULT_MAX_BYTES`. -/
def limitOf : LuaValue → Limit
  | .num (.finite q) => if 0 < q then some ⌊q⌋.toNat else some defaultMaxBytes
  | .num (.huge false) => none
  | _ => some defaultMaxBytes

/-- `utf8ForCodepoint`. -/
def utf8ForCodepoint (codepoint : ℕ) : Option Bytes :=
  if 1114111 < codepoint || (55296 ≤ codepoint && codepoint ≤ 57343) then none
  else if codepoint ≤ 127 then some [codepoint.toUInt8]
  else if codepoint ≤ 2047 then
    some [(192 + codepoint / 64).toUInt8, (128 + codepoint % 64).toUInt8]
  else if codepoint ≤ 65535 then
    some [(224 + codepoint / 4096).toUInt8, (128 + codepoint / 64 % 64).toUInt8,
      (128 + codepoint % 64).toUInt8]
  else
    some [(240 + codepoint / 262144).toUInt8, (128 + codepoint / 4096 % 64).toUInt8,
      (128 + codepoint / 64 % 64).toUInt8, (128 + codepoint % 64).toUInt8]

/-! ## `decodeInternal` -/

/-- `skipWhitespace`. -/
def skipWhitespace (s : Bytes) : Bytes :=
  s.dropWhile fun b => b == 32 || b == 9 || b == 10 || b == 13

/-- `hexValue`. -/
def hexValue (b : UInt8) : Option ℕ :=
  if 48 ≤ b && b ≤ 57 then some (b.toNat - 48)
  else if 65 ≤ b && b ≤ 70 then some (b.toNat - 55)
  else if 97 ≤ b && b ≤ 102 then some (b.toNat - 87)
  else none

/-- The loop over the four digits of `\u`. -/
def hexDigits : ℕ → Bytes → Option ℕ
  | codepoint, [] => some codepoint
  | codepoint, b :: rest =>
    match hexValue b with
    | some value => hexDigits (codepoint * 16 + value) rest
    | none => none

/-- `replacement[escaped]`. -/
def replacement (escaped : UInt8) : Option UInt8 :=
  if escaped == 34 then some 34
  else if escaped == 92 then some 92
  else if escaped == 47 then some 47
  else if escaped == 98 then some 8
  else if escaped == 102 then some 12
  else if escaped == 110 then some 10
  else if escaped == 114 then some 13
  else if escaped == 116 then some 9
  else none

/-- `parseString` from behind the quote, with `size` bytes read. -/
def parseString (limit : Limit) (size : ℕ) : Bytes → Option (Bytes × Bytes)
  | [] => none
  | byte :: rest =>
    if byte == 34 then
      if overLimit limit size then none else some ([], rest)
    else if byte < 32 then none
    else if byte == 92 then
      match rest with
      | [] => none
      | escaped :: rest =>
        match replacement escaped with
        | some b =>
          if overLimit limit (size + 1) then none
          else (parseString limit (size + 1) rest).map fun r => (b :: r.1, r.2)
        | none =>
          if escaped == 117 then
            match rest with
            | a :: b :: c :: d :: rest =>
              match (hexDigits 0 [a, b, c, d]).bind utf8ForCodepoint with
              | some utf8 =>
                if overLimit limit (size + utf8.length) then none
                else (parseString limit (size + utf8.length) rest).map fun r => (utf8 ++ r.1, r.2)
              | none => none
            | _ => none
          else none
    else
      if overLimit limit (size + 1) then none
      else (parseString limit (size + 1) rest).map fun r => (byte :: r.1, r.2)

/-- The first byte is a digit. -/
def atDigit (s : Bytes) : Bool := s.head?.any Bytes.isDigit

/-- The digits from here on, and the rest. -/
def digits (s : Bytes) : Bytes × Bytes := (s.takeWhile Bytes.isDigit, s.dropWhile Bytes.isDigit)

/-- A zero that no digit follows, or digits that do not begin with one. -/
def parseWhole : Bytes → Option (Bytes × Bytes)
  | [] => none
  | b :: rest =>
    if b == 48 then
      if atDigit rest then none else some ([48], rest)
    else if 49 ≤ b && b ≤ 57 then some (digits (b :: rest))
    else none

def parseFraction : Bytes → Option (Bytes × Bytes)
  | [] => some ([], [])
  | b :: rest =>
    if b == 46 then
      if atDigit rest then some (46 :: (digits rest).1, (digits rest).2) else none
    else some ([], b :: rest)

def parseSign : Bytes → Bytes × Bytes
  | [] => ([], [])
  | b :: rest => if b == 43 || b == 45 then ([b], rest) else ([], b :: rest)

def parseExponent : Bytes → Option (Bytes × Bytes)
  | [] => some ([], [])
  | b :: rest =>
    if b == 101 || b == 69 then
      let (sign, rest) := parseSign rest
      if atDigit rest then some (b :: (sign ++ (digits rest).1), (digits rest).2) else none
    else some ([], b :: rest)

def parseMinus : Bytes → Bytes × Bytes
  | [] => ([], [])
  | b :: rest => if b == 45 then ([45], rest) else ([], b :: rest)

/-- `tonumber` of a numeral: the double next to it. -/
def tonumber (token : Bytes) : LuaNum := Double.ofRat (Decimal.value (token.map Utf8.char))

/-- `parseNumber`. -/
def parseNumber (s : Bytes) : Option (LuaNum × Bytes) :=
  let (minus, rest) := parseMinus s
  match parseWhole rest with
  | none => none
  | some (whole, rest) =>
    match parseFraction rest with
    | none => none
    | some (fraction, rest) =>
      match parseExponent rest with
      | none => none
      | some (exponent, rest) =>
        match tonumber (minus ++ (whole ++ (fraction ++ exponent))) with
        | .finite q => some (.finite q, rest)
        | _ => none

/-- Why a call did not return. -/
inductive Stop
  | failed
  | spent
  deriving DecidableEq

/-- What a call reads: a value, the count of values so far, and the position
behind it. -/
abbrev Reading (α : Type) := Except Stop (α × ℕ × Bytes)

/-- A value without parts, counted by its caller. -/
def leaf (nodes : ℕ) : Option (LuaValue × Bytes) → Reading LuaValue
  | some (v, rest) => .ok (v, nodes, rest)
  | none => .error .failed

/-- `parseArray` behind the bracket; `items` is its loop. -/
def parseArray (items : Bytes → Reading (List LuaValue)) (depth nodes : ℕ) (s : Bytes) :
    Reading LuaValue :=
  if maxDepth < depth then .error .failed
  else if (skipWhitespace s).head? = some 93 then
    .ok (JsonText.ofItems [], nodes, (skipWhitespace s).tail)
  else
    match items (skipWhitespace s) with
    | .ok (values, nodes, rest) => .ok (JsonText.ofItems values, nodes, rest)
    | .error stop => .error stop

/-- `parseObject` behind the brace; `members` is its loop. -/
def parseObject (members : Bytes → Reading (List (Bytes × LuaValue))) (depth nodes : ℕ)
    (s : Bytes) : Reading LuaValue :=
  if maxDepth < depth then .error .failed
  else if (skipWhitespace s).head? = some 125 then
    .ok (JsonText.ofMembers [], nodes, (skipWhitespace s).tail)
  else
    match members (skipWhitespace s) with
    | .ok (entries, nodes, rest) => .ok (JsonText.ofMembers entries, nodes, rest)
    | .error stop => .error stop

mutual

/-- `parseValue`. -/
def parseValue (limit : Limit) : ℕ → ℕ → ℕ → Bytes → Reading LuaValue
  | 0, _, _, _ => .error .spent
  | n + 1, depth, nodes, s =>
    if maxNodes < nodes + 1 then .error .failed
    else
      match skipWhitespace s with
      | [] => .error .failed
      | b :: rest =>
        if b == 34 then
          leaf (nodes + 1) ((parseString limit 0 rest).map fun r => (.str r.1, r.2))
        else if b == 123 then parseObject (parseMembers limit n depth (nodes + 1) []) depth
          (nodes + 1) rest
        else if b == 91 then parseArray (parseItems limit n depth (nodes + 1)) depth (nodes + 1) rest
        else if b == 45 || Bytes.isDigit b then
          leaf (nodes + 1) ((parseNumber (b :: rest)).map fun r => (.num r.1, r.2))
        else if (b :: rest).take 4 == Bytes.lit "true" then
          .ok (.bool true, nodes + 1, (b :: rest).drop 4)
        else if (b :: rest).take 5 == Bytes.lit "false" then
          .ok (.bool false, nodes + 1, (b :: rest).drop 5)
        else if (b :: rest).take 4 == Bytes.lit "null" then
          .ok (.nil, nodes + 1, (b :: rest).drop 4)
        else .error .failed

/-- The loop of `parseArray` at this depth. -/
def parseItems (limit : Limit) : ℕ → ℕ → ℕ → Bytes → Reading (List LuaValue)
  | 0, _, _, _ => .error .spent
  | n + 1, depth, nodes, s =>
    match parseValue limit n (depth + 1) nodes s with
    | .error stop => .error stop
    | .ok (v, nodes, rest) =>
      match skipWhitespace rest with
      | [] => .error .failed
      | b :: rest =>
        if b == 93 then .ok ([v], nodes, rest)
        else if b == 44 then
          match parseItems limit n depth nodes (skipWhitespace rest) with
          | .ok (values, nodes, rest) => .ok (v :: values, nodes, rest)
          | .error stop => .error stop
        else .error .failed

/-- The loop of `parseObject` at this depth; `keys` are the ones it has read. -/
def parseMembers (limit : Limit) :
    ℕ → ℕ → ℕ → List Bytes → Bytes → Reading (List (Bytes × LuaValue))
  | 0, _, _, _, _ => .error .spent
  | n + 1, depth, nodes, keys, s =>
    if s.head? = some 34 then
      match parseString limit 0 s.tail with
      | none => .error .failed
      | some (key, rest) =>
        if keys.contains key then .error .failed
        else if (skipWhitespace rest).head? = some 58 then
          match parseValue limit n (depth + 1) nodes (skipWhitespace (skipWhitespace rest).tail) with
          | .error stop => .error stop
          | .ok (v, nodes, rest) =>
            match skipWhitespace rest with
            | [] => .error .failed
            | b :: rest =>
              if b == 125 then .ok ([(key, v)], nodes, rest)
              else if b == 44 then
                match parseMembers limit n depth nodes (key :: keys) (skipWhitespace rest) with
                | .ok (entries, nodes, rest) => .ok ((key, v) :: entries, nodes, rest)
                | .error stop => .error stop
              else .error .failed
        else .error .failed
    else .error .failed

end

/-- `decodeInternal`, with so many steps. -/
def decodeInternal (n : ℕ) (input : Bytes) (limit : Limit) : Except Stop LuaValue :=
  if overLimit limit input.length then .error .failed
  else
    match parseValue limit n 0 0 input with
    | .error stop => .error stop
    | .ok (result, _, rest) =>
      if (skipWhitespace rest).isEmpty then .ok result else .error .failed

/-- Steps that are enough for an input. -/
def steps (input : Bytes) : ℕ := 2 * input.length + 1

/-- `JSON.decode`. -/
def decode (value maxBytes : LuaValue) : LuaValue :=
  match value with
  | .str input =>
    match decodeInternal (steps input) input (limitOf maxBytes) with
    | .ok result => result
    | .error _ => .nil
  | _ => .nil

end JSON

end GoblinZomboid
