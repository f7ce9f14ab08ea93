import GoblinZomboid.Lib.PyValue
import Mathlib.Data.Rat.Init
import Mathlib.Data.Rat.Lemmas
/-!
# Numbers of Python values

A float is known by its text, and its text is a decimal numeral; read as
one it is a rational number. Texts that Python writes are compared as the
floats are: rounding to a float is monotone, and two floats never share a
text.
-/

namespace Decimal

/-- The value of a run of digits. -/
def digits (t : List Char) : ℕ := t.foldl (fun n c => 10 * n + (c.toNat - 48)) 0

/-- The sign of a numeral, and the rest of it. -/
def sign : List Char → Bool × List Char
  | '-' :: t => (true, t)
  | '+' :: t => (false, t)
  | t => (false, t)

def signed (negative : Bool) (n : ℤ) : ℤ := if negative then -n else n

/-- `10 ^ e`, for an exponent of either sign. -/
def power (e : ℤ) : ℚ := if 0 ≤ e then 10 ^ e.toNat else 1 / 10 ^ (-e).toNat

/-- The value of a numeral: sign, digits, fraction and exponent, the last two
of which can be missing. -/
def value (t : List Char) : ℚ :=
  let isExp := fun c : Char => c == 'e' || c == 'E'
  let (negative, t) := sign t
  let mantissa := t.takeWhile fun c => !isExp c
  let (negativeExp, exp) := sign ((t.dropWhile fun c => !isExp c).drop 1)
  let whole := mantissa.takeWhile (· != '.')
  let fraction := (mantissa.dropWhile (· != '.')).drop 1
  (signed negative (digits (whole ++ fraction)) : ℚ)
    * power (signed negativeExp (digits exp) - fraction.length)

end Decimal

namespace PyValue

/-- `bool(v)`. -/
def truthy : PyValue → Bool
  | .none => false
  | .bool b => b
  | .int n => n != 0
  | .float text => List.elem text nonFinite || Decimal.value text != 0
  | .str t => !t.isEmpty
  | .list items => !items.isEmpty
  | .dict entries => !entries.isEmpty

/-- `v == True`, for a value that is no number. -/
def isTrue : PyValue → Bool
  | .bool true => true
  | _ => false

def isFalse : PyValue → Bool
  | .bool false => true
  | _ => false

/-- The string a value is, if it is one. -/
def str? : PyValue → Option PyText
  | .str t => some t
  | _ => Option.none

/-- From here on a whole number is too large for a float. -/
def floatLimit : ℕ := 2 ^ 1024 - 2 ^ 970

/-- `float(v)` of a number: none for one that is no finite float. -/
def finite? : PyValue → Option ℚ
  | .int n => if n.natAbs < floatLimit then some n else Option.none
  | .float text => if List.elem text nonFinite then Option.none else some (Decimal.value text)
  | _ => Option.none

@[simp] theorem str?_eq_some {v : PyValue} {t : PyText} : v.str? = some t ↔ v = .str t := by
  cases v <;> simp [str?]

example : Decimal.value (PyText.lit "-12.5e-1") = -5 / 4 := by decide +kernel

end PyValue
