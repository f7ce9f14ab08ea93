import GoblinZomboid.Lib.LuaValue
import GoblinZomboid.Lib.PyNumber
import Mathlib.Data.Int.Log
import Mathlib.Data.Rat.Floor
import Mathlib.Tactic.Linarith
/-!
# Doubles

The double next to a rational number, ties to even, and the shortest
numeral that is read as a double. Whole numbers up to `2 ^ 53` are doubles
themselves.
-/

namespace Double

/-- The whole number next to `x`, the even one of two. -/
def roundEven (x : ℚ) : ℤ :=
  let below := ⌊x⌋
  let part := x - below
  if part < 1 / 2 then below
  else if 1 / 2 < part then below + 1
  else if below % 2 = 0 then below
  else below + 1

/-- The distance of doubles around `q`: 53 bits, and none below `2 ^ -1074`. -/
def ulp (q : ℚ) : ℚ := 2 ^ max (Int.log 2 |q| - 52) (-1074)

/-- The double next to `q`. -/
def ofRat (q : ℚ) : LuaNum :=
  let rounded := roundEven (q / ulp q) * ulp q
  if |rounded| < 2 ^ (1024 : ℕ) then .finite rounded else .huge (decide (q < 0))

@[simp] theorem roundEven_intCast (n : ℤ) : roundEven (n : ℚ) = n := by
  unfold roundEven
  simp

/-- A multiple of its distance is a double. -/
theorem ofRat_of_multiple {q : ℚ} {n : ℤ} (h : q / ulp q = n) (hq : |q| < 2 ^ (1024 : ℕ)) :
    ofRat q = .finite q := by
  have hulp : ulp q ≠ 0 := zpow_ne_zero _ (by norm_num)
  have hback : (n : ℚ) * ulp q = q := by rw [← h, div_mul_cancel₀ _ hulp]
  unfold ofRat
  simp only [h, roundEven_intCast, hback, if_pos hq]

/-- **Whole numbers up to `2 ^ 53`** are doubles. -/
theorem ofRat_intCast {n : ℤ} (h : n.natAbs ≤ 2 ^ 53) : ofRat (n : ℚ) = .finite n := by
  have habs : |(n : ℚ)| = (n.natAbs : ℚ) := by rw [Nat.cast_natAbs, Int.cast_abs]
  have hlog : Int.log 2 |(n : ℚ)| = (Nat.log 2 n.natAbs : ℕ) := by rw [habs, Int.log_natCast]
  have hsmall : |(n : ℚ)| < 2 ^ (1024 : ℕ) := by
    rw [habs]
    have hcast : ((n.natAbs : ℕ) : ℚ) ≤ ((2 ^ 53 : ℕ) : ℚ) := Nat.cast_le.2 h
    refine lt_of_le_of_lt hcast ?_
    rw [Nat.cast_pow, Nat.cast_ofNat]
    exact pow_lt_pow_right₀ (by norm_num) (by norm_num)
  by_cases htop : n.natAbs = 2 ^ 53
  · -- There the doubles are two apart.
    have hulp : ulp (n : ℚ) = 2 := by
      unfold ulp
      rw [hlog, htop, Nat.log_pow (by norm_num)]
      norm_num
    rcases Int.natAbs_eq n with hn | hn
    · refine ofRat_of_multiple (n := 2 ^ 52) ?_ hsmall
      rw [hulp, hn, htop]
      norm_num
    · refine ofRat_of_multiple (n := -2 ^ 52) ?_ hsmall
      rw [hulp, hn, htop]
      norm_num
  · have hexp : max ((Nat.log 2 n.natAbs : ℕ) - 52 : ℤ) (-1074) ≤ 0 := by
      have hle : Nat.log 2 n.natAbs ≤ 52 := by
        rcases Nat.eq_zero_or_pos n.natAbs with hzero | hpos
        · rw [hzero]
          norm_num
        · have hlt : Nat.log 2 n.natAbs < 53 :=
            (Nat.log_lt_iff_lt_pow (by norm_num) hpos.ne').2 (lt_of_le_of_ne h htop)
          omega
      omega
    obtain ⟨k, hk⟩ := Int.eq_ofNat_of_zero_le (neg_nonneg.2 hexp)
    refine ofRat_of_multiple (n := n * 2 ^ k) ?_ hsmall
    unfold ulp
    rw [hlog, ← neg_neg (max _ _), hk, zpow_neg, div_inv_eq_mul]
    push_cast
    rfl

/-! ## The text of a double -/

/-- The numerals of so many digits next to `x`: each as a whole number and the
power of ten it is multiplied with. -/
def nearby (x : ℚ) (count : ℕ) : List (ℤ × ℤ) :=
  let e := Int.log 10 x - (count - 1 : ℕ)
  [(⌊x / 10 ^ e⌋, e), (⌈x / 10 ^ e⌉, e)]

/-- The shortest numeral that is read as the double `x`, the nearest of two. -/
def shortest (x : ℚ) : Option (ℤ × ℤ) :=
  (List.range 17).findSome? fun i =>
    let read := (nearby x (i + 1)).filter fun d => ofRat (d.1 * 10 ^ d.2) = .finite x
    match read with
    | [a, b] => some (if |b.1 * 10 ^ b.2 - x| < |a.1 * 10 ^ a.2 - x| then b else a)
    | l => l.head?

/-- A number of at least two digits. -/
def exponentText (n : ℕ) : PyText :=
  if n < 10 then '0' :: Nat.toDigits 10 n else Nat.toDigits 10 n

/-- Digits, with the point after so many of them. -/
def layout (digits : PyText) (point : ℤ) : PyText :=
  if -4 < point && point ≤ 16 then
    if point ≤ 0 then PyText.lit "0." ++ List.replicate (-point).toNat '0' ++ digits
    else if (digits.length : ℤ) ≤ point then
      digits ++ List.replicate (point - digits.length).toNat '0' ++ PyText.lit ".0"
    else digits.take point.toNat ++ '.' :: digits.drop point.toNat
  else
    let exponent := point - 1
    digits.take 1 ++ (if digits.length ≤ 1 then [] else '.' :: digits.drop 1)
      ++ (if exponent < 0 then PyText.lit "e-" else PyText.lit "e+")
      ++ exponentText exponent.natAbs

/-- `repr(float(t))` of a numeral. -/
def repr (t : PyText) : PyText :=
  let minus := if t.head? = some '-' then ['-'] else []
  match ofRat (Decimal.value t) with
  | .finite x =>
    match shortest |x| with
    | some (m, e) =>
      if m = 0 then minus ++ PyText.lit "0.0"
      else
        let digits := Nat.toDigits 10 m.natAbs
        minus ++ layout (PyText.rstripWhere (· == '0') digits) (digits.length + e)
    | none => minus ++ PyText.lit "0.0"
  | .huge negative => if negative then PyText.lit "-inf" else PyText.lit "inf"
  | .nan => PyText.lit "nan"

example : repr (PyText.lit "-12e-7") = PyText.lit "-1.2e-06" := by decide +kernel

end Double
