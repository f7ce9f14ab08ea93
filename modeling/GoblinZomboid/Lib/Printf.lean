import GoblinZomboid.Lib.Near
import GoblinZomboid.Lib.Numeral
import GoblinZomboid.Lib.PyText
import Mathlib.Tactic.Ring
/-!
# `%.17g`

What C prints of a double with the format `%.17g`: seventeen digits next to
it, without the zeros at the end of a fraction, and with an exponent only for
a number that is very small or very large. A zero keeps its sign.
-/

namespace Double

/-- The 17 digits next to `x` as one number, and the exponent of the first. -/
def scientific (x : ℚ) : ℕ × ℤ :=
  let e := Int.log 10 x
  let m := (roundEven (x / 10 ^ (e - 16))).toNat
  if m = 10 ^ 17 then (10 ^ 16, e + 1) else (m, e)

/-- An exponent that is not printed. -/
def fixed (e : ℤ) : Bool := -4 ≤ e && e < 17

def wholeText (m : ℕ) (e : ℤ) : PyText :=
  if fixed e && e < 0 then ['0']
  else (Nat.toDigits 10 m).take ((if fixed e then e.toNat else 0) + 1)

/-- The digits behind the point, with the zeros at their end. -/
def fractionDigits (m : ℕ) (e : ℤ) : PyText :=
  if fixed e && e < 0 then List.replicate (-e - 1).toNat '0' ++ Nat.toDigits 10 m
  else (Nat.toDigits 10 m).drop ((if fixed e then e.toNat else 0) + 1)

def trim (digits : PyText) : PyText := PyText.rstripWhere (· == '0') digits

def fractionText (digits : PyText) : PyText :=
  if (trim digits).isEmpty then [] else '.' :: trim digits

def exponentPart (e : ℤ) : PyText :=
  if fixed e then []
  else 'e' :: ((if e < 0 then ['-'] else ['+']) ++ exponentText e.natAbs)

theorem isWhole_wholeText (m : ℕ) (e : ℤ) : Numeral.IsWhole (wholeText m e) := by
  unfold wholeText
  split
  · exact .zero
  · rcases Nat.eq_zero_or_pos m with rfl | hpos
    · rw [Nat.toDigits_zero, List.take_succ_cons, List.take_nil]
      exact .zero
    · obtain ⟨c, t, heq, hne⟩ := Numeral.toDigits_eq_cons hpos
      have hdigits := Numeral.isDigit_toDigits (n := m)
      rw [heq] at hdigits ⊢
      rw [List.take_succ_cons]
      exact .digits (hdigits c List.mem_cons_self) hne fun d hd =>
        hdigits d (List.mem_cons_of_mem _ (List.mem_of_mem_take hd))

theorem isDigit_fractionDigits (m : ℕ) (e : ℤ) : ∀ c ∈ fractionDigits m e, c.isDigit = true := by
  have hdigits := Numeral.isDigit_toDigits (n := m)
  unfold fractionDigits
  split
  · intro c hc
    rcases List.mem_append.1 hc with hc | hc
    · rw [List.eq_of_mem_replicate hc]
      decide
    · exact hdigits c hc
  · exact fun c hc => hdigits c (List.mem_of_mem_drop hc)

/-- The digits with the zeros that were taken off. -/
theorem trim_append (digits : PyText) :
    ∃ k, digits = trim digits ++ List.replicate k '0' := by
  refine ⟨(digits.reverse.takeWhile (· == '0')).length, ?_⟩
  have hzeros : digits.reverse.takeWhile (· == '0') =
      List.replicate (digits.reverse.takeWhile (· == '0')).length '0' :=
    List.eq_replicate_iff.2 ⟨rfl, fun c hc => by simpa using List.mem_takeWhile_imp hc⟩
  have hsplit := congrArg List.reverse
    (List.takeWhile_append_dropWhile (p := (· == '0')) (l := digits.reverse))
  rw [List.reverse_append, List.reverse_reverse, hzeros, List.reverse_replicate] at hsplit
  exact hsplit.symm

theorem isFraction_fractionText {digits : PyText} (h : ∀ c ∈ digits, c.isDigit = true) :
    Numeral.IsFraction (fractionText digits) := by
  have hall : ∀ c ∈ trim digits, c.isDigit = true := by
    obtain ⟨k, hk⟩ := trim_append digits
    intro c hc
    refine h c ?_
    rw [hk]
    exact List.mem_append_left _ hc
  unfold fractionText
  rcases htrim : trim digits with _ | ⟨c, t⟩
  · exact .none
  · rw [htrim] at hall
    exact .digits (hall c List.mem_cons_self) fun d hd => hall d (List.mem_cons_of_mem _ hd)

theorem exponentText_eq_cons (n : ℕ) : ∃ c t, exponentText n = c :: t ∧ c.isDigit = true ∧
    ∀ d ∈ t, d.isDigit = true := by
  have hdigits := Numeral.isDigit_toDigits (n := n)
  unfold exponentText
  split
  · exact ⟨'0', _, rfl, by decide, hdigits⟩
  · rcases htext : Nat.toDigits 10 n with _ | ⟨c, t⟩
    · exact absurd htext Nat.toDigits_ne_nil
    · rw [htext] at hdigits
      exact ⟨c, t, rfl, hdigits c List.mem_cons_self,
        fun d hd => hdigits d (List.mem_cons_of_mem _ hd)⟩

theorem isExponent_exponentPart (e : ℤ) : Numeral.IsExponent (exponentPart e) := by
  unfold exponentPart
  split
  · exact .none
  · have hsign : Numeral.IsSign (if e < 0 then ['-'] else ['+']) := by
      split
      · exact .minus
      · exact .plus
    obtain ⟨c, t, htext, hc, ht⟩ := exponentText_eq_cons e.natAbs
    rw [htext]
    exact .digits (.inl rfl) hsign hc ht

/-- `string.format("%.17g", x)`; `minus` is the sign of a zero. -/
def general (minus : Bool) (x : ℚ) : Numeral.Parts where
  negative := if x = 0 then minus else decide (x < 0)
  whole := wholeText (scientific |x|).1 (scientific |x|).2
  fraction := fractionText (fractionDigits (scientific |x|).1 (scientific |x|).2)
  exponent := exponentPart (scientific |x|).2
  isWhole := isWhole_wholeText _ _
  isFraction := isFraction_fractionText (isDigit_fractionDigits _ _)
  isExponent := isExponent_exponentPart _

/-! ## The value of what is printed -/

theorem digits_append_replicate (t : PyText) (k : ℕ) :
    Decimal.digits (t ++ List.replicate k '0') = Decimal.digits t * 10 ^ k := by
  induction k with
  | zero => rw [List.replicate_zero, List.append_nil, pow_zero, mul_one]
  | succ k ih =>
    have hstep (s : PyText) : Decimal.digits (s ++ ['0']) = 10 * Decimal.digits s := by
      unfold Decimal.digits
      rw [List.foldl_append]
      rfl
    rw [List.replicate_succ', ← List.append_assoc, hstep, ih, pow_succ]
    ring

theorem digits_replicate_append (k : ℕ) (t : PyText) :
    Decimal.digits (List.replicate k '0' ++ t) = Decimal.digits t := by
  have hzero (k : ℕ) : Decimal.digits (List.replicate k '0') = 0 := by
    have h := digits_append_replicate [] k
    rw [List.nil_append] at h
    rw [h]
    exact Nat.zero_mul _
  unfold Decimal.digits at hzero ⊢
  rw [List.foldl_append, hzero]

/-- The digits behind the point of a numeral. -/
def behindPoint (fraction : PyText) : PyText := fraction.drop 1

theorem power_neg (k : ℕ) : Decimal.power (-k) = 1 / 10 ^ k := by
  unfold Decimal.power
  split
  · rename_i h
    obtain rfl : k = 0 := by omega
    norm_num
  · rw [neg_neg, Int.toNat_natCast]

/-- **The value of a numeral** without an exponent. -/
theorem value_text {p : Numeral.Parts} (h : p.exponent = []) :
    Decimal.value p.text =
      (Decimal.signed p.negative (Decimal.digits (p.whole ++ behindPoint p.fraction)) : ℚ) /
        10 ^ (behindPoint p.fraction).length := by
  obtain ⟨negative, whole, fraction, exponent, hwhole, hfraction, hexponent⟩ := p
  obtain rfl : exponent = [] := h
  show Decimal.value ((if negative then ['-'] else []) ++ (whole ++ (fraction ++ []))) = _
  obtain ⟨c, t, rfl, hdigits⟩ : ∃ c t, whole = c :: t ∧ ∀ d ∈ c :: t, d.isDigit = true := by
    cases hwhole with
    | zero => exact ⟨'0', [], rfl, List.forall_mem_singleton.2 (by decide)⟩
    | digits hc hne ht => exact ⟨_, _, rfl, List.forall_mem_cons.2 ⟨hc, ht⟩⟩
  have hsign : Decimal.sign ((if negative then ['-'] else []) ++ (c :: t ++ fraction)) =
      (negative, c :: t ++ fraction) := by
    cases negative with
    | true => rfl
    | false =>
      have hc := hdigits c List.mem_cons_self
      show Decimal.sign (c :: (t ++ fraction)) = _
      unfold Decimal.sign
      split
      · rename_i heq
        rw [(List.cons.inj heq).1] at hc
        exact absurd hc (by decide)
      · rename_i heq
        rw [(List.cons.inj heq).1] at hc
        exact absurd hc (by decide)
      · rfl
  have hbehind : ∀ d ∈ fraction, d = '.' ∨ d.isDigit = true := by
    cases hfraction with
    | none => nofun
    | digits hc ht =>
      exact List.forall_mem_cons.2 ⟨.inl rfl, List.forall_mem_cons.2 ⟨.inr hc,
        fun d hd => .inr (ht d hd)⟩⟩
  have hplain : ∀ d ∈ c :: t ++ fraction, (!(d == 'e' || d == 'E')) = true := by
    intro d hd
    have hd : d = '.' ∨ d.isDigit = true := by
      rcases List.mem_append.1 hd with hd | hd
      · exact .inr (hdigits d hd)
      · exact hbehind d hd
    rw [Bool.not_eq_true', Bool.or_eq_false_iff, beq_eq_false_iff_ne, beq_eq_false_iff_ne]
    rcases hd with rfl | hd
    · decide
    · exact ⟨by rintro rfl; exact absurd hd (by decide), by rintro rfl; exact absurd hd (by decide)⟩
  have hpoint : (c :: t ++ fraction).takeWhile (· != '.') = c :: t ∧
      (c :: t ++ fraction).dropWhile (· != '.') = fraction := by
    refine Numeral.span_append (fun d hd => ?_) ?_
    · rw [bne_iff_ne]
      rintro rfl
      exact absurd (hdigits _ hd) (by decide)
    · cases hfraction with
      | none => nofun
      | digits hc ht =>
        intro d hd
        obtain rfl : '.' = d := Option.some_inj.1 hd
        decide
  unfold Decimal.value
  rw [List.append_nil, hsign]
  dsimp only
  rw [List.takeWhile_eq_self_iff.2 hplain, List.dropWhile_eq_nil_iff.2 hplain, hpoint.1, hpoint.2]
  show _ * Decimal.power (0 - ((fraction.drop 1).length : ℤ)) = _
  rw [zero_sub, power_neg, mul_one_div]
  rfl

/-! ## Seventeen digits -/

/-- **The digits of `%.17g`**: seventeen, and next to the number. -/
theorem scientific_spec {x : ℚ} (hx : 0 < x) :
    10 ^ 16 ≤ (scientific x).1 ∧ (scientific x).1 < 10 ^ 17 ∧
      |((scientific x).1 : ℚ) * 10 ^ ((scientific x).2 - 16) - x| ≤ x / (2 * 10 ^ 16) := by
  have hlow := Int.zpow_log_le_self (b := 10) (by norm_num) hx
  have hhigh := Int.lt_zpow_succ_log_self (b := 10) (by norm_num) x
  rw [Nat.cast_ofNat] at hlow hhigh
  set e := Int.log 10 x with he
  have hten : (10 : ℚ) ≠ 0 := by norm_num
  have hpos : (0 : ℚ) < 10 ^ (e - 16) := zpow_pos (by norm_num) _
  have hscale : (10 : ℚ) ^ e = 10 ^ 16 * 10 ^ (e - 16) := by
    rw [← zpow_natCast, ← zpow_add₀ hten]
    congr 1
    omega
  have hscale' : (10 : ℚ) ^ (e + 1) = 10 ^ 17 * 10 ^ (e - 16) := by
    rw [← zpow_natCast, ← zpow_add₀ hten]
    congr 1
    omega
  rw [hscale] at hlow
  rw [hscale'] at hhigh
  have hfrom : ((10 ^ 16 : ℤ) : ℚ) ≤ x / 10 ^ (e - 16) := by
    rw [le_div_iff₀ hpos]
    push_cast
    exact hlow
  have hto : x / 10 ^ (e - 16) ≤ ((10 ^ 17 : ℤ) : ℚ) := by
    rw [div_le_iff₀ hpos]
    push_cast
    exact hhigh.le
  have hround := abs_roundEven_sub_le (x / 10 ^ (e - 16))
  have hmin := roundEven_mono hfrom
  have hmax := roundEven_mono hto
  rw [roundEven_intCast] at hmin hmax
  set m := roundEven (x / 10 ^ (e - 16)) with hm
  have hcast : ((m.toNat : ℕ) : ℚ) = m := by
    have hnat : ((m.toNat : ℕ) : ℤ) = m := Int.toNat_of_nonneg (by omega)
    exact_mod_cast congrArg (Int.cast (R := ℚ)) hnat
  -- The digits are within a half of the last one.
  have hnear : |(m : ℚ) * 10 ^ (e - 16) - x| ≤ x / (2 * 10 ^ 16) := by
    have hback : (m : ℚ) * 10 ^ (e - 16) - x = (m - x / 10 ^ (e - 16)) * 10 ^ (e - 16) := by
      field_simp
    have hlast : (10 : ℚ) ^ (e - 16) ≤ x / 10 ^ 16 := by
      rw [le_div_iff₀ (by norm_num)]
      linarith
    calc |(m : ℚ) * 10 ^ (e - 16) - x| = |m - x / 10 ^ (e - 16)| * 10 ^ (e - 16) := by
          rw [hback, abs_mul, abs_of_pos hpos]
      _ ≤ 1 / 2 * 10 ^ (e - 16) := mul_le_mul_of_nonneg_right hround hpos.le
      _ ≤ 1 / 2 * (x / 10 ^ 16) := mul_le_mul_of_nonneg_left hlast (by norm_num)
      _ = x / (2 * 10 ^ 16) := by ring
  have hdef : scientific x = if m.toNat = 10 ^ 17 then (10 ^ 16, e + 1) else (m.toNat, e) := rfl
  rw [hdef]
  split
  · rename_i hcarry
    have hm17 : (m : ℚ) = 10 ^ 17 := by
      rw [← hcast, hcarry]
      norm_num
    refine ⟨le_rfl, by norm_num, ?_⟩
    have hshift : (10 : ℚ) ^ (e + 1 - 16) = 10 * 10 ^ (e - 16) := by
      rw [show e + 1 - 16 = 1 + (e - 16) by omega, zpow_add₀ hten, zpow_one]
    rw [hm17] at hnear
    have hsame : ((10 ^ 16 : ℕ) : ℚ) * 10 ^ (e + 1 - 16) = 10 ^ 17 * 10 ^ (e - 16) := by
      rw [hshift]
      push_cast
      ring
    rw [hsame]
    exact hnear
  · rename_i hcarry
    refine ⟨?_, ?_, ?_⟩
    · show 10 ^ 16 ≤ m.toNat
      omega
    · show m.toNat < 10 ^ 17
      omega
    · show |((m.toNat : ℕ) : ℚ) * 10 ^ (e - 16) - x| ≤ _
      rw [hcast]
      exact hnear

theorem length_toDigits {m : ℕ} (hlow : 10 ^ 16 ≤ m) (hhigh : m < 10 ^ 17) :
    (Nat.toDigits 10 m).length = 17 := by
  have hle := (Nat.length_toDigits_le_iff (b := 10) (n := m) (k := 17) (by decide) (by decide)).2
    hhigh
  have hgt := (Nat.length_toDigits_le_iff (b := 10) (n := m) (k := 16) (by decide) (by decide)).not.2
    (not_lt.2 hlow)
  omega

/-- The digits that are printed without an exponent. -/
theorem digits_fixed {m : ℕ} {e : ℤ} (hlow : 10 ^ 16 ≤ m) (hhigh : m < 10 ^ 17)
    (hfixed : fixed e = true) :
    Decimal.digits (wholeText m e ++ fractionDigits m e) = m ∧
      ((fractionDigits m e).length : ℤ) = 16 - e := by
  have hlen := length_toDigits hlow hhigh
  have hrange : -4 ≤ e ∧ e < 17 := by simpa [fixed] using hfixed
  unfold wholeText fractionDigits
  rw [hfixed, Bool.true_and]
  by_cases hneg : e < 0
  · rw [if_pos (decide_eq_true hneg), if_pos (decide_eq_true hneg)]
    constructor
    · have hone : (['0'] : PyText) = List.replicate 1 '0' := rfl
      rw [hone, digits_replicate_append, digits_replicate_append, Numeral.digits_toDigits]
    · rw [List.length_append, List.length_replicate, hlen]
      omega
  · rw [decide_eq_false hneg, if_neg Bool.false_ne_true, if_neg Bool.false_ne_true, if_pos rfl,
      List.take_append_drop, List.length_drop, hlen]
    refine ⟨Numeral.digits_toDigits m, ?_⟩
    omega

theorem behindPoint_fractionText (digits : PyText) :
    behindPoint (fractionText digits) = trim digits := by
  unfold fractionText
  rcases trim digits with _ | ⟨c, t⟩ <;> rfl

/-- **The value of what is printed** without an exponent. -/
theorem value_general {minus : Bool} {x : ℚ} (hx : x ≠ 0)
    (hfixed : fixed (scientific |x|).2 = true) :
    Decimal.value (general minus x).text =
      (if x < 0 then -1 else 1) *
        (((scientific |x|).1 : ℚ) * 10 ^ ((scientific |x|).2 - 16)) := by
  obtain ⟨hlow, hhigh, -⟩ := scientific_spec (abs_pos.2 hx)
  obtain ⟨hdigits, hlen⟩ := digits_fixed hlow hhigh hfixed
  have hexponent : (general minus x).exponent = [] := by
    show exponentPart (scientific |x|).2 = []
    rw [exponentPart, if_pos hfixed]
  rw [value_text hexponent]
  show (Decimal.signed (if x = 0 then minus else decide (x < 0)) (Decimal.digits
    (wholeText _ _ ++ behindPoint (fractionText _))) : ℚ) /
      10 ^ (behindPoint (fractionText _)).length = _
  rw [behindPoint_fractionText, if_neg hx]
  generalize fractionDigits (scientific |x|).1 (scientific |x|).2 = fraction at hdigits hlen ⊢
  generalize wholeText (scientific |x|).1 (scientific |x|).2 = whole at hdigits ⊢
  generalize (scientific |x|).1 = m at hdigits ⊢
  generalize (scientific |x|).2 = e at hlen ⊢
  obtain ⟨k, hk⟩ := trim_append fraction
  generalize trim fraction = kept at hk ⊢
  rw [hk, ← List.append_assoc, digits_append_replicate] at hdigits
  rw [hk, List.length_append, List.length_replicate] at hlen
  have hten : (10 : ℚ) ≠ 0 := by norm_num
  have hvalue : (Decimal.digits (whole ++ kept) : ℚ) / 10 ^ kept.length = m * 10 ^ (e - 16) := by
    have hexp : e - 16 = -((kept.length : ℤ) + k) := by
      push_cast at hlen
      omega
    rw [← hdigits, hexp, zpow_neg, zpow_add₀ hten, zpow_natCast, zpow_natCast]
    push_cast
    field_simp
  rw [← hvalue, Decimal.signed]
  by_cases hneg : x < 0
  · rw [if_pos (decide_eq_true hneg), if_pos hneg]
    push_cast
    ring
  · rw [if_neg (by simpa using hneg), if_neg hneg]
    push_cast
    ring

/-- **What `%.17g` prints of a double** is read as that double, where no
exponent is printed. -/
theorem ofRat_general {minus : Bool} {x : ℚ} (hx : IsDouble x)
    (hfixed : fixed (scientific |x|).2 = true) :
    ofRat (Decimal.value (general minus x).text) = .finite x := by
  by_cases hzero : x = 0
  · subst hzero
    cases minus <;> decide +kernel
  · obtain ⟨-, -, hnear⟩ := scientific_spec (abs_pos.2 hzero)
    refine ofRat_of_near hx hzero ?_
    rw [value_general hzero hfixed]
    generalize ((scientific |x|).1 : ℚ) * 10 ^ ((scientific |x|).2 - 16) = y at hnear ⊢
    by_cases hneg : x < 0
    · rw [if_pos hneg]
      rw [abs_of_neg hneg] at hnear ⊢
      have hswap : -1 * y - x = -(y - -x) := by ring
      rw [hswap, abs_neg]
      exact hnear
    · rw [if_neg hneg, one_mul]
      rw [abs_of_nonneg (not_lt.1 hneg)] at hnear ⊢
      exact hnear

/-- A double between two powers of two is a multiple of the distance there. -/
theorem IsDouble.abs_eq {x : ℚ} (hx : IsDouble x) {k : ℤ} (hlow : 2 ^ k ≤ |x|)
    (hhigh : |x| < 2 ^ (k + 1)) (hk : -1022 ≤ k) : ∃ n : ℤ, |x| = n * 2 ^ (k - 52) := by
  obtain ⟨⟨n, hn⟩, -⟩ := hx.exists_multiple
  have hpos : 0 < |x| := lt_of_lt_of_le (zpow_pos (by norm_num) _) hlow
  have hlog : Int.log 2 |x| = k := by
    have hge := (Int.zpow_le_iff_le_log (b := 2) (by norm_num) hpos).1 (by exact_mod_cast hlow)
    have hlt := (Int.lt_zpow_iff_log_lt (b := 2) (by norm_num) hpos).1 (by exact_mod_cast hhigh)
    omega
  have hulp : ulp x = 2 ^ (k - 52) := by
    unfold ulp
    rw [hlog, max_eq_left (by omega)]
  refine ⟨|n|, ?_⟩
  conv_lhs => rw [hn, abs_mul, abs_of_pos (ulp_pos x), hulp]
  push_cast
  rfl

/-- The exponent that is printed: that of the number, or one more where the
digits round up to the next power of ten. -/
theorem scientific_exponent (x : ℚ) : (scientific x).2 = Int.log 10 x ∨
    ((scientific x).2 = Int.log 10 x + 1 ∧
      10 ^ 17 - 1 / 2 ≤ x / 10 ^ (Int.log 10 x - 16)) := by
  have hdef : scientific x = if (roundEven (x / 10 ^ (Int.log 10 x - 16))).toNat = 10 ^ 17 then
    (10 ^ 16, Int.log 10 x + 1) else
      ((roundEven (x / 10 ^ (Int.log 10 x - 16))).toNat, Int.log 10 x) := rfl
  rw [hdef]
  split
  · rename_i hcarry
    refine .inr ⟨rfl, ?_⟩
    have hround : roundEven (x / 10 ^ (Int.log 10 x - 16)) = 10 ^ 17 := by omega
    have hnear := abs_le.1 (abs_roundEven_sub_le (x / 10 ^ (Int.log 10 x - 16)))
    rw [hround] at hnear
    push_cast at hnear
    linarith
  · exact .inl rfl

/-- **Where no exponent is printed**: zero, and from `0.0001` to below `1e17`.
No double is so close to either bound that it is rounded over it. -/
theorem fixed_iff {x : ℚ} (hx : IsDouble x) :
    fixed (scientific |x|).2 = true ↔ x = 0 ∨ (1 / 10 ^ 4 ≤ |x| ∧ |x| < 10 ^ 17) := by
  by_cases hzero : x = 0
  · subst hzero
    exact ⟨fun _ => .inl rfl, fun _ => by decide +kernel⟩
  have hpos : 0 < |x| := abs_pos.2 hzero
  have hlow (k : ℤ) : (10 : ℚ) ^ k ≤ |x| ↔ k ≤ Int.log 10 |x| := by
    have h := Int.zpow_le_iff_le_log (b := 10) (x := k) (by norm_num) hpos
    rwa [Nat.cast_ofNat] at h
  have hhigh (k : ℤ) : |x| < (10 : ℚ) ^ k ↔ Int.log 10 |x| < k := by
    have h := Int.lt_zpow_iff_log_lt (b := 10) (x := k) (by norm_num) hpos
    rwa [Nat.cast_ofNat] at h
  have hbounds : (1 / 10 ^ 4 ≤ |x| ∧ |x| < 10 ^ 17) ↔
      -4 ≤ Int.log 10 |x| ∧ Int.log 10 |x| < 17 := by
    have hsmall : (1 / 10 ^ 4 : ℚ) = 10 ^ (-4 : ℤ) := by norm_num
    have hlarge : (10 ^ 17 : ℚ) = 10 ^ (17 : ℤ) := by norm_num
    rw [hsmall, hlarge, hlow, hhigh]
  rw [hbounds, fixed, Bool.and_eq_true, decide_eq_true_eq, decide_eq_true_eq]
  have hor : (x = 0 ∨ (-4 ≤ Int.log 10 |x| ∧ Int.log 10 |x| < 17)) ↔
      (-4 ≤ Int.log 10 |x| ∧ Int.log 10 |x| < 17) := or_iff_right hzero
  rw [hor]
  rcases scientific_exponent |x| with heq | ⟨heq, hcarry⟩
  · rw [heq]
  -- The digits are rounded up, which happens at neither bound.
  have hnotSmall : Int.log 10 |x| ≠ -5 := by
    intro hlog
    have hbelow : |x| < 1 / 10 ^ 4 := by
      have h := (hhigh (-4)).2 (by omega)
      norm_num at h ⊢
      exact h
    rw [hlog] at hcarry
    norm_num at hcarry
    have hcarry : (1 : ℚ) / 10 ^ 4 - 1 / (2 * 10 ^ 21) ≤ |x| := by
      norm_num
      linarith
    obtain ⟨n, hn⟩ := hx.abs_eq (k := -14) (by norm_num at hcarry ⊢; linarith)
      (by norm_num at hbelow ⊢; linarith) (by norm_num)
    rw [hn] at hbelow hcarry
    norm_num at hbelow hcarry
    have hle : n < 7378697629483821 := by
      have h : (n : ℚ) < (7378697629483821 : ℤ) := by
        push_cast
        linarith
      exact_mod_cast h
    have hge : 7378697629483820 < n := by
      have h : ((7378697629483820 : ℤ) : ℚ) < n := by
        push_cast
        linarith
      exact_mod_cast h
    omega
  have hnotLarge : Int.log 10 |x| ≠ 16 := by
    intro hlog
    have hbelow : |x| < 10 ^ 17 := by
      have h := (hhigh 17).2 (by omega)
      norm_num at h ⊢
      exact h
    rw [hlog] at hcarry
    norm_num at hcarry hbelow
    obtain ⟨n, hn⟩ := hx.abs_eq (k := 56) (by norm_num; linarith) (by norm_num; linarith)
      (by norm_num)
    rw [hn] at hbelow hcarry
    norm_num at hbelow hcarry
    have hle : n < 6250000000000000 := by
      have h : (n : ℚ) < (6250000000000000 : ℤ) := by
        push_cast
        linarith
      exact_mod_cast h
    have hge : 6249999999999999 < n := by
      have h : ((6249999999999999 : ℤ) : ℚ) < n := by
        push_cast
        linarith
      exact_mod_cast h
    omega
  rw [heq]
  omega

end Double
