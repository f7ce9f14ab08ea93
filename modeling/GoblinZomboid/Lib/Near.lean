import GoblinZomboid.Lib.Double
import Mathlib.Tactic.Linarith
import Mathlib.Tactic.FieldSimp
/-!
# Numbers next to a double

Seventeen digits are enough: a number that differs from a double by no more
than `5 / 10 ^ 17` of it is read as that double.
-/

namespace Double

/-! ## `roundEven` -/

theorem abs_roundEven_sub_le (x : ℚ) : |(roundEven x : ℚ) - x| ≤ 1 / 2 := by
  have hlow := Int.floor_le x
  have hhigh := Int.lt_floor_add_one x
  unfold roundEven
  dsimp only
  rw [abs_le]
  split
  · constructor <;> linarith
  split
  · push_cast
    constructor <;> linarith
  split
  · constructor <;> linarith
  · push_cast
    constructor <;> linarith

/-- The whole number within a half is the one next to it. -/
theorem roundEven_eq {x : ℚ} {n : ℤ} (h : |x - n| < 1 / 2) : roundEven x = n := by
  have hnear := abs_roundEven_sub_le x
  have hlt : |(roundEven x : ℚ) - n| < 1 := by
    have hsum := abs_add_le ((roundEven x : ℚ) - x) (x - n)
    rw [sub_add_sub_cancel] at hsum
    linarith
  have hcast : |roundEven x - n| < 1 := by exact_mod_cast hlt
  have hzero := Int.abs_lt_one_iff.1 hcast
  omega

theorem roundEven_mono {x y : ℚ} (h : x ≤ y) : roundEven x ≤ roundEven y := by
  by_contra hlt
  have hx := abs_le.1 (abs_roundEven_sub_le x)
  have hy := abs_le.1 (abs_roundEven_sub_le y)
  have hcast : (roundEven y : ℚ) + 1 ≤ roundEven x := by exact_mod_cast not_le.1 hlt
  -- Both are half-way between the same two, so they are the same number.
  have heq : x = y := by linarith
  rw [heq] at hlt
  exact hlt le_rfl

/-! ## Doubles -/

/-- A rational that is a double. -/
def IsDouble (x : ℚ) : Prop := ofRat x = .finite x

theorem ulp_pos (x : ℚ) : 0 < ulp x := zpow_pos (by norm_num) _

/-- A double is a multiple of its distance. -/
theorem IsDouble.exists_multiple {x : ℚ} (h : IsDouble x) :
    (∃ n : ℤ, x = n * ulp x) ∧ |x| < 2 ^ (1024 : ℕ) := by
  unfold IsDouble ofRat at h
  dsimp only at h
  split at h
  · rename_i hsmall
    have heq := LuaNum.finite.inj h
    rw [heq] at hsmall
    exact ⟨⟨_, heq.symm⟩, hsmall⟩
  · cases h

/-- What is read as `x`: a number within half the distance around it, of which
`x` is a multiple. -/
theorem ofRat_eq {x y : ℚ} (hx : |x| < 2 ^ (1024 : ℕ)) {n : ℤ} (hn : x = n * ulp y)
    (h : |y - x| < ulp y / 2) : ofRat y = .finite x := by
  have hpos := ulp_pos y
  have hround : roundEven (y / ulp y) = n := by
    refine roundEven_eq ?_
    have hsub : y / ulp y - n = (y - x) / ulp y := by
      rw [hn]
      field_simp
    rw [hsub, abs_div, abs_of_pos hpos, div_lt_iff₀ hpos]
    linarith
  unfold ofRat
  simp only [hround, ← hn, if_pos hx]

/-- **What is read is a double.** -/
theorem IsDouble.of_ofRat {x y : ℚ} (h : ofRat y = .finite x) : IsDouble x := by
  unfold ofRat at h
  dsimp only at h
  split at h
  swap
  · cases h
  rename_i hsmall
  have hx := LuaNum.finite.inj h
  rw [hx] at hsmall
  set n := roundEven (y / ulp y) with hn
  suffices hmultiple : ∃ m : ℤ, x = m * ulp x by
    obtain ⟨m, hm⟩ := hmultiple
    refine ofRat_eq hsmall hm ?_
    rw [sub_self, abs_zero]
    exact half_pos (ulp_pos x)
  rcases eq_or_ne x 0 with rfl | hne
  · exact ⟨0, by simp⟩
  have htwo : (2 : ℚ) ≠ 0 := by norm_num
  set k := max (Int.log 2 |y| - 52) (-1074) with hk
  have hulp : ulp y = 2 ^ k := rfl
  have hpos : (0 : ℚ) < 2 ^ k := zpow_pos (by norm_num) _
  -- The rounded quotient has at most 53 bits, or is the power of two above them.
  have hquotient : |y / ulp y| ≤ ((2 ^ 53 : ℤ) : ℚ) := by
    have hlog := (Int.lt_zpow_succ_log_self (b := 2) (by norm_num) |y|).le
    have hscale : ((2 : ℕ) : ℚ) ^ (Int.log 2 |y| + 1) ≤ 2 ^ 53 * 2 ^ k := by
      rw [Nat.cast_ofNat, ← zpow_natCast, ← zpow_add₀ htwo]
      refine zpow_le_zpow_right₀ (by norm_num) ?_
      push_cast
      omega
    rw [hulp, abs_div, abs_of_pos hpos, div_le_iff₀ hpos]
    push_cast
    exact hlog.trans hscale
  have hbits : |n| ≤ 2 ^ 53 := by
    obtain ⟨hlow, hhigh⟩ := abs_le.1 hquotient
    refine abs_le.2 ⟨?_, ?_⟩
    · have hmono := roundEven_mono hlow
      rwa [← Int.cast_neg, roundEven_intCast] at hmono
    · have hmono := roundEven_mono hhigh
      rwa [roundEven_intCast] at hmono
  have habs : |x| = (|n| : ℤ) * 2 ^ k := by
    rw [← hx, hulp, abs_mul, abs_of_pos hpos, Int.cast_abs]
  have hxpos : 0 < |x| := abs_pos.2 hne
  have hlow : (2 : ℚ) ^ Int.log 2 |x| ≤ (|n| : ℤ) * 2 ^ k := by
    have hself := Int.zpow_log_le_self (b := 2) (by norm_num) hxpos
    rw [Nat.cast_ofNat] at hself
    exact hself.trans_eq habs
  have hx' : x = n * 2 ^ k := by rw [← hx, hulp]
  set k' := max (Int.log 2 |x| - 52) (-1074) with hk'
  have hulp' : ulp x = 2 ^ k' := rfl
  have hcast : ((|n| : ℤ) : ℚ) ≤ 2 ^ (53 : ℤ) := by exact_mod_cast hbits
  have hupper : (2 : ℚ) ^ Int.log 2 |x| ≤ 2 ^ (53 + k) := by
    rw [zpow_add₀ htwo]
    exact hlow.trans (mul_le_mul_of_nonneg_right hcast hpos.le)
  have hlog : Int.log 2 |x| ≤ 53 + k := (zpow_le_zpow_iff_right₀ (by norm_num)).1 hupper
  rcases le_or_gt k' k with hle | hgt
  · obtain ⟨j, hj⟩ : ∃ j : ℕ, k = k' + j := ⟨(k - k').toNat, by omega⟩
    refine ⟨n * 2 ^ j, ?_⟩
    rw [hulp', hx', hj, zpow_add₀ htwo, zpow_natCast]
    push_cast
    ring
  · -- Then the rounded quotient is that power of two, which is even.
    have hstep : k' = k + 1 := by omega
    have htop : |n| = 2 ^ 53 := by
      refine le_antisymm hbits ?_
      have heq : Int.log 2 |x| = 53 + k := by omega
      rw [heq, zpow_add₀ htwo] at hlow
      have hcancel := le_of_mul_le_mul_right hlow hpos
      exact_mod_cast hcancel
    obtain ⟨m, hm⟩ : ∃ m, n = 2 * m := by
      rcases abs_choice n with hsign | hsign
      · exact ⟨2 ^ 52, by omega⟩
      · exact ⟨-2 ^ 52, by omega⟩
    refine ⟨m, ?_⟩
    rw [hulp', hx', hstep, zpow_add_one₀ htwo, hm]
    push_cast
    ring

/-- **Seventeen digits are enough.** -/
theorem ofRat_of_near {x y : ℚ} (hx : IsDouble x) (hne : x ≠ 0)
    (h : |y - x| ≤ |x| / (2 * 10 ^ 16)) : ofRat y = .finite x := by
  obtain ⟨⟨n, hn⟩, hsmall⟩ := hx.exists_multiple
  have hxpos : 0 < |x| := abs_pos.2 hne
  have hdiff : |(|y| - |x|)| ≤ |x| / (2 * 10 ^ 16) := (abs_abs_sub_abs_le y x).trans h
  obtain ⟨hlow, hhigh⟩ := abs_le.1 hdiff
  have hypos : 0 < |y| := by
    have hhalf : |x| / (2 * 10 ^ 16) < |x| := div_lt_self hxpos (by norm_num)
    linarith
  -- Both lie between two powers of two.
  set L := Int.log 2 |x| with hL
  set M := Int.log 2 |y| with hM
  have hxlog := Int.zpow_log_le_self (b := 2) (by norm_num) hxpos
  have hxlog' := Int.lt_zpow_succ_log_self (b := 2) (by norm_num) |x|
  have hylog := Int.zpow_log_le_self (b := 2) (by norm_num) hypos
  have hylog' := Int.lt_zpow_succ_log_self (b := 2) (by norm_num) |y|
  rw [← hL, Nat.cast_ofNat] at hxlog hxlog'
  rw [← hM, Nat.cast_ofNat] at hylog hylog'
  have htwo : (2 : ℚ) ≠ 0 := by norm_num
  by_cases hML : M ≤ L
  · -- The distances around `y` divide those around `x`.
    obtain ⟨k, hk⟩ : ∃ k : ℕ, max (L - 52) (-1074) = max (M - 52) (-1074) + k :=
      ⟨(max (L - 52) (-1074) - max (M - 52) (-1074)).toNat, by omega⟩
    have hulp : ulp x = 2 ^ k * ulp y := by
      unfold ulp
      rw [← hL, ← hM, hk, zpow_add₀ htwo, zpow_natCast, mul_comm]
    refine ofRat_eq hsmall (n := n * 2 ^ k) ?_ ?_
    · rw [hn, hulp]
      push_cast
      ring
    · have hle : (2 : ℚ) ^ (M - 52) ≤ ulp y := zpow_le_zpow_right₀ (by norm_num) (le_max_left _ _)
      have hscale : (2 : ℚ) ^ (M + 1) = 2 ^ (53 : ℕ) * 2 ^ (M - 52) := by
        rw [← zpow_natCast, ← zpow_add₀ htwo]
        congr 1
        omega
      rw [hscale] at hylog'
      have hpos : (0 : ℚ) < 2 ^ (M - 52) := zpow_pos (by norm_num) _
      norm_num at h hlow hylog' ⊢
      linarith
  · exfalso
    have hML : L + 1 ≤ M := by omega
    -- There is no double between `x` and the power of two above it.
    have habs : |x| = |(n : ℚ)| * ulp x := by
      conv_lhs => rw [hn, abs_mul, abs_of_pos (ulp_pos x)]
    have hulp : ulp x = 2 ^ max (L - 52) (-1074) := by rw [hL, ulp]
    have hone : (1 : ℚ) ≤ |(n : ℚ)| := by
      have hn0 : n ≠ 0 := by
        rintro rfl
        exact hne (by rw [hn, Int.cast_zero, zero_mul])
      exact_mod_cast Int.one_le_abs hn0
    have hexp : max (L - 52) (-1074) ≤ M := by
      have hle : (2 : ℚ) ^ (-1074 : ℤ) ≤ |x| := by
        calc (2 : ℚ) ^ (-1074 : ℤ) ≤ ulp x := by
              rw [hulp]
              exact zpow_le_zpow_right₀ (by norm_num) (le_max_right _ _)
          _ ≤ |(n : ℚ)| * ulp x := le_mul_of_one_le_left (ulp_pos x).le hone
          _ = |x| := habs.symm
      have hlt := (zpow_lt_zpow_iff_right₀ (by norm_num : (1 : ℚ) < 2)).1 (hle.trans_lt hxlog')
      omega
    obtain ⟨k, hk⟩ : ∃ k : ℕ, M = max (L - 52) (-1074) + k :=
      ⟨(M - max (L - 52) (-1074)).toNat, by omega⟩
    have hpower : (2 : ℚ) ^ M = ((2 ^ k : ℕ) : ℚ) * ulp x := by
      rw [hk, zpow_add₀ htwo, zpow_natCast, hulp, mul_comm]
      push_cast
      rfl
    have hgap : |x| + ulp x ≤ 2 ^ M := by
      have hlt : |x| < 2 ^ M :=
        hxlog'.trans_le (zpow_le_zpow_right₀ (by norm_num) hML)
      rw [hpower, habs] at hlt
      have hcount : |n| < ((2 ^ k : ℕ) : ℤ) := by
        exact_mod_cast lt_of_mul_lt_mul_right hlt (ulp_pos x).le
      have hcount : |(n : ℚ)| + 1 ≤ ((2 ^ k : ℕ) : ℚ) := by exact_mod_cast hcount
      calc |x| + ulp x = (|(n : ℚ)| + 1) * ulp x := by rw [add_mul, one_mul, ← habs]
        _ ≤ ((2 ^ k : ℕ) : ℚ) * ulp x := mul_le_mul_of_nonneg_right hcount (ulp_pos x).le
        _ = 2 ^ M := hpower.symm
    have hle : (2 : ℚ) ^ (L - 52) ≤ ulp x := by
      rw [hulp]
      exact zpow_le_zpow_right₀ (by norm_num) (le_max_left _ _)
    have hscale : (2 : ℚ) ^ (L + 1) = 2 ^ (53 : ℕ) * 2 ^ (L - 52) := by
      rw [← zpow_natCast, ← zpow_add₀ htwo]
      congr 1
      omega
    rw [hscale] at hxlog'
    have hpos : (0 : ℚ) < 2 ^ (L - 52) := zpow_pos (by norm_num) _
    norm_num at hhigh hxlog'
    linarith

end Double
