import GoblinZomboid.Lib.PyNumber
/-!
# Numerals

A numeral of JSON has a sign, a whole part without a leading zero, and
perhaps a fraction and an exponent. What `str` writes of a whole number is
one, and is read back as the number.
-/

namespace Numeral

/-- A whole part: a zero, or digits that do not begin with one. -/
inductive IsWhole : PyText → Prop
  | zero : IsWhole ['0']
  | digits {c : Char} {t : PyText} : c.isDigit = true → c ≠ '0' → (∀ d ∈ t, d.isDigit = true) →
    IsWhole (c :: t)

inductive IsFraction : PyText → Prop
  | none : IsFraction []
  | digits {c : Char} {t : PyText} : c.isDigit = true → (∀ d ∈ t, d.isDigit = true) →
    IsFraction ('.' :: c :: t)

inductive IsSign : PyText → Prop
  | none : IsSign []
  | plus : IsSign ['+']
  | minus : IsSign ['-']

inductive IsExponent : PyText → Prop
  | none : IsExponent []
  | digits {e c : Char} {sign t : PyText} : e = 'e' ∨ e = 'E' → IsSign sign → c.isDigit = true →
    (∀ d ∈ t, d.isDigit = true) → IsExponent (e :: (sign ++ c :: t))

/-- A numeral, in its parts. -/
structure Parts where
  negative : Bool
  whole : PyText
  fraction : PyText
  exponent : PyText
  isWhole : IsWhole whole
  isFraction : IsFraction fraction
  isExponent : IsExponent exponent

def Parts.minus (p : Parts) : PyText := if p.negative then ['-'] else []

def Parts.text (p : Parts) : PyText := p.minus ++ (p.whole ++ (p.fraction ++ p.exponent))

/-- The numeral has a fraction or an exponent. -/
def Parts.Pointed (p : Parts) : Prop := p.fraction ≠ [] ∨ p.exponent ≠ []

theorem ascii_of_isDigit {c : Char} (h : c.isDigit = true) : c.toNat < 128 := by
  have hrange : 48 ≤ c.toNat ∧ c.toNat ≤ 57 := by
    simpa [Char.isDigit, UInt32.le_iff_toNat_le] using h
  omega

theorem IsWhole.ascii {t : PyText} (h : IsWhole t) : ∀ c ∈ t, c.toNat < 128 := by
  cases h with
  | zero => exact List.forall_mem_singleton.2 (by decide)
  | digits hc hne ht =>
    exact List.forall_mem_cons.2 ⟨ascii_of_isDigit hc, fun c hmem => ascii_of_isDigit (ht c hmem)⟩

theorem IsFraction.ascii {t : PyText} (h : IsFraction t) : ∀ c ∈ t, c.toNat < 128 := by
  cases h with
  | none => nofun
  | digits hc ht =>
    refine List.forall_mem_cons.2 ⟨by decide, List.forall_mem_cons.2 ⟨ascii_of_isDigit hc, ?_⟩⟩
    exact fun c hmem => ascii_of_isDigit (ht c hmem)

theorem IsExponent.ascii {t : PyText} (h : IsExponent t) : ∀ c ∈ t, c.toNat < 128 := by
  cases h with
  | none => nofun
  | digits he hsign hc ht =>
    rename_i e d sign t
    have hletter : e.toNat < 128 := by
      rcases he with rfl | rfl
      · decide
      · decide
    have hsigns : ∀ c ∈ sign, c.toNat < 128 := by
      cases hsign with
      | none => nofun
      | plus => exact List.forall_mem_singleton.2 (by decide)
      | minus => exact List.forall_mem_singleton.2 (by decide)
    refine List.forall_mem_cons.2 ⟨hletter, fun c hmem => ?_⟩
    rcases List.mem_append.1 hmem with hmem | hmem
    · exact hsigns c hmem
    rcases List.mem_cons.1 hmem with rfl | hmem
    · exact ascii_of_isDigit hc
    · exact ascii_of_isDigit (ht c hmem)

/-- A numeral is ASCII. -/
theorem Parts.ascii (p : Parts) : ∀ c ∈ p.text, c.toNat < 128 := by
  have hminus : ∀ c ∈ p.minus, c.toNat < 128 := by
    unfold Parts.minus
    split
    · exact List.forall_mem_singleton.2 (by decide)
    · nofun
  intro c hc
  unfold Parts.text at hc
  rcases List.mem_append.1 hc with hc | hc
  · exact hminus c hc
  rcases List.mem_append.1 hc with hc | hc
  · exact p.isWhole.ascii c hc
  rcases List.mem_append.1 hc with hc | hc
  · exact p.isFraction.ascii c hc
  · exact p.isExponent.ascii c hc

/-- The text does not go on with a numeral. -/
def Stops (rest : PyText) : Prop :=
  ∀ c ∈ rest.head?, c.isDigit = false ∧ c ≠ '.' ∧ c ≠ 'e' ∧ c ≠ 'E'

/-- A run of elements that are followed by another. -/
theorem span_append {α : Type} {p : α → Bool} {l rest : List α} (hl : ∀ a ∈ l, p a = true)
    (hrest : ∀ a ∈ rest.head?, p a = false) :
    (l ++ rest).takeWhile p = l ∧ (l ++ rest).dropWhile p = rest := by
  rw [List.takeWhile_append_of_pos hl, List.dropWhile_append_of_pos hl]
  cases rest with
  | nil => exact ⟨List.append_nil l, rfl⟩
  | cons a rest =>
    have ha : ¬p a = true := by
      rw [hrest a rfl]
      exact Bool.false_ne_true
    rw [List.takeWhile_cons_of_neg ha, List.dropWhile_cons_of_neg ha, List.append_nil]
    exact ⟨rfl, rfl⟩

/-! ## Whole numbers -/

theorem isDigit_toDigits {n : ℕ} : ∀ c ∈ Nat.toDigits 10 n, c.isDigit = true := fun _ hc =>
  Nat.isDigit_of_mem_toDigits (by decide) (by decide) hc

/-- The digits of a number do not begin with a zero. -/
theorem toDigits_eq_cons {n : ℕ} (h : 0 < n) :
    ∃ c t, Nat.toDigits 10 n = c :: t ∧ c ≠ '0' := by
  induction n using Nat.strongRecOn with
  | ind n ih =>
    by_cases hsmall : n < 10
    · rw [Nat.toDigits_of_lt_base hsmall]
      refine ⟨_, [], rfl, ?_⟩
      have hall : ∀ k : Fin 10, 0 < k.val → Nat.digitChar k.val ≠ '0' := by decide
      exact hall ⟨n, hsmall⟩ h
    · rw [Nat.toDigits_of_base_le (by decide) (not_lt.1 hsmall)]
      obtain ⟨c, t, heq, hne⟩ := ih (n / 10) (by omega) (by omega)
      rw [heq]
      exact ⟨c, t ++ [Nat.digitChar (n % 10)], rfl, hne⟩

theorem isWhole_toDigits (n : ℕ) : IsWhole (Nat.toDigits 10 n) := by
  rcases Nat.eq_zero_or_pos n with rfl | hpos
  · exact .zero
  · obtain ⟨c, t, heq, hne⟩ := toDigits_eq_cons hpos
    have hdigits := isDigit_toDigits (n := n)
    rw [heq] at hdigits ⊢
    exact .digits (hdigits c List.mem_cons_self) hne fun d hd => hdigits d (List.mem_cons_of_mem _ hd)

/-- The numeral of a whole number. -/
def ofInt (n : ℤ) : Parts where
  negative := decide (n < 0)
  whole := Nat.toDigits 10 n.natAbs
  fraction := []
  exponent := []
  isWhole := isWhole_toDigits _
  isFraction := .none
  isExponent := .none

/-- **What `str` writes** of a whole number. -/
theorem lit_toString (n : ℤ) : PyText.lit (toString n) = (ofInt n).text := by
  cases n with
  | ofNat n =>
    have hstring : toString (Int.ofNat n) = Nat.repr n := rfl
    rw [PyText.lit, hstring, Nat.repr]
    simp [Parts.text, Parts.minus, ofInt]
  | negSucc n =>
    have hstring : toString (Int.negSucc n) = "-" ++ Nat.repr (n + 1) := rfl
    rw [PyText.lit, hstring, Nat.repr]
    simp [Parts.text, Parts.minus, ofInt]

theorem digits_toDigits (n : ℕ) : Decimal.digits (Nat.toDigits 10 n) = n := by
  have h := Nat.ofDigitChars_ten_toDigits (n := n)
  unfold Nat.ofDigitChars at h
  unfold Decimal.digits
  exact h

theorem signed_ofInt (n : ℤ) : Decimal.signed (ofInt n).negative (Decimal.digits (ofInt n).whole) = n := by
  have hdigits : Decimal.digits (ofInt n).whole = n.natAbs := digits_toDigits _
  rw [hdigits]
  unfold Decimal.signed ofInt
  by_cases hn : n < 0
  · rw [if_pos (decide_eq_true hn)]
    omega
  · rw [if_neg (by simpa using hn)]
    omega

end Numeral
