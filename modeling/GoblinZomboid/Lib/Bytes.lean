import Mathlib.Data.List.Basic
import Mathlib.Data.List.Chain
import Mathlib.Data.List.Infix
import Mathlib.Data.Nat.Notation
/-!
# Byte strings

A string of the scripting side is its list of bytes: lengths, classes and
case folding are read per byte, in the "C" locale. Literals are written
as text and stand for their UTF-8 bytes.
-/

/-- A byte string. -/
abbrev Bytes := List UInt8

namespace Bytes

/-- Byte strings are compared byte by byte. -/
instance : LawfulBEq Bytes := inferInstance

/-- The bytes of a literal. -/
def lit (s : String) : Bytes := s.toUTF8.data.toList

/-! ## Classes and case -/

def isUpper (b : UInt8) : Bool := 65 ≤ b && b ≤ 90

def isLower (b : UInt8) : Bool := 97 ≤ b && b ≤ 122

def isAlpha (b : UInt8) : Bool := isUpper b || isLower b

def isDigit (b : UInt8) : Bool := 48 ≤ b && b ≤ 57

def isAlnum (b : UInt8) : Bool := isAlpha b || isDigit b

/-- `%c`: the control bytes, DEL among them. -/
def isCntrl (b : UInt8) : Bool := b < 32 || b == 127

/-- `%s`: blank, tab, newline, vertical tab, form feed, return. -/
def isSpace (b : UInt8) : Bool := b == 32 || (9 ≤ b && b ≤ 13)

/-- `%p`: printable, neither a blank nor alphanumeric. -/
def isPunct (b : UInt8) : Bool := 33 ≤ b && b ≤ 126 && !isAlnum b

def lowerByte (b : UInt8) : UInt8 := if isUpper b then b + 32 else b

def upperByte (b : UInt8) : UInt8 := if isLower b then b - 32 else b

/-- `string.lower`. -/
def lower (s : Bytes) : Bytes := s.map lowerByte

/-- `string.upper`. -/
def upper (s : Bytes) : Bytes := s.map upperByte

@[simp] theorem length_lower (s : Bytes) : (lower s).length = s.length := List.length_map _

@[simp] theorem length_upper (s : Bytes) : (upper s).length = s.length := List.length_map _

theorem lower_append (s t : Bytes) : lower (s ++ t) = lower s ++ lower t := List.map_append

/-- A byte-wise fact is settled by running over the 256 bytes. -/
theorem forall_byte {p : UInt8 → Prop} (h : ∀ i : Fin 256, p ⟨⟨i⟩⟩) (b : UInt8) : p b :=
  h b.toBitVec.toFin

theorem lowerByte_lowerByte (b : UInt8) : lowerByte (lowerByte b) = lowerByte b :=
  forall_byte (p := fun b => lowerByte (lowerByte b) = lowerByte b) (by decide +kernel) b

@[simp] theorem lower_lower (s : Bytes) : lower (lower s) = lower s := by
  simp only [lower, List.map_map]
  exact List.map_congr_left fun b _ => lowerByte_lowerByte b

/-! ## Decimal numerals -/

/-- `tostring` of a natural number. -/
def decimal (n : ℕ) : Bytes := (Nat.toDigits 10 n).map fun c => c.toNat.toUInt8

theorem isDigit_of_mem_decimal {n : ℕ} {b : UInt8} (h : b ∈ decimal n) : isDigit b = true := by
  obtain ⟨c, hc, rfl⟩ := List.mem_map.1 h
  have hd : c.isDigit = true := Nat.isDigit_of_mem_toDigits (by decide) (by decide) hc
  simp only [Char.isDigit, Bool.and_eq_true, decide_eq_true_eq, UInt32.le_iff_toNat_le] at hd
  have hlo : 48 ≤ c.toNat := hd.1
  have hhi : c.toNat ≤ 57 := hd.2
  simp only [isDigit, Bool.and_eq_true, decide_eq_true_eq, UInt8.le_iff_toNat_le]
  constructor <;> simp <;> omega

theorem decimal_injective : Function.Injective decimal := by
  intro m n h
  have hcode : ∀ c : Char, c.isDigit → Char.ofNat (c.toNat.toUInt8).toNat = c := by
    intro c hc
    simp only [Char.isDigit, Bool.and_eq_true, decide_eq_true_eq, UInt32.le_iff_toNat_le] at hc
    have hhi : c.toNat ≤ 57 := hc.2
    have hsmall : c.toNat.toUInt8.toNat = c.toNat := by simp; omega
    rw [hsmall, Char.ofNat_toNat]
  have hback : ∀ k, (decimal k).map (fun b => Char.ofNat b.toNat) = Nat.toDigits 10 k := by
    intro k
    rw [decimal, List.map_map]
    conv_rhs => rw [← List.map_id (Nat.toDigits 10 k)]
    exact List.map_congr_left fun c hc =>
      hcode c (Nat.isDigit_of_mem_toDigits (by decide) (by decide) hc)
  have hdigits : Nat.toDigits 10 m = Nat.toDigits 10 n := by rw [← hback, ← hback, h]
  rw [← Nat.ofDigitChars_ten_toDigits (n := m), hdigits, Nat.ofDigitChars_ten_toDigits]

/-- **Reading up to a separator.** Two words that avoid the separator and
continue with it are the same word when the strings are. -/
theorem append_cons_inj_of_notMem {a b x y : Bytes} {c : UInt8} (ha : c ∉ a) (hb : c ∉ b)
    (h : a ++ c :: x = b ++ c :: y) : a = b ∧ x = y := by
  induction a generalizing b with
  | nil =>
    cases b with
    | nil => simpa using h
    | cons d b =>
      simp only [List.nil_append, List.cons_append, List.cons.injEq] at h
      exact absurd (h.1 ▸ List.mem_cons_self) hb
  | cons e a ih =>
    cases b with
    | nil =>
      simp only [List.nil_append, List.cons_append, List.cons.injEq] at h
      exact absurd (h.1 ▸ List.mem_cons_self) ha
    | cons d b =>
      simp only [List.cons_append, List.cons.injEq] at h
      obtain ⟨rfl, htail⟩ := h
      have := ih (fun hm => ha (List.mem_cons_of_mem _ hm))
        (fun hm => hb (List.mem_cons_of_mem _ hm)) htail
      exact ⟨by rw [this.1], this.2⟩

/-- **Reading back to a separator.** Two words that avoid the separator and
follow it are the same word when the strings are. -/
theorem append_cons_inj_of_notMem_right {a b x y : Bytes} {c : UInt8} (hx : c ∉ x) (hy : c ∉ y)
    (h : a ++ c :: x = b ++ c :: y) : a = b ∧ x = y := by
  have hreverse : x.reverse ++ c :: a.reverse = y.reverse ++ c :: b.reverse := by
    simpa using congrArg List.reverse h
  obtain ⟨hxy, hab⟩ := append_cons_inj_of_notMem (by simpa using hx) (by simpa using hy) hreverse
  exact ⟨List.reverse_injective hab, List.reverse_injective hxy⟩

/-! ## Repeated bytes -/

/-- No two neighbours are this byte. -/
def Single (c : UInt8) (s : Bytes) : Prop := s.IsChain fun a b => ¬ (a = c ∧ b = c)

theorem single_iff {c : UInt8} {s : Bytes} : Single c s ↔ ¬ [c, c] <:+: s := by
  unfold Single
  rw [List.isChain_iff_forall_rel_of_append_cons_cons]
  constructor
  · rintro h ⟨front, rest, rfl⟩
    have hsplit : front ++ [c, c] ++ rest = front ++ c :: c :: rest := by simp
    exact h hsplit ⟨rfl, rfl⟩
  · rintro h a b front rest rfl ⟨rfl, rfl⟩
    exact h ⟨front, rest, by simp⟩

theorem single_of_notMem {c : UInt8} {s : Bytes} (h : c ∉ s) : Single c s := by
  rw [single_iff]
  exact fun htwice => h (htwice.subset List.mem_cons_self)

/-- Two strings meet at no two such bytes, or the second starts with
another one. -/
theorem single_append {c : UInt8} {s t : Bytes} :
    Single c (s ++ t) ↔ Single c s ∧ Single c t ∧ ¬ (s.getLast? = some c ∧ t.head? = some c) := by
  unfold Single
  rw [List.isChain_append]
  refine and_congr_right fun _ => and_congr_right fun _ => ?_
  constructor
  · rintro h ⟨hlast, hhead⟩
    exact h c hlast c hhead ⟨rfl, rfl⟩
  · rintro h a ha b hb ⟨rfl, rfl⟩
    exact h ⟨ha, hb⟩

end Bytes
