import GoblinZomboid.Lib.Bytes
import Mathlib.Algebra.GroupWithZero.Nat
/-!
# Text and its bytes

Text is a list of characters; what crosses a wire or is measured in bytes
is its UTF-8 encoding. Decoding is strict: bytes that are no encoding
decode to nothing.
-/

namespace Utf8

/-- The UTF-8 bytes of a text. -/
def encode (t : List Char) : Bytes := t.flatMap String.utf8EncodeChar

/-- The characters of the bytes; the fuel is their number. -/
def decodeFuel : ℕ → Bytes → Option (List Char)
  | _, [] => some []
  | 0, _ :: _ => none
  | n + 1, b :: rest =>
    match (b :: rest).toByteArray.utf8DecodeChar? 0 with
    | some c => (decodeFuel n ((b :: rest).drop c.utf8Size)).map (c :: ·)
    | none => none

/-- Strict decoding. -/
def decode (s : Bytes) : Option (List Char) := decodeFuel s.length s

@[simp] theorem encode_nil : encode [] = [] := rfl

@[simp] theorem encode_cons (c : Char) (t : List Char) :
    encode (c :: t) = String.utf8EncodeChar c ++ encode t := rfl

@[simp] theorem encode_append (t u : List Char) : encode (t ++ u) = encode t ++ encode u :=
  List.flatMap_append

theorem length_encode (t : List Char) : (encode t).length = (t.map Char.utf8Size).sum := by
  simp [encode, List.length_flatMap]

theorem lit_eq_encode (s : String) : Bytes.lit s = encode s.toList := by
  have h : s.toByteArray = (encode s.toList).toByteArray := by
    rw [← String.utf8Encode_toList]
    rfl
  simp only [Bytes.lit, String.toUTF8_eq_toByteArray, h]
  simp

/-- Fuel beyond the number of bytes changes nothing. -/
theorem decodeFuel_eq_decode (n : ℕ) (s : Bytes) (hn : s.length ≤ n) :
    decodeFuel n s = decode s := by
  -- Both sides drop the same bytes, so the fuel that is left still suffices.
  have key : ∀ m n (s : Bytes), s.length ≤ m → s.length ≤ n → decodeFuel m s = decodeFuel n s := by
    intro m
    induction m with
    | zero =>
      intro n s hm _
      obtain rfl : s = [] := List.length_eq_zero_iff.1 (by omega)
      cases n <;> rfl
    | succ m ih =>
      intro n s hm hn
      cases s with
      | nil => cases n <;> rfl
      | cons b rest =>
        cases n with
        | zero => simp at hn
        | succ n =>
          simp only [decodeFuel]
          cases hc : (b :: rest).toByteArray.utf8DecodeChar? 0 with
          | none => rfl
          | some c =>
            have hpos := c.utf8Size_pos
            have hlen : ((b :: rest).drop c.utf8Size).length ≤ rest.length := by
              simp only [List.length_drop, List.length_cons]
              omega
            simp only [List.length_cons] at hm hn
            have hrest := ih n ((b :: rest).drop c.utf8Size) (by omega) (by omega)
            simp only [hrest]
  exact key n s.length s hn (Nat.le_refl _)

theorem decode_encodeChar_append (c : Char) (s : Bytes) :
    decode (String.utf8EncodeChar c ++ s) = (decode s).map (c :: ·) := by
  have hlen : (String.utf8EncodeChar c).length = c.utf8Size := String.length_utf8EncodeChar c
  have hpos := c.utf8Size_pos
  cases hs : String.utf8EncodeChar c ++ s with
  | nil =>
    have := congrArg List.length hs
    simp only [List.length_append, List.length_nil] at this
    omega
  | cons b rest =>
    have hdec : (b :: rest).toByteArray.utf8DecodeChar? 0 = some c := by
      rw [← hs, List.toByteArray_append]
      exact ByteArray.utf8DecodeChar?_utf8EncodeChar_append
    have hdrop : (b :: rest).drop c.utf8Size = s := by
      rw [← hs, List.drop_left' hlen]
    have hle : s.length ≤ rest.length := by
      have := congrArg List.length hs
      simp only [List.length_append, List.length_cons] at this
      omega
    unfold decode
    simp only [List.length_cons, decodeFuel, hdec, hdrop]
    rw [decodeFuel_eq_decode _ _ hle]
    rfl

/-- **Decoding undoes encoding**, in front of anything. -/
theorem decode_encode_append (t : List Char) (s : Bytes) :
    decode (encode t ++ s) = (decode s).map (t ++ ·) := by
  induction t with
  | nil => simp
  | cons c t ih =>
    rw [encode_cons, List.append_assoc, decode_encodeChar_append, ih, Option.map_map]
    rfl

@[simp] theorem decode_encode (t : List Char) : decode (encode t) = some t := by
  have h := decode_encode_append t []
  simpa [decode, decodeFuel] using h

theorem encode_injective : Function.Injective encode := fun t u h => by
  simpa using congrArg decode h

/-- Only no bytes decode to the empty text. -/
theorem eq_nil_iff_of_decode {s : Bytes} {t : List Char} (h : decode s = some t) :
    t = [] ↔ s = [] := by
  cases s with
  | nil =>
    obtain rfl := Option.some_inj.1 h
    simp
  | cons b rest =>
    refine iff_of_false ?_ (by simp)
    rintro rfl
    simp only [decode, List.length_cons, decodeFuel] at h
    split at h
    · obtain ⟨u, -, hu⟩ := Option.map_eq_some_iff.1 h
      exact List.cons_ne_nil _ _ hu
    · cases h

/-- **Encoding undoes decoding**: no two byte strings decode to one text. -/
theorem encode_of_decode {s : Bytes} {t : List Char} (h : decode s = some t) : encode t = s := by
  have key : ∀ n (s : Bytes) (t : List Char), decodeFuel n s = some t → encode t = s := by
    intro n
    induction n with
    | zero =>
      intro s t h
      cases s with
      | nil =>
        obtain rfl := Option.some_inj.1 h
        rfl
      | cons b rest => cases h
    | succ n ih =>
      intro s t h
      cases s with
      | nil =>
        obtain rfl := Option.some_inj.1 h
        rfl
      | cons b rest =>
        simp only [decodeFuel] at h
        split at h
        · rename_i c hc
          obtain ⟨u, hu, rfl⟩ := Option.map_eq_some_iff.1 h
          rw [encode_cons, ih _ _ hu]
          -- The bytes begin with those of the character.
          obtain ⟨l, hl⟩ := ByteArray.exists_of_utf8DecodeChar?_eq_some hc
          have hbytes : b :: rest = String.utf8EncodeChar c ++ l.data.toList := by
            simpa using congrArg (fun a : ByteArray => a.data.toList) hl
          rw [hbytes, List.drop_left' (String.length_utf8EncodeChar c)]
        · cases h
  exact key _ s t h

/-- There are at least as many bytes as characters. -/
theorem length_le_of_decode {s : Bytes} {t : List Char} (h : decode s = some t) :
    t.length ≤ s.length := by
  rw [← encode_of_decode h]
  induction t generalizing s with
  | nil => simp
  | cons c t ih =>
    have hc : (String.utf8EncodeChar c).length = c.utf8Size := String.length_utf8EncodeChar c
    have hpos := c.utf8Size_pos
    have hrest := ih (decode_encode t)
    rw [encode_cons, List.length_append, List.length_cons, hc]
    omega

/-- The character of an ASCII byte. -/
def char (b : UInt8) : Char := Char.ofNat b.toNat

/-- The code points of letters and digits. -/
theorem range_of_isAlphanum {c : Char} (h : c.isAlphanum = true) :
    65 ≤ c.toNat ∧ c.toNat ≤ 90 ∨ 97 ≤ c.toNat ∧ c.toNat ≤ 122 ∨
      48 ≤ c.toNat ∧ c.toNat ≤ 57 := by
  have hclass : (decide (65 ≤ c.val ∧ c.val ≤ 90) ||
      (decide (97 ≤ c.val) && decide (c.val ≤ 122)) ||
      (decide (48 ≤ c.val) && decide (c.val ≤ 57))) = true := h
  simp only [Bool.or_eq_true, Bool.and_eq_true, decide_eq_true_eq, UInt32.le_iff_toNat_le]
    at hclass
  have hval : c.toNat = c.val.toNat := rfl
  simp at hclass
  omega

/-- A byte below 128 is a character by itself. -/
theorem utf8EncodeChar_char {b : UInt8} (hb : b < 128) : String.utf8EncodeChar (char b) = [b] := by
  revert hb
  refine Bytes.forall_byte (p := fun b => b < 128 → String.utf8EncodeChar (char b) = [b]) ?_ b
  decide +kernel

/-- A character of ASCII is one byte. -/
theorem exists_byte_of_ascii {c : Char} (h : c.toNat < 128) :
    ∃ b, char b = c ∧ b.toNat = c.toNat ∧ String.utf8EncodeChar c = [b] := by
  have hsmall : c.toNat.toUInt8.toNat = c.toNat := by
    simp
    omega
  have hchar : char c.toNat.toUInt8 = c := by rw [char, hsmall, Char.ofNat_toNat]
  refine ⟨c.toNat.toUInt8, hchar, hsmall, ?_⟩
  conv_lhs => rw [← hchar]
  refine utf8EncodeChar_char ?_
  rw [UInt8.lt_iff_toNat_lt, hsmall]
  exact h

theorem map_char_encode {t : List Char} (h : ∀ c ∈ t, c.toNat < 128) :
    (encode t).map char = t := by
  induction t with
  | nil => rfl
  | cons c t ih =>
    obtain ⟨b, hchar, -, hbyte⟩ := exists_byte_of_ascii (h c List.mem_cons_self)
    rw [encode_cons, hbyte, List.map_append, ih fun d hd => h d (List.mem_cons_of_mem _ hd)]
    rw [List.map_singleton, hchar, List.singleton_append]

theorem encode_map_char {s : Bytes} (h : ∀ b ∈ s, b < 128) : encode (s.map char) = s := by
  induction s with
  | nil => rfl
  | cons b s ih =>
    rw [List.map_cons, encode_cons, utf8EncodeChar_char (h b List.mem_cons_self),
      ih fun d hd => h d (List.mem_cons_of_mem _ hd), List.singleton_append]

/-- ASCII bytes decode one by one. -/
theorem decode_ascii {s : Bytes} (h : ∀ b ∈ s, b < 128) : decode s = some (s.map char) := by
  have hdecode := decode_encode (s.map char)
  rwa [encode_map_char h] at hdecode

/-- The bytes of a character outside ASCII are no ASCII. -/
theorem eq_char_of_mem_utf8EncodeChar {c : Char} {b : UInt8} (h : b ∈ String.utf8EncodeChar c)
    (hb : b < 128) : char b = c := by
  have hhigh (x : ℕ) (hx : 128 ≤ x) (hx' : x < 256) : b ≠ UInt8.ofNat x := by
    rintro rfl
    have hval : (UInt8.ofNat x).toNat = x := by simp; omega
    rw [UInt8.lt_iff_toNat_lt, hval] at hb
    have h128 : (128 : UInt8).toNat = 128 := rfl
    omega
  unfold String.utf8EncodeChar at h
  dsimp only at h
  split_ifs at h with h1 h2 h3
  · rw [List.mem_singleton] at h
    have hval : (UInt8.ofNat c.val.toNat).toNat = c.val.toNat := by
      rw [UInt8.toNat_ofNat']
      omega
    rw [h, char, hval]
    exact Char.ofNat_toNat c
  · simp only [List.mem_cons, List.not_mem_nil, or_false] at h
    rcases h with h | h
    · exact absurd h (hhigh _ (by omega) (by omega))
    · exact absurd h (hhigh _ (by omega) (by omega))
  · simp only [List.mem_cons, List.not_mem_nil, or_false] at h
    rcases h with h | h | h
    · exact absurd h (hhigh _ (by omega) (by omega))
    · exact absurd h (hhigh _ (by omega) (by omega))
    · exact absurd h (hhigh _ (by omega) (by omega))
  · simp only [List.mem_cons, List.not_mem_nil, or_false] at h
    rcases h with h | h | h | h
    · exact absurd h (hhigh _ (by omega) (by omega))
    · exact absurd h (hhigh _ (by omega) (by omega))
    · exact absurd h (hhigh _ (by omega) (by omega))
    · exact absurd h (hhigh _ (by omega) (by omega))

/-- An ASCII byte of a text is one of its characters. -/
theorem char_mem_of_decode {s : Bytes} {t : List Char} (h : decode s = some t) {b : UInt8}
    (hb : b ∈ s) (hascii : b < 128) : char b ∈ t := by
  rw [← encode_of_decode h] at hb
  obtain ⟨c, hc, hbc⟩ := List.mem_flatMap.1 hb
  rwa [eq_char_of_mem_utf8EncodeChar hbc hascii]

end Utf8
