import GoblinZomboid.Lib.Bytes
/-!
# Byte buffers

A buffer is read from its position on, so what matters of it is the bytes
that remain. Words have 32 bits and are written with the highest byte first.
A read past the end and an array of negative size are failures of their own.
-/

namespace ByteBuffer

/-- What reading a buffer can raise. -/
inductive Failure
  /-- `BufferUnderflowException`. -/
  | underflow
  /-- `NegativeArraySizeException`. -/
  | negativeSize
  deriving DecidableEq

/-- The low byte of a word. -/
def lowByte (v : BitVec 32) : UInt8 := UInt8.ofNat v.toNat

/-- `putInt`. -/
def putInt (v : BitVec 32) : Bytes :=
  [lowByte (v >>> 24), lowByte (v >>> 16), lowByte (v >>> 8), lowByte v]

/-- The word of four bytes. -/
def word (a b c d : UInt8) : BitVec 32 :=
  BitVec.ofNat 32 (((a.toNat * 256 + b.toNat) * 256 + c.toNat) * 256 + d.toNat)

/-- `getInt`, and the bytes after it. -/
def getInt : Bytes → Except Failure (BitVec 32 × Bytes)
  | a :: b :: c :: d :: rest => .ok (word a b c d, rest)
  | _ => .error .underflow

/-- `new byte[n]`: the size of the array. -/
def newArray (n : ℤ) : Except Failure ℕ := if n < 0 then .error .negativeSize else .ok n.toNat

/-- `get` of an array of this size, and the bytes after it. -/
def get (n : ℕ) (s : Bytes) : Except Failure (Bytes × Bytes) :=
  if s.length < n then .error .underflow else .ok (s.take n, s.drop n)

variable {v w : BitVec 32} {s rest : Bytes}

@[simp] theorem length_putInt (v : BitVec 32) : (putInt v).length = 4 := rfl

theorem toNat_lowByte (v : BitVec 32) : (lowByte v).toNat = v.toNat % 256 := rfl

/-- The bytes of a word, as numbers. -/
theorem toNat_word (a b c d : UInt8) :
    (word a b c d).toNat = ((a.toNat * 256 + b.toNat) * 256 + c.toNat) * 256 + d.toNat := by
  have ha := a.toNat_lt
  have hb := b.toNat_lt
  have hc := c.toNat_lt
  have hd := d.toNat_lt
  rw [word, BitVec.toNat_ofNat]
  omega

/-- **A word is read back.** -/
theorem getInt_putInt (v : BitVec 32) (rest : Bytes) : getInt (putInt v ++ rest) = .ok (v, rest) := by
  have hword : word (lowByte (v >>> 24)) (lowByte (v >>> 16)) (lowByte (v >>> 8)) (lowByte v) = v := by
    apply BitVec.eq_of_toNat_eq
    have hv := v.isLt
    rw [toNat_word]
    simp only [toNat_lowByte, BitVec.toNat_ushiftRight, Nat.shiftRight_eq_div_pow]
    omega
  have hread : getInt (putInt v ++ rest) = .ok (word (lowByte (v >>> 24)) (lowByte (v >>> 16))
      (lowByte (v >>> 8)) (lowByte v), rest) := rfl
  rw [hread, hword]

/-- **Every four bytes are a word.** -/
theorem putInt_word (a b c d : UInt8) : putInt (word a b c d) = [a, b, c, d] := by
  have ha := a.toNat_lt
  have hb := b.toNat_lt
  have hc := c.toNat_lt
  have hd := d.toNat_lt
  have hbyte : ∀ (w : BitVec 32) (x : UInt8), w.toNat % 256 = x.toNat → lowByte w = x := by
    intro w x h
    exact UInt8.toNat_inj.mp h
  have hshift : ∀ (k : ℕ), ((word a b c d) >>> k).toNat = (word a b c d).toNat / 2 ^ k := by
    intro k
    rw [BitVec.toNat_ushiftRight, Nat.shiftRight_eq_div_pow]
  rw [putInt, hbyte _ a, hbyte _ b, hbyte _ c, hbyte _ d]
  · rw [toNat_word]
    omega
  · rw [hshift, toNat_word]
    omega
  · rw [hshift, toNat_word]
    omega
  · rw [hshift, toNat_word]
    omega

/-- So four bytes and more begin with a word. -/
theorem exists_putInt (h : 4 ≤ s.length) : ∃ v rest, s = putInt v ++ rest := by
  rcases s with _ | ⟨a, _ | ⟨b, _ | ⟨c, _ | ⟨d, rest⟩⟩⟩⟩
  · exact absurd h (by decide)
  · exact absurd h (by simp)
  · exact absurd h (by simp)
  · exact absurd h (by simp)
  · exact ⟨word a b c d, rest, by rw [putInt_word]; rfl⟩

/-- And the word is the only one. -/
theorem putInt_append_inj {rest' : Bytes} (h : putInt v ++ rest = putInt w ++ rest') :
    v = w ∧ rest = rest' := by
  have hread := getInt_putInt v rest
  rw [h, getInt_putInt] at hread
  have heq := Except.ok.inj hread
  exact ⟨(congrArg Prod.fst heq).symm, (congrArg Prod.snd heq).symm⟩

/-- **The bytes of an array are read back.** -/
theorem get_append (x rest : Bytes) : get x.length (x ++ rest) = .ok (x, rest) := by
  have hlong : ¬ (x ++ rest).length < x.length := by
    rw [List.length_append]
    omega
  rw [get, if_neg hlong, List.take_left, List.drop_left]

theorem newArray_natCast (n : ℕ) : newArray n = .ok n := by
  have hnonneg : ¬ (n : ℤ) < 0 := by omega
  rw [newArray, if_neg hnonneg, Int.toNat_natCast]

end ByteBuffer
