import GoblinZomboid.Shared.Decode
/-!
# Blanks, strings and numbers

What the parser reads as blanks, as a string or as a number is what the
grammar has for each, and all of it.
-/

namespace GoblinZomboid

namespace JSON

open JsonText (Blanks Piece Pieces Padded Doc)

/-! ## Blanks -/

theorem skipWhitespace_eq (s : Bytes) : ∃ w : Blanks, s = w.bytes ++ skipWhitespace s :=
  ⟨⟨s.takeWhile JsonText.isBlank, fun _ hb => List.mem_takeWhile_imp hb⟩,
    List.takeWhile_append_dropWhile.symm⟩

theorem skipWhitespace_append (w : Blanks) (s : Bytes) :
    skipWhitespace (w.bytes ++ s) = skipWhitespace s :=
  List.dropWhile_append_of_pos w.blank

theorem skipWhitespace_cons {b : UInt8} (h : JsonText.isBlank b = false) (s : Bytes) :
    skipWhitespace (b :: s) = b :: s :=
  List.dropWhile_cons_of_neg fun hb => Bool.false_ne_true (h.symm.trans hb)

theorem skipWhitespace_skipWhitespace (s : Bytes) :
    skipWhitespace (skipWhitespace s) = skipWhitespace s := by
  obtain ⟨w, hw⟩ := skipWhitespace_eq s
  have hskip := skipWhitespace_append w (skipWhitespace s)
  rw [← hw] at hskip
  exact hskip.symm

theorem length_skipWhitespace_le (s : Bytes) : (skipWhitespace s).length ≤ s.length :=
  (List.dropWhile_sublist _).length_le

/-! ## Strings -/

theorem hexDigits_eq (a b c d : UInt8) : hexDigits 0 [a, b, c, d] = JsonText.hex4 a b c d := by
  have hvalue (e : UInt8) : hexValue e = JsonText.hexDigit e := rfl
  unfold JsonText.hex4
  simp only [hexDigits, hvalue]
  cases JsonText.hexDigit a with
  | none => rfl
  | some a =>
    cases JsonText.hexDigit b with
    | none => rfl
    | some b =>
      cases JsonText.hexDigit c with
      | none => rfl
      | some c =>
        cases JsonText.hexDigit d with
        | none => rfl
        | some d => simp only [Nat.zero_mul, Nat.zero_add]

/-- **What `utf8ForCodepoint` gives** is the encoding of a character. -/
theorem utf8ForCodepoint_toNat (c : Char) :
    utf8ForCodepoint c.toNat = some (String.utf8EncodeChar c) := by
  have hvalid : c.toNat < 55296 ∨ (57343 < c.toNat ∧ c.toNat < 1114112) := c.valid
  have hscalar : (decide (1114111 < c.toNat) ||
      (decide (55296 ≤ c.toNat) && decide (c.toNat ≤ 57343))) = false := by
    simp only [Bool.or_eq_false_iff, Bool.and_eq_false_iff, decide_eq_false_iff_not]
    omega
  have hval : c.val.toNat = c.toNat := rfl
  unfold utf8ForCodepoint String.utf8EncodeChar
  simp only [hscalar, Bool.false_eq_true, if_false, hval]
  split
  · rfl
  split
  · have hhigh : c.toNat / 64 % 32 + 192 = 192 + c.toNat / 64 := by omega
    have hlow : c.toNat % 64 + 128 = 128 + c.toNat % 64 := by omega
    rw [hhigh, hlow]
  split
  · have hhigh : c.toNat / 4096 % 16 + 224 = 224 + c.toNat / 4096 := by omega
    have hmid : c.toNat / 64 % 64 + 128 = 128 + c.toNat / 64 % 64 := by omega
    have hlow : c.toNat % 64 + 128 = 128 + c.toNat % 64 := by omega
    rw [hhigh, hmid, hlow]
  · have hhigh : c.toNat / 262144 % 8 + 240 = 240 + c.toNat / 262144 := by omega
    have hupper : c.toNat / 4096 % 64 + 128 = 128 + c.toNat / 4096 % 64 := by omega
    have hmid : c.toNat / 64 % 64 + 128 = 128 + c.toNat / 64 % 64 := by omega
    have hlow : c.toNat % 64 + 128 = 128 + c.toNat % 64 := by omega
    rw [hhigh, hupper, hmid, hlow]

theorem exists_char_of_utf8ForCodepoint {n : ℕ} {t : Bytes} (h : utf8ForCodepoint n = some t) :
    ∃ c : Char, c.toNat = n ∧ t = String.utf8EncodeChar c := by
  have hvalid : n.isValidChar := by
    unfold utf8ForCodepoint at h
    split at h
    · cases h
    · rename_i hscalar
      simp only [Bool.or_eq_true, Bool.and_eq_true, decide_eq_true_eq, not_or, not_and] at hscalar
      show n < 55296 ∨ (57343 < n ∧ n < 1114112)
      omega
  have hchar : (Char.ofNatAux n hvalid).toNat = n := rfl
  refine ⟨Char.ofNatAux n hvalid, hchar, ?_⟩
  have heq := utf8ForCodepoint_toNat (Char.ofNatAux n hvalid)
  rw [hchar, h] at heq
  exact Option.some_inj.1 heq

theorem replacement_eq_some {e b : UInt8} :
    replacement e = some b ↔ (e, b) ∈ JsonText.escapes := by
  constructor
  · intro h
    have hall : ∀ e : UInt8, ((replacement e).all fun b => (e, b) ∈ JsonText.escapes) = true :=
      Bytes.forall_byte (by decide +kernel)
    exact of_decide_eq_true ((Option.all_eq_true _ _).1 (hall e) b h)
  · intro h
    have hall : (JsonText.escapes.all fun p => replacement p.1 = some p.2) = true := by decide
    exact of_decide_eq_true (List.all_eq_true.1 hall _ h)

/-- The bytes a part stands for are no more than it has. -/
theorem length_bytes_le (p : Piece) : p.bytes.length ≤ p.text.length := by
  cases p with
  | plain b h => exact le_rfl
  | short e b h => exact Nat.le_succ 1
  | unicode a b c d char h =>
    show (String.utf8EncodeChar char).length ≤ 6
    rw [String.length_utf8EncodeChar]
    exact (Char.utf8Size_le_four char).trans (by decide)

/-- **One part of a string** is read, and what follows it. -/
theorem parseString_piece (limit : Limit) (size : ℕ) (p : Piece) (s : Bytes)
    (h : overLimit limit (size + p.bytes.length) = false) :
    parseString limit size (p.text ++ s) =
      (parseString limit (size + p.bytes.length) s).map fun r => (p.bytes ++ r.1, r.2) := by
  have hsize : ¬overLimit limit (size + p.bytes.length) = true := by
    rw [h]
    exact Bool.false_ne_true
  cases p with
  | plain b hb =>
    simp only [JsonText.isPlain, Bool.and_eq_true, decide_eq_true_eq, bne_iff_ne] at hb
    obtain ⟨⟨hcontrol, hquote⟩, hbackslash⟩ := hb
    show parseString limit size (b :: s) = _
    conv_lhs => unfold parseString
    rw [if_neg (by simpa using hquote), if_neg (by simpa using hcontrol),
      if_neg (by simpa using hbackslash)]
    exact if_neg hsize
  | short e b he =>
    show parseString limit size (92 :: e :: s) = _
    conv_lhs => unfold parseString
    rw [if_neg (by decide), if_neg (by decide), if_pos (by decide)]
    dsimp only
    rw [replacement_eq_some.2 he]
    dsimp only
    exact if_neg hsize
  | unicode a b c d char hchar =>
    have hu : replacement 117 = none := by decide
    show parseString limit size (92 :: 117 :: a :: b :: c :: d :: s) = _
    conv_lhs => unfold parseString
    rw [if_neg (by decide), if_neg (by decide), if_pos (by decide)]
    dsimp only
    rw [hu]
    dsimp only
    rw [if_pos (by decide), hexDigits_eq, hchar, Option.bind_some, utf8ForCodepoint_toNat]
    dsimp only
    exact if_neg hsize

theorem over_mono {limit : Limit} {m n : ℕ} (h : m ≤ n) (hn : overLimit limit n = false) :
    overLimit limit m = false := by
  cases limit with
  | none => rfl
  | some k =>
    have hk : ¬k < n := of_decide_eq_false hn
    exact decide_eq_false (by omega)

/-- **A string of the grammar is read** to its end. -/
theorem parseString_complete {limit : Limit} {size : ℕ} (t : Pieces) (rest : Bytes)
    (h : overLimit limit (size + t.text.length) = false) :
    parseString limit size (t.text ++ 34 :: rest) = some (t.bytes, rest) := by
  induction t generalizing size with
  | nil =>
    show parseString limit size (34 :: rest) = some ([], rest)
    unfold parseString
    rw [if_pos (by decide), over_mono (Nat.le_add_right _ _) h, if_neg Bool.false_ne_true]
  | cons p t ih =>
    have htext : Pieces.text (p :: t) = p.text ++ Pieces.text t := List.flatMap_cons
    have hbytes : Pieces.bytes (p :: t) = p.bytes ++ Pieces.bytes t := List.flatMap_cons
    have hle := length_bytes_le p
    rw [htext, List.length_append] at h
    rw [htext, hbytes, List.append_assoc, parseString_piece limit size p _ (over_mono (by omega) h),
      ih (over_mono (by omega) h)]
    rfl

/-- **What is read as a string** is one of the grammar. -/
theorem parseString_sound {limit : Limit} {size : ℕ} {s t rest : Bytes}
    (h : parseString limit size s = some (t, rest)) :
    ∃ p : Pieces, s = p.text ++ 34 :: rest ∧ p.bytes = t := by
  induction hn : s.length using Nat.strongRecOn generalizing s size t with
  | ind n ih =>
    -- One part, and the parts that the rest of the text is.
    have step {size : ℕ} {s' : Bytes} (p : Piece) (hs : s = p.text ++ s')
        (hrest : (parseString limit size s').map (fun r => (p.bytes ++ r.1, r.2)) =
          some (t, rest)) : ∃ q : Pieces, s = q.text ++ 34 :: rest ∧ q.bytes = t := by
      have hlt : s'.length < n := by
        have hpos : 0 < p.text.length := by cases p <;> exact Nat.succ_pos _
        rw [← hn, hs, List.length_append]
        omega
      obtain ⟨⟨v, r⟩, hv, heq⟩ := Option.map_eq_some_iff.1 hrest
      obtain ⟨rfl, rfl⟩ := Prod.mk.inj heq
      obtain ⟨q, hq, rfl⟩ := ih _ hlt hv rfl
      refine ⟨p :: q, ?_, List.flatMap_cons⟩
      have htext : Pieces.text (p :: q) = p.text ++ q.text := List.flatMap_cons
      rw [htext, List.append_assoc, ← hq, hs]
    unfold parseString at h
    split at h
    · cases h
    rename_i byte s'
    split at h
    · rename_i hquote
      obtain rfl := beq_iff_eq.1 hquote
      split at h
      · cases h
      · obtain ⟨rfl, rfl⟩ := Prod.mk.inj (Option.some_inj.1 h)
        exact ⟨[], rfl, rfl⟩
    rename_i hquote
    split at h
    · cases h
    rename_i hcontrol
    split at h
    · rename_i hbackslash
      obtain rfl := beq_iff_eq.1 hbackslash
      split at h
      · cases h
      rename_i escaped s'
      split at h
      · rename_i b hb
        split at h
        · cases h
        · exact step (.short escaped b (replacement_eq_some.1 hb)) rfl h
      · split at h
        · rename_i hu
          obtain rfl := beq_iff_eq.1 hu
          split at h
          · rename_i a b c d s'
            split at h
            · rename_i utf8 hutf8
              split at h
              · cases h
              · obtain ⟨k, hk, hchar⟩ := Option.bind_eq_some_iff.1 hutf8
                obtain ⟨char, rfl, rfl⟩ := exists_char_of_utf8ForCodepoint hchar
                rw [hexDigits_eq] at hk
                exact step (.unicode a b c d char hk) rfl h
            · cases h
          · cases h
        · cases h
    · rename_i hbackslash
      split at h
      · cases h
      · have hplain : JsonText.isPlain byte = true := by
          simp only [JsonText.isPlain, Bool.and_eq_true, decide_eq_true_eq, bne_iff_ne]
          exact ⟨⟨UInt8.not_lt.1 hcontrol, by simpa using hquote⟩, by simpa using hbackslash⟩
        exact step (.plain byte hplain) rfl h

/-! ## Numbers -/

/-- The text does not go on with a numeral. -/
def Stops (s : Bytes) : Prop :=
  ∀ b ∈ s.head?, Bytes.isDigit b = false ∧ b ≠ 46 ∧ b ≠ 101 ∧ b ≠ 69

theorem isDigit_char (b : UInt8) : (Utf8.char b).isDigit = Bytes.isDigit b :=
  Bytes.forall_byte (p := fun b => (Utf8.char b).isDigit = Bytes.isDigit b) (by decide +kernel) b

/-- Every digit of a numeral is a byte. -/
theorem exists_byte_of_isDigit {c : Char} (h : c.isDigit = true) :
    ∃ b, Utf8.char b = c ∧ String.utf8EncodeChar c = [b] ∧ Bytes.isDigit b = true := by
  obtain ⟨b, hchar, -, hbyte⟩ := Utf8.exists_byte_of_ascii (Numeral.ascii_of_isDigit h)
  exact ⟨b, hchar, hbyte, by rw [← isDigit_char, hchar, h]⟩

theorem isDigit_of_mem_encode {t : PyText} (h : ∀ c ∈ t, c.isDigit = true) :
    ∀ b ∈ Utf8.encode t, Bytes.isDigit b = true := by
  intro b hb
  obtain ⟨c, hc, hb⟩ := List.mem_flatMap.1 hb
  obtain ⟨b', -, hb', hdigit⟩ := exists_byte_of_isDigit (h c hc)
  rw [hb', List.mem_singleton] at hb
  rwa [hb]

theorem digits_append {t : PyText} (h : ∀ c ∈ t, c.isDigit = true) {s : Bytes}
    (hs : atDigit s = false) : digits (Utf8.encode t ++ s) = (Utf8.encode t, s) := by
  have hhead : ∀ b ∈ s.head?, Bytes.isDigit b = false := by
    intro b hb
    obtain ⟨s', rfl⟩ := List.head?_eq_some_iff.1 hb
    simpa [atDigit] using hs
  obtain ⟨htake, hdrop⟩ := Numeral.span_append (isDigit_of_mem_encode h) hhead
  unfold digits
  rw [htake, hdrop]

theorem atDigit_of_stops {s : Bytes} (h : Stops s) : atDigit s = false := by
  cases s with
  | nil => rfl
  | cons b s => exact (h b rfl).1

theorem encode_zero : Utf8.encode ['0'] = [48] := by decide

theorem encode_point (t : PyText) : Utf8.encode ('.' :: t) = 46 :: Utf8.encode t := rfl

theorem parseWhole_append {whole : PyText} (h : Numeral.IsWhole whole) {s : Bytes}
    (hs : atDigit s = false) :
    parseWhole (Utf8.encode whole ++ s) = some (Utf8.encode whole, s) := by
  cases h with
  | zero =>
    rw [encode_zero]
    show parseWhole (48 :: s) = some ([48], s)
    rw [parseWhole, if_pos (by decide), hs, if_neg Bool.false_ne_true]
  | digits hc hne ht =>
    rename_i c t
    obtain ⟨b, hchar, hbyte, hdigit⟩ := exists_byte_of_isDigit hc
    have hzero : b ≠ 48 := by
      rintro rfl
      exact hne (hchar.symm.trans (by decide))
    have hall : ∀ d ∈ c :: t, d.isDigit = true := by
      intro d hd
      rcases List.mem_cons.1 hd with rfl | hd
      · exact hc
      · exact ht d hd
    have hencode : Utf8.encode (c :: t) = b :: Utf8.encode t := by rw [Utf8.encode_cons, hbyte]; rfl
    have hrun := digits_append hall hs
    rw [hencode] at hrun ⊢
    have hpos : (49 ≤ b && b ≤ 57) = true := by
      simp only [Bytes.isDigit, Bool.and_eq_true, decide_eq_true_eq, UInt8.le_iff_toNat_le]
        at hdigit ⊢
      have hne : b.toNat ≠ 48 := fun heq => hzero (UInt8.toNat_inj.1 heq)
      have hlow : (48 : UInt8).toNat = 48 := rfl
      have hone : (49 : UInt8).toNat = 49 := rfl
      omega
    rw [List.cons_append] at hrun ⊢
    rw [parseWhole, if_neg (by simpa using hzero), if_pos hpos, hrun]

theorem parseFraction_append {fraction : PyText} (h : Numeral.IsFraction fraction) {s : Bytes}
    (hs : atDigit s = false) (hpoint : ∀ b ∈ s.head?, b ≠ 46) :
    parseFraction (Utf8.encode fraction ++ s) = some (Utf8.encode fraction, s) := by
  cases h with
  | none =>
    show parseFraction s = some ([], s)
    cases s with
    | nil => rfl
    | cons b s =>
      rw [parseFraction, if_neg (by simpa using hpoint b rfl)]
  | digits hc ht =>
    rename_i c t
    have hall : ∀ d ∈ c :: t, d.isDigit = true := by
      intro d hd
      rcases List.mem_cons.1 hd with rfl | hd
      · exact hc
      · exact ht d hd
    obtain ⟨b, -, hbyte, hdigit⟩ := exists_byte_of_isDigit hc
    have hat : atDigit (Utf8.encode (c :: t) ++ s) = true := by
      rw [Utf8.encode_cons, hbyte]
      exact hdigit
    rw [encode_point, List.cons_append]
    rw [parseFraction, if_pos (by decide), if_pos hat, digits_append hall hs]

theorem parseExponent_append {exponent : PyText} (h : Numeral.IsExponent exponent) {s : Bytes}
    (hs : Stops s) :
    parseExponent (Utf8.encode exponent ++ s) = some (Utf8.encode exponent, s) := by
  cases h with
  | none =>
    show parseExponent s = some ([], s)
    cases s with
    | nil => rfl
    | cons b s =>
      obtain ⟨-, -, hlower, hupper⟩ := hs b rfl
      rw [parseExponent, if_neg]
      simp only [Bool.or_eq_true, beq_iff_eq, not_or]
      exact ⟨hlower, hupper⟩
  | digits he hsign hc ht =>
    rename_i e c sign t
    have hall : ∀ d ∈ c :: t, d.isDigit = true := by
      intro d hd
      rcases List.mem_cons.1 hd with rfl | hd
      · exact hc
      · exact ht d hd
    obtain ⟨b, -, hbyte, hdigit⟩ := exists_byte_of_isDigit hc
    have hat : atDigit (Utf8.encode (c :: t) ++ s) = true := by
      rw [Utf8.encode_cons, hbyte]
      exact hdigit
    have hparse : parseSign (Utf8.encode sign ++ (Utf8.encode (c :: t) ++ s)) =
        (Utf8.encode sign, Utf8.encode (c :: t) ++ s) := by
      cases hsign with
      | plus => rfl
      | minus => rfl
      | none =>
        rw [Utf8.encode_cons, hbyte]
        show parseSign (b :: (Utf8.encode t ++ s)) = ([], b :: (Utf8.encode t ++ s))
        rw [parseSign, if_neg]
        simp only [Bool.or_eq_true, beq_iff_eq]
        rintro (rfl | rfl)
        · exact absurd hdigit (by decide)
        · exact absurd hdigit (by decide)
    obtain ⟨x, hx, hletter⟩ : ∃ x : UInt8, Utf8.encode [e] = [x] ∧ (x == 101 || x == 69) = true := by
      rcases he with rfl | rfl
      · exact ⟨101, by decide, by decide⟩
      · exact ⟨69, by decide, by decide⟩
    have hencode : Utf8.encode (e :: (sign ++ c :: t)) =
        x :: (Utf8.encode sign ++ Utf8.encode (c :: t)) := by
      rw [← List.singleton_append, Utf8.encode_append, hx, Utf8.encode_append]
      rfl
    rw [hencode, List.cons_append, List.append_assoc]
    rw [parseExponent, if_pos hletter, hparse]
    dsimp only
    rw [if_pos hat, digits_append hall (atDigit_of_stops hs)]

/-- What follows the whole part of a numeral. -/
theorem stops_fraction {fraction exponent : PyText} (hf : Numeral.IsFraction fraction)
    (he : Numeral.IsExponent exponent) {s : Bytes} (hs : Stops s) :
    atDigit (Utf8.encode fraction ++ (Utf8.encode exponent ++ s)) = false ∧
      atDigit (Utf8.encode exponent ++ s) = false ∧
      ∀ b ∈ (Utf8.encode exponent ++ s).head?, b ≠ 46 := by
  have hexponent : atDigit (Utf8.encode exponent ++ s) = false ∧
      ∀ b ∈ (Utf8.encode exponent ++ s).head?, b ≠ 46 := by
    cases he with
    | none => exact ⟨atDigit_of_stops hs, fun b hb => (hs b hb).2.1⟩
    | digits he hsign hc ht =>
      rename_i e c sign t
      rcases he with rfl | rfl
      · exact ⟨rfl, fun b hb => by
          obtain rfl : (101 : UInt8) = b := Option.some_inj.1 hb
          decide⟩
      · exact ⟨rfl, fun b hb => by
          obtain rfl : (69 : UInt8) = b := Option.some_inj.1 hb
          decide⟩
  refine ⟨?_, hexponent⟩
  cases hf with
  | none => exact hexponent.1
  | digits hc ht => rfl

theorem parseMinus_append (p : Numeral.Parts) (s : Bytes) :
    parseMinus (Utf8.encode p.minus ++ (Utf8.encode p.whole ++ s)) =
      (Utf8.encode p.minus, Utf8.encode p.whole ++ s) := by
  unfold Numeral.Parts.minus
  cases p.negative with
  | true => rfl
  | false =>
    show parseMinus (Utf8.encode p.whole ++ s) = ([], Utf8.encode p.whole ++ s)
    have hwhole := p.isWhole
    generalize p.whole = whole at hwhole ⊢
    cases hwhole with
    | zero => rfl
    | digits hc hne ht =>
      rename_i c t
      obtain ⟨b, -, hbyte, hdigit⟩ := exists_byte_of_isDigit hc
      rw [Utf8.encode_cons, hbyte]
      show parseMinus (b :: (Utf8.encode t ++ s)) = ([], b :: (Utf8.encode t ++ s))
      rw [parseMinus, if_neg]
      rw [beq_iff_eq]
      rintro rfl
      exact absurd hdigit (by decide)

theorem encode_text (p : Numeral.Parts) : Utf8.encode p.text = Utf8.encode p.minus ++
    (Utf8.encode p.whole ++ (Utf8.encode p.fraction ++ Utf8.encode p.exponent)) := by
  unfold Numeral.Parts.text
  rw [Utf8.encode_append, Utf8.encode_append, Utf8.encode_append]

theorem tonumber_encode (p : Numeral.Parts) :
    tonumber (Utf8.encode p.text) = JsonText.number p := by
  unfold tonumber JsonText.number
  rw [Utf8.map_char_encode p.ascii]

/-- **A numeral of the grammar is read** to its end. -/
theorem parseNumber_complete {p : Numeral.Parts} {q : ℚ} (hq : JsonText.number p = .finite q)
    {s : Bytes} (hs : Stops s) :
    parseNumber (Utf8.encode p.text ++ s) = some (.finite q, s) := by
  obtain ⟨hfraction, hexponent, hpoint⟩ := stops_fraction p.isFraction p.isExponent hs
  have hnumber := tonumber_encode p
  rw [hq, encode_text] at hnumber
  have htext : Utf8.encode p.text ++ s = Utf8.encode p.minus ++ (Utf8.encode p.whole ++
      (Utf8.encode p.fraction ++ (Utf8.encode p.exponent ++ s))) := by
    simp only [encode_text, List.append_assoc]
  rw [htext, parseNumber, parseMinus_append]
  dsimp only
  rw [parseWhole_append p.isWhole hfraction]
  dsimp only
  rw [parseFraction_append p.isFraction hexponent hpoint]
  dsimp only
  rw [parseExponent_append p.isExponent hs]
  dsimp only
  rw [hnumber]

theorem lt_of_isDigit {b : UInt8} (h : Bytes.isDigit b = true) : b < 128 := by
  simp only [Bytes.isDigit, Bool.and_eq_true, decide_eq_true_eq] at h
  exact UInt8.lt_of_le_of_lt h.2 (show (57 : UInt8) < 128 by decide)

/-- A run of digits, as characters. -/
theorem digits_spec (s : Bytes) :
    s = (digits s).1 ++ (digits s).2 ∧ Utf8.encode ((digits s).1.map Utf8.char) = (digits s).1 ∧
      ∀ c ∈ (digits s).1.map Utf8.char, c.isDigit = true := by
  have hall : ∀ b ∈ (digits s).1, Bytes.isDigit b = true := fun b hb => List.mem_takeWhile_imp hb
  refine ⟨List.takeWhile_append_dropWhile.symm, Utf8.encode_map_char fun b hb =>
    lt_of_isDigit (hall b hb), fun c hc => ?_⟩
  obtain ⟨b, hb, rfl⟩ := List.mem_map.1 hc
  rw [isDigit_char, hall b hb]

/-- Digits from where one stands. -/
theorem exists_digits {s : Bytes} (h : atDigit s = true) :
    ∃ c t, c.isDigit = true ∧ (∀ d ∈ t, d.isDigit = true) ∧
      Utf8.encode (c :: t) = (digits s).1 := by
  obtain ⟨-, hencode, hall⟩ := digits_spec s
  cases s with
  | nil => cases h
  | cons b s =>
    have hfirst : (digits (b :: s)).1 = b :: s.takeWhile Bytes.isDigit :=
      List.takeWhile_cons_of_pos h
    rw [hfirst, List.map_cons] at hencode hall
    refine ⟨Utf8.char b, _, hall _ List.mem_cons_self,
      fun d hd => hall d (List.mem_cons_of_mem _ hd), ?_⟩
    rw [hfirst, hencode]

theorem parseWhole_sound {s t rest : Bytes} (h : parseWhole s = some (t, rest)) :
    ∃ w, Numeral.IsWhole w ∧ Utf8.encode w = t ∧ s = t ++ rest := by
  cases s with
  | nil => cases h
  | cons b s =>
    rw [parseWhole] at h
    split at h
    · rename_i hzero
      obtain rfl := beq_iff_eq.1 hzero
      split at h
      · cases h
      · obtain ⟨rfl, rfl⟩ := Prod.mk.inj (Option.some_inj.1 h)
        exact ⟨['0'], .zero, encode_zero, rfl⟩
    · rename_i hzero
      split at h
      · rename_i hrange
        have hdigit : Bytes.isDigit b = true := by
          simp only [Bool.and_eq_true, decide_eq_true_eq] at hrange
          simp only [Bytes.isDigit, Bool.and_eq_true, decide_eq_true_eq]
          exact ⟨UInt8.le_trans (show (48 : UInt8) ≤ 49 by decide) hrange.1, hrange.2⟩
        obtain ⟨c, t', hc, ht, hencode⟩ := exists_digits (s := b :: s) hdigit
        have hread : digits (b :: s) = (t, rest) := Option.some_inj.1 h
        rw [hread] at hencode
        have hsplit := (digits_spec (b :: s)).1
        rw [hread] at hsplit
        have hne : c ≠ '0' := by
          rintro rfl
          have hhead : (48 : UInt8) :: (Utf8.encode t' ++ rest) = b :: s := by
            rw [hsplit, ← hencode]
            rfl
          exact hzero (by rw [← (List.cons.inj hhead).1]; decide)
        exact ⟨_, .digits hc hne ht, hencode, hsplit⟩
      · cases h

theorem parseFraction_sound {s t rest : Bytes} (h : parseFraction s = some (t, rest)) :
    ∃ w, Numeral.IsFraction w ∧ Utf8.encode w = t ∧ s = t ++ rest := by
  cases s with
  | nil =>
    obtain ⟨rfl, rfl⟩ := Prod.mk.inj (Option.some_inj.1 h)
    exact ⟨[], .none, rfl, rfl⟩
  | cons b s =>
    rw [parseFraction] at h
    split at h
    · rename_i hpoint
      obtain rfl := beq_iff_eq.1 hpoint
      split at h
      · rename_i hdigit
        obtain ⟨rfl, rfl⟩ := Prod.mk.inj (Option.some_inj.1 h)
        obtain ⟨c, t, hc, ht, hencode⟩ := exists_digits hdigit
        refine ⟨_, .digits hc ht, ?_, ?_⟩
        · rw [encode_point, hencode]
        · rw [List.cons_append, ← (digits_spec s).1]
      · cases h
    · obtain ⟨rfl, rfl⟩ := Prod.mk.inj (Option.some_inj.1 h)
      exact ⟨[], .none, rfl, rfl⟩

theorem parseSign_sound (s : Bytes) : ∃ w, Numeral.IsSign w ∧ Utf8.encode w = (parseSign s).1 ∧
    s = (parseSign s).1 ++ (parseSign s).2 := by
  cases s with
  | nil => exact ⟨[], .none, rfl, rfl⟩
  | cons b s =>
    rw [parseSign]
    split
    · rename_i hsign
      rw [Bool.or_eq_true, beq_iff_eq, beq_iff_eq] at hsign
      rcases hsign with rfl | rfl
      · exact ⟨['+'], .plus, rfl, rfl⟩
      · exact ⟨['-'], .minus, rfl, rfl⟩
    · exact ⟨[], .none, rfl, rfl⟩

theorem parseExponent_sound {s t rest : Bytes} (h : parseExponent s = some (t, rest)) :
    ∃ w, Numeral.IsExponent w ∧ Utf8.encode w = t ∧ s = t ++ rest := by
  cases s with
  | nil =>
    obtain ⟨rfl, rfl⟩ := Prod.mk.inj (Option.some_inj.1 h)
    exact ⟨[], .none, rfl, rfl⟩
  | cons b s =>
    rw [parseExponent] at h
    split at h
    · rename_i hletter
      obtain ⟨e, he, hbyte⟩ : ∃ e : Char, (e = 'e' ∨ e = 'E') ∧ Utf8.encode [e] = [b] := by
        rw [Bool.or_eq_true, beq_iff_eq, beq_iff_eq] at hletter
        rcases hletter with rfl | rfl
        · exact ⟨'e', .inl rfl, by decide⟩
        · exact ⟨'E', .inr rfl, by decide⟩
      obtain ⟨sign, hsign, hencodeSign, hsplit⟩ := parseSign_sound s
      generalize parseSign s = read at h hencodeSign hsplit
      obtain ⟨signBytes, s'⟩ := read
      dsimp only at h hencodeSign hsplit
      split at h
      · rename_i hdigit
        obtain ⟨rfl, rfl⟩ := Prod.mk.inj (Option.some_inj.1 h)
        obtain ⟨c, t, hc, ht, hencode⟩ := exists_digits hdigit
        refine ⟨_, .digits he hsign hc ht, ?_, ?_⟩
        · rw [← List.singleton_append, Utf8.encode_append, hbyte, Utf8.encode_append, hencodeSign,
            hencode]
          rfl
        · rw [List.cons_append, List.append_assoc, ← (digits_spec s').1, ← hsplit]
      · cases h
    · obtain ⟨rfl, rfl⟩ := Prod.mk.inj (Option.some_inj.1 h)
      exact ⟨[], .none, rfl, rfl⟩

theorem parseMinus_sound (s : Bytes) : ∃ negative : Bool,
    Utf8.encode (if negative then ['-'] else []) = (parseMinus s).1 ∧
      s = (parseMinus s).1 ++ (parseMinus s).2 := by
  cases s with
  | nil => exact ⟨false, rfl, rfl⟩
  | cons b s =>
    rw [parseMinus]
    split
    · rename_i hminus
      obtain rfl := beq_iff_eq.1 hminus
      exact ⟨true, rfl, rfl⟩
    · exact ⟨false, rfl, rfl⟩

/-- **What is read as a number** is a numeral of the grammar, of a finite double. -/
theorem parseNumber_sound {s rest : Bytes} {m : LuaNum} (h : parseNumber s = some (m, rest)) :
    ∃ (p : Numeral.Parts) (q : ℚ), s = Utf8.encode p.text ++ rest ∧ JsonText.number p = m ∧
      m = .finite q := by
  obtain ⟨negative, hminus, hsplit⟩ := parseMinus_sound s
  unfold parseNumber at h
  generalize parseMinus s = read at h hminus hsplit
  obtain ⟨minus, behind⟩ := read
  dsimp only at h hminus hsplit
  split at h
  · cases h
  rename_i whole afterWhole hwhole
  split at h
  · cases h
  rename_i fraction afterFraction hfraction
  split at h
  · cases h
  rename_i exponent afterExponent hexponent
  obtain ⟨w, hw, rfl, rfl⟩ := parseWhole_sound hwhole
  obtain ⟨f, hf, rfl, rfl⟩ := parseFraction_sound hfraction
  obtain ⟨e, he, rfl, rfl⟩ := parseExponent_sound hexponent
  let p : Numeral.Parts := ⟨negative, w, f, e, hw, hf, he⟩
  have htext : Utf8.encode p.text = minus ++
      (Utf8.encode w ++ (Utf8.encode f ++ Utf8.encode e)) := by
    rw [encode_text, ← hminus]
    rfl
  rw [← htext, tonumber_encode] at h
  split at h
  · rename_i q hq
    obtain ⟨rfl, rfl⟩ := Prod.mk.inj (Option.some_inj.1 h)
    refine ⟨p, q, ?_, hq, rfl⟩
    rw [hsplit, htext]
    simp only [List.append_assoc]
  · cases h

end JSON

end GoblinZomboid
