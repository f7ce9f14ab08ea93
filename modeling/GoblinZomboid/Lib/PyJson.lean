import GoblinZomboid.Lib.Double
import GoblinZomboid.Lib.Numeral
/-!
# `json.loads`

The reader of Python's `json` module, over the text still to be read. What
`json.dumps` writes of a value is read back as the value.
-/

namespace PyJson

/-! ## Reading -/

/-- `WHITESPACE`. -/
def isBlank (c : Char) : Bool := c == ' ' || c == '\t' || c == '\n' || c == '\r'

def skip (s : PyText) : PyText := s.dropWhile isBlank

/-- The value of a hexadecimal digit. -/
def hexValue (c : Char) : Option ℕ :=
  if c.isDigit then some (c.toNat - 48)
  else if 'a' ≤ c && c ≤ 'f' then some (c.toNat - 87)
  else if 'A' ≤ c && c ≤ 'F' then some (c.toNat - 55)
  else none

/-- `_decode_uXXXX`. -/
def hex4 (a b c d : Char) : Option ℕ :=
  match hexValue a, hexValue b, hexValue c, hexValue d with
  | some a, some b, some c, some d => some (((a * 16 + b) * 16 + c) * 16 + d)
  | _, _, _, _ => none

/-- `BACKSLASH`. -/
def backslash (c : Char) : Option Char :=
  if c = '"' || c = '\\' || c = '/' then some c
  else if c = 'b' then some '\x08'
  else if c = 'f' then some '\x0c'
  else if c = 'n' then some '\n'
  else if c = 'r' then some '\r'
  else if c = 't' then some '\t'
  else none

/-- `scanstring`, after the opening quote. A surrogate without its other half
is no character of a text that can be sent, and is not read here. -/
def scanString : PyText → Option (PyText × PyText)
  | [] => none
  | c :: s =>
    if c = '"' then some ([], s)
    else if c = '\\' then
      match s with
      | [] => none
      | e :: s =>
        if e = 'u' then
          match s with
          | a :: b :: c :: d :: s =>
            match hex4 a b c d with
            | none => none
            | some n =>
              if 0xD800 ≤ n && n ≤ 0xDBFF then
                match s with
                | '\\' :: 'u' :: a :: b :: c :: d :: s =>
                  match hex4 a b c d with
                  | none => none
                  | some m =>
                    if 0xDC00 ≤ m && m ≤ 0xDFFF then
                      (scanString s).map fun r =>
                        (Char.ofNat (0x10000 + (n - 0xD800) * 0x400 + (m - 0xDC00)) :: r.1, r.2)
                    else none
                | _ => none
              else if 0xDC00 ≤ n && n ≤ 0xDFFF then none
              else (scanString s).map fun r => (Char.ofNat n :: r.1, r.2)
          | _ => none
        else
          match backslash e with
          | some c => (scanString s).map fun r => (c :: r.1, r.2)
          | none => none
    else if c.toNat < 32 then none
    else (scanString s).map fun r => (c :: r.1, r.2)

/-- The whole part of `NUMBER_RE`. -/
def scanWhole : PyText → Option (PyText × PyText)
  | [] => none
  | c :: s =>
    if c = '0' then some ([c], s)
    else if c.isDigit then some (c :: s.takeWhile Char.isDigit, s.dropWhile Char.isDigit)
    else none

/-- `(\.\d+)?`. -/
def scanFraction : PyText → PyText × PyText
  | [] => ([], [])
  | c :: s =>
    if c = '.' && s.head?.any Char.isDigit then
      (c :: s.takeWhile Char.isDigit, s.dropWhile Char.isDigit)
    else ([], c :: s)

/-- `[-+]?`. -/
def scanSign : PyText → PyText × PyText
  | [] => ([], [])
  | c :: s => if c = '+' || c = '-' then ([c], s) else ([], c :: s)

/-- `([eE][-+]?\d+)?`. -/
def scanExponent : PyText → PyText × PyText
  | [] => ([], [])
  | c :: s =>
    let (sign, t) := scanSign s
    if (c = 'e' || c = 'E') && t.head?.any Char.isDigit then
      (c :: (sign ++ t.takeWhile Char.isDigit), t.dropWhile Char.isDigit)
    else ([], c :: s)

/-- A number: `int` of so many digits at most, or `float`. -/
def scanNumber (s : PyText) : Option (PyValue × PyText) :=
  let (minus, s) := if s.head? = some '-' then (['-'], s.tail) else ([], s)
  match scanWhole s with
  | none => none
  | some (whole, s) =>
    let (fraction, s) := scanFraction s
    let (exponent, s) := scanExponent s
    if fraction.isEmpty && exponent.isEmpty then
      if 4300 < whole.length then none
      else some (.int (Decimal.signed (!minus.isEmpty) (Decimal.digits whole)), s)
    else some (.float (Double.repr (minus ++ (whole ++ (fraction ++ exponent)))), s)

/-- A constant that the text begins with. -/
def scanConstant (s : PyText) : Option (PyValue × PyText) :=
  let constants : List (String × PyValue) := [("null", .none), ("true", .bool true),
    ("false", .bool false), ("NaN", .float (PyText.lit "nan")),
    ("Infinity", .float (PyText.lit "inf")), ("-Infinity", .float (PyText.lit "-inf"))]
  (constants.find? fun e => (PyText.lit e.1).isPrefixOf s).map fun e =>
    (e.2, s.drop e.1.length)

/-- `d[key] = value`. -/
def assign (d : List (PyText × PyValue)) (e : PyText × PyValue) : List (PyText × PyValue) :=
  if d.any fun f => f.1 = e.1 then d.map fun f => if f.1 = e.1 then e else f else d ++ [e]

mutual

/-- `scan_once`, with so many calls at most. -/
def scanOnce : ℕ → PyText → Option (PyValue × PyText)
  | 0, _ => none
  | _ + 1, [] => none
  | n + 1, c :: s =>
    if c = '"' then (scanString s).map fun r => (.str r.1, r.2)
    else if c = '{' then
      match skip s with
      | [] => none
      | c :: s =>
        if c = '}' then some (.dict [], s)
        else (scanEntries n (c :: s)).map fun r => (.dict (r.1.foldl assign []), r.2)
    else if c = '[' then
      match skip s with
      | [] => none
      | c :: s =>
        if c = ']' then some (.list [], s)
        else (scanItems n (c :: s)).map fun r => (.list r.1, r.2)
    else
      match scanConstant (c :: s) with
      | some r => some r
      | none => scanNumber (c :: s)

/-- `JSONArray`, before an item. -/
def scanItems : ℕ → PyText → Option (List PyValue × PyText)
  | 0, _ => none
  | n + 1, s =>
    match scanOnce n s with
    | none => none
    | some (v, s) =>
      match skip s with
      | [] => none
      | c :: s =>
        if c = ']' then some ([v], s)
        else if c = ',' then (scanItems n (skip s)).map fun r => (v :: r.1, r.2)
        else none

/-- `JSONObject`, before a key. -/
def scanEntries : ℕ → PyText → Option (List (PyText × PyValue) × PyText)
  | 0, _ => none
  | _ + 1, [] => none
  | n + 1, c :: s =>
    if c = '"' then
      match scanString s with
      | none => none
      | some (key, s) =>
        match skip s with
        | [] => none
        | c :: s =>
          if c = ':' then
            match scanOnce n (skip s) with
            | none => none
            | some (v, s) =>
              match skip s with
              | [] => none
              | c :: s =>
                if c = '}' then some ([(key, v)], s)
                else if c = ',' then (scanEntries n (skip s)).map fun r => ((key, v) :: r.1, r.2)
                else none
          else none
    else none

end

/-- `json.loads`: none where it raises. -/
def loads (s : PyText) : Option PyValue :=
  match scanOnce (s.length + 1) (skip s) with
  | none => none
  | some (v, rest) => if (skip rest).isEmpty then some v else none

/-! ## Texts that are read back -/

theorem hexValue_digitChar {k : ℕ} (h : k < 16) : hexValue (Nat.digitChar k) = some k := by
  have hall : ∀ k : Fin 16, hexValue (Nat.digitChar k.val) = some k.val := by decide
  exact hall ⟨k, h⟩

/-- A control character is read from its four digits. -/
theorem hex4_hex {n : ℕ} (h : n < 32) :
    PyValue.hex 4 n = ['0', '0', Nat.digitChar (n / 16), Nat.digitChar (n % 16)] ∧
      hex4 '0' '0' (Nat.digitChar (n / 16)) (Nat.digitChar (n % 16)) = some n := by
  have hall : ∀ k : Fin 32,
      PyValue.hex 4 k.val = ['0', '0', Nat.digitChar (k.val / 16), Nat.digitChar (k.val % 16)] := by
    decide
  refine ⟨hall ⟨n, h⟩, ?_⟩
  have hzero : hexValue '0' = some 0 := by decide
  unfold hex4
  rw [hzero, hexValue_digitChar (by omega), hexValue_digitChar (Nat.mod_lt _ (by decide))]
  exact congrArg some (by omega)

theorem scanString_backslash {c e : Char} (hu : e ≠ 'u') (he : backslash e = some c) (s : PyText) :
    scanString ('\\' :: e :: s) = (scanString s).map fun r => (c :: r.1, r.2) := by
  conv_lhs => unfold scanString
  rw [if_neg (by decide), if_pos rfl]
  dsimp only
  rw [if_neg hu, he]

/-- **A character of a string** is read from what is written of it. -/
theorem scanString_jsonChar (c : Char) (s : PyText) :
    scanString (PyValue.jsonChar c ++ s) = (scanString s).map fun r => (c :: r.1, r.2) := by
  have hchar {k : ℕ} (h : (c.toNat == k) = true) : c = Char.ofNat k := by
    rw [← beq_iff_eq.1 h, Char.ofNat_toNat]
  unfold PyValue.jsonChar
  split
  · rename_i h
    simp only [Bool.or_eq_true, beq_iff_eq] at h
    rcases h with rfl | rfl
    · exact scanString_backslash (by decide) (by decide) s
    · exact scanString_backslash (by decide) (by decide) s
  split
  · rename_i h
    exact scanString_backslash (by decide) (by rw [beq_iff_eq.1 h]; decide) s
  split
  · rename_i h
    exact scanString_backslash (by decide) (by rw [beq_iff_eq.1 h]; decide) s
  split
  · rename_i h
    exact scanString_backslash (by decide) (by rw [beq_iff_eq.1 h]; decide) s
  split
  · rename_i h
    exact scanString_backslash (by decide) (by rw [hchar h]; decide) s
  split
  · rename_i h
    exact scanString_backslash (by decide) (by rw [hchar h]; decide) s
  split
  · -- The other control characters have four digits.
    rename_i h
    obtain ⟨htext, hvalue⟩ := hex4_hex h
    rw [htext]
    show scanString ('\\' :: 'u' :: '0' :: '0' :: Nat.digitChar (c.toNat / 16) ::
      Nat.digitChar (c.toNat % 16) :: s) = _
    conv_lhs => unfold scanString
    rw [if_neg (by decide), if_pos rfl]
    dsimp only
    rw [if_pos rfl, hvalue]
    have hlow : (0xD800 ≤ c.toNat && c.toNat ≤ 0xDBFF) = false := by
      simp only [Bool.and_eq_false_iff, decide_eq_false_iff_not]
      omega
    have hhigh : (0xDC00 ≤ c.toNat && c.toNat ≤ 0xDFFF) = false := by
      simp only [Bool.and_eq_false_iff, decide_eq_false_iff_not]
      omega
    dsimp only
    rw [hlow, hhigh, Char.ofNat_toNat]
    rfl
  · rename_i hspecial _ _ _ _ _ hcontrol
    simp only [Bool.or_eq_true, beq_iff_eq, not_or] at hspecial
    show scanString (c :: s) = _
    conv_lhs => unfold scanString
    rw [if_neg hspecial.1, if_neg hspecial.2, if_neg hcontrol]

/-- **A string** is read from what is written of it. -/
theorem scanString_jsonStr (t rest : PyText) :
    scanString (t.flatMap PyValue.jsonChar ++ '"' :: rest) = some (t, rest) := by
  induction t with
  | nil =>
    unfold scanString
    rfl
  | cons c t ih =>
    rw [List.flatMap_cons, List.append_assoc, scanString_jsonChar, ih]
    rfl

/-! ## Numbers that are read back -/

theorem scanWhole_append {whole s : PyText} (h : Numeral.IsWhole whole)
    (hs : ∀ c ∈ s.head?, c.isDigit = false) : scanWhole (whole ++ s) = some (whole, s) := by
  cases h with
  | zero => rfl
  | digits hc hne ht =>
    rename_i c t
    obtain ⟨htake, hdrop⟩ := Numeral.span_append ht hs
    rw [List.cons_append, scanWhole, if_neg hne, if_pos hc, htake, hdrop]

theorem scanFraction_append {fraction s : PyText} (h : Numeral.IsFraction fraction)
    (hs : ∀ c ∈ s.head?, c.isDigit = false ∧ c ≠ '.') :
    scanFraction (fraction ++ s) = (fraction, s) := by
  cases h with
  | none =>
    cases s with
    | nil => rfl
    | cons c s =>
      have hc : (c = '.') = False := eq_false (hs c rfl).2
      rw [List.nil_append, scanFraction, decide_eq_false (hs c rfl).2]
      rfl
  | digits hc ht =>
    rename_i c t
    have hdigits : ∀ d ∈ c :: t, d.isDigit = true := by
      intro d hd
      rcases List.mem_cons.1 hd with rfl | hd
      · exact hc
      · exact ht d hd
    obtain ⟨htake, hdrop⟩ := Numeral.span_append hdigits fun d hd => (hs d hd).1
    have hhead : ((c :: t ++ s).head?.any Char.isDigit) = true := hc
    rw [List.cons_append, scanFraction, hhead, decide_eq_true rfl, Bool.and_self, if_pos rfl, htake,
      hdrop]

theorem scanSign_append {sign s : PyText} (h : Numeral.IsSign sign)
    (hs : ∀ c ∈ s.head?, c.isDigit = true) : scanSign (sign ++ s) = (sign, s) := by
  cases h with
  | none =>
    cases s with
    | nil => rfl
    | cons c s =>
      have hc := hs c rfl
      have hplus : c ≠ '+' := by
        rintro rfl
        exact absurd hc (by decide)
      have hminus : c ≠ '-' := by
        rintro rfl
        exact absurd hc (by decide)
      rw [List.nil_append, scanSign, decide_eq_false hplus, decide_eq_false hminus]
      rfl
  | plus => rfl
  | minus => rfl

theorem scanExponent_append {exponent s : PyText} (h : Numeral.IsExponent exponent)
    (hs : Numeral.Stops s) : scanExponent (exponent ++ s) = (exponent, s) := by
  cases h with
  | none =>
    cases s with
    | nil => rfl
    | cons c s =>
      obtain ⟨-, -, he, hE⟩ := hs c rfl
      rw [List.nil_append, scanExponent, decide_eq_false he, decide_eq_false hE]
      rfl
  | digits he hsign hc ht =>
    rename_i e c sign t
    have hdigits : ∀ d ∈ c :: t, d.isDigit = true := by
      intro d hd
      rcases List.mem_cons.1 hd with rfl | hd
      · exact hc
      · exact ht d hd
    obtain ⟨htake, hdrop⟩ := Numeral.span_append hdigits fun d hd => (hs d hd).1
    have hscan : scanSign ((sign ++ c :: t) ++ s) = (sign, c :: t ++ s) := by
      rw [List.append_assoc]
      exact scanSign_append hsign fun d hd => Option.some.inj hd ▸ hc
    have hhead : ((c :: t ++ s).head?.any Char.isDigit) = true := hc
    have hmark : (decide (e = 'e') || decide (e = 'E')) = true := by
      rcases he with rfl | rfl
      · rfl
      · rfl
    rw [List.cons_append, scanExponent, hscan]
    dsimp only
    rw [hmark, hhead, Bool.and_self, if_pos rfl, htake, hdrop]

/-- After a numeral's parts comes what a reader of them stops at. -/
theorem stops_append {exponent s : PyText} (h : Numeral.IsExponent exponent)
    (hs : Numeral.Stops s) : ∀ c ∈ (exponent ++ s).head?, c.isDigit = false ∧ c ≠ '.' := by
  cases h with
  | none => exact fun c hc => ⟨(hs c hc).1, (hs c hc).2.1⟩
  | digits he _ _ _ =>
    intro c hc
    obtain rfl := Option.some.inj hc
    rcases he with rfl | rfl
    · decide
    · decide

theorem noDigit_append {fraction exponent s : PyText} (hf : Numeral.IsFraction fraction)
    (he : Numeral.IsExponent exponent) (hs : Numeral.Stops s) :
    ∀ c ∈ (fraction ++ (exponent ++ s)).head?, c.isDigit = false := by
  cases hf with
  | none => exact fun c hc => (stops_append he hs c hc).1
  | digits _ _ =>
    intro c hc
    obtain rfl := Option.some.inj hc
    decide

theorem head_ne_minus {whole s : PyText} (h : Numeral.IsWhole whole) :
    (whole ++ s).head? ≠ some '-' := by
  cases h with
  | zero => exact nofun
  | digits hc _ _ =>
    intro heq
    rw [Option.some.inj heq] at hc
    exact absurd hc (by decide)

/-- **A numeral** is read to its end. -/
theorem scanNumber_append (p : Numeral.Parts) {rest : PyText} (hrest : Numeral.Stops rest) :
    scanNumber (p.text ++ rest) =
      if p.fraction.isEmpty && p.exponent.isEmpty then
        if 4300 < p.whole.length then none
        else some (.int (Decimal.signed p.negative (Decimal.digits p.whole)), rest)
      else some (.float (Double.repr p.text), rest) := by
  have hsign : (if (p.text ++ rest).head? = some '-' then (['-'], (p.text ++ rest).tail)
      else ([], p.text ++ rest)) =
        (p.minus, p.whole ++ (p.fraction ++ (p.exponent ++ rest))) := by
    unfold Numeral.Parts.text Numeral.Parts.minus
    simp only [List.append_assoc]
    cases p.negative with
    | true => rfl
    | false =>
      exact if_neg (head_ne_minus p.isWhole)
  have hminus : (!p.minus.isEmpty) = p.negative := by
    unfold Numeral.Parts.minus
    cases p.negative <;> rfl
  unfold scanNumber
  rw [hsign]
  dsimp only
  rw [scanWhole_append p.isWhole (noDigit_append p.isFraction p.isExponent hrest)]
  dsimp only
  rw [scanFraction_append p.isFraction (stops_append p.isExponent hrest)]
  dsimp only
  rw [scanExponent_append p.isExponent hrest, hminus]
  rfl

/-! ## Values that are read back -/

/-- The text of a float: a numeral with a point or an exponent, which is read
as a finite double and is its `repr`. -/
structure IsFloat (t : PyText) : Prop where
  numeral : ∃ p : Numeral.Parts, p.Pointed ∧ p.text = t
  finite : ∃ x, Double.ofRat (Decimal.value t) = .finite x
  repr : Double.repr t = t

mutual

/-- A value as Python has it: no key twice, and floats known by their
`repr`. -/
def Formed : PyValue → Prop
  | .float t => List.elem t PyValue.nonFinite = false → IsFloat t
  | .list items => FormedItems items
  | .dict entries => (entries.map Prod.fst).Nodup ∧ FormedEntries entries
  | .none | .bool _ | .int _ | .str _ => True

def FormedItems : List PyValue → Prop
  | [] => True
  | v :: items => Formed v ∧ FormedItems items

def FormedEntries : List (PyText × PyValue) → Prop
  | [] => True
  | (_, v) :: entries => Formed v ∧ FormedEntries entries

end

/-- What comes after a value in an object or an array, or at the end. -/
def Ends (rest : PyText) : Prop := ∀ c ∈ rest.head?, c = ',' ∨ c = ']' ∨ c = '}'

theorem Ends.stops {rest : PyText} (h : Ends rest) : Numeral.Stops rest := by
  intro c hc
  rcases h c hc with rfl | rfl | rfl
  · decide
  · decide
  · decide

/-- Parts with separators: the first, and each other one after its separator. -/
theorem enclose_cons (left right : Char) (part : PyText) (parts : List PyText) :
    PyValue.enclose left "," right (part :: parts) =
      left :: (part ++ (parts.flatMap (',' :: ·) ++ [right])) := by
  have hjoin : (PyText.lit ",").intercalate (part :: parts) = part ++ parts.flatMap (',' :: ·) := by
    induction parts generalizing part with
    | nil => simp [List.intercalate]
    | cons next parts ih =>
      have hstep : (PyText.lit ",").intercalate (part :: next :: parts) =
          part ++ (',' :: (PyText.lit ",").intercalate (next :: parts)) := by
        simp [List.intercalate, List.intersperse, PyText.lit]
      rw [hstep, ih, List.flatMap_cons, List.cons_append]
  unfold PyValue.enclose
  rw [hjoin, List.cons_append, List.append_assoc]

/-- A numeral begins with a digit, after its sign. -/
theorem text_eq (p : Numeral.Parts) :
    ∃ d t, p.text = p.minus ++ d :: t ∧ d.isDigit = true := by
  have hwhole := p.isWhole
  unfold Numeral.Parts.text
  generalize p.whole = whole at hwhole ⊢
  cases hwhole with
  | zero => exact ⟨'0', _, rfl, by decide⟩
  | digits hc _ _ => exact ⟨_, _, rfl, hc⟩

/-- No constant begins a number. -/
theorem scanConstant_numeral (p : Numeral.Parts) (rest : PyText) :
    scanConstant (p.text ++ rest) = none := by
  obtain ⟨d, t, htext, hd⟩ := text_eq p
  have hne : ∀ c ∈ ['n', 't', 'f', 'N', 'I', '-'], c ≠ d := by
    rintro c hc rfl
    have hall : ∀ c ∈ ['n', 't', 'f', 'N', 'I', '-'], c.isDigit = false := by simp
    rw [hall c hc] at hd
    cases hd
  simp only [List.forall_mem_cons] at hne
  obtain ⟨hn, ht, hf, hN, hI, hminus, -⟩ := hne
  rw [htext]
  unfold scanConstant Numeral.Parts.minus
  cases p.negative with
  | true => simp [PyText.lit, hI]
  | false => simp [PyText.lit, hn, ht, hf, hN, hI, hminus]

/-- A number is read as a number. -/
theorem scanOnce_numeral (n : ℕ) (p : Numeral.Parts) (rest : PyText) :
    scanOnce (n + 1) (p.text ++ rest) = scanNumber (p.text ++ rest) := by
  have hconstant := scanConstant_numeral p rest
  obtain ⟨d, t, htext, hd⟩ := text_eq p
  have hhead : ∃ c s, p.text ++ rest = c :: s ∧ c ≠ '"' ∧ c ≠ '{' ∧ c ≠ '[' := by
    rw [htext]
    unfold Numeral.Parts.minus
    cases p.negative with
    | true => exact ⟨'-', _, rfl, by decide, by decide, by decide⟩
    | false =>
      refine ⟨d, _, rfl, ?_, ?_, ?_⟩ <;> rintro rfl <;> exact absurd hd (by decide)
  obtain ⟨c, s, heq, hquote, hbrace, hbracket⟩ := hhead
  rw [heq] at hconstant ⊢
  rw [scanOnce, if_neg hquote, if_neg hbrace, if_neg hbracket, hconstant]

theorem formedItems_iff {items : List PyValue} : FormedItems items ↔ ∀ v ∈ items, Formed v := by
  induction items with
  | nil => simp [FormedItems]
  | cons v items ih => simp [FormedItems, ih]

theorem formedEntries_iff {entries : List (PyText × PyValue)} :
    FormedEntries entries ↔ ∀ e ∈ entries, Formed e.2 := by
  induction entries with
  | nil => simp [FormedEntries]
  | cons e entries ih => simp [FormedEntries, ih]

/-- The reader reads back what is written of the value. -/
structure ReadBack (v : PyValue) : Prop where
  head : ∃ c t, PyValue.json v = c :: t ∧ isBlank c = false ∧ c ≠ ']'
  read : ∀ (n : ℕ) (rest : PyText), (PyValue.json v).length ≤ n → Ends rest →
    scanOnce n (PyValue.json v ++ rest) = some (v, rest)

theorem skip_cons {c : Char} (h : isBlank c = false) (s : PyText) : skip (c :: s) = c :: s := by
  unfold skip
  rw [List.dropWhile_cons_of_neg (by rw [h]; exact Bool.false_ne_true)]

theorem ReadBack.skip {v : PyValue} (h : ReadBack v) (s : PyText) :
    PyJson.skip (PyValue.json v ++ s) = PyValue.json v ++ s := by
  obtain ⟨c, t, heq, hblank, -⟩ := h.head
  rw [heq, List.cons_append, skip_cons hblank]

/-- Items that are read back, the first and the others. -/
theorem scanItems_json {v : PyValue} {items : List PyValue} (h : ∀ w ∈ v :: items, ReadBack w)
    {n : ℕ} (hn : (PyValue.json v ++ (PyValue.jsonItems items).flatMap (',' :: ·)).length < n)
    (rest : PyText) :
    scanItems n (PyValue.json v ++ ((PyValue.jsonItems items).flatMap (',' :: ·) ++ ']' :: rest)) =
      some (v :: items, rest) := by
  obtain ⟨n, rfl⟩ : ∃ m, n = m + 1 := ⟨n - 1, by omega⟩
  induction items generalizing v n with
  | nil =>
    have hread := (h v List.mem_cons_self).read n (']' :: rest)
      (by simp only [List.length_append] at hn; omega) fun c hc => .inr (.inl (Option.some.inj hc).symm)
    show scanItems (n + 1) (PyValue.json v ++ (']' :: rest)) = _
    rw [scanItems, hread]
    dsimp only
    rw [skip_cons (by decide)]
    dsimp only
    rw [if_pos rfl]
  | cons w items ih =>
    have hlen : (PyValue.json v).length + 1 +
        (PyValue.json w ++ (PyValue.jsonItems items).flatMap (',' :: ·)).length < n + 1 := by
      simp only [PyValue.jsonItems, List.flatMap_cons, List.length_append, List.length_cons] at hn ⊢
      omega
    have hread := (h v List.mem_cons_self).read n (',' :: (PyValue.json w ++
      ((PyValue.jsonItems items).flatMap (',' :: ·) ++ ']' :: rest))) (by omega)
      fun c hc => .inl (Option.some.inj hc).symm
    obtain ⟨m, rfl⟩ : ∃ m, n = m + 1 := ⟨n - 1, by omega⟩
    have hrest := ih (fun u hu => h u (List.mem_cons_of_mem _ hu)) m (by omega)
    have htext : PyValue.json v ++ ((PyValue.jsonItems (w :: items)).flatMap (',' :: ·) ++ ']' :: rest) =
        PyValue.json v ++ (',' :: (PyValue.json w ++
          ((PyValue.jsonItems items).flatMap (',' :: ·) ++ ']' :: rest))) := by
      simp only [PyValue.jsonItems, List.flatMap_cons, List.cons_append, List.append_assoc]
    rw [htext, scanItems, hread]
    dsimp only
    rw [skip_cons (by decide)]
    dsimp only
    rw [if_neg (by decide), if_pos rfl, (h w (List.mem_cons_of_mem _ List.mem_cons_self)).skip, hrest]
    rfl

/-- What is written of an entry. -/
def entryText (e : PyText × PyValue) : PyText := PyValue.jsonStr e.1 ++ ':' :: PyValue.json e.2

theorem jsonEntries_eq (entries : List (PyText × PyValue)) :
    PyValue.jsonEntries entries = entries.map entryText := by
  induction entries with
  | nil => rfl
  | cons e entries ih => rw [PyValue.jsonEntries, ih, List.map_cons, entryText]

/-- An entry whose value is read back. -/
theorem scanEntries_entryText {e : PyText × PyValue} (h : ReadBack e.2) {n : ℕ} (rest : PyText)
    (hn : (entryText e).length ≤ n) (hrest : Ends rest) :
    scanEntries (n + 1) (entryText e ++ rest) =
      match skip rest with
      | [] => none
      | c :: s =>
        if c = '}' then some ([e], s)
        else if c = ',' then (scanEntries n (skip s)).map fun r => (e :: r.1, r.2)
        else none := by
  have hlen : (PyValue.json e.2).length ≤ n := by
    unfold entryText at hn
    simp only [List.length_append, List.length_cons] at hn
    omega
  have htext : entryText e ++ rest = '"' :: (e.1.flatMap PyValue.jsonChar ++
      '"' :: (':' :: (PyValue.json e.2 ++ rest))) := by
    unfold entryText PyValue.jsonStr
    simp only [List.cons_append, List.append_assoc, List.nil_append]
  rw [htext, scanEntries, if_pos rfl, scanString_jsonStr]
  dsimp only
  rw [skip_cons (by decide)]
  dsimp only
  rw [if_pos rfl, h.skip, h.read n rest hlen hrest]

/-- Entries whose values are read back, the first and the others. -/
theorem scanEntries_json {e : PyText × PyValue} {entries : List (PyText × PyValue)}
    (h : ∀ f ∈ e :: entries, ReadBack f.2) {n : ℕ}
    (hn : (entryText e ++ (PyValue.jsonEntries entries).flatMap (',' :: ·)).length < n)
    (rest : PyText) :
    scanEntries n (entryText e ++ ((PyValue.jsonEntries entries).flatMap (',' :: ·) ++ '}' :: rest)) =
      some (e :: entries, rest) := by
  obtain ⟨n, rfl⟩ : ∃ m, n = m + 1 := ⟨n - 1, by omega⟩
  induction entries generalizing e n with
  | nil =>
    have hread := scanEntries_entryText (h e List.mem_cons_self) (n := n) ('}' :: rest)
      (by simp only [List.length_append] at hn; omega) fun c hc =>
        .inr (.inr (Option.some.inj hc).symm)
    show scanEntries (n + 1) (entryText e ++ ('}' :: rest)) = _
    rw [hread, skip_cons (by decide)]
    dsimp only
    rw [if_pos rfl]
  | cons f entries ih =>
    have hlen : (entryText e).length + 1 +
        (entryText f ++ (PyValue.jsonEntries entries).flatMap (',' :: ·)).length < n + 1 := by
      simp only [jsonEntries_eq, List.map_cons, List.flatMap_cons, List.length_append,
        List.length_cons] at hn ⊢
      omega
    have hread := scanEntries_entryText (h e List.mem_cons_self) (n := n)
      (',' :: (entryText f ++ ((PyValue.jsonEntries entries).flatMap (',' :: ·) ++ '}' :: rest)))
      (by omega) fun c hc => .inl (Option.some.inj hc).symm
    obtain ⟨m, rfl⟩ : ∃ m, n = m + 1 := ⟨n - 1, by omega⟩
    have hrest := ih (fun g hg => h g (List.mem_cons_of_mem _ hg)) m (by omega)
    have htext : entryText e ++ ((PyValue.jsonEntries (f :: entries)).flatMap (',' :: ·) ++ '}' :: rest) =
        entryText e ++ (',' :: (entryText f ++
          ((PyValue.jsonEntries entries).flatMap (',' :: ·) ++ '}' :: rest))) := by
      simp only [jsonEntries_eq, List.map_cons, List.flatMap_cons, List.cons_append,
        List.append_assoc]
    have hquote : skip (entryText f ++ ((PyValue.jsonEntries entries).flatMap (',' :: ·) ++
        '}' :: rest)) = entryText f ++ ((PyValue.jsonEntries entries).flatMap (',' :: ·) ++
        '}' :: rest) := skip_cons (by decide) _
    rw [htext, hread, skip_cons (by decide)]
    dsimp only
    rw [if_neg (by decide), if_pos rfl, hquote, hrest]
    rfl

theorem head_numeral (p : Numeral.Parts) :
    ∃ c t, p.text = c :: t ∧ isBlank c = false ∧ c ≠ ']' := by
  obtain ⟨d, t, htext, hd⟩ := text_eq p
  rw [htext]
  unfold Numeral.Parts.minus
  cases p.negative with
  | true => exact ⟨'-', _, rfl, by decide, by decide⟩
  | false =>
    refine ⟨d, t, rfl, ?_, ?_⟩
    · unfold isBlank
      simp only [Bool.or_eq_false_iff, beq_eq_false_iff_ne]
      refine ⟨⟨⟨?_, ?_⟩, ?_⟩, ?_⟩ <;> rintro rfl <;> exact absurd hd (by decide)
    · rintro rfl
      exact absurd hd (by decide)

/-- **A whole number** is read back, if it has not too many digits. -/
theorem readBack_int {k : ℤ} (hdump : PyValue.dumpable (.int k) = true) : ReadBack (.int k) := by
  have htext : PyValue.json (.int k) = (Numeral.ofInt k).text := by
    rw [PyValue.json]
    exact Numeral.lit_toString k
  have hlength : ¬4300 < (Numeral.ofInt k).whole.length := by
    rw [PyValue.dumpable, decide_eq_true_eq] at hdump
    exact not_lt.2 ((Nat.length_toDigits_le_iff (by decide) (by decide)).2 hdump)
  refine ⟨by rw [htext]; exact head_numeral _, fun n rest hn hrest => ?_⟩
  obtain ⟨c, t, hcons, -⟩ := head_numeral (Numeral.ofInt k)
  obtain ⟨n, rfl⟩ : ∃ m, n = m + 1 := by
    refine ⟨n - 1, ?_⟩
    rw [htext, hcons, List.length_cons] at hn
    omega
  rw [htext, scanOnce_numeral, scanNumber_append _ hrest.stops, Numeral.signed_ofInt]
  exact (if_pos rfl).trans (if_neg hlength)

/-- **A float** is read back. -/
theorem readBack_float {t : PyText} (h : IsFloat t) : ReadBack (.float t) := by
  obtain ⟨p, hpointed, rfl⟩ := h.numeral
  refine ⟨by rw [PyValue.json]; exact head_numeral p, fun n rest hn hrest => ?_⟩
  obtain ⟨c, t, hcons, -⟩ := head_numeral p
  obtain ⟨n, rfl⟩ : ∃ m, n = m + 1 := by
    refine ⟨n - 1, ?_⟩
    rw [PyValue.json, hcons, List.length_cons] at hn
    omega
  have hparts : (p.fraction.isEmpty && p.exponent.isEmpty) = false := by
    rw [Bool.and_eq_false_iff]
    rcases hpointed with hne | hne
    · exact .inl (by simpa using hne)
    · exact .inr (by simpa using hne)
  rw [PyValue.json, scanOnce_numeral, scanNumber_append _ hrest.stops, hparts, h.repr]
  rfl

/-- Entries under different keys are collected as they come. -/
theorem foldl_assign {entries d : List (PyText × PyValue)}
    (h : ((d ++ entries).map Prod.fst).Nodup) : entries.foldl assign d = d ++ entries := by
  induction entries generalizing d with
  | nil => exact (List.append_nil d).symm
  | cons e entries ih =>
    have hnew : (d.any fun f => f.1 = e.1) = false := by
      rw [List.any_eq_false]
      intro f hf heq
      rw [List.map_append, List.map_cons] at h
      have hdisjoint := (List.nodup_append.1 h).2.2
      exact hdisjoint f.1 (List.mem_map_of_mem hf) e.1 List.mem_cons_self (of_decide_eq_true heq)
    have hassign : assign d e = d ++ [e] := by
      unfold assign
      rw [hnew]
      rfl
    rw [List.foldl_cons, hassign, ih (by rwa [List.append_assoc]), List.append_assoc]
    rfl

/-- **What `json.dumps` writes of a value** is read back as the value. -/
theorem readBack (v : PyValue) :
    Formed v → PyValue.dumpable v = true → ReadBack v := by
  induction v using PyValue.induction with
  | none =>
    refine fun _ _ => ⟨⟨'n', _, rfl, by decide, by decide⟩, fun n rest hn _ => ?_⟩
    obtain ⟨n, rfl⟩ : ∃ m, n = m + 1 := ⟨n - 1, by simp [PyValue.json, PyText.lit] at hn; omega⟩
    rfl
  | bool b =>
    cases b with
    | true =>
      refine fun _ _ => ⟨⟨'t', _, rfl, by decide, by decide⟩, fun n rest hn _ => ?_⟩
      obtain ⟨n, rfl⟩ : ∃ m, n = m + 1 := ⟨n - 1, by simp [PyValue.json, PyText.lit] at hn; omega⟩
      rfl
    | false =>
      refine fun _ _ => ⟨⟨'f', _, rfl, by decide, by decide⟩, fun n rest hn _ => ?_⟩
      obtain ⟨n, rfl⟩ : ∃ m, n = m + 1 := ⟨n - 1, by simp [PyValue.json, PyText.lit] at hn; omega⟩
      rfl
  | int k => exact fun _ hdump => readBack_int hdump
  | float t =>
    intro hformed hdump
    rw [PyValue.dumpable, Bool.not_eq_true'] at hdump
    rw [Formed] at hformed
    exact readBack_float (hformed hdump)
  | str t =>
    refine fun _ _ => ⟨⟨'"', _, rfl, by decide, by decide⟩, fun n rest hn _ => ?_⟩
    obtain ⟨n, rfl⟩ : ∃ m, n = m + 1 := ⟨n - 1, by
      simp only [PyValue.json, PyValue.jsonStr, List.length_cons, List.cons_append] at hn; omega⟩
    have htext : PyValue.json (.str t) ++ rest = '"' :: (t.flatMap PyValue.jsonChar ++ '"' :: rest) := by
      rw [PyValue.json, PyValue.jsonStr]
      simp only [List.cons_append, List.append_assoc, List.nil_append]
    rw [htext, scanOnce, if_pos rfl, scanString_jsonStr]
    rfl
  | list items ih =>
    intro hformed hdump
    rw [Formed, formedItems_iff] at hformed
    rw [PyValue.dumpable, PyValue.dumpableItems_eq_true] at hdump
    refine ⟨⟨'[', _, rfl, by decide, by decide⟩, fun n rest hn _ => ?_⟩
    obtain ⟨n, rfl⟩ : ∃ m, n = m + 1 := ⟨n - 1, by
      simp only [PyValue.json, PyValue.enclose, List.length_cons, List.cons_append] at hn; omega⟩
    cases items with
    | nil => rfl
    | cons v items =>
      have hall : ∀ w ∈ v :: items, ReadBack w := fun w hw => ih w hw (hformed w hw) (hdump w hw)
      have htext : PyValue.json (.list (v :: items)) = '[' :: (PyValue.json v ++
          ((PyValue.jsonItems items).flatMap (',' :: ·) ++ [']'])) := by
        rw [PyValue.json, PyValue.jsonItems, enclose_cons]
      obtain ⟨c, t, hv, hblank, hclose⟩ := (hall v List.mem_cons_self).head
      have hitems := scanItems_json hall (n := n) (by
        simp only [htext, List.length_append, List.length_cons] at hn ⊢; omega) rest
      rw [htext, List.cons_append, List.append_assoc, List.append_assoc, List.singleton_append,
        scanOnce, if_neg (by decide), if_neg (by decide), if_pos rfl]
      rw [hv, List.cons_append] at hitems ⊢
      rw [skip_cons hblank]
      dsimp only
      rw [if_neg hclose, hitems]
      rfl
  | dict entries ih =>
    intro hformed hdump
    rw [Formed, formedEntries_iff] at hformed
    rw [PyValue.dumpable, PyValue.dumpableEntries_eq_true] at hdump
    refine ⟨⟨'{', _, rfl, by decide, by decide⟩, fun n rest hn _ => ?_⟩
    obtain ⟨n, rfl⟩ : ∃ m, n = m + 1 := ⟨n - 1, by
      simp only [PyValue.json, PyValue.enclose, List.length_cons, List.cons_append] at hn; omega⟩
    cases entries with
    | nil => rfl
    | cons e entries =>
      have hall : ∀ f ∈ e :: entries, ReadBack f.2 :=
        fun f hf => ih f hf (hformed.2 f hf) (hdump f hf)
      have htext : PyValue.json (.dict (e :: entries)) = '{' :: (entryText e ++
          ((PyValue.jsonEntries entries).flatMap (',' :: ·) ++ ['}'])) := by
        rw [PyValue.json, PyValue.jsonEntries, enclose_cons]
        rfl
      have hentries := scanEntries_json hall (n := n) (by
        simp only [htext, List.length_append, List.length_cons] at hn ⊢; omega) rest
      have hquote : ∃ t, entryText e = '"' :: t := ⟨_, rfl⟩
      obtain ⟨t, ht⟩ := hquote
      rw [htext, List.cons_append, List.append_assoc, List.append_assoc, List.singleton_append,
        scanOnce, if_neg (by decide), if_pos rfl]
      rw [ht, List.cons_append] at hentries ⊢
      rw [skip_cons (by decide)]
      dsimp only
      rw [if_neg (by decide), hentries]
      exact congrArg (fun d => some (PyValue.dict d, rest)) (foldl_assign hformed.1)

/-- `json.loads(json.dumps(v))`. -/
theorem loads_json {v : PyValue} (hformed : Formed v) (hdump : PyValue.dumpable v = true) :
    loads (PyValue.json v) = some v := by
  have h := readBack v hformed hdump
  have hskip := h.skip []
  have hread := h.read ((PyValue.json v).length + 1) [] (Nat.le_succ _) nofun
  rw [List.append_nil] at hskip hread
  unfold loads
  rw [hskip, hread]
  rfl

end PyJson
