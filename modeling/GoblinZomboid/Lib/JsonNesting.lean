import GoblinZomboid.Lib.PyData
/-!
# How deep a JSON text is nested

A walk over a text counts the brackets that are open outside its strings.
What `json.loads` reads leaves none open; an object that is cut off leaves
one open, so it is not read at all.
-/

namespace JsonNesting

open PyJson

/-- Outside the strings of a text, inside one, and in one after a backslash. -/
inductive Mode
  | outside
  | inside
  | escaped
  deriving DecidableEq

/-- Where the walk is, and how many brackets are open. -/
structure Place where
  mode : Mode
  depth : ℤ
  deriving DecidableEq

def next (p : Place) (c : PyChar) : Place :=
  match p.mode with
  | .outside =>
    if c = .char '"' then { p with mode := .inside }
    else if c = .char '{' ∨ c = .char '[' then { p with depth := p.depth + 1 }
    else if c = .char '}' ∨ c = .char ']' then { p with depth := p.depth - 1 }
    else p
  | .inside =>
    if c = .char '"' then { p with mode := .outside }
    else if c = .char '\\' then { p with mode := .escaped }
    else p
  | .escaped => { p with mode := .inside }

def walk (p : Place) (t : PyStr) : Place := t.foldl next p

theorem walk_append (p : Place) (s t : PyStr) : walk p (s ++ t) = walk (walk p s) t :=
  List.foldl_append

theorem walk_cons (p : Place) (c : PyChar) (t : PyStr) : walk p (c :: t) = walk (next p c) t := rfl

/-- A prefix of two texts ends in the first or in the second. -/
theorem prefix_of_append {α : Type*} {p s t : List α} (h : p <+: s ++ t) :
    p <+: s ∨ ∃ p', p = s ++ p' ∧ p' <+: t := by
  rcases List.prefix_or_prefix_of_prefix h (List.prefix_append s t) with h' | ⟨p', rfl⟩
  · exact .inl h'
  · exact .inr ⟨p', rfl, (List.prefix_append_right_inj s).1 h⟩

/-! ## Texts that leave nothing open -/

/-- The text closes what it opens, and no more. -/
structure Level (t : PyStr) : Prop where
  closes : ∀ k, walk ⟨.outside, k⟩ t = ⟨.outside, k⟩
  above : ∀ k p, p <+: t → k ≤ (walk ⟨.outside, k⟩ p).depth

/-- The text can stand inside a string. -/
structure Quoted (t : PyStr) : Prop where
  stays : ∀ k, walk ⟨.inside, k⟩ t = ⟨.inside, k⟩
  deep : ∀ k p, p <+: t → (walk ⟨.inside, k⟩ p).depth = k

theorem Level.nil : Level [] where
  closes _ := rfl
  above k p hp := by rw [List.prefix_nil.1 hp]; exact le_rfl

theorem Level.append {s t : PyStr} (hs : Level s) (ht : Level t) : Level (s ++ t) where
  closes k := by rw [walk_append, hs.closes, ht.closes]
  above k p hp := by
    rcases prefix_of_append hp with h | ⟨p', rfl, h⟩
    · exact hs.above k p h
    · rw [walk_append, hs.closes]
      exact ht.above k p' h

theorem Quoted.nil : Quoted [] where
  stays _ := rfl
  deep k p hp := by rw [List.prefix_nil.1 hp]; rfl

theorem Quoted.append {s t : PyStr} (hs : Quoted s) (ht : Quoted t) : Quoted (s ++ t) where
  stays k := by rw [walk_append, hs.stays, ht.stays]
  deep k p hp := by
    rcases prefix_of_append hp with h | ⟨p', rfl, h⟩
    · exact hs.deep k p h
    · rw [walk_append, hs.stays]
      exact ht.deep k p' h

/-- The code point is no quote, backslash or bracket. -/
def plain (c : PyChar) : Bool :=
  !List.elem c [.char '"', .char '\\', .char '{', .char '}', .char '[', .char ']']

theorem next_plain {c : PyChar} (h : plain c = true) {mode : Mode} (hmode : mode ≠ .escaped)
    (k : ℤ) : next ⟨mode, k⟩ c = ⟨mode, k⟩ := by
  unfold plain at h
  rw [Bool.not_eq_true', ← Bool.not_eq_true, List.elem_iff] at h
  simp only [List.mem_cons, not_or, List.not_mem_nil, not_false_eq_true, and_true] at h
  obtain ⟨hquote, hslash, hbrace, hbrace', hbracket, hbracket'⟩ := h
  cases mode with
  | outside => simp [next, hquote, hbrace, hbrace', hbracket, hbracket']
  | inside => simp [next, hquote, hslash]
  | escaped => exact absurd rfl hmode

theorem walk_plain {t : PyStr} (h : ∀ c ∈ t, plain c = true) {mode : Mode}
    (hmode : mode ≠ .escaped) (k : ℤ) : walk ⟨mode, k⟩ t = ⟨mode, k⟩ := by
  induction t with
  | nil => rfl
  | cons c t ih =>
    rw [walk_cons, next_plain (h c List.mem_cons_self) hmode]
    exact ih fun d hd => h d (List.mem_cons_of_mem _ hd)

theorem Level.of_plain {t : PyStr} (h : ∀ c ∈ t, plain c = true) : Level t where
  closes k := walk_plain h (by decide) k
  above k _ hp := by rw [walk_plain (fun c hc => h c (hp.subset hc)) (by decide)]

theorem Quoted.of_plain {t : PyStr} (h : ∀ c ∈ t, plain c = true) : Quoted t where
  stays k := walk_plain h (by decide) k
  deep k _ hp := by rw [walk_plain (fun c hc => h c (hp.subset hc)) (by decide)]

/-- A string in its quotes. -/
theorem Quoted.level {t : PyStr} (h : Quoted t) : Level (.char '"' :: t ++ [.char '"']) where
  closes k := by
    rw [List.cons_append, walk_cons, walk_append]
    show walk (walk ⟨.inside, k⟩ t) _ = _
    rw [h.stays]
    rfl
  above k p hp := by
    rw [List.cons_append, List.prefix_cons_iff] at hp
    rcases hp with rfl | ⟨p', rfl, hp⟩
    · exact le_rfl
    rw [walk_cons]
    show k ≤ (walk ⟨.inside, k⟩ p').depth
    rcases prefix_of_append hp with h' | ⟨p'', rfl, h'⟩
    · exact (h.deep k p' h').ge
    · rw [walk_append, h.stays]
      rcases List.prefix_cons_iff.1 h' with rfl | ⟨_, rfl, h''⟩
      · exact le_rfl
      · rw [List.prefix_nil.1 h'']
        exact le_rfl

/-- The brackets of an object or an array. -/
def Brackets (left right : Char) : Prop := left = '{' ∧ right = '}' ∨ left = '[' ∧ right = ']'

theorem Brackets.walk {left right : Char} (h : Brackets left right) (k : ℤ) :
    next ⟨.outside, k⟩ (.char left) = ⟨.outside, k + 1⟩ ∧
      next ⟨.outside, k + 1⟩ (.char right) = ⟨.outside, k⟩ := by
  rcases h with ⟨rfl, rfl⟩ | ⟨rfl, rfl⟩ <;> simp [next]

/-- **An open bracket** stays open until the text in it is over. -/
theorem Level.open {t p : PyStr} {left right : Char} (h : Level t) (hb : Brackets left right)
    (hp : p <+: .char left :: t ++ [.char right]) (hne : p ≠ []) (k : ℤ) :
    p = .char left :: t ++ [.char right] ∨ k + 1 ≤ (JsonNesting.walk ⟨.outside, k⟩ p).depth := by
  rw [List.cons_append, List.prefix_cons_iff] at hp
  rcases hp with rfl | ⟨p', rfl, hp⟩
  · exact absurd rfl hne
  rw [walk_cons, (hb.walk k).1]
  rcases prefix_of_append hp with h' | ⟨p'', rfl, h'⟩
  · exact .inr (h.above (k + 1) p' h')
  · rcases List.prefix_cons_iff.1 h' with rfl | ⟨_, rfl, h''⟩
    · rw [List.append_nil, h.closes]
      exact .inr le_rfl
    · rw [List.prefix_nil.1 h'']
      exact .inl rfl

theorem Level.bracket {t : PyStr} {left right : Char} (h : Level t) (hb : Brackets left right) :
    Level (.char left :: t ++ [.char right]) where
  closes k := by
    rw [List.cons_append, walk_cons, (hb.walk k).1, walk_append, h.closes]
    exact (hb.walk k).2
  above k p hp := by
    by_cases hne : p = []
    · subst hne
      exact le_rfl
    rcases h.open hb hp hne k with rfl | hopen
    · rw [List.cons_append, walk_cons, (hb.walk k).1, walk_append, h.closes]
      exact le_of_eq (congrArg Place.depth (hb.walk k).2).symm
    · omega

/-! ## What is written -/

theorem plain_hex (width n : ℕ) : ∀ c ∈ PyStr.ofText (PyValue.hex width n), plain c = true := by
  intro c hc
  obtain ⟨d, hd, rfl⟩ := List.mem_map.1 hc
  obtain ⟨i, -, rfl⟩ := List.mem_map.1 hd
  have hall : ∀ k < 16, plain (.char (Nat.digitChar k)) = true := by decide
  exact hall _ (Nat.mod_lt _ (by decide))

theorem quoted_escape (c : Char) : Quoted [.char '\\', .char c] where
  stays _ := rfl
  deep k p hp := by
    rcases List.prefix_cons_iff.1 hp with rfl | ⟨p', rfl, h⟩
    · rfl
    rcases List.prefix_cons_iff.1 h with rfl | ⟨p'', rfl, h'⟩
    · rfl
    · rw [List.prefix_nil.1 h']
      rfl

/-- A bracket in a string is no bracket. -/
theorem quoted_char {c : Char} (hquote : c ≠ '"') (hslash : c ≠ '\\') : Quoted [.char c] := by
  have hnext : ∀ k, next ⟨.inside, k⟩ (.char c) = ⟨.inside, k⟩ := by
    intro k
    simp [next, hquote, hslash]
  refine ⟨hnext, fun k p hp => ?_⟩
  rcases List.prefix_cons_iff.1 hp with rfl | ⟨p', rfl, h⟩
  · rfl
  · rw [List.prefix_nil.1 h]
    exact congrArg Place.depth (hnext k)

/-- A string is written in its quotes, whatever it holds. -/
theorem quoted_jsonChar (c : PyChar) : Quoted (PyData.jsonChar c) := by
  cases c with
  | lone n => exact .of_plain (fun c hc => by rw [List.mem_singleton.1 hc]; rfl)
  | char c =>
    show Quoted (PyStr.ofText (PyValue.jsonChar c))
    unfold PyValue.jsonChar
    split
    · exact quoted_escape c
    rename_i hc
    rw [Bool.or_eq_true, not_or, beq_iff_eq, beq_iff_eq] at hc
    split
    · exact quoted_escape 'n'
    split
    · exact quoted_escape 'r'
    split
    · exact quoted_escape 't'
    split
    · exact quoted_escape 'f'
    split
    · exact quoted_escape 'b'
    split
    · exact (quoted_escape 'u').append (.of_plain (plain_hex 4 c.toNat))
    · exact quoted_char hc.1 hc.2

theorem level_jsonStr (t : PyStr) : Level (PyData.jsonStr t) := by
  have hquoted : Quoted (t.flatMap PyData.jsonChar) := by
    induction t with
    | nil => exact .nil
    | cons c t ih => exact (quoted_jsonChar c).append ih
  exact hquoted.level

theorem level_intercalate {parts : List PyStr} (h : ∀ t ∈ parts, Level t) :
    Level ((PyStr.lit ",").intercalate parts) := by
  have hcomma : Level (PyStr.lit ",") := .of_plain (by decide)
  induction parts with
  | nil => exact .nil
  | cons t parts ih =>
    obtain ⟨ht, hrest⟩ := List.forall_mem_cons.1 h
    cases parts with
    | nil =>
      rw [List.intercalate_singleton]
      exact ht
    | cons t' parts =>
      rw [List.intercalate_cons_cons]
      exact (ht.append hcomma).append (ih hrest)

/-- The characters of a numeral. -/
def numeric (c : Char) : Bool := c.isDigit || List.elem c ['-', '+', '.', 'e', 'E']

theorem plain_of_numeric {c : Char} (h : numeric c = true) : plain (.char c) = true := by
  by_contra hplain
  unfold plain at hplain
  rw [Bool.not_eq_true', Bool.not_eq_false, List.elem_iff] at hplain
  have hall : (['"', '\\', '{', '}', '[', ']'].all fun d => !numeric d) = true := by decide
  have hmem : c ∈ ['"', '\\', '{', '}', '[', ']'] := by simpa using hplain
  have hc := List.all_eq_true.1 hall c hmem
  rw [h] at hc
  cases hc

theorem numeric_of_isDigit {c : Char} (h : c.isDigit = true) : numeric c = true := by
  unfold numeric
  rw [h]
  rfl

theorem numeric_parts (p : Numeral.Parts) : ∀ c ∈ p.text, numeric c = true := by
  intro c hc
  unfold Numeral.Parts.text Numeral.Parts.minus at hc
  rw [List.mem_append, List.mem_append, List.mem_append] at hc
  rcases hc with hc | hc | hc | hc
  · split at hc
    · rw [List.mem_singleton.1 hc]
      rfl
    · cases hc
  · have hwhole := p.isWhole
    generalize p.whole = whole at hwhole hc
    cases hwhole with
    | zero =>
      rw [List.mem_singleton.1 hc]
      rfl
    | digits hd _ ht =>
      rcases List.mem_cons.1 hc with rfl | hc
      · exact numeric_of_isDigit hd
      · exact numeric_of_isDigit (ht c hc)
  · have hfraction := p.isFraction
    generalize p.fraction = fraction at hfraction hc
    cases hfraction with
    | none => cases hc
    | digits hd ht =>
      rcases List.mem_cons.1 hc with rfl | hc
      · rfl
      rcases List.mem_cons.1 hc with rfl | hc
      · exact numeric_of_isDigit hd
      · exact numeric_of_isDigit (ht c hc)
  · have hexponent := p.isExponent
    generalize p.exponent = exponent at hexponent hc
    cases hexponent with
    | none => cases hc
    | digits he hsign hd ht =>
      rcases List.mem_cons.1 hc with rfl | hc
      · rcases he with rfl | rfl <;> rfl
      rcases List.mem_append.1 hc with hc | hc
      · cases hsign with
        | none => cases hc
        | plus =>
          rw [List.mem_singleton.1 hc]
          rfl
        | minus =>
          rw [List.mem_singleton.1 hc]
          rfl
      rcases List.mem_cons.1 hc with rfl | hc
      · exact numeric_of_isDigit hd
      · exact numeric_of_isDigit (ht c hc)

theorem level_numeric {t : PyText} (h : ∀ c ∈ t, numeric c = true) : Level (PyStr.ofText t) := by
  refine .of_plain fun c hc => ?_
  obtain ⟨d, hd, rfl⟩ := List.mem_map.1 hc
  exact plain_of_numeric (h d hd)

mutual

/-- **What is written of a value** closes what it opens. -/
theorem level_json : (v : PyData) → v.Formed → Level (PyData.json v)
  | .none, _ => .of_plain (by decide)
  | .bool true, _ => .of_plain (by decide)
  | .bool false, _ => .of_plain (by decide)
  | .int n, _ => by
    show Level (PyStr.ofText (PyText.lit (toString n)))
    rw [Numeral.lit_toString]
    exact level_numeric (numeric_parts _)
  | .float t, h => by
    obtain ⟨p, -, rfl⟩ := (show PyJson.IsFloat t from h).numeral
    exact level_numeric (numeric_parts p)
  | .str t, _ => level_jsonStr t
  | .list items, h =>
    (level_intercalate (level_jsonItems items h)).bracket (.inr ⟨rfl, rfl⟩)
  | .dict entries, h =>
    (level_intercalate (level_jsonEntries entries h.2)).bracket (.inl ⟨rfl, rfl⟩)

theorem level_jsonItems : (items : List PyData) → PyData.FormedItems items →
    ∀ t ∈ PyData.jsonItems items, Level t
  | [], _ => nofun
  | v :: items, h => List.forall_mem_cons.2 ⟨level_json v h.1, level_jsonItems items h.2⟩

theorem level_jsonEntries : (entries : List (PyStr × PyData)) → PyData.FormedEntries entries →
    ∀ t ∈ PyData.jsonEntries entries, Level t
  | [], _ => nofun
  | (k, v) :: entries, h => List.forall_mem_cons.2
    ⟨(level_jsonStr k).append
      ((Level.of_plain (t := [.char ':']) (by decide)).append (level_json v h.1)),
      level_jsonEntries entries h.2⟩

end

/-- An object that is cut off leaves a bracket open. -/
theorem open_of_cut {entries : List (PyStr × PyData)} (h : PyData.Formed (.dict entries))
    {p : PyStr} (hp : p <+: PyData.json (.dict entries)) (hcut : p ≠ PyData.json (.dict entries))
    (hne : p ≠ []) : walk ⟨.outside, 0⟩ p ≠ ⟨.outside, 0⟩ := by
  intro hclosed
  rcases (level_intercalate (level_jsonEntries entries h.2)).open (.inl ⟨rfl, rfl⟩) hp hne 0 with
    hall | hopen
  · exact hcut hall
  · rw [hclosed] at hopen
    exact absurd hopen (by decide)

/-! ## What is read -/

theorem plain_of_hexValue {c : Char} {n : ℕ} (h : hexValue c = some n) :
    plain (.char c) = true := by
  by_contra hplain
  unfold plain at hplain
  rw [Bool.not_eq_true', Bool.not_eq_false, List.elem_iff] at hplain
  have hall : (['"', '\\', '{', '}', '[', ']'].all fun d => (hexValue d).isNone) = true := by decide
  have hmem : c ∈ ['"', '\\', '{', '}', '[', ']'] := by simpa using hplain
  have hc := List.all_eq_true.1 hall c hmem
  rw [h] at hc
  cases hc

/-- The escape of a code point by its number. -/
theorem quoted_hex4 {a b c d : Char} {n : ℕ} (h : hex4 a b c d = some n) :
    Quoted (PyStr.ofText ['\\', 'u', a, b, c, d]) := by
  have hdigits : Quoted (PyStr.ofText [a, b, c, d]) := by
    unfold hex4 at h
    split at h
    · rename_i ha hb hc hd
      refine .of_plain fun e he => ?_
      simp only [PyStr.ofText, List.map_cons, List.map_nil, List.mem_cons, List.not_mem_nil,
        or_false] at he
      rcases he with rfl | rfl | rfl | rfl
      · exact plain_of_hexValue ha
      · exact plain_of_hexValue hb
      · exact plain_of_hexValue hc
      · exact plain_of_hexValue hd
    · cases h
  exact (quoted_escape 'u').append hdigits

/-- The rest of a string that is read, its closing quote included. -/
def Ending (c : PyText) : Prop :=
  ∀ k, walk ⟨.inside, k⟩ (PyStr.ofText c) = ⟨.outside, k⟩

/-- A string goes on after what can stand in it. -/
theorem Ending.cons {front s rest : PyText} (hfront : Quoted (PyStr.ofText front))
    (h : ∃ c, s = c ++ rest ∧ Ending c) : ∃ c, front ++ s = c ++ rest ∧ Ending c := by
  obtain ⟨c, rfl, hc⟩ := h
  refine ⟨front ++ c, (List.append_assoc ..).symm, fun k => ?_⟩
  rw [PyStr.ofText_append, walk_append, hfront.stays, hc]

/-- **A string that is read** ends outside. -/
theorem scanString_ending {s t rest : PyText} (h : scanString s = some (t, rest)) :
    ∃ c, s = c ++ rest ∧ Ending c := by
  fun_induction scanString s generalizing t rest with
  | case1 => cases h
  | case2 s =>
    cases h
    exact ⟨['"'], rfl, fun k => rfl⟩
  | case6 a b c d n hn _ a' b' c' d' s m hm _ _ ih =>
    obtain ⟨r, hr, heq⟩ := Option.map_eq_some_iff.1 h
    cases heq
    exact @Ending.cons ['\\', 'u', a, b, c, d, '\\', 'u', a', b', c', d'] _ _
      ((quoted_hex4 hn).append (quoted_hex4 hm)) (ih hr)
  | case10 a b c d s n hn _ _ _ ih =>
    obtain ⟨r, hr, heq⟩ := Option.map_eq_some_iff.1 h
    cases heq
    exact Ending.cons (quoted_hex4 hn) (ih hr)
  | case12 e s _ c _ _ ih =>
    obtain ⟨r, hr, heq⟩ := Option.map_eq_some_iff.1 h
    cases heq
    exact @Ending.cons ['\\', e] _ _ (quoted_escape e) (ih hr)
  | case15 c s hquote hslash _ ih =>
    obtain ⟨r, hr, heq⟩ := Option.map_eq_some_iff.1 h
    cases heq
    exact @Ending.cons [c] _ _ (quoted_char hquote hslash) (ih hr)
  | _ => cases h

/-- The text leaves nothing open. -/
def Shut (c : PyText) : Prop := ∀ k, walk ⟨.outside, k⟩ (PyStr.ofText c) = ⟨.outside, k⟩

/-- The text closes one bracket. -/
def Closing (c : PyText) : Prop := ∀ k, walk ⟨.outside, k + 1⟩ (PyStr.ofText c) = ⟨.outside, k⟩

theorem Shut.append {c d : PyText} (hc : Shut c) (hd : Shut d) : Shut (c ++ d) := by
  intro k
  rw [PyStr.ofText_append, walk_append, hc, hd]

theorem Shut.closing {c d : PyText} (hc : Shut c) (hd : Closing d) : Closing (c ++ d) := by
  intro k
  rw [PyStr.ofText_append, walk_append, hc, hd]

theorem shut_of_plain {c : PyText} (h : ∀ d ∈ c, plain (.char d) = true) : Shut c := by
  refine fun k => walk_plain (fun d hd => ?_) (by decide) k
  obtain ⟨e, he, rfl⟩ := List.mem_map.1 hd
  exact h e he

theorem shut_of_numeric {c : PyText} (h : ∀ d ∈ c, numeric d = true) : Shut c :=
  shut_of_plain fun d hd => plain_of_numeric (h d hd)

theorem Closing.bracket {left right : Char} (hb : Brackets left right) : Closing [right] :=
  fun k => (hb.walk k).2

/-- A bracket and what closes it. -/
theorem Closing.shut {left right : Char} {c : PyText} (hb : Brackets left right) (h : Closing c) :
    Shut (left :: c) := by
  intro k
  show walk ⟨.outside, k⟩ (.char left :: PyStr.ofText c) = _
  rw [walk_cons, (hb.walk k).1, h]

theorem exists_blanks (s : PyText) : ∃ b, s = b ++ skip s ∧ Shut b := by
  refine ⟨s.takeWhile isBlank, (List.takeWhile_append_dropWhile).symm, shut_of_plain fun d hd => ?_⟩
  have hblank := List.mem_takeWhile_imp hd
  unfold isBlank at hblank
  simp only [Bool.or_eq_true, beq_iff_eq] at hblank
  rcases hblank with ((rfl | rfl) | rfl) | rfl <;> rfl

theorem takeWhile_numeric (s : PyText) : ∀ d ∈ s.takeWhile Char.isDigit, numeric d = true :=
  fun _ hd => numeric_of_isDigit (List.mem_takeWhile_imp hd)

theorem scanWhole_numeric {s w rest : PyText} (h : scanWhole s = some (w, rest)) :
    ∃ c, s = c ++ rest ∧ ∀ d ∈ c, numeric d = true := by
  unfold scanWhole at h
  split at h
  · cases h
  rename_i c s
  split at h
  · rename_i hc
    cases h
    exact ⟨[c], rfl, fun d hd => by rw [List.mem_singleton.1 hd, hc]; rfl⟩
  split at h
  · rename_i hc
    cases h
    refine ⟨c :: s.takeWhile Char.isDigit, ?_, List.forall_mem_cons.2
      ⟨numeric_of_isDigit hc, takeWhile_numeric s⟩⟩
    rw [List.cons_append, List.takeWhile_append_dropWhile]
  · cases h

theorem scanFraction_numeric (s : PyText) :
    ∃ c, s = c ++ (scanFraction s).2 ∧ ∀ d ∈ c, numeric d = true := by
  unfold scanFraction
  split
  · exact ⟨[], rfl, nofun⟩
  rename_i c s
  split
  · rename_i hc
    rw [Bool.and_eq_true, decide_eq_true_eq] at hc
    refine ⟨c :: s.takeWhile Char.isDigit, ?_, List.forall_mem_cons.2
      ⟨by rw [hc.1]; rfl, takeWhile_numeric s⟩⟩
    rw [List.cons_append, List.takeWhile_append_dropWhile]
  · exact ⟨[], rfl, nofun⟩

theorem scanExponent_numeric (s : PyText) :
    ∃ c, s = c ++ (scanExponent s).2 ∧ ∀ d ∈ c, numeric d = true := by
  have hsign : ∀ s, s = (scanSign s).1 ++ (scanSign s).2 ∧
      ∀ d ∈ (scanSign s).1, numeric d = true := by
    intro s
    unfold scanSign
    split
    · exact ⟨rfl, nofun⟩
    split
    · rename_i hc
      refine ⟨rfl, fun d hd => ?_⟩
      rw [List.mem_singleton.1 hd]
      rw [Bool.or_eq_true, decide_eq_true_eq, decide_eq_true_eq] at hc
      rcases hc with rfl | rfl <;> rfl
    · exact ⟨rfl, nofun⟩
  unfold scanExponent
  split
  · exact ⟨[], rfl, nofun⟩
  rename_i c s
  obtain ⟨hsplit, hnumeric⟩ := hsign s
  generalize scanSign s = signed at hsplit hnumeric
  obtain ⟨sign, t⟩ := signed
  dsimp only at hsplit hnumeric ⊢
  split
  · rename_i hc
    rw [Bool.and_eq_true, Bool.or_eq_true, decide_eq_true_eq, decide_eq_true_eq] at hc
    refine ⟨c :: (sign ++ t.takeWhile Char.isDigit), ?_, List.forall_mem_cons.2
      ⟨by rcases hc.1 with rfl | rfl <;> rfl, fun d hd => ?_⟩⟩
    · rw [hsplit, List.cons_append, List.append_assoc, List.takeWhile_append_dropWhile]
    · rcases List.mem_append.1 hd with hd | hd
      · exact hnumeric d hd
      · exact takeWhile_numeric t d hd
  · exact ⟨[], rfl, nofun⟩

theorem scanNumber_shut {s rest : PyText} {v : PyValue} (h : scanNumber s = some (v, rest)) :
    ∃ c, s = c ++ rest ∧ Shut c := by
  suffices hnumeric : ∃ c, s = c ++ rest ∧ ∀ d ∈ c, numeric d = true by
    obtain ⟨c, hc, hall⟩ := hnumeric
    exact ⟨c, hc, shut_of_numeric hall⟩
  unfold scanNumber at h
  have hminus : ∃ m, s = m ++ (if s.head? = some '-' then (['-'], s.tail) else ([], s)).2 ∧
      ∀ d ∈ m, numeric d = true := by
    split
    · rename_i hhead
      obtain ⟨t, rfl⟩ := List.head?_eq_some_iff.1 hhead
      exact ⟨['-'], rfl, List.forall_mem_singleton.2 (by decide)⟩
    · exact ⟨[], rfl, nofun⟩
  generalize (if s.head? = some '-' then (['-'], s.tail) else ([], s)) = signed at h hminus
  obtain ⟨m, hs, hm⟩ := hminus
  obtain ⟨sign, s₁⟩ := signed
  dsimp only at h hs
  split at h
  · cases h
  rename_i whole s₂ hwhole
  obtain ⟨w, hs₁, hw⟩ := scanWhole_numeric hwhole
  obtain ⟨f, hs₂, hf⟩ := scanFraction_numeric s₂
  obtain ⟨x, hs₃, hx⟩ := scanExponent_numeric (scanFraction s₂).2
  have hrest : rest = (scanExponent (scanFraction s₂).2).2 := by
    split at h
    · split at h
      · cases h
      · exact (congrArg Prod.snd (Option.some.inj h)).symm
    · exact (congrArg Prod.snd (Option.some.inj h)).symm
  refine ⟨m ++ (w ++ (f ++ x)), ?_, fun d hd => ?_⟩
  · rw [hs, hs₁, hs₂, hrest, List.append_assoc, List.append_assoc, List.append_assoc, ← hs₃]
  · simp only [List.mem_append] at hd
    rcases hd with hd | hd | hd | hd
    · exact hm d hd
    · exact hw d hd
    · exact hf d hd
    · exact hx d hd

theorem scanConstant_shut {s rest : PyText} {v : PyValue} (h : scanConstant s = some (v, rest)) :
    ∃ c, s = c ++ rest ∧ Shut c := by
  unfold scanConstant at h
  obtain ⟨e, he, heq⟩ := Option.map_eq_some_iff.1 h
  cases heq
  have hprefix := List.find?_some he
  have hmem := List.mem_of_find?_eq_some he
  obtain ⟨t, rfl⟩ := List.isPrefixOf_iff_prefix.1 hprefix
  have hplain : (PyText.lit e.1).all (fun d => plain (.char d)) = true := by
    simp only [List.mem_cons, List.not_mem_nil, or_false] at hmem
    rcases hmem with rfl | rfl | rfl | rfl | rfl | rfl <;> rfl
  have hlength : e.1.length = (PyText.lit e.1).length := rfl
  refine ⟨PyText.lit e.1, ?_, shut_of_plain fun d hd => List.all_eq_true.1 hplain d hd⟩
  rw [hlength, List.drop_left]

/-- **What is read** leaves nothing open, and an object or an array is read up
to the bracket that closes it. -/
theorem scan_shut (n : ℕ) :
    (∀ s v rest, scanOnce n s = some (v, rest) → ∃ c, s = c ++ rest ∧ Shut c) ∧
    (∀ s items rest, scanItems n s = some (items, rest) → ∃ c, s = c ++ rest ∧ Closing c) ∧
    ∀ s entries rest, scanEntries n s = some (entries, rest) →
      ∃ c, s = c ++ rest ∧ Closing c := by
  have hbraces : Brackets '{' '}' := .inl ⟨rfl, rfl⟩
  have hsquares : Brackets '[' ']' := .inr ⟨rfl, rfl⟩
  have hcomma : Shut [','] := shut_of_plain (List.forall_mem_singleton.2 (by decide))
  have hcolon : Shut [':'] := shut_of_plain (List.forall_mem_singleton.2 (by decide))
  induction n with
  | zero =>
    refine ⟨fun s v rest h => ?_, fun s v rest h => ?_, fun s v rest h => ?_⟩
    · rw [scanOnce] at h
      cases h
    · rw [scanItems] at h
      cases h
    · rw [scanEntries] at h
      cases h
  | succ n ih =>
    obtain ⟨honce, hitems, hentries⟩ := ih
    refine ⟨fun s v rest h => ?_, fun s items rest h => ?_, fun s entries rest h => ?_⟩
    · cases s with
      | nil =>
        rw [scanOnce] at h
        cases h
      | cons c s =>
        rw [scanOnce] at h
        split at h
        · rename_i hc
          subst hc
          obtain ⟨r, hr, heq⟩ := Option.map_eq_some_iff.1 h
          cases heq
          obtain ⟨t, rfl, ht⟩ := scanString_ending hr
          exact ⟨'"' :: t, rfl, ht⟩
        split at h
        · rename_i hc
          subst hc
          obtain ⟨b, hb, hblank⟩ := exists_blanks s
          split at h
          · cases h
          rename_i d s' hskip
          rw [hskip] at hb
          split at h
          · rename_i hd
            subst hd
            cases h
            refine ⟨'{' :: (b ++ ['}']), ?_, (hblank.closing (.bracket hbraces)).shut hbraces⟩
            rw [hb, List.cons_append, List.append_assoc]
            rfl
          · obtain ⟨r, hr, heq⟩ := Option.map_eq_some_iff.1 h
            cases heq
            obtain ⟨t, ht, hclosing⟩ := hentries _ _ _ hr
            refine ⟨'{' :: (b ++ t), ?_, (hblank.closing hclosing).shut hbraces⟩
            rw [hb, ht, List.cons_append, List.append_assoc]
        split at h
        · rename_i hc
          subst hc
          obtain ⟨b, hb, hblank⟩ := exists_blanks s
          split at h
          · cases h
          rename_i d s' hskip
          rw [hskip] at hb
          split at h
          · rename_i hd
            subst hd
            cases h
            refine ⟨'[' :: (b ++ [']']), ?_, (hblank.closing (.bracket hsquares)).shut hsquares⟩
            rw [hb, List.cons_append, List.append_assoc]
            rfl
          · obtain ⟨r, hr, heq⟩ := Option.map_eq_some_iff.1 h
            cases heq
            obtain ⟨t, ht, hclosing⟩ := hitems _ _ _ hr
            refine ⟨'[' :: (b ++ t), ?_, (hblank.closing hclosing).shut hsquares⟩
            rw [hb, ht, List.cons_append, List.append_assoc]
        split at h
        · rename_i hconstant
          cases h
          exact scanConstant_shut hconstant
        · exact scanNumber_shut h
    · rw [scanItems] at h
      split at h
      · cases h
      rename_i v s' hv
      obtain ⟨t, rfl, ht⟩ := honce _ _ _ hv
      obtain ⟨b, hb, hblank⟩ := exists_blanks s'
      split at h
      · cases h
      rename_i d s'' hskip
      rw [hskip] at hb
      split at h
      · rename_i hd
        subst hd
        cases h
        refine ⟨t ++ (b ++ [']']), ?_, ht.closing (hblank.closing (.bracket hsquares))⟩
        rw [hb, List.append_assoc, List.append_assoc]
        rfl
      split at h
      · rename_i hd
        subst hd
        obtain ⟨r, hr, heq⟩ := Option.map_eq_some_iff.1 h
        cases heq
        obtain ⟨b', hb', hblank'⟩ := exists_blanks s''
        obtain ⟨u, hu, hclosing⟩ := hitems _ _ _ hr
        refine ⟨t ++ (b ++ ([','] ++ (b' ++ u))), ?_,
          ht.closing (hblank.closing (hcomma.closing (hblank'.closing hclosing)))⟩
        rw [hb, hb', hu]
        simp only [List.append_assoc, List.cons_append, List.nil_append]
      · cases h
    · cases s with
      | nil =>
        rw [scanEntries] at h
        cases h
      | cons c s =>
        rw [scanEntries] at h
        split at h
        swap
        · cases h
        rename_i hc
        subst hc
        split at h
        · cases h
        rename_i key s₁ hkey
        obtain ⟨t, rfl, ht⟩ := scanString_ending hkey
        obtain ⟨b, hb, hblank⟩ := exists_blanks s₁
        split at h
        · cases h
        rename_i d s₂ hskip
        rw [hskip] at hb
        split at h
        swap
        · cases h
        rename_i hd
        subst hd
        obtain ⟨b₂, hb₂, hblank₂⟩ := exists_blanks s₂
        split at h
        · cases h
        rename_i v s₃ hv
        obtain ⟨u, hu, hshut⟩ := honce _ _ _ hv
        obtain ⟨b₃, hb₃, hblank₃⟩ := exists_blanks s₃
        -- the key, the colon and the value
        have hfront : Shut ('"' :: t ++ (b ++ ([':'] ++ (b₂ ++ (u ++ b₃))))) :=
          Shut.append ht (hblank.append (hcolon.append (hblank₂.append (hshut.append hblank₃))))
        split at h
        · cases h
        rename_i e s₄ hskip'
        rw [hskip'] at hb₃
        split at h
        · rename_i he
          subst he
          cases h
          refine ⟨_, ?_, hfront.closing (.bracket hbraces)⟩
          rw [hb, hb₂, hu, hb₃]
          simp only [List.append_assoc, List.cons_append, List.nil_append]
        split at h
        · rename_i he
          subst he
          obtain ⟨r, hr, heq⟩ := Option.map_eq_some_iff.1 h
          cases heq
          obtain ⟨b₄, hb₄, hblank₄⟩ := exists_blanks s₄
          obtain ⟨w, hw, hclosing⟩ := hentries _ _ _ hr
          refine ⟨_, ?_, hfront.closing (hcomma.closing (hblank₄.closing hclosing))⟩
          rw [hb, hb₂, hu, hb₃, hb₄, hw]
          simp only [List.append_assoc, List.cons_append, List.nil_append]
        · cases h

/-- A text that is read has nothing open at its end. -/
theorem shut_of_loads {t : PyText} {v : PyValue} (h : loads t = some v) : Shut t ∧ t ≠ [] := by
  unfold loads at h
  split at h
  · cases h
  rename_i w rest hscan
  split at h
  swap
  · cases h
  rename_i hrest
  obtain ⟨b, hb, hblank⟩ := exists_blanks t
  obtain ⟨c, hc, hshut⟩ := (scan_shut _).1 _ _ _ hscan
  obtain ⟨b', hb', hblank'⟩ := exists_blanks rest
  rw [List.isEmpty_iff] at hrest
  rw [hrest, List.append_nil] at hb'
  refine ⟨?_, ?_⟩
  · rw [hb, hc, hb']
    exact hblank.append (hshut.append hblank')
  · rintro rfl
    cases hscan

/-- **An object that is cut off** is not read. -/
theorem loads_cut {entries : List (PyStr × PyData)} (h : PyData.Formed (.dict entries)) {t : PyText}
    (hp : PyStr.ofText t <+: PyData.json (.dict entries))
    (hcut : PyStr.ofText t ≠ PyData.json (.dict entries)) : loads t = none := by
  rw [Option.eq_none_iff_forall_ne_some]
  intro v hv
  obtain ⟨hshut, hne⟩ := shut_of_loads hv
  refine open_of_cut h hp hcut (fun hnil => hne ?_) (hshut 0)
  rwa [PyStr.ofText, List.map_eq_nil_iff] at hnil

end JsonNesting
