import GoblinZomboid.Shared.Sound
/-!
# Every text is read

Where a text of the grammar stands, within the bounds on the depth, the values
and the bytes, the parser reads it to its end.
-/

namespace GoblinZomboid

namespace JSON

open JsonText (Blanks Piece Pieces Padded Doc)

variable {limit : Limit}

theorem stops_append (w : Blanks) {s : Bytes} (h : Stops s) : Stops (w.bytes ++ s) := by
  obtain ⟨bytes, hblank⟩ := w
  cases bytes with
  | nil => exact h
  | cons b bytes =>
    intro b' hb'
    obtain rfl : b = b' := Option.some_inj.1 hb'
    have hb := hblank b List.mem_cons_self
    simp only [JsonText.isBlank, Bool.or_eq_true, beq_iff_eq] at hb
    rcases hb with ((rfl | rfl) | rfl) | rfl <;> decide

/-- The first byte of a numeral. -/
theorem encode_text_eq_cons (p : Numeral.Parts) :
    ∃ b t, Utf8.encode p.text = b :: t ∧ (b == 45 || Bytes.isDigit b) = true := by
  rw [encode_text]
  unfold Numeral.Parts.minus
  split
  · exact ⟨45, _, rfl, by decide⟩
  · have hwhole := p.isWhole
    generalize p.whole = whole at hwhole ⊢
    cases hwhole with
    | zero => exact ⟨48, _, rfl, by decide⟩
    | digits hc hne ht =>
      rename_i c t
      obtain ⟨b, -, hbyte, hdigit⟩ := exists_byte_of_isDigit hc
      have hencode : Utf8.encode (c :: t) = b :: Utf8.encode t := by
        rw [Utf8.encode_cons, hbyte]
        rfl
      exact ⟨b, _, congrArg (· ++ _) hencode, by rw [hdigit, Bool.or_true]⟩

/-- The first byte of a text is no blank and closes nothing. -/
theorem text_eq_cons (d : Doc) :
    ∃ b t, d.text = b :: t ∧ JsonText.isBlank b = false ∧ b ≠ 93 ∧ b ≠ 125 := by
  cases d with
  | null => exact ⟨110, _, rfl, by decide, by decide, by decide⟩
  | bool b =>
    cases b with
    | true => exact ⟨116, _, rfl, by decide, by decide, by decide⟩
    | false => exact ⟨102, _, rfl, by decide, by decide, by decide⟩
  | number p =>
    obtain ⟨b, t, htext, hb⟩ := encode_text_eq_cons p
    have hall : ∀ b : UInt8, (b == 45 || Bytes.isDigit b) = true →
        JsonText.isBlank b = false ∧ b ≠ 93 ∧ b ≠ 125 := Bytes.forall_byte (by decide +kernel)
    exact ⟨b, t, by rw [Doc.text, htext], hall b hb⟩
  | string t => exact ⟨34, _, by rw [Doc.text, JsonText.quoted], by decide, by decide, by decide⟩
  | emptyArray w => exact ⟨91, _, by rw [Doc.text], by decide, by decide, by decide⟩
  | array items =>
    exact ⟨91, _, by rw [Doc.text, JsonText.enclose], by decide, by decide, by decide⟩
  | emptyObject w => exact ⟨123, _, by rw [Doc.text], by decide, by decide, by decide⟩
  | object members =>
    exact ⟨123, _, by rw [Doc.text, JsonText.enclose], by decide, by decide, by decide⟩

theorem skipWhitespace_text (w : Blanks) (d : Doc) (rest : Bytes) :
    skipWhitespace (w.bytes ++ (d.text ++ rest)) = d.text ++ rest := by
  obtain ⟨b, t, htext, hblank, -⟩ := text_eq_cons d
  rw [skipWhitespace_append, htext]
  exact skipWhitespace_cons hblank _

variable (limit) in
/-- A text is read wherever it stands, with enough steps. -/
def Read (d : Doc) : Prop :=
  ∀ (n depth nodes : ℕ) (w : Blanks) (rest : Bytes), Fits depth nodes d →
    2 * d.text.length + 1 ≤ n → overLimit limit d.text.length = false → Stops rest →
      parseValue limit n depth nodes (w.bytes ++ (d.text ++ rest)) =
        .ok (d.value, nodes + d.nodes, rest)

/-- What stands behind an item or a member. -/
theorem stops_close {b : UInt8} (h : b = 44 ∨ b = 93 ∨ b = 125) (rest : Bytes) :
    Stops (b :: rest) := by
  intro b' hb'
  obtain rfl : b = b' := Option.some_inj.1 hb'
  rcases h with rfl | rfl | rfl <;> decide

/-- **Items are read** to the bracket. -/
theorem parseItems_complete {items : List (Padded Doc)} (hread : ∀ p ∈ items, Read limit p.inner)
    (hne : items ≠ []) {n depth nodes : ℕ} {rest : Bytes} (hvalid : JsonText.ItemsValid items)
    (hnodes : nodes + JsonText.itemNodes items ≤ maxNodes)
    (hdepth : depth + JsonText.itemDepth items ≤ maxDepth)
    (hn : 2 * (([44] : Bytes).intercalate (JsonText.itemTexts items)).length + 2 ≤ n)
    (hlimit : overLimit limit (([44] : Bytes).intercalate (JsonText.itemTexts items)).length =
      false) :
    parseItems limit n depth nodes
      (([44] : Bytes).intercalate (JsonText.itemTexts items) ++ 93 :: rest) =
        .ok (JsonText.itemValues items, nodes + JsonText.itemNodes items, rest) := by
  induction items generalizing n nodes with
  | nil => exact absurd rfl hne
  | cons p items ih =>
    obtain ⟨w, d, w'⟩ := p
    obtain ⟨n, rfl⟩ : ∃ k, n = k + 1 := ⟨n - 1, by omega⟩
    have hd := hread _ List.mem_cons_self
    change Read limit d at hd
    change d.Valid ∧ JsonText.ItemsValid items at hvalid
    change nodes + (d.nodes + JsonText.itemNodes items) ≤ maxNodes at hnodes
    change depth + max d.depth (JsonText.itemDepth items) ≤ maxDepth at hdepth
    have hfits : Fits (depth + 1) nodes d := ⟨hvalid.1, by omega, by omega⟩
    rw [parseItems]
    by_cases hlast : items = []
    · subst hlast
      have htext : ([44] : Bytes).intercalate (JsonText.itemTexts [⟨w, d, w'⟩]) =
          w.bytes ++ (d.text ++ w'.bytes) := List.intercalate_singleton
      rw [htext] at hn hlimit ⊢
      simp only [List.length_append] at hn hlimit
      have hvalue := hd n _ _ w (w'.bytes ++ 93 :: rest) hfits (by omega)
        (over_mono (by omega) hlimit) (stops_append w' (stops_close (.inr (.inl rfl)) rest))
      simp only [List.append_assoc] at hvalue ⊢
      rw [hvalue]
      dsimp only
      rw [skipWhitespace_append, skipWhitespace_cons (by decide)]
      rfl
    · have htext : ([44] : Bytes).intercalate (JsonText.itemTexts (⟨w, d, w'⟩ :: items)) =
          (w.bytes ++ (d.text ++ w'.bytes)) ++
            44 :: ([44] : Bytes).intercalate (JsonText.itemTexts items) :=
        intercalate_cons (itemTexts_ne_nil hlast)
      rw [htext] at hn hlimit ⊢
      simp only [List.length_append, List.length_cons] at hn hlimit
      have hvalue := hd n _ _ w (w'.bytes ++ 44 ::
        (([44] : Bytes).intercalate (JsonText.itemTexts items) ++ 93 :: rest)) hfits (by omega)
        (over_mono (by omega) hlimit) (stops_append w' (stops_close (.inl rfl) _))
      have hmore := @ih (fun p hp => hread p (List.mem_cons_of_mem _ hp)) hlast n
        (nodes + d.nodes) hvalid.2 (by omega) (by omega) (by omega)
        (over_mono (by omega) hlimit)
      simp only [List.append_assoc, List.cons_append] at hvalue ⊢
      rw [hvalue]
      dsimp only
      rw [skipWhitespace_append, skipWhitespace_cons (by decide)]
      dsimp only
      rw [if_neg (by decide), if_pos (by decide), parseItems_skipWhitespace, hmore]
      dsimp only
      rw [Nat.add_assoc]
      rfl

/-- What the loop of an object does when it has read the value of a key. -/
def afterKey (limit : Limit) (n depth : ℕ) (keys : List Bytes) (key : Bytes) :
    Reading LuaValue → Reading (List (Bytes × LuaValue))
  | .error stop => .error stop
  | .ok (v, nodes, rest) =>
    match skipWhitespace rest with
    | [] => .error .failed
    | b :: rest =>
      if b == 125 then .ok ([(key, v)], nodes, rest)
      else if b == 44 then
        match parseMembers limit n depth nodes (key :: keys) (skipWhitespace rest) with
        | .ok (entries, nodes, rest) => .ok ((key, v) :: entries, nodes, rest)
        | .error stop => .error stop
      else .error .failed

/-- **Members are read** to the brace, under keys that are new. -/
theorem parseMembers_complete {members : List (Padded Pieces × Padded Doc)}
    (hread : ∀ e ∈ members, Read limit e.2.inner) (hne : members ≠ []) {n depth nodes : ℕ}
    {keys : List Bytes} {rest : Bytes} (hvalid : JsonText.MembersValid members)
    (hkeys : (keys ++ (JsonText.memberValues members).map Prod.fst).Nodup)
    (hnodes : nodes + JsonText.memberNodes members ≤ maxNodes)
    (hdepth : depth + JsonText.memberDepth members ≤ maxDepth)
    (hn : 2 * (([44] : Bytes).intercalate (JsonText.memberTexts members)).length + 2 ≤ n)
    (hlimit : overLimit limit (([44] : Bytes).intercalate (JsonText.memberTexts members)).length =
      false) :
    parseMembers limit n depth nodes keys (skipWhitespace
      (([44] : Bytes).intercalate (JsonText.memberTexts members) ++ 125 :: rest)) =
        .ok (JsonText.memberValues members, nodes + JsonText.memberNodes members, rest) := by
  induction members generalizing n nodes keys with
  | nil => exact absurd rfl hne
  | cons e members ih =>
    obtain ⟨⟨before, p, after⟩, ⟨w, d, w'⟩⟩ := e
    obtain ⟨n, rfl⟩ : ∃ k, n = k + 1 := ⟨n - 1, by omega⟩
    have hd := hread _ List.mem_cons_self
    change Read limit d at hd
    change d.Valid ∧ JsonText.MembersValid members at hvalid
    change nodes + (d.nodes + JsonText.memberNodes members) ≤ maxNodes at hnodes
    change depth + max d.depth (JsonText.memberDepth members) ≤ maxDepth at hdepth
    change (keys ++ p.bytes :: (JsonText.memberValues members).map Prod.fst).Nodup at hkeys
    have hfits : Fits (depth + 1) nodes d := ⟨hvalid.1, by omega, by omega⟩
    have hnew : keys.contains p.bytes = false := by
      have hmem : p.bytes ∉ keys := fun hmem =>
        (List.nodup_append.1 hkeys).2.2 _ hmem _ List.mem_cons_self rfl
      simpa using hmem
    -- The text of a member, behind which `tail` stands.
    have hmember (tail : Bytes) :
        (before.bytes ++ (JsonText.quoted p ++ after.bytes) ++
          58 :: (w.bytes ++ (d.text ++ w'.bytes))) ++ tail =
        before.bytes ++ 34 :: (p.text ++ 34 :: (after.bytes ++
          58 :: (w.bytes ++ (d.text ++ (w'.bytes ++ tail))))) := by
      simp only [JsonText.quoted, List.append_assoc, List.cons_append, List.nil_append]
    have hstart (tail : Bytes) (hsize : overLimit limit p.text.length = false) :
        parseMembers limit (n + 1) depth nodes keys (skipWhitespace
          (before.bytes ++ 34 :: (p.text ++ 34 :: (after.bytes ++
            58 :: (w.bytes ++ (d.text ++ tail)))))) =
        afterKey limit n depth keys p.bytes
          (parseValue limit n (depth + 1) nodes (w.bytes ++ (d.text ++ tail))) := by
      rw [skipWhitespace_append, skipWhitespace_cons (by decide), parseMembers, List.head?_cons,
        if_pos rfl, List.tail_cons, parseString_complete p _ (by rwa [Nat.zero_add])]
      dsimp only
      rw [hnew, if_neg Bool.false_ne_true, skipWhitespace_append, skipWhitespace_cons (by decide),
        List.head?_cons, if_pos rfl, List.tail_cons, parseValue_skipWhitespace]
      all_goals rfl
    by_cases hlast : members = []
    · subst hlast
      have htext : ([44] : Bytes).intercalate
          (JsonText.memberTexts [(⟨before, p, after⟩, ⟨w, d, w'⟩)]) =
          before.bytes ++ (JsonText.quoted p ++ after.bytes) ++
            58 :: (w.bytes ++ (d.text ++ w'.bytes)) := List.intercalate_singleton
      rw [htext] at hn hlimit ⊢
      simp only [List.length_append, List.length_cons, JsonText.quoted] at hn hlimit
      have hvalue := hd n _ _ w (w'.bytes ++ 125 :: rest) hfits (by omega)
        (over_mono (by omega) hlimit) (stops_append w' (stops_close (.inr (.inr rfl)) rest))
      rw [hmember, hstart _ (over_mono (by omega) hlimit), hvalue, afterKey]
      rw [skipWhitespace_append, skipWhitespace_cons (by decide)]
      rfl
    · have htext : ([44] : Bytes).intercalate
          (JsonText.memberTexts ((⟨before, p, after⟩, ⟨w, d, w'⟩) :: members)) =
          (before.bytes ++ (JsonText.quoted p ++ after.bytes) ++
            58 :: (w.bytes ++ (d.text ++ w'.bytes))) ++
            44 :: ([44] : Bytes).intercalate (JsonText.memberTexts members) :=
        intercalate_cons (memberTexts_ne_nil hlast)
      rw [htext] at hn hlimit ⊢
      simp only [List.length_append, List.length_cons, JsonText.quoted] at hn hlimit
      have hvalue := hd n _ _ w (w'.bytes ++ 44 ::
        (([44] : Bytes).intercalate (JsonText.memberTexts members) ++ 125 :: rest)) hfits (by omega)
        (over_mono (by omega) hlimit) (stops_append w' (stops_close (.inl rfl) _))
      have hmore := @ih (fun e he => hread e (List.mem_cons_of_mem _ he)) hlast n
        (nodes + d.nodes) (p.bytes :: keys) hvalid.2 (List.perm_middle.nodup_iff.1 hkeys)
        (by omega) (by omega) (by omega) (over_mono (by omega) hlimit)
      rw [List.append_assoc, List.cons_append, hmember, hstart _ (over_mono (by omega) hlimit),
        hvalue, afterKey, skipWhitespace_append, skipWhitespace_cons (by decide)]
      dsimp only
      rw [if_neg (by decide), if_pos (by decide), hmore]
      dsimp only
      rw [Nat.add_assoc]
      rfl

theorem exists_intercalate_eq_append (text : Bytes) (texts : List Bytes) :
    ∃ tail, ([44] : Bytes).intercalate (text :: texts) = text ++ tail := by
  cases texts with
  | nil => exact ⟨[], by rw [List.intercalate_singleton, List.append_nil]⟩
  | cons text' texts => exact ⟨_, intercalate_cons (List.cons_ne_nil _ _)⟩

/-- Items do not begin with the bracket that closes them. -/
theorem head_items {items : List (Padded Doc)} (h : items ≠ []) (s : Bytes) :
    ¬(skipWhitespace (([44] : Bytes).intercalate (JsonText.itemTexts items) ++ s)).head? =
      some 93 := by
  obtain ⟨⟨w, d, w'⟩, items, rfl⟩ := List.exists_cons_of_ne_nil h
  obtain ⟨tail, htail⟩ := exists_intercalate_eq_append (w.bytes ++ (d.text ++ w'.bytes))
    (JsonText.itemTexts items)
  obtain ⟨b, t, htext, -, hne, -⟩ := text_eq_cons d
  rw [itemTexts_cons, htail, List.append_assoc, List.append_assoc, List.append_assoc,
    skipWhitespace_text, htext]
  exact fun heq => hne (Option.some_inj.1 heq)

/-- Members do not begin with the brace that closes them. -/
theorem head_members {members : List (Padded Pieces × Padded Doc)} (h : members ≠ []) (s : Bytes) :
    ¬(skipWhitespace (([44] : Bytes).intercalate (JsonText.memberTexts members) ++ s)).head? =
      some 125 := by
  obtain ⟨⟨⟨before, p, after⟩, ⟨w, d, w'⟩⟩, members, rfl⟩ := List.exists_cons_of_ne_nil h
  obtain ⟨tail, htail⟩ := exists_intercalate_eq_append (before.bytes ++
    (JsonText.quoted p ++ after.bytes) ++ 58 :: (w.bytes ++ (d.text ++ w'.bytes)))
    (JsonText.memberTexts members)
  have htexts : JsonText.memberTexts ((⟨before, p, after⟩, ⟨w, d, w'⟩) :: members) =
      (before.bytes ++ (JsonText.quoted p ++ after.bytes) ++ 58 ::
        (w.bytes ++ (d.text ++ w'.bytes))) :: JsonText.memberTexts members := rfl
  rw [htexts, htail, List.append_assoc, List.append_assoc, List.append_assoc, skipWhitespace_append,
    JsonText.quoted, List.cons_append, List.cons_append, skipWhitespace_cons (by decide)]
  exact fun heq => absurd (Option.some_inj.1 heq) (by decide)

/-- A word is read as what it stands for. -/
theorem parseValue_word {word : Bytes} {v : LuaValue} {n depth nodes : ℕ} (w : Blanks)
    (rest : Bytes) (hnodes : nodes + 1 ≤ maxNodes)
    (h : (word, v) ∈ [(Bytes.lit "true", LuaValue.bool true), (Bytes.lit "false", .bool false),
      (Bytes.lit "null", .nil)]) :
    parseValue limit (n + 1) depth nodes (w.bytes ++ (word ++ rest)) =
      .ok (v, nodes + 1, rest) := by
  rw [parseValue, if_neg (not_lt.2 hnodes), skipWhitespace_append]
  simp only [List.mem_cons, Prod.mk.injEq, List.not_mem_nil, or_false] at h
  rcases h with ⟨rfl, rfl⟩ | ⟨rfl, rfl⟩ | ⟨rfl, rfl⟩ <;> rfl

/-- **Every text is read**, with what stands behind it left. -/
theorem parseValue_complete (d : Doc) : Read limit d := by
  induction d using Doc.induction with
  | null =>
    intro n depth nodes w rest hfits hn hlimit hrest
    obtain ⟨n, rfl⟩ : ∃ k, n = k + 1 := ⟨n - 1, by omega⟩
    exact parseValue_word w rest hfits.nodes (.tail _ (.tail _ (.head _)))
  | bool b =>
    intro n depth nodes w rest hfits hn hlimit hrest
    obtain ⟨n, rfl⟩ : ∃ k, n = k + 1 := ⟨n - 1, by omega⟩
    cases b with
    | true => exact parseValue_word w rest hfits.nodes (.head _)
    | false => exact parseValue_word w rest hfits.nodes (.tail _ (.head _))
  | number p =>
    intro n depth nodes w rest hfits hn hlimit hrest
    obtain ⟨n, rfl⟩ : ∃ k, n = k + 1 := ⟨n - 1, by omega⟩
    obtain ⟨q, hq⟩ : ∃ q, JsonText.number p = .finite q := hfits.valid
    obtain ⟨b, t, htext, hb⟩ := encode_text_eq_cons p
    have hnumber := parseNumber_complete hq hrest
    have hnodes : nodes + 1 ≤ maxNodes := hfits.nodes
    rw [parseValue, if_neg (not_lt.2 hnodes), skipWhitespace_text, Doc.text, Doc.value, Doc.nodes,
      hq]
    rw [htext, List.cons_append] at hnumber ⊢
    dsimp only
    have hall : ∀ b : UInt8, (b == 45 || Bytes.isDigit b) = true →
        ¬(b == 34) = true ∧ ¬(b == 123) = true ∧ ¬(b == 91) = true :=
      Bytes.forall_byte (by decide +kernel)
    obtain ⟨hquote, hbrace, hbracket⟩ := hall b hb
    rw [if_neg hquote, if_neg hbrace, if_neg hbracket, if_pos hb, hnumber]
    rfl
  | string t =>
    intro n depth nodes w rest hfits hn hlimit hrest
    obtain ⟨n, rfl⟩ : ∃ k, n = k + 1 := ⟨n - 1, by omega⟩
    have hnodes : nodes + 1 ≤ maxNodes := hfits.nodes
    have htext : (Doc.string t).text ++ rest = 34 :: (t.text ++ 34 :: rest) := by
      simp only [Doc.text, JsonText.quoted, List.cons_append, List.append_assoc, List.nil_append]
    have hsize : overLimit limit (0 + t.text.length) = false := by
      refine over_mono ?_ hlimit
      simp only [Doc.text, JsonText.quoted, List.length_cons, List.length_append]
      omega
    rw [parseValue, if_neg (not_lt.2 hnodes), skipWhitespace_text, htext]
    dsimp only
    rw [if_pos (by decide), parseString_complete t rest hsize]
    rfl
  | emptyArray blanks =>
    intro n depth nodes w rest hfits hn hlimit hrest
    obtain ⟨n, rfl⟩ : ∃ k, n = k + 1 := ⟨n - 1, by omega⟩
    have hnodes : nodes + 1 ≤ maxNodes := hfits.nodes
    have hdepth : depth + 1 ≤ maxDepth + 1 := hfits.depth
    have htext : (Doc.emptyArray blanks).text ++ rest = 91 :: (blanks.bytes ++ 93 :: rest) := by
      simp only [Doc.text, List.cons_append, List.append_assoc, List.nil_append]
    rw [parseValue, if_neg (not_lt.2 hnodes), skipWhitespace_text, htext]
    dsimp only
    rw [if_neg (by decide), if_neg (by decide), if_pos (by decide), parseArray,
      if_neg (by omega), skipWhitespace_append, skipWhitespace_cons (by decide)]
    rfl
  | emptyObject blanks =>
    intro n depth nodes w rest hfits hn hlimit hrest
    obtain ⟨n, rfl⟩ : ∃ k, n = k + 1 := ⟨n - 1, by omega⟩
    have hnodes : nodes + 1 ≤ maxNodes := hfits.nodes
    have hdepth : depth + 1 ≤ maxDepth + 1 := hfits.depth
    have htext : (Doc.emptyObject blanks).text ++ rest = 123 :: (blanks.bytes ++ 125 :: rest) := by
      simp only [Doc.text, List.cons_append, List.append_assoc, List.nil_append]
    rw [parseValue, if_neg (not_lt.2 hnodes), skipWhitespace_text, htext]
    dsimp only
    rw [if_neg (by decide), if_pos (by decide), parseObject, if_neg (by omega),
      skipWhitespace_append, skipWhitespace_cons (by decide)]
    rfl
  | array items ih =>
    intro n depth nodes w rest hfits hn hlimit hrest
    obtain ⟨n, rfl⟩ : ∃ k, n = k + 1 := ⟨n - 1, by omega⟩
    obtain ⟨hvalid, hnodes, hdepth⟩ := hfits
    change JsonText.ItemsValid items at hvalid
    rw [Doc.nodes] at hnodes
    rw [Doc.depth] at hdepth
    have htext : (Doc.array items).text ++ rest =
        91 :: (([44] : Bytes).intercalate (JsonText.itemTexts items) ++ 93 :: rest) := by
      simp only [Doc.text, JsonText.enclose, List.cons_append, List.append_assoc, List.nil_append]
    rw [Doc.text, JsonText.enclose] at hn hlimit
    simp only [List.length_cons, List.length_append] at hn hlimit
    rw [parseValue, if_neg (by omega), skipWhitespace_text, htext, Doc.value, Doc.nodes]
    dsimp only
    rw [if_neg (by decide), if_neg (by decide), if_pos (by decide), parseArray, if_neg (by omega)]
    by_cases hempty : items = []
    · subst hempty
      rfl
    · have hopen : ¬(skipWhitespace
          (([44] : Bytes).intercalate (JsonText.itemTexts items) ++ 93 :: rest)).head? = some 93 :=
        head_items hempty _
      rw [if_neg hopen, parseItems_skipWhitespace, parseItems_complete ih hempty hvalid (by omega)
        (by omega) (by omega) (over_mono (by omega) hlimit)]
      dsimp only
      rw [Nat.add_assoc]
  | object members ih =>
    intro n depth nodes w rest hfits hn hlimit hrest
    obtain ⟨n, rfl⟩ : ∃ k, n = k + 1 := ⟨n - 1, by omega⟩
    obtain ⟨⟨hkeys, hvalid⟩, hnodes, hdepth⟩ := hfits
    rw [Doc.nodes] at hnodes
    rw [Doc.depth] at hdepth
    have htext : (Doc.object members).text ++ rest =
        123 :: (([44] : Bytes).intercalate (JsonText.memberTexts members) ++ 125 :: rest) := by
      simp only [Doc.text, JsonText.enclose, List.cons_append, List.append_assoc, List.nil_append]
    rw [Doc.text, JsonText.enclose] at hn hlimit
    simp only [List.length_cons, List.length_append] at hn hlimit
    rw [parseValue, if_neg (by omega), skipWhitespace_text, htext, Doc.value, Doc.nodes]
    dsimp only
    rw [if_neg (by decide), if_pos (by decide), parseObject, if_neg (by omega)]
    by_cases hempty : members = []
    · subst hempty
      rfl
    · have hopen : ¬(skipWhitespace
          (([44] : Bytes).intercalate (JsonText.memberTexts members) ++ 125 :: rest)).head? =
            some 125 := head_members hempty _
      rw [if_neg hopen, parseMembers_complete ih hempty hvalid hkeys (by omega) (by omega)
        (by omega) (over_mono (by omega) hlimit)]
      dsimp only
      rw [Nat.add_assoc]

end JSON

end GoblinZomboid
