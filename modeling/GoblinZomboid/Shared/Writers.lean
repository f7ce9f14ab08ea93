import GoblinZomboid.Shared.Encode
import GoblinZomboid.Shared.Leaves
/-!
# What is written

A writer adds its text and counts its nodes exactly when what it writes can be
written and fits the bounds; the rules say so of every way writers are put
together.
-/

namespace GoblinZomboid

namespace JSON

open JsonText (Blanks Piece Pieces Padded Doc)

/-- A state within the bounds. -/
def Within (limit : Limit) (state : State) : Prop :=
  overLimit limit state.parts.length = false ∧ state.nodes ≤ maxNodes

/-- The state with a text and so many nodes more. -/
def State.add (state : State) (text : Bytes) (count : ℕ) : State :=
  ⟨state.parts ++ text, state.nodes + count⟩

/-- **What a writer does**: it writes `text` and counts `count`, exactly where
`Ok` holds and the bounds are kept. -/
def Writes (limit : Limit) (write : State → Option State) (Ok : Prop) (text : Bytes) (count : ℕ) :
    Prop :=
  ∀ state state', Within limit state → (write state = some state' ↔
    Ok ∧ Within limit (state.add text count) ∧ state' = state.add text count)

variable {limit : Limit}

theorem within_of_add {state : State} {text : Bytes} {count : ℕ}
    (h : Within limit (state.add text count)) : Within limit state :=
  ⟨over_mono (by rw [State.add, List.length_append]; exact Nat.le_add_right _ _) h.1,
    le_trans (Nat.le_add_right _ _) h.2⟩

theorem State.add_add (state : State) (text text' : Bytes) (count count' : ℕ) :
    (state.add text count).add text' count' = state.add (text ++ text') (count + count') := by
  unfold State.add
  rw [List.append_assoc, Nat.add_assoc]

/-! ## Rules -/

theorem Writes.part (value : Bytes) : Writes limit (addPart limit value) True value 0 := by
  intro state state' hwithin
  have hlen : (state.add value 0).parts.length = state.parts.length + value.length :=
    List.length_append
  unfold addPart
  constructor
  · intro h
    split at h
    · cases h
    · rename_i hover
      obtain rfl := Option.some_inj.1 h
      refine ⟨trivial, ⟨?_, hwithin.2⟩, rfl⟩
      rw [hlen]
      simpa only [Bool.not_eq_true] using hover
  · rintro ⟨-, hfits, rfl⟩
    have hover := hfits.1
    rw [hlen] at hover
    rw [hover, if_neg Bool.false_ne_true]
    rfl

/-- One writer after another. -/
theorem Writes.bind {write write' : State → Option State} {Ok Ok' : Prop} {text text' : Bytes}
    {count count' : ℕ} (h : Writes limit write Ok text count)
    (h' : Writes limit write' Ok' text' count') :
    Writes limit (fun state => (write state).bind write') (Ok ∧ Ok') (text ++ text')
      (count + count') := by
  intro state state' hwithin
  rw [Option.bind_eq_some_iff, ← State.add_add]
  constructor
  · rintro ⟨middle, hmiddle, hlast⟩
    obtain ⟨hok, hfits, rfl⟩ := (h state middle hwithin).1 hmiddle
    obtain ⟨hok', hfits', rfl⟩ := (h' _ state' hfits).1 hlast
    exact ⟨⟨hok, hok'⟩, hfits', rfl⟩
  · rintro ⟨⟨hok, hok'⟩, hfits, rfl⟩
    have hmiddle := within_of_add hfits
    exact ⟨_, (h state _ hwithin).2 ⟨hok, hmiddle, rfl⟩, (h' _ _ hmiddle).2 ⟨hok', hfits, rfl⟩⟩

/-- Nothing is written. -/
theorem Writes.pure : Writes limit some True [] 0 := by
  intro state state' hwithin
  have hsame : state.add [] 0 = state := by
    unfold State.add
    rw [List.append_nil, Nat.add_zero]
  rw [hsame, Option.some_inj]
  exact ⟨fun h => ⟨trivial, hwithin, h.symm⟩, fun h => h.2.2.symm⟩

theorem Writes.fail (text : Bytes) (count : ℕ) :
    Writes limit (fun _ => none) False text count :=
  fun _ _ _ => ⟨nofun, fun h => h.1.elim⟩

/-- What is written matters only where something is. -/
theorem Writes.congr_of_ok {write : State → Option State} {Ok Ok' : Prop} {text text' : Bytes}
    {count count' : ℕ} (h : Writes limit write Ok text count) (hok : Ok ↔ Ok')
    (htext : Ok' → text = text') (hcount : Ok' → count = count') :
    Writes limit write Ok' text' count' := by
  intro state state' hwithin
  rw [h state state' hwithin, hok]
  refine and_congr_right fun hok' => ?_
  rw [htext hok', hcount hok']

theorem Writes.congr {write : State → Option State} {Ok Ok' : Prop} {text text' : Bytes}
    {count count' : ℕ} (h : Writes limit write Ok text count) (hok : Ok ↔ Ok') (htext : text = text')
    (hcount : count = count') : Writes limit write Ok' text' count' :=
  h.congr_of_ok hok (fun _ => htext) fun _ => hcount

/-- A writer that is refused on a condition. -/
theorem Writes.guard {write : State → Option State} {Ok : Prop} {text : Bytes} {count : ℕ}
    (c : Prop) [Decidable c] (h : Writes limit write Ok text count) :
    Writes limit (fun state => if c then none else write state) (¬c ∧ Ok) text count := by
  intro state state' hwithin
  dsimp only
  by_cases hc : c
  · rw [if_pos hc]
    exact ⟨nofun, fun hok => absurd hc hok.1.1⟩
  · rw [if_neg hc, h state state' hwithin]
    exact ⟨fun ⟨hok, hfits⟩ => ⟨⟨hc, hok⟩, hfits⟩, fun ⟨hok, hfits⟩ => ⟨hok.2, hfits⟩⟩

/-- A loop writes what its rounds write. -/
theorem Writes.fold {α : Type} {write : State → α → Option State} {Ok : α → Prop} {text : α → Bytes}
    {count : α → ℕ} {l : List α}
    (h : ∀ a ∈ l, Writes limit (fun state => write state a) (Ok a) (text a) (count a)) :
    Writes limit (fun state => l.foldlM write state) (∀ a ∈ l, Ok a) (l.flatMap text)
      (l.map count).sum := by
  induction l with
  | nil => exact Writes.pure.congr (by simp) rfl rfl
  | cons a l ih =>
    have hrest := ih fun b hb => h b (List.mem_cons_of_mem _ hb)
    exact ((h a List.mem_cons_self).bind hrest).congr List.forall_mem_cons.symm
      List.flatMap_cons.symm (by rw [List.map_cons, List.sum_cons])

/-- A comma before every round but the first. -/
theorem Writes.comma (index : ℕ) :
    Writes limit (fun state => if 1 < index then addPart limit [44] state else some state) True
      (if 1 < index then [44] else []) 0 := by
  by_cases hindex : 1 < index
  · simp only [if_pos hindex]
    exact Writes.part [44]
  · simp only [if_neg hindex]
    exact Writes.pure

/-! ## Strings and numbers -/

/-- The letter of a short escape. -/
def escapeLetter (byte : UInt8) : UInt8 :=
  if byte == 8 then 98
  else if byte == 12 then 102
  else if byte == 10 then 110
  else if byte == 13 then 114
  else if byte == 9 then 116
  else byte

/-- The part of a string that is written for a byte. -/
def pieceOf (byte : UInt8) : Piece :=
  if h : JsonText.isPlain byte = true then .plain byte h
  else if h : (escapeLetter byte, byte) ∈ JsonText.escapes then .short (escapeLetter byte) byte h
  else if h : JsonText.hex4 48 48 (hexByte (byte.toNat / 16)) (hexByte (byte.toNat % 16)) =
      some (Utf8.char byte).toNat then
    .unicode 48 48 (hexByte (byte.toNat / 16)) (hexByte (byte.toNat % 16)) (Utf8.char byte) h
  else .plain 32 (by decide)

theorem pieceOf_spec (byte : UInt8) :
    (pieceOf byte).text = escapeByte byte ∧ (pieceOf byte).bytes = [byte] :=
  Bytes.forall_byte (p := fun byte => (pieceOf byte).text = escapeByte byte ∧
    (pieceOf byte).bytes = [byte]) (by decide +kernel) byte

/-- The parts of a string that are written. -/
def piecesOf (value : Bytes) : Pieces := value.map pieceOf

theorem text_piecesOf (value : Bytes) : (piecesOf value).text = value.flatMap escapeByte := by
  show (value.map pieceOf).flatMap Piece.text = _
  rw [List.flatMap_map]
  exact congrArg (fun f => value.flatMap f) (funext fun byte => (pieceOf_spec byte).1)

theorem bytes_piecesOf (value : Bytes) : (piecesOf value).bytes = value := by
  show (value.map pieceOf).flatMap Piece.bytes = _
  rw [List.flatMap_map]
  have hone : (fun byte => (pieceOf byte).bytes) = fun byte : UInt8 => [byte] :=
    funext fun byte => (pieceOf_spec byte).2
  rw [hone, List.flatMap_singleton']

theorem length_le_text_piecesOf (value : Bytes) :
    value.length ≤ (piecesOf value).text.length := by
  have hbytes := bytes_piecesOf value
  have hle (t : Pieces) : t.bytes.length ≤ t.text.length := by
    induction t with
    | nil => exact le_rfl
    | cons p t ih =>
      have hp := length_bytes_le p
      have htext : Pieces.text (p :: t) = p.text ++ Pieces.text t := List.flatMap_cons
      have hbytes : Pieces.bytes (p :: t) = p.bytes ++ Pieces.bytes t := List.flatMap_cons
      rw [htext, hbytes, List.length_append, List.length_append]
      omega
  have h := hle (piecesOf value)
  rwa [hbytes] at h

/-- **A string is written** between quotes. -/
theorem writes_escapeString (value : Bytes) :
    Writes limit (escapeString limit value) True (JsonText.quoted (piecesOf value)) 0 := by
  have hbody : Writes limit (fun state => ((addPart limit [34] state).bind fun state =>
      value.foldlM (fun state byte => addPart limit (escapeByte byte) state) state).bind fun state =>
        addPart limit [34] state) True (JsonText.quoted (piecesOf value)) 0 := by
    have hfold : Writes limit (fun state =>
        value.foldlM (fun state byte => addPart limit (escapeByte byte) state) state)
        (∀ byte ∈ value, True) (value.flatMap escapeByte) (value.map fun _ => 0).sum :=
      Writes.fold fun byte _ => Writes.part (escapeByte byte)
    refine (((Writes.part [34]).bind hfold).bind (Writes.part [34])).congr (by simp) ?_ (by simp)
    rw [JsonText.quoted, text_piecesOf, List.append_assoc, List.singleton_append]
  intro state state' hwithin
  rw [← hbody state state' hwithin]
  unfold escapeString
  -- A string that is too long by itself is too long between its quotes.
  constructor
  · intro h
    split at h
    · cases h
    · exact h
  · intro h
    have hfits := ((hbody state state' hwithin).1 h).2.1.1
    have hlen := length_le_text_piecesOf value
    rw [if_neg]
    · exact h
    · rw [over_mono (n := (state.add (JsonText.quoted (piecesOf value)) 0).parts.length) ?_ hfits]
      · exact Bool.false_ne_true
      · rw [State.add, JsonText.quoted, List.length_append, List.length_cons, List.length_append]
        omega

/-- The bytes of a numeral but for its signs. -/
def isNumberByte (b : UInt8) : Bool := Bytes.isDigit b || b == 46 || b == 101 || b == 69

theorem numberText_iff (s : Bytes) : numberText s = true ↔
    (s ≠ [] ∧ ∀ b ∈ s, isNumberByte b = true) ∨
      ∃ b t, s = b :: t ∧ (b == 43 || b == 45) = true ∧ t ≠ [] ∧
        ∀ b ∈ t, isNumberByte b = true := by
  have hread : LuaPattern.read "^[%+%-]?[%d%.eE]+$" = ⟨true, [.opt fun b => (false || b == 43) ||
      b == 45, .plus fun b => (((false || Bytes.isDigit b) || b == 46) || b == 101) || b == 69,
      .atEnd]⟩ := rfl
  have hnumber : (fun b => (((false || Bytes.isDigit b) || b == 46) || b == 101) || b == 69) =
      isNumberByte := funext fun b => by rw [Bool.false_or, isNumberByte]
  have hsign : (fun b : UInt8 => (false || b == 43) || b == 45) = fun b => b == 43 || b == 45 :=
    funext fun b => by rw [Bool.false_or]
  unfold numberText LuaPattern.found LuaPattern.search
  rw [hread, hnumber, hsign]
  dsimp only
  rw [if_pos rfl, LuaPattern.matchAt, Option.isSome_map, LuaPattern.matchItems_opt_plus_end]

theorem isNumberByte_of_isDigit {b : UInt8} (h : Bytes.isDigit b = true) :
    isNumberByte b = true := by
  rw [isNumberByte, h]
  rfl

/-- The bytes of a numeral before its exponent, behind its minus. -/
theorem isNumberByte_of_mem (p : Numeral.Parts) :
    Utf8.encode p.whole ≠ [] ∧
      ∀ b ∈ Utf8.encode p.whole ++ Utf8.encode p.fraction, isNumberByte b = true := by
  obtain ⟨negative, whole, fraction, exponent, hwhole, hfraction, hexponent⟩ := p
  dsimp only
  have hall : Utf8.encode whole ≠ [] ∧ ∀ b ∈ Utf8.encode whole, isNumberByte b = true := by
    have hdigits (c : Char) (t : PyText) (h : ∀ d ∈ c :: t, d.isDigit = true) :
        Utf8.encode (c :: t) ≠ [] ∧ ∀ b ∈ Utf8.encode (c :: t), isNumberByte b = true := by
      obtain ⟨b, -, hbyte, -⟩ := exists_byte_of_isDigit (h c List.mem_cons_self)
      refine ⟨?_, fun b hb => isNumberByte_of_isDigit (isDigit_of_mem_encode h b hb)⟩
      rw [Utf8.encode_cons, hbyte]
      exact List.cons_ne_nil _ _
    cases hwhole with
    | zero => exact hdigits '0' [] (List.forall_mem_singleton.2 (by decide))
    | digits hc hne ht => exact hdigits _ _ (List.forall_mem_cons.2 ⟨hc, ht⟩)
  refine ⟨hall.1, fun b hb => ?_⟩
  rcases List.mem_append.1 hb with hb | hb
  · exact hall.2 b hb
  · cases hfraction with
    | none => cases hb
    | digits hc ht =>
      rw [encode_point] at hb
      rcases List.mem_cons.1 hb with rfl | hb
      · decide
      · exact isNumberByte_of_isDigit (isDigit_of_mem_encode (List.forall_mem_cons.2 ⟨hc, ht⟩) b hb)

/-- **A numeral passes the pattern** exactly without the sign of an exponent;
what is printed has that sign in every exponent. -/
theorem numberText_general (minus : Bool) (q : ℚ) :
    numberText (Utf8.encode (Double.general minus q).text) = true ↔
      (Double.general minus q).exponent = [] := by
  generalize hp : Double.general minus q = p
  obtain ⟨hne, hall⟩ := isNumberByte_of_mem p
  rw [numberText_iff, encode_text]
  constructor
  · intro h
    by_contra hexponent
    -- Behind the letter of the exponent stands its sign.
    obtain ⟨x, t, htext, hx⟩ : ∃ x t, Utf8.encode p.exponent = 101 :: x :: t ∧
        isNumberByte x = false := by
      have hpart : p.exponent = Double.exponentPart (Double.scientific |q|).2 := by rw [← hp]; rfl
      rw [hpart] at hexponent ⊢
      unfold Double.exponentPart at hexponent ⊢
      split at hexponent
      · exact absurd rfl hexponent
      · rename_i hfixed
        rw [if_neg hfixed]
        split
        · exact ⟨45, _, rfl, by decide⟩
        · exact ⟨43, _, rfl, by decide⟩
    rw [htext] at h
    rcases h with ⟨-, hbytes⟩ | ⟨b, s, heq, -, -, hbytes⟩
    · have hmem := hbytes x (by simp)
      rw [hx] at hmem
      cases hmem
    · have hmem : x ∈ s := by
        rcases hminus : Utf8.encode p.minus with _ | ⟨b', minus'⟩
        · rw [hminus] at heq
          obtain ⟨b', whole', hwhole⟩ := List.exists_cons_of_ne_nil hne
          rw [hwhole] at heq
          have hs := (List.cons.inj heq).2
          rw [← hs]
          simp
        · rw [hminus] at heq
          have hs := (List.cons.inj heq).2
          rw [← hs]
          simp
      have hmem := hbytes x hmem
      rw [hx] at hmem
      cases hmem
  · intro hexponent
    rw [hexponent, Utf8.encode_nil, List.append_nil]
    have hnumber : Utf8.encode p.whole ++ Utf8.encode p.fraction ≠ [] :=
      List.append_ne_nil_of_left_ne_nil hne _
    unfold Numeral.Parts.minus
    split
    · exact .inr ⟨45, _, rfl, by decide, hnumber, hall⟩
    · exact .inl ⟨hnumber, hall⟩

end JSON

end GoblinZomboid
