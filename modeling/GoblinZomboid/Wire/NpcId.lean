import GoblinZomboid.Agent.Driver
import GoblinZomboid.Server.Spawner
/-!
# The npc id of an owner, on both sides

`npc.py` mirrors the spawner's fold of a user name into an npc id. The agent
folds characters and knows all letters; the spawner folds bytes and knows
those of ASCII.
-/

/-- A character database with `str.lower` of one character. -/
structure Lowering extends Unicode where
  lower : Char → PyText
  lower_ascii : ∀ c : Char, c.toNat < 128 → lower c = [c.toLower]
  /-- The underscore is the small letter of itself alone. -/
  underscore : ∀ c : Char, '_' ∈ lower c → c = '_'

namespace GoblinZomboid

namespace Npc

/-- What `npc_id_for_owner` makes of one character. -/
def keyChar (u : Lowering) (c : Char) : PyText :=
  if u.alnum c || c == '_' || c == '-' then u.lower c else ['_']

/-- `npc_id_for_owner`. -/
def npcIdForOwner (u : Lowering) (owner : PyText) : PyText :=
  if owner = [] then npcId
  else
    let key := owner.flatMap (keyChar u)
    if key = [] then npcId else npcId ++ '.' :: key

/-- The two sides give the owner one npc id. -/
def Agree (u : Lowering) (owner : PyText) : Prop :=
  Spawner.npcIdForOwner (Utf8.encode owner) = some (Utf8.encode (npcIdForOwner u owner))

section

variable {u : Lowering} {c : Char} {owner : PyText}

/-- The bytes the spawner makes of a text. -/
def keyBytes (t : PyText) : Bytes := (Bytes.lower (Utf8.encode t)).map Spawner.keyByte

theorem keyBytes_cons (c : Char) (t : PyText) :
    keyBytes (c :: t) = keyBytes [c] ++ keyBytes t := by
  unfold keyBytes Bytes.lower
  rw [Utf8.encode_cons, List.map_append, List.map_append, Utf8.encode_cons, Utf8.encode_nil,
    List.append_nil]

/-- **An ASCII character** is folded alike. -/
theorem encode_keyChar_ascii (h : c.toNat < 128) :
    Utf8.encode (keyChar u c) = keyBytes [c] := by
  obtain ⟨b, hchar, hval, hencode⟩ := Utf8.exists_byte_of_ascii h
  have hb : b < 128 := by
    rw [UInt8.lt_iff_toNat_lt, hval]
    exact h
  have hfold : keyChar u c =
      if c.isAlphanum || c == '_' || c == '-' then [c.toLower] else ['_'] := by
    unfold keyChar
    rw [u.alnum_ascii c h, u.lower_ascii c h]
  have hbyte : ∀ b : UInt8, b < 128 →
      Utf8.encode (if (Utf8.char b).isAlphanum || Utf8.char b == '_' || Utf8.char b == '-'
        then [(Utf8.char b).toLower] else ['_']) = [Spawner.keyByte (Bytes.lowerByte b)] :=
    Bytes.forall_byte (by decide +kernel)
  rw [hfold, keyBytes, Utf8.encode_cons, Utf8.encode_nil, hencode, ← hchar, hbyte b hb]
  rfl

/-- A character that is no underscore has no such byte. -/
theorem count_underscore {t : PyText} (h : '_' ∉ t) : (Utf8.encode t).count 95 = 0 := by
  rw [List.count_eq_zero]
  intro hmem
  obtain ⟨c, hc, hb⟩ := List.mem_flatMap.mp hmem
  have hchar : Utf8.char 95 = c := Utf8.eq_char_of_mem_utf8EncodeChar hb (by decide)
  exact h (by rw [← hchar] at hc; exact hc)

/-- **Any other character** is at least two underscores to the spawner, and at
most one to the agent. -/
theorem count_keyChar (h : ¬ c.toNat < 128) :
    (Utf8.encode (keyChar u c)).count 95 + 1 ≤ (keyBytes [c]).count 95 := by
  have hagent : (Utf8.encode (keyChar u c)).count 95 ≤ 1 := by
    unfold keyChar
    split
    · have hnone : '_' ∉ u.lower c := by
        intro hmem
        rw [u.underscore c hmem] at h
        exact h (by decide)
      rw [count_underscore hnone]
      omega
    · decide
  have hbytes : ∀ b ∈ String.utf8EncodeChar c, 128 ≤ b := by
    intro b hb
    by_contra hlow
    have hchar := Utf8.eq_char_of_mem_utf8EncodeChar hb (UInt8.not_le.mp hlow)
    rw [← hchar] at h
    have hall : ∀ b : UInt8, b < 128 → (Utf8.char b).toNat < 128 :=
      Bytes.forall_byte (by decide +kernel)
    exact h (hall b (UInt8.not_le.mp hlow))
  have hfold : ∀ b : UInt8, 128 ≤ b → Spawner.keyByte (Bytes.lowerByte b) = 95 :=
    Bytes.forall_byte (by decide +kernel)
  have hall : keyBytes [c] = List.replicate (String.utf8EncodeChar c).length 95 := by
    rw [keyBytes, Utf8.encode_cons, Utf8.encode_nil, List.append_nil, Bytes.lower, List.map_map]
    refine List.eq_replicate_iff.mpr ⟨List.length_map _, fun d hd => ?_⟩
    obtain ⟨b, hb, rfl⟩ := List.mem_map.mp hd
    exact hfold b (hbytes b hb)
  have hlen : 2 ≤ (String.utf8EncodeChar c).length := by
    rw [String.length_utf8EncodeChar]
    have hpos := c.utf8Size_pos
    have hone : c.utf8Size ≠ 1 := by
      rw [Ne, Char.utf8Size_eq_one_iff, UInt32.le_iff_toNat_le]
      intro hle
      have hval : c.toNat = c.val.toNat := rfl
      have h127 : (127 : UInt32).toNat = 127 := rfl
      omega
    omega
  rw [hall, List.count_replicate_self]
  omega

/-- The underscores of the two keys, and the characters beyond ASCII. -/
theorem count_key (owner : PyText) : (Utf8.encode (owner.flatMap (keyChar u))).count 95 +
    owner.countP (fun c => ¬ c.toNat < 128) ≤ (keyBytes owner).count 95 := by
  induction owner with
  | nil => exact le_rfl
  | cons c t ih =>
    rw [List.flatMap_cons, Utf8.encode_append, List.count_append, List.countP_cons, keyBytes_cons,
      List.count_append]
    by_cases hc : c.toNat < 128
    · rw [encode_keyChar_ascii hc, if_neg (by simpa using hc)]
      omega
    · have hmore := count_keyChar (u := u) hc
      rw [if_pos (by simpa using hc)]
      omega

/-- The keys of an ASCII name are one. -/
theorem encode_key (h : ∀ c ∈ owner, c.toNat < 128) :
    Utf8.encode (owner.flatMap (keyChar u)) = keyBytes owner := by
  induction owner with
  | nil => rfl
  | cons c t ih =>
    obtain ⟨hc, ht⟩ := List.forall_mem_cons.mp h
    rw [List.flatMap_cons, Utf8.encode_append, keyBytes_cons, encode_keyChar_ascii hc, ih ht]

/-- The spawner's id of a name. -/
theorem spawner_npcIdForOwner (hne : owner ≠ []) :
    Spawner.npcIdForOwner (Utf8.encode owner) = some (Config.npcPrefix ++ keyBytes owner) := by
  have hbytes : (Utf8.encode owner).isEmpty = false := by
    rw [List.isEmpty_eq_false_iff]
    intro hnil
    exact hne (Utf8.encode_injective hnil)
  unfold Spawner.npcIdForOwner Spawner.ownerKey
  rw [hbytes]
  rfl

end

/-- **When the two sides agree**: for a name that is not empty and is ASCII
throughout. -/
theorem agree_iff (u : Lowering) (owner : PyText) :
    Agree u owner ↔ owner ≠ [] ∧ ∀ c ∈ owner, c.toNat < 128 := by
  by_cases hne : owner = []
  · subst hne
    exact ⟨nofun, fun h => absurd rfl h.1⟩
  have hlead : ∀ key, Utf8.encode (npcId ++ '.' :: key) = Config.npcPrefix ++ Utf8.encode key := by
    intro key
    rw [Utf8.encode_append, Utf8.encode_cons, ← List.append_assoc]
    rfl
  unfold Agree npcIdForOwner
  rw [spawner_npcIdForOwner hne, if_neg hne]
  dsimp only
  constructor
  · intro h
    refine ⟨hne, fun c hc => ?_⟩
    by_contra hbeyond
    have hcount := count_key (u := u) owner
    have hpos : 0 < owner.countP fun c => ¬ c.toNat < 128 :=
      List.countP_pos_iff.mpr ⟨c, hc, by simpa using hbeyond⟩
    split at h
    · -- No id of the spawner is the bare one.
      have hlen := congrArg (fun id => (id.getD []).length) h
      have hshort : (Utf8.encode npcId).length = 14 := by decide
      have hlong : Config.npcPrefix.length = 15 := by decide
      dsimp only [Option.getD_some] at hlen
      rw [List.length_append, hshort, hlong] at hlen
      omega
    · rw [hlead, Option.some.injEq, List.append_cancel_left_eq] at h
      rw [h] at hcount
      omega
  · rintro ⟨-, hascii⟩
    have hkey := encode_key (u := u) hascii
    split
    · rename_i hnil
      rw [hnil, Utf8.encode_nil] at hkey
      have hempty : Utf8.encode owner = [] := by
        unfold keyBytes Bytes.lower at hkey
        exact List.map_eq_nil_iff.mp (List.map_eq_nil_iff.mp hkey.symm)
      exact absurd (Utf8.encode_injective hempty) hne
    · rw [hlead, hkey]

/-- The small letters of the first 256 characters. -/
def latin1Lower (c : Char) : PyText :=
  if 0xC0 ≤ c.toNat && c.toNat ≤ 0xDE && c.toNat != 0xD7 then [Char.ofNat (c.toNat + 32)]
  else [c.toLower]

/-- The database of the first 256 characters. -/
def latin1 : Lowering where
  toUnicode := { Unicode.ascii with
    alnum := fun c => c.isAlphanum || [0xAA, 0xB2, 0xB3, 0xB5, 0xB9, 0xBA, 0xBC, 0xBD, 0xBE].contains
      c.toNat || (0xC0 ≤ c.toNat && c.toNat ≤ 0xFF && c.toNat != 0xD7 && c.toNat != 0xF7)
    alnum_ascii := by
      intro c hc
      have hlow : ¬ 0xC0 ≤ c.toNat := by omega
      simp only [hlow, decide_false, Bool.false_and, Bool.or_false, Bool.or_eq_left_iff_imp,
        List.contains_eq_mem, decide_eq_true_eq, List.mem_cons, List.not_mem_nil, or_false]
      omega }
  lower := latin1Lower
  lower_ascii := by
    intro c hc
    unfold latin1Lower
    rw [if_neg (by simp; omega)]
  underscore := by
    intro c hc
    by_cases hsmall : c.toNat < 256
    · have hall : ∀ b : UInt8, '_' ∈ latin1Lower (Utf8.char b) → Utf8.char b = '_' :=
        Bytes.forall_byte (by decide +kernel)
      have hchar : Utf8.char (UInt8.ofNat c.toNat) = c := by
        rw [Utf8.char, UInt8.toNat_ofNat_of_lt' hsmall, Char.ofNat_toNat]
      rw [← hchar]
      exact hall _ (by rw [hchar]; exact hc)
    · have hsame : latin1Lower c = [c] := by
        unfold latin1Lower Char.toLower
        rw [if_neg (by simp; omega), dif_neg]
        rintro ⟨-, hhigh⟩
        have hle : c.toNat ≤ 90 := UInt32.le_iff_toNat_le.mp hhigh
        omega
      rw [hsame, List.mem_singleton] at hc
      exact hc.symm

/-- A name with a letter beyond ASCII. -/
theorem not_agree_accented : ¬ Agree latin1 (PyText.lit "Zoë") := by
  unfold Agree
  decide

/-- What the two sides make of it. -/
example : npcIdForOwner latin1 (PyText.lit "Zoë") = PyText.lit "goblin.primary.zoë" ∧
    Spawner.npcIdForOwner (Utf8.encode (PyText.lit "Zoë")) =
      some (Bytes.lit "goblin.primary.zo__") := by decide

end Npc

end GoblinZomboid
