import GoblinZomboid.Lib.ByteBuffer
/-!
# `ServerSupport.java`: the envelope of an inventory

A saved inventory is wrapped in a header: a magic word, the version of the
world, the length of the payload and its digest. Reading it back checks each
of them against the bytes that follow.
-/

namespace GoblinZomboid

namespace Envelope

open ByteBuffer

/-- What reading a snapshot can raise. -/
inductive Failure
  /-- `IOException`. -/
  | io (detail : String)
  | runtime (f : ByteBuffer.Failure)
  deriving DecidableEq

/-- A digest has 32 bytes. -/
abbrev Digest := Vector UInt8 32

def magic : BitVec 32 := 0x474F4249

def maxInventory : ℕ := 8 * 1024 * 1024

def header : ℕ := 4 + 4 + 4 + 32

/-- `ServerSupport.envelope`. -/
def envelope (hash : Bytes → Digest) (payload : Bytes) (worldVersion : BitVec 32) : Bytes :=
  putInt magic ++ (putInt worldVersion ++ (putInt (BitVec.ofNat 32 payload.length) ++
    ((hash payload).toList ++ payload)))

/-- A read of the buffer. -/
def reading {α : Type} : Except ByteBuffer.Failure α → Except Failure α
  | .ok a => .ok a
  | .error f => .error (.runtime f)

/-- `ServerSupport.payload`. -/
def payload (hash : Bytes → Digest) (bytes : Bytes) (currentVersion : BitVec 32) :
    Except Failure Bytes :=
  if bytes.length < header ∨ maxInventory + header < bytes.length then
    .error (.io "Invalid inventory length")
  else do
    let (first, input) ← reading (getInt bytes)
    if first ≠ magic then .error (.io "Invalid inventory header")
    else
      let (savedVersion, input) ← reading (getInt input)
      if savedVersion.toInt < 1 ∨ currentVersion.toInt < savedVersion.toInt then
        .error (.io "Unsupported future inventory version")
      else
        let (length, input) ← reading (getInt input)
        if length.toInt ≠ (input.length : ℤ) - 32 then .error (.io "Truncated inventory")
        else
          let (digest, input) ← reading (get 32 input)
          let size ← reading (newArray length.toInt)
          let (body, _) ← reading (get size input)
          if digest ≠ (hash body).toList then .error (.io "Inventory checksum mismatch")
          else .ok body

variable {hash : Bytes → Digest} {bytes p : Bytes} {v c : BitVec 32}

theorem length_envelope : (envelope hash p v).length = header + p.length := by
  simp only [envelope, List.length_append, length_putInt, Vector.length_toList, header]
  omega

/-- What is long enough has the parts of an envelope. -/
theorem exists_parts (h : header ≤ bytes.length) :
    ∃ first version length digest body, digest.length = 32 ∧
      bytes = putInt first ++ (putInt version ++ (putInt length ++ (digest ++ body))) := by
  rw [header] at h
  obtain ⟨first, rest, rfl⟩ := exists_putInt (s := bytes) (by omega)
  rw [List.length_append, length_putInt] at h
  obtain ⟨version, rest, rfl⟩ := exists_putInt (s := rest) (by omega)
  rw [List.length_append, length_putInt] at h
  obtain ⟨length, rest, rfl⟩ := exists_putInt (s := rest) (by omega)
  rw [List.length_append, length_putInt] at h
  refine ⟨first, version, length, rest.take 32, rest.drop 32, ?_, ?_⟩
  · rw [List.length_take]
    omega
  · rw [List.take_append_drop]

/-- **Reading the parts**: one check after the other. -/
theorem payload_parts {first version length : BitVec 32} {digest body : Bytes}
    (hdigest : digest.length = 32) (hbody : body.length ≤ maxInventory) :
    payload hash (putInt first ++ (putInt version ++ (putInt length ++ (digest ++ body)))) c =
      if first ≠ magic then .error (.io "Invalid inventory header")
      else if version.toInt < 1 ∨ c.toInt < version.toInt then
        .error (.io "Unsupported future inventory version")
      else if length.toInt ≠ body.length then .error (.io "Truncated inventory")
      else if digest ≠ (hash body).toList then .error (.io "Inventory checksum mismatch")
      else .ok body := by
  have hlength : ¬ ((putInt first ++ (putInt version ++ (putInt length ++ (digest ++ body)))).length <
      header ∨ maxInventory + header <
        (putInt first ++ (putInt version ++ (putInt length ++ (digest ++ body)))).length) := by
    simp only [List.length_append, length_putInt, hdigest, header]
    omega
  have hremaining : ((digest ++ body).length : ℤ) - 32 = body.length := by
    rw [List.length_append, hdigest]
    omega
  have hget : get 32 (digest ++ body) = .ok (digest, body) := by
    rw [← hdigest]
    exact get_append digest body
  have hrest : get body.length body = .ok (body, []) := by
    have happend := get_append body []
    rwa [List.append_nil] at happend
  unfold payload
  rw [if_neg hlength, getInt_putInt]
  dsimp only [reading, bind, Except.bind]
  by_cases hfirst : first = magic
  swap
  · rw [if_pos hfirst, if_pos hfirst]
  rw [if_neg (not_not.mpr hfirst), if_neg (not_not.mpr hfirst), getInt_putInt]
  dsimp only
  by_cases hversion : version.toInt < 1 ∨ c.toInt < version.toInt
  · rw [if_pos hversion, if_pos hversion]
  rw [if_neg hversion, if_neg hversion, getInt_putInt]
  dsimp only
  rw [hremaining]
  by_cases hsize : length.toInt = body.length
  swap
  · rw [if_pos hsize, if_pos hsize]
  rw [if_neg (not_not.mpr hsize), if_neg (not_not.mpr hsize), hget, hsize, newArray_natCast]
  dsimp only
  rw [hrest]

theorem toInt_ofNat_length (h : p.length ≤ maxInventory) :
    (BitVec.ofNat 32 p.length).toInt = p.length := by
  rw [maxInventory] at h
  rw [BitVec.toInt_eq_toNat_cond, BitVec.toNat_ofNat]
  omega

/-- A word is given by its value. -/
theorem eq_ofNat_length {length : BitVec 32} (h : length.toInt = p.length) :
    length = BitVec.ofNat 32 p.length := by
  apply BitVec.eq_of_toNat_eq
  have hlt := length.isLt
  rw [BitVec.toInt_eq_toNat_cond] at h
  rw [BitVec.toNat_ofNat]
  split at h <;> omega

/-- What was wrapped is read back. -/
theorem payload_envelope (hp : p.length ≤ maxInventory) (hone : 1 ≤ v.toInt)
    (hcurrent : v.toInt ≤ c.toInt) : payload hash (envelope hash p v) c = .ok p := by
  have hdigest : (hash p).toList.length = 32 := Vector.length_toList
  have hsize : (BitVec.ofNat 32 p.length).toInt = p.length := toInt_ofNat_length hp
  rw [envelope, payload_parts hdigest hp, if_neg (not_not.mpr rfl), if_neg (by omega),
    if_neg (not_not.mpr hsize), if_neg (not_not.mpr rfl)]

/-- **Exactly the envelopes are read.** A snapshot is accepted when it is the
envelope of a payload of at most 8 MiB under a version that is not in the
future, and gives that payload; whatever else is there is rejected as broken,
and never fails otherwise. -/
theorem payload_eq_ok_iff (hash : Bytes → Digest) (bytes : Bytes) (c : BitVec 32) :
    (∀ p, payload hash bytes c = .ok p ↔ p.length ≤ maxInventory ∧
      ∃ v : BitVec 32, 1 ≤ v.toInt ∧ v.toInt ≤ c.toInt ∧ bytes = envelope hash p v) ∧
    ∀ e, payload hash bytes c = .error e → ∃ detail, e = .io detail := by
  by_cases hlength : bytes.length < header ∨ maxInventory + header < bytes.length
  · have hrejected : payload hash bytes c = .error (.io "Invalid inventory length") := if_pos hlength
    rw [hrejected]
    refine ⟨fun p => ⟨nofun, ?_⟩, fun e he => ⟨_, (Except.error.inj he).symm⟩⟩
    rintro ⟨hp, v, -, -, rfl⟩
    rw [length_envelope] at hlength
    omega
  rw [not_or, Nat.not_lt, Nat.not_lt] at hlength
  obtain ⟨first, version, length, digest, body, hdigest, rfl⟩ := exists_parts hlength.1
  have hbody : body.length ≤ maxInventory := by
    have hlong := hlength.2
    simp only [List.length_append, length_putInt, hdigest, header] at hlong
    omega
  have hread := @payload_parts hash c first version length digest body hdigest hbody
  constructor
  · intro p
    constructor
    · intro h
      rw [hread] at h
      split at h
      · cases h
      rename_i hfirst
      split at h
      · cases h
      rename_i hversion
      split at h
      · cases h
      rename_i hsize
      split at h
      · cases h
      rename_i hhash
      obtain rfl := Except.ok.inj h
      rw [not_or, Int.not_lt, Int.not_lt] at hversion
      refine ⟨hbody, version, hversion.1, hversion.2, ?_⟩
      rw [envelope, not_not.mp hfirst, not_not.mp hhash, eq_ofNat_length (not_not.mp hsize)]
    · rintro ⟨hp, v, hone, hcurrent, heq⟩
      obtain ⟨hfirst, htail⟩ := putInt_append_inj heq
      obtain ⟨hversion, htail⟩ := putInt_append_inj htail
      obtain ⟨hsize, htail⟩ := putInt_append_inj htail
      obtain ⟨hhash, hsame⟩ := List.append_inj htail (by rw [hdigest, Vector.length_toList])
      subst hversion hsame
      have hlen : length.toInt = body.length := by
        rw [hsize]
        exact toInt_ofNat_length hp
      rw [hread, if_neg (not_not.mpr hfirst), if_neg (by omega), if_neg (not_not.mpr hlen),
        if_neg (not_not.mpr hhash)]
  · intro e he
    rw [hread] at he
    split at he
    · exact ⟨_, (Except.error.inj he).symm⟩
    split at he
    · exact ⟨_, (Except.error.inj he).symm⟩
    split at he
    · exact ⟨_, (Except.error.inj he).symm⟩
    split at he
    · exact ⟨_, (Except.error.inj he).symm⟩
    · cases he

end Envelope

end GoblinZomboid
