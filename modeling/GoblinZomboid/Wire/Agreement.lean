import GoblinZomboid.Wire.Schema
import GoblinZomboid.Wire.Quantity
/-!
# Where the validator and the bridge agree

For an intent of the chat schema that the agent accepts, decides on and
sends, the bridge's schema check passes exactly when the command fits it.
An order to gain access never does: its kinds of target are small letters on
one side and capitals on the other.
-/

namespace GoblinZomboid

namespace Wire

open PyValue (int str dict)
open Protocol (Dict Message makeMessage encodeMessage)
open Controllers (SafeAction isOne)

variable {u : Unicode} {entries : Dict} {v : Validator.Validated} {s : Controllers.BodyState}
  {a : SafeAction} {d : Npc.Driver} {o : Npc.Orders} {clock : ℤ} {requestId : PyText} {m : Message}

/-- A request id is a safe string. -/
theorem safeString_of_validRequestId {t : PyText} (h : Protocol.validRequestId t = true) :
    SafeString t := by
  have hplain : ∀ c : Char, idChar c = true → Validator.isControl c = false := by
    have hbyte : ∀ b : UInt8, b < 128 → idChar (Utf8.char b) = true →
        Validator.isControl (Utf8.char b) = false :=
      Bytes.forall_byte (p := fun b => b < 128 → idChar (Utf8.char b) = true →
        Validator.isControl (Utf8.char b) = false) (by decide +kernel)
    intro c hc
    obtain ⟨b, rfl, hb, -⟩ := Utf8.exists_byte_of_ascii (ascii_of_idChar hc)
    have hlow : b < 128 := by
      have hnat := ascii_of_idChar hc
      rw [← hb] at hnat
      exact hnat
    exact hbyte b hlow hc
  cases t with
  | nil => cases h
  | cons c rest =>
    simp only [Protocol.validRequestId, Bool.and_eq_true, decide_eq_true_eq,
      List.all_eq_true] at h
    obtain ⟨⟨hfirst, hlength⟩, hrest⟩ := h
    refine safeString_of_text (by rw [List.length_cons]; omega) ?_
    rw [List.forall_mem_cons]
    refine ⟨hplain c ?_, fun c' hc' => hplain c' (hrest c' hc')⟩
    simp only [idChar, hfirst, Bool.true_or]

/-- A command that was made for what was decided is read by the mod, whose
schema check passes exactly if the command fits. -/
theorem exists_checked (haccepted : Validator.Accepted u entries v)
    (hchat : ∀ e ∈ entries, isOne e.1 chatKeys = true)
    (hdecide : Controllers.decide v.intent s = .ok a) (hadmitted : d.refusal u a o = none)
    (hclock : clock.natAbs ≤ 2 ^ 53)
    (hmake : makeMessage clock (PyText.lit "command.npc_action") requestId 0
      (Npc.fields d.npcId a o) = .ok m) :
    ∃ data, encodeMessage m = .ok data ∧
      (Bridge.wellFormed (jsonDecode data) = true ↔ Fits d.npcId a o) := by
  have huttered := uttered_of_decide haccepted hchat hdecide
  obtain ⟨hgated, hnpcId, -⟩ := gated_of_admitted hadmitted
  have hsent : Sent a o := sent_of_admitted hadmitted (by rw [huttered.members]; exact Nat.zero_le _)
  have hm := eq_of_makeMessage hmake
  have hid : SafeString requestId := by
    have hvalid := (Protocol.fromMappingAt_eq_ok.1 hmake).validId
    rw [hm] at hvalid
    exact safeString_of_validRequestId hvalid
  obtain ⟨data, table, hencode, hdecode, hcarries, hreceived⟩ :=
    exists_received hsent hclock hmake
  refine ⟨data, hencode, ?_⟩
  rw [hdecode]
  exact wellFormed_iff_fits huttered hgated hsent hnpcId hm hid hcarries hreceived

/-- **The bridge's check of what the agent sends.** An intent object with the
fields of the chat schema is accepted, decided on and sent as a command; the
mod reads the command, and its schema check passes if and only if the command
fits it. -/
theorem wellFormed_iff (hvalid : Validator.validate u (dict entries) = .ok v)
    (hchat : ∀ e ∈ entries, isOne e.1 chatKeys = true)
    (hdecide : Controllers.decide v.intent s = .ok a) (hadmitted : d.refusal u a o = none)
    (hclock : clock.natAbs ≤ 2 ^ 53)
    (hmake : makeMessage clock (PyText.lit "command.npc_action") requestId 0
      (Npc.fields d.npcId a o) = .ok m) :
    ∃ data, encodeMessage m = .ok data ∧
      (Bridge.wellFormed (jsonDecode data) = true ↔ Fits d.npcId a o) := by
  obtain ⟨entries', heq, haccepted⟩ := Validator.accepted_of_validate hvalid
  obtain rfl := PyValue.dict.inj heq
  exact exists_checked haccepted hchat hdecide hadmitted hclock hmake

/-! ## A forage and a door -/

open Quantity (wellBody forageIntent validForage forageAction forageDriver forageOrders
  forageMessage berries makeMessage_forage)

/-- Three berries pass the check. -/
theorem wellFormed_iff_berries : ∃ data, encodeMessage (forageMessage berries) = .ok data ∧
    (Bridge.wellFormed (jsonDecode data) = true ↔
      Fits Npc.npcId (forageAction berries) forageOrders) :=
  wellFormed_iff (u := Unicode.ascii) (s := wellBody) (o := forageOrders) (d := forageDriver)
    (by decide +kernel : Validator.validate Unicode.ascii
      (forageIntent [(PyText.lit "name", str (PyText.lit "berries")), (PyText.lit "count", int 3)]) =
        .ok (validForage berries))
    (by decide +kernel) (by decide +kernel) (by decide +kernel) (by decide)
    (makeMessage_forage (by decide +kernel) (by decide +kernel))

/-- An order to gain access to a building. -/
def shedIntent : Dict :=
  [(PyText.lit "intent", str (PyText.lit "GAIN_ACCESS")), (PyText.lit "mode", str (PyText.lit "SAFE")),
    (PyText.lit "text", str (PyText.lit "On it.")),
    (PyText.lit "target", dict [(PyText.lit "kind", str (PyText.lit "building")),
      (PyText.lit "label", str (PyText.lit "the shed"))])]

def validShed : Validator.Validated :=
  { validForage berries with
    intent :=
      { (validForage berries).intent with
        intent := PyText.lit "GAIN_ACCESS"
        target := some ⟨some (PyText.lit "building"), none, some (PyText.lit "the shed"), none⟩
        item := none } }

def shedAction : SafeAction :=
  { SafeAction.plain .gainAccess 1 "validated intent GAIN_ACCESS" Npc.npcId with
    targetKind := some (PyText.lit "building")
    targetLabel := some (PyText.lit "the shed")
    text := some (PyText.lit "On it.") }

def shedMessage : Message :=
  ⟨int Protocol.version, PyText.lit "npc-1", 1000, PyText.lit "command.npc_action",
    Npc.fields Npc.npcId shedAction forageOrders⟩

/-- **An order to gain access** to the shed is accepted, decided on and sent,
and the bridge rejects it as malformed. -/
theorem shed_malformed :
    Validator.validate Unicode.ascii (dict shedIntent) = .ok validShed ∧
    (∀ e ∈ shedIntent, isOne e.1 chatKeys = true) ∧
    Controllers.decide validShed.intent wellBody = .ok shedAction ∧
    forageDriver.refusal Unicode.ascii shedAction forageOrders = none ∧
    makeMessage 1000 (PyText.lit "command.npc_action") (PyText.lit "npc-1") 0
      (Npc.fields Npc.npcId shedAction forageOrders) = .ok shedMessage ∧
    ∃ data, encodeMessage shedMessage = .ok data ∧
      Bridge.wellFormed (jsonDecode data) = false := by
  have hvalid : Validator.validate Unicode.ascii (dict shedIntent) = .ok validShed := by
    decide +kernel
  have hchat : ∀ e ∈ shedIntent, isOne e.1 chatKeys = true := by decide
  have hdecide : Controllers.decide validShed.intent wellBody = .ok shedAction := by decide +kernel
  have hadmitted : forageDriver.refusal Unicode.ascii shedAction forageOrders = none := by
    decide
  have haccepts : Protocol.Accepts none shedMessage.asDict shedMessage :=
    Protocol.accepts_asDict (fun e he => Npc.name_of_mem_fields he) rfl
      (by decide : Protocol.validType (PyText.lit "command.npc_action") = true)
      (by decide : Protocol.validRequestId (PyText.lit "npc-1") = true)
      (by decide : (0 : ℤ) < 1000) (by decide +kernel) (by decide +kernel)
  have hmake : makeMessage 1000 (PyText.lit "command.npc_action") (PyText.lit "npc-1") 0
      (Npc.fields Npc.npcId shedAction forageOrders) = .ok shedMessage :=
    Protocol.fromMappingAt_eq_ok.2 haccepts
  refine ⟨hvalid, hchat, hdecide, hadmitted, hmake, ?_⟩
  obtain ⟨entries, heq, haccepted⟩ := Validator.accepted_of_validate hvalid
  obtain rfl := PyValue.dict.inj heq
  obtain ⟨data, hencode, hiff⟩ :=
    exists_checked haccepted hchat hdecide hadmitted (by decide) hmake
  refine ⟨data, hencode, ?_⟩
  rw [Bool.eq_false_iff]
  exact fun hwell => (hiff.1 hwell).action.2 rfl

end Wire

end GoblinZomboid
