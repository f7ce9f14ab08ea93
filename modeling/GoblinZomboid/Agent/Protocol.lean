import GoblinZomboid.Lib.PyValue
/-!
# `protocol.py`: messages

A message is an envelope of four fields and its body. `from_mapping`
checks the envelope and the size of the whole; `make_message` builds one
and passes it through the same check.
-/

namespace GoblinZomboid

namespace Protocol

open PyValue (int str dict)

/-- A decoded JSON object. -/
abbrev Dict := List (PyText × PyValue)

/-- `d.get(name)`; `none` stands for a missing key. -/
def get (d : Dict) (name : String) : Option PyValue :=
  (d.find? fun e => e.1 = PyText.lit name).map Prod.snd

theorem get_append (d d' : Dict) (name : String) :
    get (d ++ d') name = (get d name).or (get d' name) := by
  unfold get
  rw [List.find?_append]
  cases d.find? fun e => e.1 = PyText.lit name <;> rfl

theorem get_eq_none {d : Dict} {name : String} (h : ∀ e ∈ d, e.1 ≠ PyText.lit name) :
    get d name = none := by
  unfold get
  rw [List.find?_eq_none.2 fun e he => by simpa using h e he]
  rfl

def version : ℤ := 2

def maxMessageBytes : ℕ := 256 * 1024

/-- A character of the identifiers: letters and digits of ASCII. -/
def isAlnum (c : Char) : Bool := c.isAlphanum

/-- `REQUEST_ID_RE`: a letter or digit and at most 127 of `[A-Za-z0-9._:-]`. -/
def validRequestId (t : PyText) : Bool :=
  match t with
  | [] => false
  | c :: rest =>
    isAlnum c && rest.length ≤ 127
      && rest.all fun c => isAlnum c || c == '.' || c == '_' || c == ':' || c == '-'

/-- `MESSAGE_TYPE_RE`: a small letter and at most 63 of `[a-z0-9._:-]`. -/
def validType (t : PyText) : Bool :=
  match t with
  | [] => false
  | c :: rest =>
    c.isLower && rest.length ≤ 63
      && rest.all fun c => c.isLower || c.isDigit || c == '.' || c == '_' || c == ':' || c == '-'

/-- `Message`. -/
structure Message where
  protocol : PyValue
  requestId : PyText
  timestampMs : ℤ
  type : PyText
  fields : Dict

/-- The keys of the envelope, sorted. -/
def required : List String := ["protocol", "request_id", "timestamp_ms", "type"]

/-- A key of the envelope. -/
def isRequired (key : PyText) : Bool := required.any fun name => PyText.lit name = key

/-- The envelope of `as_dict`. -/
def Message.envelope (m : Message) : Dict :=
  [(PyText.lit "protocol", m.protocol), (PyText.lit "request_id", str m.requestId),
    (PyText.lit "timestamp_ms", int m.timestampMs), (PyText.lit "type", str m.type)]

/-- `as_dict`: a field of the body replaces one of the envelope. -/
def Message.asDict (m : Message) : Dict :=
  (m.envelope.map fun e => ((m.fields.find? fun f => f.1 = e.1).getD e)) ++
    m.fields.filter fun f => !isRequired f.1

/-- `raw["protocol"] == PROTOCOL_VERSION`, which a float may equal. -/
def isVersion : PyValue → Bool
  | .int n => n == version
  | .float text => text == PyText.lit "2.0"
  | _ => false

/-! ## `from_mapping` -/

/-- How old a message may be, and the time it is. -/
structure Age where
  maxAgeMs : ℤ
  now : ℤ

/-- A message of this time is neither from the future nor stale. -/
def Age.admits (age : Age) (timestampMs : ℤ) : Bool :=
  timestampMs ≤ age.now + 60000 && age.now - timestampMs ≤ age.maxAgeMs

/-- The message can be written, in no more bytes than allowed. -/
def checkSize (raw : Dict) : Except String Unit :=
  if !PyValue.dumpable (.dict raw) then .error "message contains non-JSON values"
  else if maxMessageBytes < PyValue.size (PyValue.json (.dict raw)) then
    .error "message exceeds the configured size limit"
  else .ok ()

/-- No field of the envelope is missing. -/
def checkRequired (raw : Dict) : Except String Unit :=
  match required.find? fun name => (get raw name).isNone with
  | some name => .error ("missing envelope field: " ++ name)
  | none => .ok ()

def protocolOf (raw : Dict) : Except String PyValue :=
  match get raw "protocol" with
  | some v => if isVersion v then .ok v else .error "unsupported protocol version"
  | none => .error "unsupported protocol version"

def requestIdOf (raw : Dict) : Except String PyText :=
  match get raw "request_id" with
  | some (.str t) => if validRequestId t then .ok t else .error "invalid request id"
  | _ => .error "invalid request id"

def timestampOf (age : Option Age) (raw : Dict) : Except String ℤ :=
  match get raw "timestamp_ms" with
  | some (.int n) =>
    if n ≤ 0 then .error "invalid timestamp"
    else
      match age with
      | some age =>
        if age.now + 60000 < n then .error "message timestamp is too far in the future"
        else if age.maxAgeMs < age.now - n then .error "stale message"
        else .ok n
      | none => .ok n
  | _ => .error "invalid timestamp"

def typeOf (raw : Dict) : Except String PyText :=
  match get raw "type" with
  | some (.str t) => if validType t then .ok t else .error "invalid message type"
  | _ => .error "invalid message type"

/-- The body of a message: the object named `payload`, or the other fields. -/
def body (raw : Dict) : Except String Dict :=
  match get raw "payload" with
  | some (.dict fields) =>
    if raw.any fun e => !isRequired e.1 && e.1 != PyText.lit "payload" then
      .error "payload cannot be mixed with direct fields"
    else .ok fields
  | some _ => .error "payload must be an object"
  | none => .ok (raw.filter fun e => !isRequired e.1)

/-- `Message.from_mapping`, with the age it checks. -/
def fromMappingAt (age : Option Age) (raw : Dict) : Except String Message := do
  checkSize raw
  checkRequired raw
  let protocol ← protocolOf raw
  let requestId ← requestIdOf raw
  let timestampMs ← timestampOf age raw
  let type ← typeOf raw
  let fields ← body raw
  pure ⟨protocol, requestId, timestampMs, type, fields⟩

/-- `Message.from_mapping`, without the age of the message. -/
def fromMapping (raw : Dict) : Except String Message := fromMappingAt none raw

/-- `make_message` with a request id; `clock` is `now_ms()`. -/
def makeMessage (clock : ℤ) (type requestId : PyText) (timestampMs : ℤ) (fields : Dict) :
    Except String Message :=
  fromMapping (Message.asDict
    ⟨int version, requestId, if timestampMs = 0 then clock else timestampMs, type, fields⟩)

/-! ## What is accepted -/

/-- **An accepted message**: the envelope is what the mapping holds, and every
check passes. -/
structure Accepts (age : Option Age) (raw : Dict) (m : Message) : Prop where
  dumpable : PyValue.dumpable (.dict raw) = true
  size : PyValue.size (PyValue.json (.dict raw)) ≤ maxMessageBytes
  protocol : get raw "protocol" = some m.protocol
  version : isVersion m.protocol = true
  requestId : get raw "request_id" = some (str m.requestId)
  validId : validRequestId m.requestId = true
  timestamp : get raw "timestamp_ms" = some (int m.timestampMs)
  positive : 0 < m.timestampMs
  admits : ∀ a, age = some a → a.admits m.timestampMs = true
  type : get raw "type" = some (str m.type)
  validType : validType m.type = true
  body : body raw = .ok m.fields

theorem bind_eq_ok {ε α β : Type} {x : Except ε α} {f : α → Except ε β} {b : β} :
    x >>= f = .ok b ↔ ∃ a, x = .ok a ∧ f a = .ok b := by
  cases x with
  | error e => exact ⟨nofun, fun ⟨_, h, _⟩ => nomatch h⟩
  | ok a =>
    refine ⟨fun h => ⟨a, rfl, h⟩, fun ⟨a', ha, h⟩ => ?_⟩
    obtain rfl := Except.ok.inj ha
    exact h

theorem checkSize_eq_ok {raw : Dict} : checkSize raw = .ok () ↔
    PyValue.dumpable (.dict raw) = true ∧
      PyValue.size (PyValue.json (.dict raw)) ≤ maxMessageBytes := by
  unfold checkSize
  split
  · rename_i h
    rw [Bool.not_eq_true'] at h
    simp [h]
  · rename_i h
    rw [Bool.not_eq_true', Bool.not_eq_false] at h
    split
    · rename_i hsize
      simp [hsize]
    · rename_i hsize
      simp [h, not_lt.1 hsize]

theorem protocolOf_eq_ok {raw : Dict} {v : PyValue} : protocolOf raw = .ok v ↔
    get raw "protocol" = some v ∧ isVersion v = true := by
  unfold protocolOf
  split
  · rename_i v' h
    rw [h]
    split
    · rename_i hv
      refine ⟨fun heq => ?_, fun heq => ?_⟩
      · obtain rfl := Except.ok.inj heq
        exact ⟨rfl, hv⟩
      · rw [Option.some_inj.1 heq.1]
    · rename_i hv
      refine ⟨nofun, fun heq => absurd heq.2 ?_⟩
      rwa [← Option.some_inj.1 heq.1]
  · rename_i h
    simp [h]

theorem requestIdOf_eq_ok {raw : Dict} {t : PyText} : requestIdOf raw = .ok t ↔
    get raw "request_id" = some (str t) ∧ validRequestId t = true := by
  unfold requestIdOf
  split
  · rename_i t' h
    rw [h]
    split
    · rename_i hv
      refine ⟨fun heq => ?_, fun heq => ?_⟩
      · obtain rfl := Except.ok.inj heq
        exact ⟨rfl, hv⟩
      · rw [PyValue.str.inj (Option.some_inj.1 heq.1)]
    · rename_i hv
      refine ⟨nofun, fun heq => absurd heq.2 ?_⟩
      rwa [← PyValue.str.inj (Option.some_inj.1 heq.1)]
  · rename_i h
    exact ⟨nofun, fun heq => absurd heq.1 (h t)⟩

theorem typeOf_eq_ok {raw : Dict} {t : PyText} : typeOf raw = .ok t ↔
    get raw "type" = some (str t) ∧ validType t = true := by
  unfold typeOf
  split
  · rename_i t' h
    rw [h]
    split
    · rename_i hv
      refine ⟨fun heq => ?_, fun heq => ?_⟩
      · obtain rfl := Except.ok.inj heq
        exact ⟨rfl, hv⟩
      · rw [PyValue.str.inj (Option.some_inj.1 heq.1)]
    · rename_i hv
      refine ⟨nofun, fun heq => absurd heq.2 ?_⟩
      rwa [← PyValue.str.inj (Option.some_inj.1 heq.1)]
  · rename_i h
    exact ⟨nofun, fun heq => absurd heq.1 (h t)⟩

theorem timestampOf_eq_ok {age : Option Age} {raw : Dict} {n : ℤ} : timestampOf age raw = .ok n ↔
    get raw "timestamp_ms" = some (int n) ∧ 0 < n ∧ ∀ a, age = some a → a.admits n = true := by
  unfold timestampOf
  split
  · rename_i n' h
    rw [h]
    have hsame : (some (int n') : Option PyValue) = some (int n) ↔ n' = n := by
      rw [Option.some_inj, PyValue.int.injEq]
    rw [hsame]
    by_cases hpos : n' ≤ 0
    · rw [if_pos hpos]
      exact ⟨nofun, fun heq => absurd heq.2.1 (by omega)⟩
    rw [if_neg hpos]
    cases age with
    | none =>
      refine ⟨fun heq => ?_, fun heq => ?_⟩
      · obtain rfl := Except.ok.inj heq
        exact ⟨rfl, by omega, nofun⟩
      · rw [heq.1]
    | some a =>
      have hadmits : (∀ b, some a = some b → b.admits n = true) ↔
          n ≤ a.now + 60000 ∧ a.now - n ≤ a.maxAgeMs := by
        refine ⟨fun h => ?_, fun h b hb => ?_⟩
        · simpa [Age.admits] using h a rfl
        · obtain rfl := Option.some_inj.1 hb
          simpa [Age.admits] using h
      rw [hadmits]
      dsimp only
      split
      · exact ⟨nofun, fun heq => by omega⟩
      · split
        · exact ⟨nofun, fun heq => by omega⟩
        · refine ⟨fun heq => ?_, fun heq => ?_⟩
          · obtain rfl := Except.ok.inj heq
            exact ⟨rfl, by omega, by omega, by omega⟩
          · rw [heq.1]
  · rename_i h
    exact ⟨nofun, fun heq => absurd heq.1 (h n)⟩

/-- **What `from_mapping` accepts.** -/
theorem fromMappingAt_eq_ok {age : Option Age} {raw : Dict} {m : Message} :
    fromMappingAt age raw = .ok m ↔ Accepts age raw m := by
  unfold fromMappingAt
  simp only [bind_eq_ok, protocolOf_eq_ok, requestIdOf_eq_ok, typeOf_eq_ok, timestampOf_eq_ok]
  constructor
  · rintro ⟨⟨⟩, hcheck, -, -, protocol, ⟨hp, hversion⟩, id, ⟨hi, hid⟩, time,
      ⟨ht, hpos, hage⟩, type, ⟨hy, htype⟩, fields, hbody, hm⟩
    obtain rfl := Except.ok.inj hm
    obtain ⟨hdump, hsize⟩ := checkSize_eq_ok.1 hcheck
    exact ⟨hdump, hsize, hp, hversion, hi, hid, ht, hpos, hage, hy, htype, hbody⟩
  · intro h
    have hrequired : checkRequired raw = .ok () := by
      have hnone : (required.find? fun name => (get raw name).isNone) = none := by
        simp [required, h.protocol, h.requestId, h.timestamp, h.type]
      unfold checkRequired
      rw [hnone]
    exact ⟨(), checkSize_eq_ok.2 ⟨h.dumpable, h.size⟩, (), hrequired, _, ⟨h.protocol, h.version⟩, _,
      ⟨h.requestId, h.validId⟩, _, ⟨h.timestamp, h.positive, h.admits⟩, _, ⟨h.type, h.validType⟩,
      _, h.body, rfl⟩

/-- The envelope in front of a body under other names. -/
theorem asDict_eq {m : Message} (h : ∀ e ∈ m.fields, isRequired e.1 = false) :
    m.asDict = m.envelope ++ m.fields := by
  have hkept : (m.fields.filter fun f => !isRequired f.1) = m.fields :=
    List.filter_eq_self.2 fun e he => by simp [h e he]
  have hfree : ∀ e ∈ m.envelope, (m.fields.find? fun f => f.1 = e.1) = none := by
    intro e he
    have hreq : isRequired e.1 = true := by
      have hall : ∀ name ∈ required, isRequired (PyText.lit name) = true := by decide
      simp only [Message.envelope, List.mem_cons, List.not_mem_nil, or_false] at he
      rcases he with rfl | rfl | rfl | rfl
      · exact hall "protocol" (by decide)
      · exact hall "request_id" (by decide)
      · exact hall "timestamp_ms" (by decide)
      · exact hall "type" (by decide)
    refine List.find?_eq_none.2 fun f hf heq => ?_
    rw [← of_decide_eq_true heq, h f hf] at hreq
    cases hreq
  have henvelope : (m.envelope.map fun e => (m.fields.find? fun f => f.1 = e.1).getD e) =
      m.envelope := by
    refine (List.map_congr_left fun e he => ?_).trans (List.map_id _)
    rw [hfree e he]
    rfl
  rw [Message.asDict, henvelope, hkept]

theorem payload_asDict {m : Message}
    (hnames : ∀ e ∈ m.fields, isRequired e.1 = false ∧ e.1 ≠ PyText.lit "payload") :
    get m.asDict "payload" = none := by
  have hfields : m.fields.find? (fun e => e.1 = PyText.lit "payload") = none :=
    List.find?_eq_none.2 fun e he => by simpa using (hnames e he).2
  rw [asDict_eq fun e he => (hnames e he).1, get]
  exact congrArg (Option.map Prod.snd) hfields

/-- The body of `as_dict`, of a body under other names. -/
theorem body_asDict {m : Message}
    (hnames : ∀ e ∈ m.fields, isRequired e.1 = false ∧ e.1 ≠ PyText.lit "payload") :
    body m.asDict = .ok m.fields := by
  have hdict := asDict_eq fun e he => (hnames e he).1
  have hkept : (m.asDict.filter fun e => !isRequired e.1) = m.fields := by
    have hfields : (m.fields.filter fun e => !isRequired e.1) = m.fields :=
      List.filter_eq_self.2 fun e he => by simp [(hnames e he).1]
    rw [hdict]
    exact hfields
  unfold body
  rw [payload_asDict hnames, hkept]

/-- A message that is built from a body under its own names carries it. -/
theorem fields_of_makeMessage {clock : ℤ} {type requestId : PyText} {timestampMs : ℤ}
    {fields : Dict} {m : Message}
    (hnames : ∀ e ∈ fields, isRequired e.1 = false ∧ e.1 ≠ PyText.lit "payload")
    (h : makeMessage clock type requestId timestampMs fields = .ok m) : m.fields = fields := by
  have hbody := (fromMappingAt_eq_ok.1 h).body
  rw [body_asDict hnames] at hbody
  exact (Except.ok.inj hbody).symm

/-- **A body under its own names** is what the message carries. -/
theorem accepts_asDict {m : Message}
    (hnames : ∀ e ∈ m.fields, isRequired e.1 = false ∧ e.1 ≠ PyText.lit "payload")
    (hversion : isVersion m.protocol = true) (htype : validType m.type = true)
    (hid : validRequestId m.requestId = true) (htime : 0 < m.timestampMs)
    (hdump : PyValue.dumpable (.dict m.asDict) = true)
    (hsize : PyValue.size (PyValue.json (.dict m.asDict)) ≤ maxMessageBytes) :
    Accepts none m.asDict m := by
  have hget : get m.asDict "protocol" = some m.protocol ∧
      get m.asDict "request_id" = some (str m.requestId) ∧
      get m.asDict "timestamp_ms" = some (int m.timestampMs) ∧
      get m.asDict "type" = some (str m.type) := by
    rw [asDict_eq fun e he => (hnames e he).1]
    exact ⟨rfl, rfl, rfl, rfl⟩
  obtain ⟨hgetProtocol, hgetId, hgetTime, hgetType⟩ := hget
  exact ⟨hdump, hsize, hgetProtocol, hversion, hgetId, hid, hgetTime, htime, nofun, hgetType, htype,
    body_asDict hnames⟩

end Protocol

end GoblinZomboid
