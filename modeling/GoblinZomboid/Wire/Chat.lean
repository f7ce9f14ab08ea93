import GoblinZomboid.Server.ChatBridge
import GoblinZomboid.Server.Grants
import GoblinZomboid.Agent.Events
/-!
# Chat at the boundary

The server publishes every line that speaks of a companion; the agent's
gate has rules of its own. Speaker, token and flags always pass, and no
event is too large. What can fail is the text, the order that was read
from it, and what was answered to the order.
-/

namespace GoblinZomboid

namespace Chat

open Events (Gate checkField checkFields checkText requireBool requireMember)
open Protocol (Dict)
open ChatBridge (Answer Line eventFields onChat)

/-! ## Across the wire -/

/-- A field as the agent decodes it: its strings must be UTF-8. -/
def receiveValue : LuaValue → Option PyValue
  | .str s => (Utf8.decode s).map .str
  | .bool b => some (.bool b)
  | _ => none

/-- The body of an event as the agent decodes it. -/
def receive (fields : List (String × LuaValue)) : Option Dict :=
  fields.mapM fun e => (receiveValue e.2).map fun v => (PyText.lit e.1, v)

/-- **The event is taken**: it is decoded, and the gate accepts it. -/
def Taken (u : Unicode) (gate : Gate) (clock now : ℤ) (requestId : PyText)
    (fields : List (String × LuaValue)) : Prop :=
  ∃ d, receive fields = some d ∧
    (Events.make u gate clock (PyText.lit "chat") d now requestId).1.accepted = true

/-- The event is no duplicate inside the window. -/
def Fresh (u : Unicode) (gate : Gate) (now : ℤ) (fields : List (String × LuaValue)) : Prop :=
  ∀ d, receive fields = some d →
    gate.duplicate (Events.fingerprint u (PyText.lit "chat") d) now = false

/-! ## The condition -/

/-- Text of at most 240 characters without a word of location. -/
def Sayable (u : Unicode) (t : PyText) : Prop :=
  t.length ≤ 240 ∧ PyRegex.search u Events.textLocation t = false

/-- **What gets a line through.** The cleaned text is sayable; and an order
read from it is one the gate knows, with a sayable answer that says
something. -/
structure Passes (u : Unicode) (clean : Bytes) (answer : Task → Answer) : Prop where
  text : ∃ t, Utf8.decode clean = some t ∧ Sayable u t
  order : ∀ task, ChatBridge.directIntent clean = some task →
    task.name ∈ Events.directActions ∧
      ∃ t, Utf8.decode (answer task).detail = some t ∧ PyText.strip t ≠ [] ∧ Sayable u t

/-! ## The fields that pass -/

/-- The decoded event. -/
def chatDict (speaker text : PyText) (token : Option PyText) (applied reported : Bool)
    (direct : Option (PyText × PyText)) : Dict :=
  [(PyText.lit "speaker", .str speaker), (PyText.lit "text", .str text),
    (PyText.lit "authorized", .bool token.isSome), (PyText.lit "direct_applied", .bool applied),
    (PyText.lit "direct_reported", .bool reported), (PyText.lit "addressed", .bool true)]
  ++ (token.toList.map fun token => (PyText.lit "authority_token", .str token))
  ++ direct.toList.flatMap fun d =>
    [(PyText.lit "direct_action", .str d.1), (PyText.lit "direct_detail", .str d.2)]

variable {u : Unicode}

theorem checkFields_append (a b : Dict) :
    checkFields u (a ++ b) = .ok () ↔ checkFields u a = .ok () ∧ checkFields u b = .ok () := by
  induction a with
  | nil => simp [checkFields]
  | cons e a ih =>
    obtain ⟨key, value⟩ := e
    simp only [List.cons_append, checkFields]
    cases checkField u key value with
    | ok _ => exact ih
    | error detail => simp

theorem checkFields_cons (key : PyText) (value : PyValue) (d : Dict) :
    checkFields u ((key, value) :: d) = .ok () ↔
      checkField u key value = .ok () ∧ checkFields u d = .ok () := by
  simp only [checkFields]
  cases checkField u key value with
  | ok _ => simp
  | error detail => simp

/-- The check of a text, but for its words of location. -/
theorem checkText_eq_ok {key t : PyText} :
    checkText u key (.str t) = .ok () ↔
      (PyText.strip t ≠ [] ∧ t.length ≤ if key = PyText.lit "authority_token" then 128 else 240) ∧
        (Events.isNamed key ["text", "direct_detail"] = true →
          PyRegex.search u Events.textLocation t = false) := by
  unfold checkText
  dsimp only
  generalize (if key = PyText.lit "authority_token" then 128 else 240) = maximum
  by_cases hshape : PyText.strip t = [] ∨ maximum < t.length
  · rw [if_pos (by simpa using hshape)]
    refine iff_of_false nofun ?_
    rintro ⟨⟨hblank, hlen⟩, -⟩
    rcases hshape with h | h
    · exact hblank h
    · omega
  · rw [if_neg (by simpa using hshape)]
    obtain ⟨hblank, hlen⟩ := not_or.1 hshape
    rw [not_lt] at hlen
    cases hplace : Events.isNamed key ["text", "direct_detail"] &&
        PyRegex.search u Events.textLocation t with
    | true =>
      rw [Bool.and_eq_true] at hplace
      refine iff_of_false nofun ?_
      rintro ⟨-, h⟩
      rw [h hplace.1] at hplace
      cases hplace.2
    | false =>
      refine iff_of_true rfl ⟨⟨hblank, hlen⟩, fun hname => ?_⟩
      rwa [hname, Bool.true_and] at hplace

/-- Speaker, text and answer are checked as texts. -/
theorem checkField_speaker {t : PyText} :
    checkField u (PyText.lit "speaker") (.str t) = .ok () ↔
      PyText.strip t ≠ [] ∧ t.length ≤ 240 := by
  have hfield : checkField u (PyText.lit "speaker") (.str t) =
      checkText u (PyText.lit "speaker") (.str t) := by
    unfold checkField
    rw [u.flatMap_casefold (by decide)]
    rfl
  have hno : Events.isNamed (PyText.lit "speaker") ["text", "direct_detail"] = false := by decide
  rw [hfield, checkText_eq_ok, if_neg (by decide), hno]
  simp

theorem checkField_token {t : PyText} :
    checkField u (PyText.lit "authority_token") (.str t) = .ok () ↔
      PyText.strip t ≠ [] ∧ t.length ≤ 128 := by
  have hfield : checkField u (PyText.lit "authority_token") (.str t) =
      checkText u (PyText.lit "authority_token") (.str t) := by
    unfold checkField
    rw [u.flatMap_casefold (by decide)]
    rfl
  have hno : Events.isNamed (PyText.lit "authority_token") ["text", "direct_detail"] = false := by
    decide
  rw [hfield, checkText_eq_ok, if_pos rfl, hno]
  simp

/-- The two texts that may name no location. -/
theorem checkField_said {name : String} (hname : name = "text" ∨ name = "direct_detail")
    {t : PyText} :
    checkField u (PyText.lit name) (.str t) = .ok () ↔ PyText.strip t ≠ [] ∧ Sayable u t := by
  have hfield : checkField u (PyText.lit name) (.str t) = checkText u (PyText.lit name) (.str t) := by
    rcases hname with rfl | rfl
    · unfold checkField
      rw [u.flatMap_casefold (by decide)]
      rfl
    · unfold checkField
      rw [u.flatMap_casefold (by decide)]
      rfl
  have hplaces : Events.isNamed (PyText.lit name) ["text", "direct_detail"] = true := by
    rcases hname with rfl | rfl <;> decide
  have hmax : PyText.lit name ≠ PyText.lit "authority_token" := by
    rcases hname with rfl | rfl <;> decide
  rw [hfield, checkText_eq_ok, if_neg hmax, hplaces, Sayable, and_assoc]
  simp only [forall_true_left]

theorem checkField_flag {name : String}
    (hname : name ∈ ["authorized", "direct_applied", "direct_reported", "addressed"]) (b : Bool) :
    checkField u (PyText.lit name) (.bool b) = .ok () := by
  simp only [List.mem_cons, List.not_mem_nil, or_false] at hname
  unfold checkField
  rcases hname with rfl | rfl | rfl | rfl <;>
  · rw [u.flatMap_casefold (by decide)]
    rfl

/-- The order is looked up among the direct actions. -/
theorem checkField_action {name : String} :
    checkField u (PyText.lit "direct_action") (.str (PyText.lit name)) = .ok () ↔
      name ∈ Events.directActions := by
  have hfield : checkField u (PyText.lit "direct_action") (.str (PyText.lit name)) =
      requireMember (.str (PyText.lit name)) Events.directActions "invalid direct action" := by
    unfold checkField
    rw [u.flatMap_casefold (by decide)]
    rfl
  have hnamed : Events.isNamed (PyText.lit name) Events.directActions = true ↔
      name ∈ Events.directActions := by
    simp only [Events.isNamed, List.any_eq_true, decide_eq_true_eq]
    constructor
    · rintro ⟨x, hx, heq⟩
      rwa [← String.toList_inj.1 heq]
    · intro h
      exact ⟨name, h, rfl⟩
  rw [hfield, ← hnamed]
  cases hmember : Events.isNamed (PyText.lit name) Events.directActions with
  | true => simp [requireMember, Events.member, hmember]
  | false => simp [requireMember, Events.member, hmember]

/-- **What the gate asks of a decoded chat event.** -/
theorem validateFields_chatDict {speaker text : PyText} {token : Option PyText}
    {applied reported : Bool} {direct : Option (String × PyText)} :
    Events.validateFields u (PyText.lit "chat") (chatDict speaker text token applied reported
        (direct.map fun d => (PyText.lit d.1, d.2))) =
      .ok (chatDict speaker text token applied reported
        (direct.map fun d => (PyText.lit d.1, d.2))) ↔
      (PyText.strip speaker ≠ [] ∧ speaker.length ≤ 240) ∧
        (PyText.strip text ≠ [] ∧ Sayable u text) ∧
        (∀ t, token = some t → PyText.strip t ≠ [] ∧ t.length ≤ 128) ∧
        ∀ d, direct = some d →
          d.1 ∈ Events.directActions ∧ PyText.strip d.2 ≠ [] ∧ Sayable u d.2 := by
  generalize hd : chatDict speaker text token applied reported
    (direct.map fun d => (PyText.lit d.1, d.2)) = d
  have hchecks : checkFields u d = .ok () ↔
      (PyText.strip speaker ≠ [] ∧ speaker.length ≤ 240) ∧
        (PyText.strip text ≠ [] ∧ Sayable u text) ∧
        (∀ t, token = some t → PyText.strip t ≠ [] ∧ t.length ≤ 128) ∧
        ∀ d, direct = some d →
          d.1 ∈ Events.directActions ∧ PyText.strip d.2 ≠ [] ∧ Sayable u d.2 := by
    have hnil : checkFields u [] = .ok () := rfl
    have hauthorized (b : Bool) : checkField u (PyText.lit "authorized") (.bool b) = .ok () :=
      checkField_flag (by decide) b
    have happlied (b : Bool) : checkField u (PyText.lit "direct_applied") (.bool b) = .ok () :=
      checkField_flag (by decide) b
    have hreported (b : Bool) : checkField u (PyText.lit "direct_reported") (.bool b) = .ok () :=
      checkField_flag (by decide) b
    have haddressed : checkField u (PyText.lit "addressed") (.bool true) = .ok () :=
      checkField_flag (by decide) true
    have htoken : checkFields u (token.toList.map fun t =>
        (PyText.lit "authority_token", PyValue.str t)) = .ok () ↔
          ∀ t, token = some t → PyText.strip t ≠ [] ∧ t.length ≤ 128 := by
      cases token with
      | none => simp [hnil]
      | some t => simp [checkFields_cons, checkField_token, hnil]
    have hdirect : checkFields u ((direct.map fun d => (PyText.lit d.1, d.2)).toList.flatMap
        fun d => [(PyText.lit "direct_action", .str d.1), (PyText.lit "direct_detail", .str d.2)]) =
          .ok () ↔ ∀ d, direct = some d →
            d.1 ∈ Events.directActions ∧ PyText.strip d.2 ≠ [] ∧ Sayable u d.2 := by
      cases direct with
      | none => simp [hnil]
      | some d =>
        simp [checkFields_cons, checkField_action, checkField_said (.inr rfl), hnil]
    rw [← hd]
    unfold chatDict
    rw [checkFields_append, checkFields_append, htoken, hdirect]
    simp only [checkFields_cons, checkField_speaker, checkField_said (.inl rfl), hauthorized,
      happlied, hreported, haddressed, hnil, and_true, and_assoc]
  have hknown : ∃ names, (Events.eventFields.find? fun e => PyText.lit e.1 = PyText.lit "chat") =
      some ("chat", names) ∧ ((d.map Prod.fst).filter fun key => !Events.isNamed key names) = [] := by
    refine ⟨_, rfl, ?_⟩
    rw [← hd]
    cases token <;> cases direct <;> rfl
  obtain ⟨names, hkind, hnone⟩ := hknown
  rw [← hchecks]
  unfold Events.validateFields
  rw [hkind]
  dsimp only
  rw [hnone]
  cases checkFields u d with
  | ok _ => simp
  | error detail => simp

/-! ## The size of an event -/

open PyValue (size reprStr jsonStr plain)

/-- The room an entry takes in the two texts of a dictionary. -/
structure Room (u : Unicode) (e : PyText × PyValue) (b c : ℕ) : Prop where
  repr : size (reprStr u e.1) + size (PyValue.repr u e.2) + 4 ≤ b
  json : size (jsonStr e.1) + size (PyValue.json e.2) + 2 ≤ c

theorem room_str (u : Unicode) (key t : PyText) :
    Room u (key, .str t) (10 * key.length + 10 * t.length + 8) (6 * key.length + 6 * t.length + 6) := by
  have hkey := PyValue.size_reprStr_le u key
  have ht := PyValue.size_reprStr_le u t
  have hkey' := PyValue.size_jsonStr_le key
  have ht' := PyValue.size_jsonStr_le t
  refine ⟨?_, ?_⟩
  · simp only [PyValue.repr]
    omega
  · simp only [PyValue.json]
    omega

theorem room_plain (u : Unicode) (key : PyText) {t : PyText} (h : ∀ c ∈ t, plain c = true) :
    Room u (key, .str t) (10 * key.length + t.length + 8) (6 * key.length + 6 * t.length + 6) := by
  have hkey := PyValue.size_reprStr_le u key
  have ht := PyValue.size_reprStr_of_plain u h
  refine ⟨?_, (room_str u key t).json⟩
  simp only [PyValue.repr]
  omega

theorem room_bool (u : Unicode) (key : PyText) (b : Bool) :
    Room u (key, .bool b) (10 * key.length + 11) (6 * key.length + 9) := by
  have hkey := PyValue.size_reprStr_le u key
  have hkey' := PyValue.size_jsonStr_le key
  have hb : size (PyValue.repr u (.bool b)) ≤ 5 ∧ size (PyValue.json (.bool b)) ≤ 5 := by
    cases b with
    | true =>
      simp only [PyValue.repr, PyValue.json]
      decide
    | false =>
      simp only [PyValue.repr, PyValue.json]
      decide
  refine ⟨?_, ?_⟩
  · have := hb.1
    dsimp only
    omega
  · have := hb.2
    dsimp only
    omega

theorem room_int (u : Unicode) (key : PyText) {n k : ℕ} (hk : 0 < k) (h : n < 10 ^ k) :
    Room u (key, .int n) (10 * key.length + k + 6) (6 * key.length + k + 4) := by
  have hkey := PyValue.size_reprStr_le u key
  have hkey' := PyValue.size_jsonStr_le key
  obtain ⟨hr, hj⟩ := PyValue.size_repr_int_le u hk h
  refine ⟨?_, ?_⟩
  · dsimp only
    omega
  · dsimp only
    omega

/-- The room all entries of a dictionary take. -/
structure Rooms (u : Unicode) (d : Dict) (b c : ℕ) : Prop where
  repr : (d.map fun e => size (reprStr u e.1) + size (PyValue.repr u e.2) + 4).sum ≤ b
  json : (d.map fun e => size (jsonStr e.1) + size (PyValue.json e.2) + 2).sum ≤ c

theorem Rooms.nil (u : Unicode) (b c : ℕ) : Rooms u [] b c := ⟨Nat.zero_le _, Nat.zero_le _⟩

theorem Rooms.cons {e : PyText × PyValue} {d : Dict} {b c b' c' : ℕ} (h : Room u e b c)
    (h' : Rooms u d b' c') : Rooms u (e :: d) (b + b') (c + c') := by
  have hrepr := h.repr
  have hrepr' := h'.repr
  have hjson := h.json
  have hjson' := h'.json
  refine ⟨?_, ?_⟩
  · rw [List.map_cons, List.sum_cons]
    omega
  · rw [List.map_cons, List.sum_cons]
    omega

theorem Rooms.append {d d' : Dict} {b c b' c' : ℕ} (h : Rooms u d b c) (h' : Rooms u d' b' c') :
    Rooms u (d ++ d') (b + b') (c + c') := by
  refine ⟨?_, ?_⟩
  · rw [List.map_append, List.sum_append]
    exact Nat.add_le_add h.repr h'.repr
  · rw [List.map_append, List.sum_append]
    exact Nat.add_le_add h.json h'.json

/-- The fields of a chat event have names of their own. -/
theorem names_chatDict {speaker text : PyText} {token : Option PyText} {applied reported : Bool}
    {direct : Option (PyText × PyText)} :
    ∀ e ∈ chatDict speaker text token applied reported direct,
      Protocol.isRequired e.1 = false ∧ e.1 ≠ PyText.lit "payload" := by
  have hall : ((chatDict speaker text token applied reported direct).all fun e =>
      !Protocol.isRequired e.1 && e.1 != PyText.lit "payload") = true := by
    cases token <;> cases direct <;> rfl
  intro e he
  simpa using List.all_eq_true.1 hall e he

/-- A chat event holds nothing that JSON does not write. -/
theorem dumpable_chatMessage {requestId speaker text : PyText} {token : Option PyText}
    {applied reported : Bool} {direct : Option (PyText × PyText)} {time : ℕ}
    (htime : time < 10 ^ 309) :
    let m : Protocol.Message := ⟨.int Protocol.version, requestId, time, PyText.lit "event.chat",
      chatDict speaker text token applied reported direct⟩
    PyValue.dumpable (.dict m.asDict) = true := by
  intro m
  have hdict : m.asDict = _ := Protocol.asDict_eq fun e he => (names_chatDict e he).1
  have htimeFits := PyValue.dumpable_int htime (by decide)
  have hversion : PyValue.dumpable (.int Protocol.version) = true :=
    PyValue.dumpable_int (by decide : 2 < 10 ^ 1) (by decide)
  have henvelope : PyValue.dumpableEntries m.envelope = true := by
    show (PyValue.dumpable (.int Protocol.version) && (PyValue.dumpable (.str requestId) &&
      (PyValue.dumpable (.int time) && (PyValue.dumpable (.str _) && true)))) = true
    rw [hversion, htimeFits]
    rfl
  have hfields : PyValue.dumpableEntries m.fields = true := by
    show PyValue.dumpableEntries (chatDict speaker text token applied reported direct) = true
    cases token with
    | none =>
      cases direct with
      | none => rfl
      | some d => rfl
    | some t =>
      cases direct with
      | none => rfl
      | some d => rfl
  rw [hdict]
  refine PyValue.dumpableEntries_eq_true.2 fun e he => ?_
  rcases List.mem_append.1 he with he | he
  · exact PyValue.dumpableEntries_eq_true.1 henvelope e he
  · exact PyValue.dumpableEntries_eq_true.1 hfields e he

/-- **No chat event is too large.** -/
theorem size_chatMessage_le {requestId speaker text : PyText} {token : Option PyText}
    {applied reported : Bool} {direct : Option (PyText × PyText)} {time : ℕ}
    (hid : requestId.length ≤ 128 ∧ ∀ c ∈ requestId, plain c = true)
    (hspeaker : speaker.length ≤ 96) (htext : text.length ≤ 240)
    (htoken : ∀ t, token = some t → t.length ≤ 128 ∧ ∀ c ∈ t, plain c = true)
    (hdirect : ∀ d, direct = some d → d.1.length ≤ 20 ∧ d.2.length ≤ 240)
    (htime : time < 10 ^ 309) :
    let m : Protocol.Message := ⟨.int Protocol.version, requestId, time, PyText.lit "event.chat",
      chatDict speaker text token applied reported direct⟩
    size (PyValue.repr u (.dict m.asDict)) ≤ Events.maxEventBytes ∧
      size (PyValue.json (.dict m.asDict)) ≤ Protocol.maxMessageBytes := by
  intro m
  have hfixed := Rooms.cons (room_str u (PyText.lit "speaker") speaker)
    (.cons (room_str u (PyText.lit "text") text)
      (.cons (room_bool u (PyText.lit "authorized") token.isSome)
        (.cons (room_bool u (PyText.lit "direct_applied") applied)
          (.cons (room_bool u (PyText.lit "direct_reported") reported)
            (.cons (room_bool u (PyText.lit "addressed") true) (.nil u 0 0))))))
  have hgrant : Rooms u (token.toList.map fun t => (PyText.lit "authority_token", .str t))
      (10 * 15 + 128 + 8) (6 * 15 + 6 * 128 + 6) := by
    cases token with
    | none => exact .nil u _ _
    | some t =>
      obtain ⟨hlen, hplain⟩ := htoken t rfl
      have hroom := Rooms.cons (room_plain u (PyText.lit "authority_token") hplain) (.nil u 0 0)
      have hkey : (PyText.lit "authority_token").length = 15 := rfl
      rw [hkey] at hroom
      exact ⟨hroom.repr.trans (by omega), hroom.json.trans (by omega)⟩
  have hanswer : Rooms u (direct.toList.flatMap fun d =>
      [(PyText.lit "direct_action", .str d.1), (PyText.lit "direct_detail", .str d.2)])
      (10 * 26 + 10 * 260 + 16) (6 * 26 + 6 * 260 + 12) := by
    cases direct with
    | none => exact .nil u _ _
    | some d =>
      obtain ⟨haction, hdetail⟩ := hdirect d rfl
      have hroom := Rooms.cons (room_str u (PyText.lit "direct_action") d.1)
        (.cons (room_str u (PyText.lit "direct_detail") d.2) (.nil u 0 0))
      have hkey : (PyText.lit "direct_action").length = 13 := rfl
      have hkey' : (PyText.lit "direct_detail").length = 13 := rfl
      rw [hkey, hkey'] at hroom
      exact ⟨hroom.repr.trans (by omega), hroom.json.trans (by omega)⟩
  have hall := Rooms.cons (room_int u (PyText.lit "protocol") (by decide : 0 < 1) (by decide : 2 < 10 ^ 1))
    (.cons (room_plain u (PyText.lit "request_id") hid.2)
      (.cons (room_int u (PyText.lit "timestamp_ms") (by decide : 0 < 309) htime)
        (.cons (room_str u (PyText.lit "type") (PyText.lit "event.chat"))
          ((hfixed.append hgrant).append hanswer))))
  have hdict : m.asDict = _ := Protocol.asDict_eq fun e he => (names_chatDict e he).1
  have hrepr := PyValue.size_repr_dict_le u m.asDict
  have hjson := PyValue.size_json_dict_le m.asDict
  rw [hdict] at hrepr hjson ⊢
  have hreprRoom := hrepr.trans (Nat.add_le_add_right hall.repr 2)
  have hjsonRoom := hjson.trans (Nat.add_le_add_right hall.json 2)
  have hlen : (PyText.lit "protocol").length = 8 ∧ (PyText.lit "request_id").length = 10 ∧
      (PyText.lit "timestamp_ms").length = 12 ∧ (PyText.lit "type").length = 4 ∧
      (PyText.lit "event.chat").length = 10 ∧ (PyText.lit "speaker").length = 7 ∧
      (PyText.lit "text").length = 4 ∧ (PyText.lit "authorized").length = 10 ∧
      (PyText.lit "direct_applied").length = 14 ∧ (PyText.lit "direct_reported").length = 15 ∧
      (PyText.lit "addressed").length = 9 := by decide
  obtain ⟨h1, h2, h3, h4, h5, h6, h7, h8, h9, h10, h11⟩ := hlen
  rw [h1, h2, h3, h4, h5, h6, h7, h8, h9, h10, h11] at hreprRoom hjsonRoom
  have hidLen := hid.1
  refine ⟨hreprRoom.trans ?_, hjsonRoom.trans ?_⟩
  · unfold Events.maxEventBytes
    omega
  · unfold Protocol.maxMessageBytes
    omega

/-! ## Identifiers -/

/-- A byte of an identifier is a plain character, and no blank. -/
theorem plain_of_idByte {b : UInt8} (h : Net.idByte b = true) :
    b < 128 ∧ plain (Utf8.char b) = true ∧ PyText.isSpace (Utf8.char b) = false := by
  have hall : ∀ b : UInt8, Net.idByte b = true →
      b < 128 ∧ plain (Utf8.char b) = true ∧ PyText.isSpace (Utf8.char b) = false :=
    Bytes.forall_byte (by decide +kernel)
  exact hall b h

/-- **An identifier crosses the wire as it is.** -/
theorem identifier_spec {s : Bytes} (hne : s ≠ []) (h : ∀ b ∈ s, Net.idByte b = true) :
    Utf8.decode s = some (s.map Utf8.char) ∧ PyText.strip (s.map Utf8.char) ≠ [] ∧
      (∀ c ∈ s.map Utf8.char, plain c = true) ∧ (s.map Utf8.char).length = s.length := by
  obtain ⟨b, hb⟩ := List.exists_mem_of_ne_nil s hne
  refine ⟨Utf8.decode_ascii fun b hb => (plain_of_idByte (h b hb)).1, ?_, ?_, List.length_map _⟩
  · exact PyText.strip_ne_nil (List.mem_map_of_mem hb) (plain_of_idByte (h b hb)).2.2
  · intro c hc
    obtain ⟨b, hb, rfl⟩ := List.mem_map.1 hc
    exact (plain_of_idByte (h b hb)).2.1

theorem identifier_of_username {player : Player} {speaker : Bytes}
    (h : ChatBridge.username player = some speaker) :
    speaker ≠ [] ∧ speaker.length ≤ 96 ∧ ∀ b ∈ speaker, Net.idByte b = true := by
  unfold ChatBridge.username Authority.username at h
  dsimp only at h
  split_ifs at h with hlen hchars
  obtain rfl := Option.some_inj.1 h
  simp only [Bool.or_eq_true, decide_eq_true_eq, not_or, not_lt] at hlen
  refine ⟨List.ne_nil_of_length_pos (by omega), hlen.2, fun b hb => ?_⟩
  rw [Bool.not_eq_true, List.any_eq_false] at hchars
  have hb' := hchars b hb
  simp only [Bool.not_eq_true, Bool.not_eq_false', Bool.or_eq_true, beq_iff_eq] at hb'
  unfold Net.idByte
  rcases hb' with (hb' | hb') | hb'
  · simp [hb']
  · simp [hb']
  · simp [hb']

theorem identifier_of_issue {env : Authority.Env} {player : Player} {s : Authority.Store}
    {token : Bytes} (h : (Authority.issue env player s).1 = some token) :
    token ≠ [] ∧ token.length ≤ 128 ∧ ∀ b ∈ token, Net.idByte b = true := by
  unfold Authority.issue at h
  split at h
  · cases h
  · dsimp only at h
    split_ifs at h with hsafe
    obtain rfl := Option.some_inj.1 h
    simp only [Bool.not_eq_true', Bool.not_eq_false, Net.safeId, Net.safeText, Bool.and_eq_true,
      decide_eq_true_eq] at hsafe
    obtain ⟨⟨⟨hlen, -⟩, -⟩, hshape⟩ := hsafe
    split at hshape
    · cases hshape
    · rename_i b rest heq
      rw [heq] at hlen ⊢
      simp only [Bool.and_eq_true, List.all_eq_true] at hshape
      refine ⟨(fun h => by cases h), hlen, fun c hc => ?_⟩
      rcases List.mem_cons.1 hc with rfl | hc
      · unfold Net.idByte
        rw [hshape.1]
        rfl
      · exact hshape.2 c hc

/-- A letter or digit is plain. -/
theorem plain_of_isAlphanum {c : Char} (h : c.isAlphanum = true) : plain c = true := by
  have hcode : 48 ≤ c.toNat ∧ c.toNat ≤ 122 ∧ c.toNat ≠ 92 := by
    have hrange := Utf8.range_of_isAlphanum h
    omega
  have hne (d : Char) (hd : d.toNat < 48 ∨ d.toNat = 92) : c ≠ d := by
    rintro rfl
    omega
  have hquote := hne '\'' (by decide)
  have hdouble := hne '"' (by decide)
  have hslash := hne '\\' (by decide)
  simp only [plain, Bool.and_eq_true, decide_eq_true_eq, bne_iff_ne]
  exact ⟨⟨⟨⟨by omega, by omega⟩, hquote⟩, hdouble⟩, hslash⟩

theorem plain_of_validRequestId {requestId : PyText} (h : Protocol.validRequestId requestId = true) :
    requestId.length ≤ 128 ∧ ∀ c ∈ requestId, plain c = true := by
  unfold Protocol.validRequestId at h
  split at h
  · cases h
  · rename_i first rest
    simp only [Bool.and_eq_true, decide_eq_true_eq, List.all_eq_true] at h
    obtain ⟨⟨hfirst, hlen⟩, hrest⟩ := h
    refine ⟨by rw [List.length_cons]; omega, fun c hc => ?_⟩
    rcases List.mem_cons.1 hc with rfl | hc
    · exact plain_of_isAlphanum hfirst
    · have hclass := hrest c hc
      simp only [Bool.or_eq_true, beq_iff_eq] at hclass
      rcases hclass with (((hclass | rfl) | rfl) | rfl) | rfl
      · exact plain_of_isAlphanum hclass
      · decide
      · decide
      · decide
      · decide

/-! ## What is said of a companion -/

/-- Every byte of a phrase found is one of the subject's. -/
theorem mem_of_contains {phrase : Bytes} {b : UInt8} (hb : b ∈ phrase) :
    ∀ {s : Bytes}, LuaPattern.contains s phrase = true → b ∈ s
  | [], h => by
    simp only [LuaPattern.contains, Bool.or_false, List.isPrefixOf_iff_prefix] at h
    rw [List.prefix_nil.1 h] at hb
    exact hb
  | c :: s, h => by
    simp only [LuaPattern.contains, Bool.or_eq_true, List.isPrefixOf_iff_prefix] at h
    rcases h with h | h
    · exact h.subset hb
    · exact List.mem_cons_of_mem _ (mem_of_contains hb h)

/-- Every first half begins with a letter. -/
theorem half_starts : ∀ half ∈ Identity.first, ∃ c l, half = c :: l ∧ Bytes.isAlpha c = true := by
  have hall : (Identity.first.all fun half => half.head?.any Bytes.isAlpha) = true := by
    decide
  intro half hhalf
  have hhead := List.all_eq_true.1 hall half hhalf
  cases half with
  | nil => cases hhead
  | cons c l => exact ⟨c, l, rfl, hhead⟩

theorem lowerByte_spec {c : UInt8} (h : Bytes.isAlpha c = true) :
    Bytes.isLower (Bytes.lowerByte c) = true ∧ Bytes.isSpace (Bytes.lowerByte c) = false := by
  have hall : ∀ c : UInt8, Bytes.isAlpha c = true →
      Bytes.isLower (Bytes.lowerByte c) = true ∧ Bytes.isSpace (Bytes.lowerByte c) = false :=
    Bytes.forall_byte (by decide +kernel)
  exact hall c h

theorem firstWord_head {c : UInt8} {s : Bytes} (h : Bytes.isSpace (Bytes.lowerByte c) = false) :
    Bytes.lowerByte c ∈ ChatBridge.firstWord (Bytes.lower (c :: s)) := by
  unfold ChatBridge.firstWord Bytes.lower
  rw [List.map_cons, List.takeWhile_cons_of_pos (by rw [h]; rfl)]
  exact List.mem_cons_self

/-- **A line that speaks of a companion has a letter in it.** -/
theorem letter_of_mentionsGoblin {value : Bytes} {name : Option Identity.Name}
    (h : ChatBridge.mentionsGoblin value name = true) : ∃ b ∈ value, Bytes.isAlpha b = true := by
  have hlower : ∀ b ∈ Bytes.lower value, Bytes.isLower b = true →
      ∃ b ∈ value, Bytes.isAlpha b = true := by
    intro b hb hletter
    obtain ⟨c, hc, rfl⟩ := List.mem_map.1 hb
    have hall : ∀ c : UInt8, Bytes.isLower (Bytes.lowerByte c) = true → Bytes.isAlpha c = true :=
      Bytes.forall_byte (by decide +kernel)
    exact ⟨c, hc, hall c hletter⟩
  simp only [ChatBridge.mentionsGoblin, Bool.or_eq_true] at h
  have hg : Bytes.isLower 103 = true := by decide
  rcases h with (h | h) | h
  · obtain ⟨n, -, hfound⟩ := (Option.any_eq_true _ _).1 h
    obtain ⟨c, l, hhalf, hc⟩ := half_starts n.half n.mem
    have hword : Bytes.lowerByte c ∈ ChatBridge.firstWord (Bytes.lower n.text) := by
      rw [Identity.Name.text, hhalf]
      exact firstWord_head (lowerByte_spec hc).2
    exact hlower _ (mem_of_contains hword hfound) (lowerByte_spec hc).1
  · exact hlower 103 (mem_of_contains (by decide) h) hg
  · rw [beq_iff_eq] at h
    have hmem : 103 ∈ (Bytes.lower value).take 7 := by
      rw [h]
      decide
    exact hlower 103 (List.mem_of_mem_take hmem) hg

/-- The cleaned text of such a line says something. -/
theorem strip_ne_nil_of_mentionsGoblin {value : Bytes} {name : Option Identity.Name} {t : PyText}
    (h : ChatBridge.mentionsGoblin value name = true) (ht : Utf8.decode value = some t) :
    PyText.strip t ≠ [] := by
  obtain ⟨b, hb, hletter⟩ := letter_of_mentionsGoblin h
  have hall : ∀ b : UInt8, Bytes.isAlpha b = true →
      b < 128 ∧ PyText.isSpace (Utf8.char b) = false :=
    Bytes.forall_byte (by decide +kernel)
  obtain ⟨hascii, hblank⟩ := hall b hletter
  exact PyText.strip_ne_nil (Utf8.char_mem_of_decode ht hb hascii) hblank

/-! ## What is emitted and what is received -/

/-- **What an emitted event holds.** -/
theorem onChat_eq_some {line : Line} {lastAt : ChatBridge.LastAt} {s : Authority.Store}
    {fields : List (String × LuaValue)} (h : (onChat line lastAt s).1 = some fields) :
    ∃ speaker clean token,
      ChatBridge.username line.player = some speaker ∧
      ChatBridge.cleanText (line.args.field "text") = some clean ∧
      ChatBridge.mentionsGoblin clean line.name = true ∧
      (∀ t, token = some t → (Authority.issue line.env line.player s).1 = some t) ∧
      fields = eventFields speaker clean token
        ((ChatBridge.directIntent clean).map fun task => (task, line.answer task)) := by
  unfold onChat at h
  split_ifs at h with henabled
  split at h
  · rename_i speaker clean hspeaker hclean
    dsimp only at h
    split_ifs at h with hsilent hthrottled
    rw [Bool.not_eq_true', Bool.not_eq_false] at hsilent
    obtain rfl := Option.some_inj.1 h
    exact ⟨speaker, clean, _, hspeaker, hclean, hsilent, fun t ht => ht, rfl⟩
  · cases h

/-- The answer as the agent decodes it. -/
def decodeDirect : Option (Task × Answer) → Option (Option (String × PyText))
  | none => some none
  | some (task, answer) => (Utf8.decode answer.detail).map fun t => some (task.name, t)

theorem receive_append (a b : List (String × LuaValue)) :
    receive (a ++ b) = (receive a).bind fun a => (receive b).map fun b => a ++ b := by
  unfold receive
  rw [List.mapM_append]
  generalize (a.mapM fun e => (receiveValue e.2).map fun v => (PyText.lit e.1, v)) = ra
  generalize (b.mapM fun e => (receiveValue e.2).map fun v => (PyText.lit e.1, v)) = rb
  cases ra with
  | none => rfl
  | some a =>
    cases rb with
    | none => rfl
    | some b => rfl

/-- **What is received of an event**, if its texts are UTF-8. -/
theorem receive_eventFields {speaker : Bytes} (clean : Bytes) {token : Option Bytes}
    (direct : Option (Task × Answer)) {sp : PyText} {tok : Option PyText}
    (hspeaker : Utf8.decode speaker = some sp)
    (htoken : token.mapM Utf8.decode = some tok) :
    receive (eventFields speaker clean token direct) =
      (Utf8.decode clean).bind fun t => (decodeDirect direct).map fun d =>
        chatDict sp t tok (direct.any fun d => d.2.applied) (direct.any fun d => d.2.reported)
          (d.map fun d => (PyText.lit d.1, d.2)) := by
  have haction (task : Task) : Utf8.decode task.bytes = some (PyText.lit task.name) := by
    rw [Task.bytes, Utf8.lit_eq_encode, Utf8.decode_encode]
    rfl
  have hgrant : receive (token.toList.map fun token => ("authority_token", .str token)) =
      some (tok.toList.map fun token => (PyText.lit "authority_token", .str token)) := by
    cases token with
    | none =>
      obtain rfl : none = tok := Option.some_inj.1 htoken
      rfl
    | some token =>
      obtain ⟨t, ht, rfl⟩ : ∃ t, Utf8.decode token = some t ∧ some t = tok := by
        simpa [Option.mapM_some, Option.map_eq_some_iff] using htoken
      simp [receive, receiveValue, ht]
  have hflag : token.isSome = tok.isSome := by
    cases token with
    | none =>
      obtain rfl : none = tok := Option.some_inj.1 htoken
      rfl
    | some token =>
      obtain ⟨t, ht, rfl⟩ : ∃ t, Utf8.decode token = some t ∧ some t = tok := by
        simpa [Option.mapM_some, Option.map_eq_some_iff] using htoken
      rfl
  have hanswer : receive (direct.toList.flatMap fun d =>
      [("direct_action", .str d.1.bytes), ("direct_detail", .str d.2.detail)]) =
        (decodeDirect direct).map fun d => (d.map fun d => (PyText.lit d.1, d.2)).toList.flatMap
          fun d => [(PyText.lit "direct_action", .str d.1), (PyText.lit "direct_detail", .str d.2)] := by
    cases direct with
    | none => rfl
    | some d =>
      cases hdetail : Utf8.decode d.2.detail with
      | none => simp [receive, receiveValue, decodeDirect, hdetail, haction]
      | some t => simp [receive, receiveValue, decodeDirect, hdetail, haction]
  unfold eventFields
  rw [receive_append, receive_append, hgrant, hanswer]
  cases htext : Utf8.decode clean with
  | none => simp [receive, receiveValue, hspeaker, htext]
  | some t =>
    cases hd : decodeDirect direct with
    | none => simp [receive, receiveValue, hspeaker, htext]
    | some d => simp [receive, receiveValue, hspeaker, htext, hflag, chatDict]

/-! ## The gate on a chat event -/

/-- A decoded event that is no duplicate is accepted when its message is. -/
theorem make_accepted {gate : Gate} {clock now : ℤ} {requestId : PyText} {d : Dict}
    (h : gate.duplicate (Events.fingerprint u (PyText.lit "chat") d) now = false) :
    (Events.make u gate clock (PyText.lit "chat") d now requestId).1.accepted = true ↔
      ∃ m, Events.eventMessage u clock (PyText.lit "chat") d now requestId = .ok m := by
  unfold Events.make
  cases hm : Events.eventMessage u clock (PyText.lit "chat") d now requestId with
  | error detail => simp
  | ok m => simp [h]

theorem eq_of_validateFields {kind : PyText} {d clean : Dict}
    (h : Events.validateFields u kind d = .ok clean) : clean = d := by
  unfold Events.validateFields at h
  split at h
  · cases h
  · split at h
    · cases h
    · split at h
      · exact (Except.ok.inj h).symm
      · cases h

/-- **Only the checks of the fields count**: the message of a chat event is
always well formed and never too large. -/
theorem eventMessage_chatDict {clock now : ℤ} {requestId speaker : PyText} (text : PyText)
    {token : Option PyText} (applied reported : Bool) {direct : Option (String × PyText)}
    (hclock : 0 < clock ∧ clock < 10 ^ 309) (hnow : 0 ≤ now ∧ now * 1000 < 10 ^ 309)
    (hid : Protocol.validRequestId requestId = true) (hspeaker : speaker.length ≤ 96)
    (htoken : ∀ t, token = some t → t.length ≤ 128 ∧ ∀ c ∈ t, plain c = true)
    (hname : ∀ d, direct = some d → d.1.length ≤ 20) :
    let d := chatDict speaker text token applied reported (direct.map fun d => (PyText.lit d.1, d.2))
    (∃ m, Events.eventMessage u clock (PyText.lit "chat") d now requestId = .ok m) ↔
      Events.validateFields u (PyText.lit "chat") d = .ok d := by
  intro d
  constructor
  · rintro ⟨m, hm⟩
    unfold Events.eventMessage at hm
    split at hm
    · cases hm
    · rename_i clean hclean
      rw [hclean, eq_of_validateFields hclean]
  · intro hvalid
    obtain ⟨-, ⟨-, htext, -⟩, -, hdirect⟩ := validateFields_chatDict.1 hvalid
    -- The time of the envelope is that of the event, or the clock's.
    obtain ⟨time, htime, hpos, hbound⟩ : ∃ time : ℕ,
        (if now * 1000 = 0 then clock else now * 1000) = (time : ℤ) ∧ 0 < time ∧
          time < 10 ^ 309 := by
      refine ⟨(if now * 1000 = 0 then clock else now * 1000).toNat, ?_⟩
      split <;> omega
    have hdirect' : ∀ e, (direct.map fun d => (PyText.lit d.1, d.2)) = some e →
        e.1.length ≤ 20 ∧ e.2.length ≤ 240 := by
      intro e he
      obtain ⟨e, he', rfl⟩ := Option.map_eq_some_iff.1 he
      exact ⟨hname e he', (hdirect e he').2.2.1⟩
    let m : Protocol.Message :=
      ⟨.int Protocol.version, requestId, time, PyText.lit "event.chat", d⟩
    obtain ⟨hrepr, hjson⟩ : size (PyValue.repr u (.dict m.asDict)) ≤ Events.maxEventBytes ∧
        size (PyValue.json (.dict m.asDict)) ≤ Protocol.maxMessageBytes :=
      size_chatMessage_le (plain_of_validRequestId hid) hspeaker htext htoken hdirect' hbound
    have hpos' : 0 < m.timestampMs := by
      show (0 : ℤ) < time
      omega
    have htype : Protocol.validType m.type = true := by
      show Protocol.validType (PyText.lit "event.chat") = true
      decide
    have hdump : PyValue.dumpable (.dict m.asDict) = true := dumpable_chatMessage hbound
    have hmake : Protocol.makeMessage clock (PyText.lit "event." ++ PyText.lit "chat") requestId
        (now * 1000) d = .ok m := by
      unfold Protocol.makeMessage
      rw [htime]
      exact Protocol.fromMappingAt_eq_ok.2 (Protocol.accepts_asDict names_chatDict rfl htype hid
        hpos' hdump hjson)
    refine ⟨m, ?_⟩
    · unfold Events.eventMessage
      rw [hvalid]
      dsimp only
      rw [hmake]
      dsimp only
      rw [if_neg (not_lt.2 hrepr)]

/-- The order read from a line, with its answer, as the agent decodes it. -/
theorem decodeDirect_eq_some {intent : Option Task} {answer : Task → Answer}
    {d : Option (String × PyText)} :
    decodeDirect (intent.map fun task => (task, answer task)) = some d ↔
      (intent = none ∧ d = none) ∨
        ∃ task t, intent = some task ∧ Utf8.decode (answer task).detail = some t ∧
          d = some (task.name, t) := by
  cases intent with
  | none => simp [decodeDirect, eq_comm]
  | some task => simp [decodeDirect, eq_comm]

theorem length_name_le (task : Task) : task.name.length ≤ 20 := by
  cases task <;> decide

/-- **A chat event is taken exactly when its line passes**: whatever the
speaker, the grant and the gate's history, if the event is no duplicate. -/
theorem taken_iff_passes {gate : Gate} {clock now : ℤ} {requestId : PyText} (line : Line)
    {lastAt : ChatBridge.LastAt} {s : Authority.Store} {fields : List (String × LuaValue)}
    (hclock : 0 < clock ∧ clock < 10 ^ 309) (hnow : 0 ≤ now ∧ now * 1000 < 10 ^ 309)
    (hid : Protocol.validRequestId requestId = true)
    (hemit : (onChat line lastAt s).1 = some fields) (hfresh : Fresh u gate now fields) :
    Taken u gate clock now requestId fields ↔
      ∃ clean, ChatBridge.cleanText (line.args.field "text") = some clean ∧
        Passes u clean line.answer := by
  obtain ⟨speaker, clean, token, hspeaker, hclean, hspoken, hissued, rfl⟩ := onChat_eq_some hemit
  obtain ⟨hspeakerNe, hspeakerLen, hspeakerId⟩ := identifier_of_username hspeaker
  obtain ⟨hsp, hspBlank, -, hspLen⟩ := identifier_spec hspeakerNe hspeakerId
  -- The grant is an identifier too.
  have htoken : ∀ t, token = some t → Utf8.decode t = some (t.map Utf8.char) ∧
      PyText.strip (t.map Utf8.char) ≠ [] ∧ (t.map Utf8.char).length ≤ 128 ∧
        ∀ c ∈ t.map Utf8.char, plain c = true := by
    intro t ht
    obtain ⟨hne, hlen, hall⟩ := identifier_of_issue (hissued t ht)
    obtain ⟨hdecode, hblank, hplain, hlength⟩ := identifier_spec hne hall
    exact ⟨hdecode, hblank, by omega, hplain⟩
  obtain ⟨tok, htok, hgrant⟩ : ∃ tok : Option PyText, token.mapM Utf8.decode = some tok ∧
      ∀ t, tok = some t → PyText.strip t ≠ [] ∧ t.length ≤ 128 ∧ ∀ c ∈ t, plain c = true := by
    cases token with
    | none => exact ⟨none, rfl, fun _ h => by cases h⟩
    | some token =>
      obtain ⟨hdecode, hrest⟩ := htoken token rfl
      refine ⟨some (token.map Utf8.char), by simp [Option.mapM_some, hdecode], fun t ht => ?_⟩
      rwa [← Option.some_inj.1 ht]
  have hreceive := receive_eventFields clean
    ((ChatBridge.directIntent clean).map fun task => (task, line.answer task)) hsp htok
  generalize ((ChatBridge.directIntent clean).map fun task => (task, line.answer task)).any
    (fun d => d.2.applied) = applied at hreceive
  generalize ((ChatBridge.directIntent clean).map fun task => (task, line.answer task)).any
    (fun d => d.2.reported) = reported at hreceive
  -- What a decoded event has to meet.
  have hgate : ∀ t d, Utf8.decode clean = some t →
      decodeDirect ((ChatBridge.directIntent clean).map fun task => (task, line.answer task)) =
        some d →
      (Taken u gate clock now requestId (eventFields speaker clean token
          ((ChatBridge.directIntent clean).map fun task => (task, line.answer task))) ↔
        Sayable u t ∧ ∀ e, d = some e →
          e.1 ∈ Events.directActions ∧ PyText.strip e.2 ≠ [] ∧ Sayable u e.2) := by
    intro t d ht hd
    rw [ht, hd] at hreceive
    have hname : ∀ e, d = some e → e.1.length ≤ 20 := by
      rcases decodeDirect_eq_some.1 hd with ⟨-, rfl⟩ | ⟨task, detail, -, -, rfl⟩
      · exact fun _ h => by cases h
      · rintro e he
        obtain rfl := Option.some_inj.1 he
        exact length_name_le task
    have hblank := strip_ne_nil_of_mentionsGoblin hspoken ht
    have hmessage := eventMessage_chatDict (u := u) t applied reported hclock hnow hid
      (hspLen.le.trans hspeakerLen) (fun t ht => (hgrant t ht).2) hname
    dsimp only at hmessage
    have hchecks : Taken u gate clock now requestId (eventFields speaker clean token
        ((ChatBridge.directIntent clean).map fun task => (task, line.answer task))) ↔
        Events.validateFields u (PyText.lit "chat") (chatDict (speaker.map Utf8.char) t tok
          applied reported (d.map fun d => (PyText.lit d.1, d.2))) =
            .ok (chatDict (speaker.map Utf8.char) t tok applied reported
              (d.map fun d => (PyText.lit d.1, d.2))) := by
      rw [← hmessage, ← make_accepted (hfresh _ hreceive), Taken, hreceive]
      simp
    rw [hchecks, validateFields_chatDict]
    constructor
    · rintro ⟨-, ⟨-, htext⟩, -, hdirect⟩
      exact ⟨htext, hdirect⟩
    · rintro ⟨htext, hdirect⟩
      exact ⟨⟨hspBlank, by omega⟩, ⟨hblank, htext⟩,
        fun t ht => ⟨(hgrant t ht).1, (hgrant t ht).2.1⟩, hdirect⟩
  constructor
  · rintro ⟨dict, hdict, haccepted⟩
    rw [hreceive, Option.bind_eq_some_iff] at hdict
    obtain ⟨t, ht, hdict⟩ := hdict
    obtain ⟨d, hd, hchat⟩ := Option.map_eq_some_iff.1 hdict
    have htaken : Taken u gate clock now requestId (eventFields speaker clean token
        ((ChatBridge.directIntent clean).map fun task => (task, line.answer task))) := by
      refine ⟨dict, ?_, haccepted⟩
      rw [hreceive, ht, hd, ← hchat]
      rfl
    obtain ⟨htext, hdirect⟩ := (hgate t d ht hd).1 htaken
    refine ⟨clean, hclean, ⟨t, ht, htext⟩, fun task htask => ?_⟩
    rcases decodeDirect_eq_some.1 hd with ⟨hnone, -⟩ | ⟨task', detail, hsome, hdetail, rfl⟩
    · rw [hnone] at htask
      cases htask
    · obtain rfl : task' = task := Option.some_inj.1 (hsome.symm.trans htask)
      obtain ⟨haction, hblank, hsay⟩ := hdirect _ rfl
      exact ⟨haction, detail, hdetail, hblank, hsay⟩
  · rintro ⟨clean', hclean', hpasses⟩
    obtain rfl : clean = clean' := Option.some_inj.1 (hclean.symm.trans hclean')
    obtain ⟨⟨t, ht, htext⟩, horder⟩ := hpasses
    cases hintent : ChatBridge.directIntent clean with
    | none =>
      rw [hintent] at hgate
      exact (hgate t none ht rfl).2 ⟨htext, fun _ h => by cases h⟩
    | some task =>
      obtain ⟨haction, detail, hdetail, hblank, hsay⟩ := horder task hintent
      rw [hintent] at hgate
      refine (hgate t (some (task.name, detail)) ht ?_).2 ⟨htext, ?_⟩
      · exact decodeDirect_eq_some.2 (.inr ⟨task, detail, rfl, hdetail, rfl⟩)
      · rintro e he
        obtain rfl := Option.some_inj.1 he
        exact ⟨haction, hblank, hsay⟩

/-! ## Two lines -/

/-- Alice's line, read by a server that takes every order. -/
def aliceSays (text : String) : Line where
  env := ⟨5000, 7, Config.default, []⟩
  player := ⟨Bytes.lit "alice", [], false⟩
  args := .ofFields [("text", .str (Bytes.lit text))]
  name := none
  answer := fun _ => ⟨true, Bytes.lit "order assigned", true⟩

/-- The event of the line, on a server just started. -/
def aliceEvent (text : String) : List (String × LuaValue) :=
  ((onChat (aliceSays text) (fun _ => none) .empty).1).getD []

theorem aliceEvent_emitted {text : String}
    (h : (onChat (aliceSays text) (fun _ => none) .empty).1.isSome = true) :
    (onChat (aliceSays text) (fun _ => none) .empty).1 = some (aliceEvent text) := by
  obtain ⟨fields, hfields⟩ := Option.isSome_iff_exists.1 h
  rw [aliceEvent, hfields]
  rfl

/-- A gate that has taken nothing. -/
def idleGate : Gate := ⟨10, []⟩

theorem aliceEvent_fresh (text : String) : Fresh .ascii idleGate 5 (aliceEvent text) :=
  fun _ _ => rfl

theorem taken_iff_passes_follow :
    Taken .ascii idleGate 5000 5 (PyText.lit "chat-1") (aliceEvent "goblin follow me") ↔
      ∃ clean, ChatBridge.cleanText ((aliceSays "goblin follow me").args.field "text") =
          some clean ∧ Passes .ascii clean (aliceSays "goblin follow me").answer :=
  taken_iff_passes (aliceSays "goblin follow me") ⟨by omega, by omega⟩
    ⟨by omega, by omega⟩ (by decide) (aliceEvent_emitted (by decide)) (aliceEvent_fresh _)

/-- **A tree to chop is lost.** The server takes the order and says so; the
gate knows no such action and drops the line. -/
theorem chop_order_dropped :
    ¬ ∀ (u : Unicode) (gate : Gate) (clock now : ℤ) (requestId : PyText) (line : Line)
        (lastAt : ChatBridge.LastAt) (s : Authority.Store) (fields : List (String × LuaValue)),
      0 < clock ∧ clock < 10 ^ 309 → 0 ≤ now ∧ now * 1000 < 10 ^ 309 →
        Protocol.validRequestId requestId = true →
          (onChat line lastAt s).1 = some fields → Fresh u gate now fields →
            Taken u gate clock now requestId fields := by
  intro h
  obtain ⟨d, hd, haccepted⟩ := h .ascii idleGate 5000 5 (PyText.lit "chat-1")
    (aliceSays "goblin chop down that tree") (fun _ => none) .empty
    (aliceEvent "goblin chop down that tree") ⟨by omega, by omega⟩
    ⟨by omega, by omega⟩ (by decide) (aliceEvent_emitted (by decide)) (aliceEvent_fresh _)
  have hrefused : (receive (aliceEvent "goblin chop down that tree")).all fun d =>
      !(Events.make .ascii idleGate 5000 (PyText.lit "chat") d 5 (PyText.lit "chat-1")).1.accepted := by
    decide
  rw [hd] at hrefused
  rw [Option.all_some, haccepted] at hrefused
  cases hrefused

end Chat

end GoblinZomboid
