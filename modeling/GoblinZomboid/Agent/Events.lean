import GoblinZomboid.Agent.Protocol
import Mathlib.Data.List.Sort
/-!
# `events.py`: the event gate

An event is taken when its kind is known, its fields belong to the kind
and pass their checks, the message it makes is not too large, and the same
event has not been taken a moment before.
-/

namespace GoblinZomboid

namespace Events

open Protocol (Dict Message)

/-! ## Tables -/

/-- `EVENT_FIELDS`. -/
def eventFields : List (String × List String) :=
  [("player_joined", ["player", "party"]), ("player_left", ["player", "party"]),
    ("goblin_spotted", ["player", "mood"]), ("threat_changed", ["threat_level", "count_bucket"]),
    ("injury", ["severity", "body_part"]), ("loot_found", ["category", "rarity"]),
    ("hunt_started", ["prize_tier"]), ("hunt_clue", ["temperature", "clue_number"]),
    ("death", ["cause"]), ("respawn", ["cooldown_seconds"]),
    ("chat", ["speaker", "text", "authorized", "authority_token", "direct_action",
      "direct_applied", "direct_detail", "direct_reported", "addressed"]),
    ("base_changed", ["base_id", "name", "changed_by"]), ("npc_ready", ["npc_id", "active"]),
    ("npc_spawned", ["npc_id", "role"]), ("npc_recovered", ["npc_id", "reason"]),
    ("squad_changed", ["squad_id", "leader", "member_count"]),
    ("base_job_changed", ["npc_id", "job"]), ("tracker_update", ["entity_kind", "entity_id"])]

/-- `ALLOWED_VALUES`. -/
def allowedValues : List (String × List String) :=
  [("threat_level", ["none", "near", "overwhelming"]),
    ("severity", ["minor", "moderate", "critical"]),
    ("rarity", ["common", "uncommon", "rare", "legendary"]),
    ("temperature", ["cold", "warm", "hot"]),
    ("entity_kind", ["goblin", "player", "npc", "squad", "base"])]

/-- `FORBIDDEN_FIELDS`. -/
def forbiddenFields : List String :=
  ["x", "y", "z", "coordinates", "route", "waypoint", "cell", "chunk", "building_id",
    "raw_packet", "packet", "script", "lua", "shell"]

/-- The fields that are short texts. -/
def textFields : List String :=
  ["player", "party", "speaker", "body_part", "cause", "text", "npc_id", "role", "reason",
    "squad_id", "leader", "job", "entity_id", "base_id", "name", "changed_by",
    "authority_token", "direct_detail"]

/-- The direct actions an event may report. -/
def directActions : List String :=
  ["FOLLOW", "WAIT", "SET_BASE", "RETURN_TO_BASE", "LOOT", "ATTACK", "BUILD", "FORTIFY",
    "OPEN_DOOR", "OPEN_WINDOW", "GAIN_ACCESS", "CLOSE_CURTAINS", "FARM", "CRAFT",
    "REPAIR_VEHICLE", "ENTER_VEHICLE", "EXIT_VEHICLE"]

def maxEventBytes : ℕ := 8 * 1024

/-- `_TEXT_LOCATION_RE`. -/
def textLocation : PyRegex.Rx :=
  let axis : PyRegex.Rx := .one fun c => PyRegex.ignoreCase 'x' c || PyRegex.ignoreCase 'y' c
    || PyRegex.ignoreCase 'z' c
  let assign : PyRegex.Rx := .seq (.many PyText.isSpace) (.one fun c => c == ':' || c == '=')
  .alt (.seq .boundary (PyRegex.wordThen "coordinate"
      (.seq (.opt (.one (PyRegex.ignoreCase 's'))) .boundary)))
    (.alt (.seq .boundary (.seq axis assign))
      (.alt (.seq .boundary (PyRegex.wordThen "cell" assign))
        (.seq .boundary (PyRegex.wordThen "chunk" assign))))

/-! ## Checking the fields -/

/-- A key is one of the names. -/
def isNamed (key : PyText) (names : List String) : Bool := names.any fun name => PyText.lit name = key

/-- `value in names`; a container cannot be looked up. -/
def member (value : PyValue) (names : List String) : Except String Bool :=
  match value with
  | .str t => .ok (isNamed t names)
  | .list _ => .error "unhashable type: 'list'"
  | .dict _ => .error "unhashable type: 'dict'"
  | _ => .ok false

/-- Membership, or this refusal. -/
def requireMember (value : PyValue) (names : List String) (refusal : String) :
    Except String Unit :=
  match member value names with
  | .ok true => .ok ()
  | .ok false => .error refusal
  | .error detail => .error detail

/-- A whole number between the bounds, or this refusal. -/
def requireBetween (low high : ℤ) (value : PyValue) (refusal : String) : Except String Unit :=
  match value with
  | .int n => if low ≤ n ∧ n ≤ high then .ok () else .error refusal
  | _ => .error refusal

def requireBool (value : PyValue) (refusal : String) : Except String Unit :=
  match value with
  | .bool _ => .ok ()
  | _ => .error refusal

/-- A key as a string of the texts around it. -/
def shown (key : PyText) : String := String.ofList key

/-- The check of a short text. -/
def checkText (u : Unicode) (key : PyText) (value : PyValue) : Except String Unit :=
  let maximum := if key = PyText.lit "authority_token" then 128 else 240
  let refusal := "invalid event text: " ++ shown key
  match value with
  | .str t =>
    if PyText.strip t = [] || maximum < t.length then .error refusal
    else if isNamed key ["text", "direct_detail"] && PyRegex.search u textLocation t then
      .error "event text contains location coordinates"
    else .ok ()
  | _ => .error refusal

/-- The checks of one field. -/
def checkField (u : Unicode) (key : PyText) (value : PyValue) : Except String Unit :=
  if isNamed (key.flatMap u.casefold) forbiddenFields then
    .error "event contains a forbidden field"
  else
    match allowedValues.find? fun e => PyText.lit e.1 = key with
    | some (_, values) => requireMember value values ("invalid event value: " ++ shown key)
    | none =>
      if isNamed key textFields then checkText u key value
      else if isNamed key ["direct_action"] then
        requireMember value directActions "invalid direct action"
      else if isNamed key ["authorized", "direct_applied", "direct_reported", "addressed"] then
        requireBool value "invalid authorization flag"
      else if isNamed key ["count_bucket"] then
        requireMember value ["none", "few", "many"] "invalid count bucket"
      else if isNamed key ["clue_number"] then requireBetween 0 32 value "invalid clue number"
      else if isNamed key ["cooldown_seconds"] then requireBetween 0 3600 value "invalid cooldown"
      else if isNamed key ["active"] then requireBool value "invalid active flag"
      else if isNamed key ["member_count"] then requireBetween 1 16 value "invalid member count"
      else .ok ()

/-- The checks of the fields, up to the first refusal. -/
def checkFields (u : Unicode) : Dict → Except String Unit
  | [] => .ok ()
  | (key, value) :: rest =>
    match checkField u key value with
    | .ok () => checkFields u rest
    | .error detail => .error detail

/-- `_validate_fields`: the fields as they are, or a refusal. -/
def validateFields (u : Unicode) (kind : PyText) (fields : Dict) : Except String Dict :=
  match eventFields.find? fun e => PyText.lit e.1 = kind with
  | none => .error "unsupported event"
  | some (_, names) =>
    match (fields.map Prod.fst).filter fun key => !isNamed key names with
    | key :: rest =>
      .error ("unknown event field: " ++ shown (rest.foldl (fun a b => if b < a then b else a) key))
    | [] =>
      match checkFields u fields with
      | .ok () => .ok fields
      | .error detail => .error detail

/-! ## The gate -/

/-- `EventGate`: the events taken last, by their fingerprints. -/
structure Gate where
  window : ℤ
  recent : List (PyText × ℤ)

/-- `EventDecision`. -/
structure Decision where
  accepted : Bool
  reason : String
  message : Option Message

/-- `repr((kind, sorted(clean.items())))`. -/
def fingerprint (u : Unicode) (kind : PyText) (fields : Dict) : PyText :=
  let pair (a b : PyText) : PyText := PyValue.enclose '(' ", " ')' [a, b]
  let items := (fields.mergeSort fun a b => a.1 ≤ b.1).map fun e =>
    pair (PyValue.reprStr u e.1) (PyValue.repr u e.2)
  pair (PyValue.reprStr u kind) (PyValue.enclose '[' ", " ']' items)

/-- The same event was taken inside the window. -/
def Gate.duplicate (gate : Gate) (print : PyText) (now : ℤ) : Bool :=
  match gate.recent.find? fun e => e.1 = print with
  | some (_, last) => now - last < gate.window
  | none => false

/-- `self._recent[fingerprint] = current`, and old entries go. -/
def Gate.remember (gate : Gate) (print : PyText) (now : ℤ) : Gate :=
  { gate with
    recent := ((gate.recent.filter fun e => e.1 ≠ print) ++ [(print, now)]).filter fun e =>
      now - e.2 ≤ gate.window }

/-- The message of an event, unless a check refuses it. -/
def eventMessage (u : Unicode) (clock : ℤ) (kind : PyText) (fields : Dict) (now : ℤ)
    (requestId : PyText) : Except String Message :=
  match validateFields u kind fields with
  | .error detail => .error detail
  | .ok clean =>
    match Protocol.makeMessage clock (PyText.lit "event." ++ kind) requestId (now * 1000) clean with
    | .error detail => .error detail
    | .ok message =>
      if maxEventBytes < PyValue.size (PyValue.repr u (.dict message.asDict)) then
        .error "event is too large"
      else .ok message

/-- `EventGate.make`, for an event with a request id. -/
def make (u : Unicode) (gate : Gate) (clock : ℤ) (kind : PyText) (fields : Dict) (now : ℤ)
    (requestId : PyText) : Decision × Gate :=
  match eventMessage u clock kind fields now requestId with
  | .error detail => (⟨false, detail, none⟩, gate)
  | .ok message =>
    let print := fingerprint u kind fields
    if gate.duplicate print now then (⟨false, "duplicate event cooldown", none⟩, gate)
    else (⟨true, "accepted", some message⟩, gate.remember print now)

/-! ## What is accepted -/

/-- No field of an event is named like one of the envelope. -/
theorem name_of_validateFields {u : Unicode} {kind : PyText} {fields clean : Dict}
    (h : validateFields u kind fields = .ok clean) :
    clean = fields ∧ checkFields u fields = .ok () ∧
      ∀ e ∈ fields, Protocol.isRequired e.1 = false ∧ e.1 ≠ PyText.lit "payload" := by
  have hall : ∀ event ∈ eventFields, ∀ name ∈ event.2,
      Protocol.isRequired (PyText.lit name) = false ∧ PyText.lit name ≠ PyText.lit "payload" := by
    decide
  unfold validateFields at h
  split at h
  · cases h
  · rename_i event names hfind
    split at h
    · cases h
    · rename_i hnone
      split at h
      · rename_i hchecked
        refine ⟨(Except.ok.inj h).symm, hchecked, fun e he => ?_⟩
        have hnamed : isNamed e.1 names = true := by
          by_contra hnot
          have hmem : e.1 ∈ (fields.map Prod.fst).filter fun key => !isNamed key names :=
            List.mem_filter.2 ⟨List.mem_map_of_mem he, by simpa using hnot⟩
          rw [hnone] at hmem
          cases hmem
        obtain ⟨name, hname, heq⟩ := List.any_eq_true.1 hnamed
        rw [← of_decide_eq_true heq]
        exact hall _ (List.mem_of_find?_eq_some hfind) name hname
      · cases h

theorem checkField_of_mem {u : Unicode} {fields : Dict} (h : checkFields u fields = .ok ()) :
    ∀ e ∈ fields, checkField u e.1 e.2 = .ok () := by
  induction fields with
  | nil => exact nofun
  | cons e fields ih =>
    unfold checkFields at h
    split at h
    · rename_i hfirst
      intro e' he'
      rcases List.mem_cons.1 he' with rfl | he'
      · exact hfirst
      · exact ih h e' he'
    · cases h

theorem str_of_checkField {u : Unicode} {v : PyValue}
    (h : checkField u (PyText.lit "direct_action") v = .ok ()) : ∃ t, v = .str t := by
  have hfind : (allowedValues.find? fun e => PyText.lit e.1 = PyText.lit "direct_action") = none := by
    decide
  unfold checkField at h
  split at h
  · cases h
  · rw [hfind] at h
    -- The key is no short text, and is the one of direct actions.
    have hmember : requireMember v directActions "invalid direct action" = .ok () := h
    cases v with
    | str t => exact ⟨t, rfl⟩
    | _ => cases hmember

/-- **An order the game has taken** is named by a text in every event that is
accepted. -/
theorem direct_of_make {u : Unicode} {gate : Gate} {clock now : ℤ} {kind requestId : PyText}
    {fields : Dict} {m : Message}
    (h : (make u gate clock kind fields now requestId).1.message = some m) :
    ∀ v, Protocol.get m.fields "direct_action" = some v → ∃ t, v = .str t := by
  have hmessage : eventMessage u clock kind fields now requestId = .ok m := by
    unfold make at h
    split at h
    · cases h
    · rename_i m' heq
      dsimp only at h
      split at h
      · cases h
      · rw [heq, Option.some.inj h]
  unfold eventMessage at hmessage
  split at hmessage
  · cases hmessage
  · rename_i clean hclean
    obtain ⟨rfl, hchecked, hnames⟩ := name_of_validateFields hclean
    split at hmessage
    · cases hmessage
    · rename_i m' hmake
      split at hmessage
      · cases hmessage
      · obtain rfl := Except.ok.inj hmessage
        rw [Protocol.fields_of_makeMessage hnames hmake]
        intro v hv
        obtain ⟨e, he, rfl⟩ := Option.map_eq_some_iff.1 hv
        have hcheck := checkField_of_mem hchecked e (List.mem_of_find?_eq_some he)
        have hkey := List.find?_some he
        rw [of_decide_eq_true hkey] at hcheck
        exact str_of_checkField hcheck

example : PyRegex.search .ascii textLocation (PyText.lit "my X : 5") = true := by decide

example : PyRegex.search .ascii textLocation (PyText.lit "max = 5") = false := by decide

end Events

end GoblinZomboid
