import GoblinZomboid.Server.Bridge
import GoblinZomboid.Server.Ipc
import GoblinZomboid.Shared.Encoding
/-!
# `IPC.lua`: responses and acknowledgements

What the server publishes about a request: a flat table, written as JSON
under the request's id. With a clock that can be printed such a table is
never refused by the encoder or by the check that follows it.
-/

namespace GoblinZomboid

namespace JSON

/-! ## Flat tables -/

/-- A value that is no table and can be written. -/
structure Leaf (v : Stored) : Prop where
  inside : v.inside = [v]
  level : v.level = 0
  nodes : v.doc.nodes = 1
  writable : v.Writable

theorem leaf_str (s : Bytes) : Leaf (.str s) := ⟨rfl, rfl, rfl, trivial⟩

theorem leaf_num {q : ℚ} (hq : Double.IsDouble q) (hlow : 1 ≤ q) (hhigh : q < 10 ^ 17) :
    Leaf (.num (.finite q) false) := by
  have habs : |q| = q := abs_of_nonneg (by linarith)
  have hfixed : Double.fixed (Double.scientific |q|).2 = true := by
    refine (Double.fixed_iff hq).2 (Or.inr ?_)
    rw [habs]
    exact ⟨by norm_num; linarith, hhigh⟩
  refine ⟨rfl, rfl, rfl, ?_⟩
  show Double.exponentPart (Double.scientific |q|).2 = []
  rw [Double.exponentPart, if_pos hfixed]

/-- The digits of such a number are few. -/
theorem length_general_le {q : ℚ} (hq : Double.IsDouble q) (hlow : 1 ≤ q) (hhigh : q < 10 ^ 17) :
    (Utf8.encode (Double.general false q).text).length ≤ 40 := by
  have habs : |q| = q := abs_of_nonneg (by linarith)
  have hfixed : Double.fixed (Double.scientific |q|).2 = true := by
    refine (Double.fixed_iff hq).2 (Or.inr ?_)
    rw [habs]
    exact ⟨by norm_num; linarith, hhigh⟩
  obtain ⟨hm, hm', -⟩ := Double.scientific_spec (abs_pos.2 (by linarith : q ≠ 0))
  obtain ⟨-, hfraction⟩ := Double.digits_fixed hm hm' hfixed
  have hrange : -4 ≤ (Double.scientific |q|).2 ∧ (Double.scientific |q|).2 < 17 := by
    simpa [Double.fixed] using hfixed
  have hbytes : (Utf8.encode (Double.general false q).text).length =
      (Double.general false q).text.length := by
    rw [Utf8.length_encode, List.map_congr_left (g := fun _ => 1), List.map_const',
      List.sum_replicate_nat, mul_one]
    intro c hc
    have hascii := (Double.general false q).ascii c hc
    exact Char.utf8Size_eq_one_iff.2 (Nat.le_of_lt_succ hascii)
  have hwhole : (Double.general false q).whole.length ≤ 17 := by
    show (Double.wholeText _ _).length ≤ 17
    unfold Double.wholeText
    split
    · decide
    · rw [List.length_take, Double.length_toDigits hm hm']
      exact Nat.min_le_right _ _
  have hpoint : (Double.general false q).fraction.length ≤ 21 := by
    show (Double.fractionText _).length ≤ 21
    generalize Double.fractionDigits (Double.scientific |q|).1 (Double.scientific |q|).2 = digits
      at hfraction
    obtain ⟨k, hk⟩ := Double.trim_append digits
    have htrim := congrArg List.length hk
    rw [List.length_append] at htrim
    unfold Double.fractionText
    split
    · exact Nat.zero_le _
    · rw [List.length_cons]
      omega
  have hexponent : (Double.general false q).exponent = [] := by
    show Double.exponentPart (Double.scientific |q|).2 = []
    rw [Double.exponentPart, if_pos hfixed]
  have hminus : (Double.general false q).minus.length ≤ 1 := by
    unfold Numeral.Parts.minus
    split <;> decide
  rw [hbytes, Numeral.Parts.text, hexponent, List.append_nil, List.length_append, List.length_append]
  omega

/-- The bytes a member of an object takes at most. -/
def memberCost (e : LuaKey × Stored) : ℕ :=
  ((strOf e.1).elim 0 fun s => (JsonText.quoted (piecesOf s)).length) + e.2.doc.text.length + 2

theorem length_intercalate_le (texts : List Bytes) :
    (([44] : Bytes).intercalate texts).length ≤ (texts.map fun t => t.length + 1).sum := by
  induction texts with
  | nil => exact Nat.zero_le _
  | cons text texts ih =>
    cases texts with
    | nil =>
      rw [List.intercalate_singleton, List.map_singleton, List.sum_singleton]
      omega
    | cons next texts =>
      rw [intercalate_cons (List.cons_ne_nil _ _), List.length_append, List.length_cons,
        List.map_cons, List.sum_cons]
      omega

variable {entries : List (LuaKey × Stored)}

/-- The text of an object is no longer than its members cost. -/
theorem length_object_le (hnodup : (entries.map Prod.fst).Nodup)
    (hkeyed : StringKeyed (entries.map Prod.fst)) :
    (Stored.table entries).doc.text.length ≤ 2 + (entries.map memberCost).sum := by
  have hsum := ((perm_object hnodup hkeyed).map memberCost).sum_eq
  rw [List.map_map] at hsum
  have hcost (s : Bytes) : (memberCost ∘ fun s => (LuaKey.str s, childAt entries (.str s))) s =
      (JsonText.quoted (piecesOf s) ++ 58 :: (childAt entries (.str s)).doc.text).length + 1 := by
    rw [List.length_append, List.length_cons]
    simp only [memberCost, Function.comp_apply, strOf, Option.elim_some]
    omega
  have hle := length_intercalate_le ((sortedKeys (entries.map Prod.fst)).map fun s =>
    JsonText.quoted (piecesOf s) ++ 58 :: (childAt entries (.str s)).doc.text)
  rw [List.map_map] at hle
  rw [Stored.doc, tableDoc_object (any_string_of_stringKeyed hkeyed), text_object, List.length_cons,
    List.length_append, List.length_singleton, ← hsum]
  rw [List.map_congr_left fun s _ => hcost s]
  simp only [Function.comp_def] at hle
  omega

/-- **A flat object is written**, within the bytes its members cost. -/
theorem encode_flat (hnodup : (entries.map Prod.fst).Nodup)
    (hkeyed : StringKeyed (entries.map Prod.fst)) (hleaf : ∀ e ∈ entries, Leaf e.2)
    (hcount : entries.length < maxNodes) {n : ℕ} (hn : 0 < n)
    (hsize : 2 + (entries.map memberCost).sum ≤ n) :
    ∃ text, encode (.table entries) (.num (.finite n)) = some text ∧ text.length ≤ n := by
  have hlength := (length_object_le hnodup hkeyed).trans hsize
  have hlimit : limitOf (.num (.finite n)) = some n := by
    have hpos : (0 : ℚ) < n := by exact_mod_cast hn
    rw [limitOf, if_pos hpos, Int.floor_natCast, Int.toNat_natCast]
  have hinside {p : Stored → Prop} (h : ∀ e ∈ entries, p e.2) :
      ∀ e ∈ entries, ∀ w ∈ e.2.inside, p w := by
    intro e he w hw
    rw [(hleaf e he).inside] at hw
    rw [List.mem_singleton.1 hw]
    exact h e he
  have hkeyedIn : ∀ w ∈ (Stored.table entries).inside, w.Keyed := by
    refine forall_inside_table.2 ⟨hnodup, hinside fun e he => ?_⟩
    obtain ⟨hself, -, -, -⟩ := hleaf e he
    cases hv : e.2 with
    | table inner =>
      have hlevel := (hleaf e he).nodes
      rw [hv] at hself hlevel
      have hin := (hleaf e he).level
      rw [hv] at hin
      cases inner with
      | nil => exact List.nodup_nil
      | cons x inner =>
        rw [Stored.level, entriesLevel] at hin
        omega
    | _ => trivial
  refine ⟨_, (encode_eq_some hkeyedIn).2 ⟨⟨?_, ?_⟩, ?_, ?_, rfl⟩, hlength⟩
  · have hlevel : 0 + (Stored.table entries).level ≤ maxDepth := by
      refine level_table_le.2 ⟨by decide, fun e he => ?_⟩
      rw [(hleaf e he).level]
      decide
    omega
  · exact forall_inside_table.2 ⟨Or.inr hkeyed, hinside fun e he => (hleaf e he).writable⟩
  · have hnodes := sum_childAt (perm_object hnodup hkeyed) fun v => v.doc.nodes
    rw [Stored.doc, tableDoc_object (any_string_of_stringKeyed hkeyed), JsonText.Doc.nodes,
      JsonText.memberNodes_eq, List.map_map]
    have hone : (entries.map fun e => e.2.doc.nodes).sum = entries.length := by
      rw [List.map_congr_left fun e he => (hleaf e he).nodes, List.map_const', List.sum_replicate_nat,
        mul_one]
    have hsame : (List.map ((fun e => e.2.inner.nodes) ∘ fun s =>
        (bare (piecesOf s), bare (childAt entries (.str s)).doc))
        (sortedKeys (entries.map Prod.fst))).sum = entries.length := hnodes.trans hone
    omega
  · rw [hlimit, overLimit, Option.any_some, decide_eq_false_iff_not]
    omega

end JSON

namespace IPC

open JSON (Stored)

/-! ## What is published -/

/-- `os.time() * 1000`: a double after 1970 that is printed without an
exponent. -/
structure Clock where
  ms : ℚ
  isDouble : Double.IsDouble ms
  low : 1 ≤ ms
  high : ms < 10 ^ 17

inductive Channel
  | state
  | events
  | commands
  | responses
  | acks
  | runtime
  | archive
  | deadletter
  deriving DecidableEq

/-- A message in its channel, with its `.ready` file. -/
structure Letter where
  channel : Channel
  stem : Bytes
  encoded : Bytes

/-- A message with one entry for each listed field. -/
def record (fields : List (String × Stored)) : Stored :=
  .table (fields.map fun e => (.str (Bytes.lit e.1), e.2))

/-- `IPC.publish` with a stem, both files being written. -/
def publish (enabled : Bool) (channel : Channel) (message : Stored) (stem : Bytes) :
    Option Letter :=
  if channel = .commands && !enabled then none
  else
    match safeStem (.str stem) with
    | none => none
    | some messageStem =>
      match JSON.encode message (.num (.finite (maxMessageBytes : ℕ))) with
      | none => none
      | some encoded =>
        if validateMessage message.value encoded.length then some ⟨channel, messageStem, encoded⟩
        else none

variable (clock : Clock) (enabled : Bool)

def ackMessage (safe status : Bytes) : Stored :=
  record [("protocol", .num (.finite protocol) false), ("request_id", .str safe),
    ("timestamp_ms", .num (.finite clock.ms) false), ("type", .str (Bytes.lit "ack.command")),
    ("status", .str status)]

/-- `IPC.acknowledge`. -/
def acknowledge (requestId : LuaValue) (status : Bytes) : Option Letter :=
  match safeStem requestId with
  | none => none
  | some safe => publish enabled .acks (ackMessage clock safe status) safe

def responseMessage (safe status detail : Bytes) : Stored :=
  record [("protocol", .num (.finite protocol) false), ("request_id", .str safe),
    ("timestamp_ms", .num (.finite clock.ms) false), ("type", .str (Bytes.lit "response.command")),
    ("status", .str status), ("detail", .str (detail.take 512))]

/-- `IPC.writeResponse`. -/
def writeResponse (requestId : LuaValue) (status detail : Bytes) : Option Letter :=
  match safeStem requestId with
  | none => none
  | some safe => publish enabled .responses (responseMessage clock safe status detail) safe

/-! ## Nothing is refused -/

theorem safeStem_length {v : LuaValue} {s : Bytes} (h : safeStem v = some s) : s.length ≤ 128 := by
  obtain rfl := safeStem_eq_some h
  unfold safeStem at h
  dsimp only at h
  split at h
  · cases h
  · rename_i hlength
    simp only [Bool.or_eq_true, decide_eq_true_eq, not_or, not_lt] at hlength
    exact hlength.2

theorem length_escapeByte (byte : UInt8) : (JSON.escapeByte byte).length ≤ 6 :=
  Bytes.forall_byte (p := fun byte => (JSON.escapeByte byte).length ≤ 6) (by decide +kernel) byte

/-- A string takes six bytes a byte and its quotes. -/
theorem length_quoted_le (s : Bytes) :
    (JsonText.quoted (JSON.piecesOf s)).length ≤ 6 * s.length + 2 := by
  have hle : (s.flatMap JSON.escapeByte).length ≤ 6 * s.length := by
    induction s with
    | nil => exact Nat.zero_le _
    | cons b s ih =>
      have hb := length_escapeByte b
      rw [List.flatMap_cons, List.length_append, List.length_cons]
      omega
  rw [JsonText.quoted, List.length_cons, List.length_append, JSON.text_piecesOf]
  exact Nat.succ_le_succ (Nat.succ_le_succ hle)

/-- A message that is published has a safe stem, an envelope in order and
little else. -/
structure Postable (fields : List (String × Stored)) : Prop where
  nodup : (fields.map fun e => LuaKey.str (Bytes.lit e.1)).Nodup
  leaf : ∀ e ∈ fields, JSON.Leaf e.2
  count : fields.length < JSON.maxNodes
  size : 2 + (fields.map fun e => JSON.memberCost (.str (Bytes.lit e.1), e.2)).sum ≤ maxMessageBytes
  protocol : ("protocol", .num (.finite protocol) false) ∈ fields
  request : ∃ safe, safeStem (.str safe) = some safe ∧ ("request_id", .str safe) ∈ fields
  time : ("timestamp_ms", .num (.finite clock.ms) false) ∈ fields
  type : ∃ name, typeName (.str name) = true ∧ ("type", .str name) ∈ fields

variable {clock enabled} {fields : List (String × Stored)}

theorem field_record (hnodup : (fields.map fun e => LuaKey.str (Bytes.lit e.1)).Nodup)
    {name : String} {v : Stored} (h : (name, v) ∈ fields) :
    (record fields).value.field name = v.value := by
  have hvalue : (record fields).value =
      .table (fields.map fun e => (.str (Bytes.lit e.1), e.2.value)) := by
    rw [record, Stored.value, JSON.entryValues_eq, List.map_map]
    rfl
  rw [hvalue]
  refine JSON.field_eq ?_ (List.mem_map.2 ⟨(name, v), h, rfl⟩)
  rw [List.map_map]
  exact hnodup

/-- **A postable message is published.** -/
theorem publish_record (h : Postable clock fields) {channel : Channel}
    (hchannel : channel ≠ .commands) {safe : Bytes} (hsafe : safeStem (.str safe) = some safe) :
    ∃ encoded, publish enabled channel (record fields) safe = some ⟨channel, safe, encoded⟩ := by
  have hkeys : ((fields.map fun e => (LuaKey.str (Bytes.lit e.1), e.2)).map Prod.fst) =
      fields.map fun e => LuaKey.str (Bytes.lit e.1) := by
    rw [List.map_map]
    rfl
  have hkeyed : JSON.StringKeyed (fields.map fun e => LuaKey.str (Bytes.lit e.1)) := by
    refine ⟨List.ne_nil_of_mem (List.mem_map_of_mem h.protocol), fun key hkey => ?_⟩
    obtain ⟨e, -, rfl⟩ := List.mem_map.1 hkey
    exact ⟨_, rfl⟩
  have hleaf : ∀ e ∈ fields.map fun e => (LuaKey.str (Bytes.lit e.1), e.2), JSON.Leaf e.2 := by
    intro x hx
    obtain ⟨e, he, rfl⟩ := List.mem_map.1 hx
    exact h.leaf e he
  have hcount : (fields.map fun e => (LuaKey.str (Bytes.lit e.1), e.2)).length < JSON.maxNodes := by
    rw [List.length_map]
    exact h.count
  have hsize : 2 + ((fields.map fun e => (LuaKey.str (Bytes.lit e.1), e.2)).map
      JSON.memberCost).sum ≤ maxMessageBytes := by
    rw [List.map_map]
    exact h.size
  obtain ⟨encoded, hencode, hlength⟩ :=
    JSON.encode_flat (hkeys ▸ h.nodup) (hkeys ▸ hkeyed) hleaf hcount (by decide) hsize
  obtain ⟨request, hrequest, hrequestIn⟩ := h.request
  obtain ⟨typ, htyp, htypIn⟩ := h.type
  have hvalid : validateMessage (record fields).value encoded.length = true := by
    have hprotocol := field_record h.nodup h.protocol
    have htime := field_record h.nodup h.time
    have hrequest' := field_record h.nodup hrequestIn
    have htype := field_record h.nodup htypIn
    have htable : ∃ entries, (record fields).value = .table entries := ⟨_, rfl⟩
    obtain ⟨entries, hentries⟩ := htable
    rw [hentries] at hprotocol htime hrequest' htype ⊢
    have hpos : (0 : ℚ) < clock.ms := lt_of_lt_of_le one_pos clock.low
    rw [validateMessage, hprotocol, htime, hrequest', htype]
    simp only [Stored.value, isProtocol, positive, hrequest, htyp, hpos, hlength, decide_true,
      beq_self_eq_true, Option.isSome_some, Bool.and_self]
  refine ⟨encoded, ?_⟩
  unfold publish
  rw [decide_eq_false hchannel, Bool.false_and, if_neg Bool.false_ne_true, hsafe]
  dsimp only
  rw [record, hencode]
  dsimp only
  rw [← record, if_pos hvalid]

/-- The four fields of every message. -/
def envelope (clock : Clock) (safe type : Bytes) : List (String × Stored) :=
  [("protocol", .num (.finite protocol) false), ("request_id", .str safe),
    ("timestamp_ms", .num (.finite clock.ms) false), ("type", .str type)]

def envelopeKeys : List String := ["protocol", "request_id", "timestamp_ms", "type"]

theorem memberCost_str_le (key s : Bytes) :
    JSON.memberCost (.str key, .str s) ≤ 6 * key.length + 6 * s.length + 6 := by
  have hkey := length_quoted_le key
  have hs := length_quoted_le s
  show (JsonText.quoted (JSON.piecesOf key)).length + (JsonText.quoted (JSON.piecesOf s)).length +
    2 ≤ _
  omega

theorem memberCost_num_le (key : Bytes) {q : ℚ} (hq : Double.IsDouble q) (hlow : 1 ≤ q)
    (hhigh : q < 10 ^ 17) :
    JSON.memberCost (.str key, .num (.finite q) false) ≤ 6 * key.length + 44 := by
  have hkey := length_quoted_le key
  have hnum := JSON.length_general_le hq hlow hhigh
  show (JsonText.quoted (JSON.piecesOf key)).length +
    (Utf8.encode (Double.general false q).text).length + 2 ≤ _
  omega

/-- **An envelope with strings behind it** can be posted, as long as the
strings are short. -/
theorem postable_envelope (clock : Clock) {safe : Bytes} (type : Bytes)
    (extras : List (String × Bytes)) (hsafe : safeStem (.str safe) = some safe)
    (htype : typeName (.str type) = true) (hlength : type.length ≤ 100) {names : List String}
    (hnames : extras.map Prod.fst = names)
    (hnodup : ((envelopeKeys ++ names).map fun name => LuaKey.str (Bytes.lit name)).Nodup)
    (hshort : ∀ name ∈ names, (Bytes.lit name).length ≤ 20)
    (hstrings : ∀ e ∈ extras, e.2.length ≤ 512) (hfew : extras.length ≤ 50) :
    Postable clock (envelope clock safe type ++ extras.map fun e => (e.1, .str e.2)) := by
  have hprotocol : Double.IsDouble protocol := by
    unfold Double.IsDouble
    decide +kernel
  have hid := safeStem_length hsafe
  refine ⟨?_, ?_, ?_, ?_, List.mem_append_left _ (by simp [envelope]),
    ⟨safe, hsafe, List.mem_append_left _ (by simp [envelope])⟩,
    List.mem_append_left _ (by simp [envelope]),
    ⟨type, htype, List.mem_append_left _ (by simp [envelope])⟩⟩
  · have hkeys : (envelope clock safe type ++ extras.map fun e => (e.1, Stored.str e.2)).map
        (fun e => LuaKey.str (Bytes.lit e.1)) =
        (envelopeKeys ++ names).map fun name => LuaKey.str (Bytes.lit name) := by
      rw [← hnames, List.map_append, List.map_append, List.map_map, List.map_map]
      rfl
    rw [hkeys]
    exact hnodup
  · intro e he
    rcases List.mem_append.1 he with he | he
    · simp only [envelope, List.mem_cons, List.not_mem_nil, or_false] at he
      rcases he with rfl | rfl | rfl | rfl
      · exact JSON.leaf_num hprotocol (by decide) (by decide)
      · exact JSON.leaf_str safe
      · exact JSON.leaf_num clock.isDouble clock.low clock.high
      · exact JSON.leaf_str type
    · obtain ⟨x, -, rfl⟩ := List.mem_map.1 he
      exact JSON.leaf_str x.2
  · rw [List.length_append, List.length_map]
    have hfour : (envelope clock safe type).length = 4 := rfl
    have hmax : JSON.maxNodes = 20000 := rfl
    omega
  · have hextras : (extras.map fun e => JSON.memberCost (.str (Bytes.lit e.1), .str e.2)).sum ≤
        3200 * extras.length := by
      have hname : ∀ e ∈ extras, (Bytes.lit e.1).length ≤ 20 := fun e he =>
        hshort e.1 (hnames ▸ List.mem_map_of_mem he)
      clear hnames hfew
      induction extras with
      | nil => exact Nat.zero_le _
      | cons e extras ih =>
        have hcost := memberCost_str_le (Bytes.lit e.1) e.2
        obtain ⟨hfirst, hrest⟩ := List.forall_mem_cons.1 hname
        obtain ⟨hstring, hstrings⟩ := List.forall_mem_cons.1 hstrings
        have htail := ih hstrings hrest
        rw [List.map_cons, List.sum_cons, List.length_cons]
        omega
    have hone := memberCost_num_le (Bytes.lit "protocol") hprotocol (by decide) (by decide)
    have htwo := memberCost_str_le (Bytes.lit "request_id") safe
    have hthree := memberCost_num_le (Bytes.lit "timestamp_ms") clock.isDouble clock.low clock.high
    have hfour := memberCost_str_le (Bytes.lit "type") type
    have hkeys : (Bytes.lit "protocol").length = 8 ∧ (Bytes.lit "request_id").length = 10 ∧
        (Bytes.lit "timestamp_ms").length = 12 ∧ (Bytes.lit "type").length = 4 := by decide
    have hmax : maxMessageBytes = 262144 := rfl
    rw [List.map_append, List.map_map, List.sum_append]
    simp only [envelope, List.map_cons, List.map_nil, List.sum_cons, List.sum_nil,
      Function.comp_def]
    omega

/-- **A request with a safe id is acknowledged.** -/
theorem acknowledge_written (clock : Clock) (enabled : Bool) {safe status : Bytes}
    (hsafe : safeStem (.str safe) = some safe) (hstatus : status.length ≤ 512) :
    ∃ encoded, acknowledge clock enabled (.str safe) status = some ⟨.acks, safe, encoded⟩ := by
  have hpost := postable_envelope clock (Bytes.lit "ack.command") [("status", status)] hsafe
    (by decide) (by decide) (rfl : _ = ["status"]) (by decide)
    (by decide) (by simpa using hstatus) (by simp)
  unfold acknowledge
  rw [hsafe]
  exact publish_record hpost (by decide) hsafe

/-- **A request with a safe id is answered.** -/
theorem writeResponse_written (clock : Clock) (enabled : Bool) {safe status : Bytes}
    (hsafe : safeStem (.str safe) = some safe) (hstatus : status.length ≤ 512) (detail : Bytes) :
    ∃ encoded, writeResponse clock enabled (.str safe) status detail =
      some ⟨.responses, safe, encoded⟩ := by
  have hstrings : ∀ e ∈ [("status", status), ("detail", detail.take 512)], e.2.length ≤ 512 := by
    intro e he
    simp only [List.mem_cons, List.not_mem_nil, or_false] at he
    rcases he with rfl | rfl
    · exact hstatus
    · exact List.length_take_le _ _
  have hpost := postable_envelope clock (Bytes.lit "response.command")
    [("status", status), ("detail", detail.take 512)] hsafe (by decide) (by decide)
    (rfl : _ = ["status", "detail"]) (by decide) (by decide) hstrings (by simp)
  unfold writeResponse
  rw [hsafe]
  exact publish_record hpost (by decide) hsafe

end IPC

end GoblinZomboid
