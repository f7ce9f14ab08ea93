import GoblinZomboid.Agent.Protocol
import GoblinZomboid.Lib.PySorted
import Mathlib.Data.List.Nodup
/-!
# The codec of messages

A message is sent as one flat object, its envelope beside its body. The
object gives the message back exactly when no field of the body has a name
the envelope uses.
-/

namespace GoblinZomboid

namespace Protocol

open PyValue (int str dict)

/-! ## `encode_message`, `decode_message` -/

/-- `encode_message`. -/
def encodeMessage (m : Message) : Except String Bytes := do
  let validated ← fromMapping m.asDict
  if !PyValue.dumpable (.dict validated.asDict) then .error "message contains non-JSON values"
  else
    let encoded := Utf8.encode (PyValue.json (PyValue.sorted (.dict validated.asDict)))
    if maxMessageBytes < encoded.length then .error "message exceeds the size limit"
    else .ok encoded

/-- `from_mapping` of a decoded value. -/
def fromValue : PyValue → Except String Message
  | .dict raw => fromMapping raw
  | _ => .error "message must be a JSON object"

/-- `decode_message` of bytes, without the age of the message. -/
def decodeMessage (data : Bytes) : Except String Message :=
  if maxMessageBytes < data.length then .error "message exceeds the size limit"
  else
    match (Utf8.decode data).bind PyJson.loads with
    | some v => fromValue v
    | none => .error "invalid JSON"

/-! ## Dictionaries -/

/-- Entries under different keys give every key one value, whatever their
order. -/
theorem get_eq_some_iff {d : Dict} (h : (d.map Prod.fst).Nodup) {name : String} {v : PyValue} :
    get d name = some v ↔ (PyText.lit name, v) ∈ d := by
  unfold get
  rw [Option.map_eq_some_iff]
  constructor
  · rintro ⟨e, he, rfl⟩
    have hkey := List.find?_some he
    rw [← of_decide_eq_true hkey]
    exact List.mem_of_find?_eq_some he
  · intro hmem
    induction d with
    | nil => cases hmem
    | cons e d ih =>
      rw [List.map_cons, List.nodup_cons] at h
      rw [List.find?_cons]
      rcases List.mem_cons.1 hmem with rfl | hmem
      · exact ⟨_, by rw [decide_eq_true rfl], rfl⟩
      · have hne : ¬e.1 = PyText.lit name := fun heq =>
          h.1 (List.mem_map.2 ⟨_, hmem, heq.symm⟩)
        rw [decide_eq_false hne]
        exact ih h.2 hmem

/-- What a sorted dictionary holds under a name. -/
theorem get_sortedDict {d : Dict} (h : (d.map Prod.fst).Nodup) (name : String) :
    get (PyValue.sortedDict d) name = (get d name).map PyValue.sorted := by
  have hsorted : ((PyValue.sortedDict d).map Prod.fst).Nodup :=
    (PyValue.keys_sortedDict d).nodup_iff.2 h
  refine Option.ext fun v => ?_
  rw [get_eq_some_iff hsorted, (PyValue.sortedDict_perm d).mem_iff, Option.map_eq_some_iff]
  constructor
  · intro hmem
    obtain ⟨e, he, heq⟩ := List.mem_map.1 hmem
    obtain ⟨hkey, rfl⟩ := Prod.mk.inj heq
    refine ⟨e.2, (get_eq_some_iff h).2 ?_, rfl⟩
    rwa [← hkey]
  · rintro ⟨w, hw, rfl⟩
    exact List.mem_map.2 ⟨_, (get_eq_some_iff h).1 hw, rfl⟩

/-- The bytes of a dictionary that is not empty. -/
theorem size_json_dict {d : Dict} (h : d ≠ []) :
    PyValue.size (PyValue.json (.dict d)) = PyValue.partsSize (d.map PyJson.entryText) + 1 := by
  cases d with
  | nil => exact absurd rfl h
  | cons e d =>
    rw [PyValue.json, PyJson.jsonEntries_eq, List.map_cons,
      PyValue.size_enclose (by decide) (by decide)]

/-- The entries of the envelope are what a mapping holds under its names. -/
theorem perm_of_accepts {age : Option Age} {raw : Dict} {m : Message}
    (hkeys : (raw.map Prod.fst).Nodup) (h : Accepts age raw m) :
    (raw.filter fun e => isRequired e.1).Perm m.envelope := by
  have hnodup {d : Dict} (hd : (d.map Prod.fst).Nodup) : d.Nodup := List.Nodup.of_map Prod.fst hd
  have henvelope : (m.envelope.map Prod.fst).Nodup := by
    show ([PyText.lit "protocol", PyText.lit "request_id", PyText.lit "timestamp_ms",
      PyText.lit "type"] : List PyText).Nodup
    decide
  refine (List.perm_ext_iff_of_nodup ((hnodup hkeys).filter _) (hnodup henvelope)).2 fun e => ?_
  rw [List.mem_filter]
  have hprotocol := (get_eq_some_iff hkeys).1 h.protocol
  have hid := (get_eq_some_iff hkeys).1 h.requestId
  have htime := (get_eq_some_iff hkeys).1 h.timestamp
  have htype := (get_eq_some_iff hkeys).1 h.type
  constructor
  · rintro ⟨hmem, hreq⟩
    -- Under a name of the envelope the mapping holds one value.
    have hsame {name : String} {v : PyValue} (hname : e.1 = PyText.lit name)
        (hv : (PyText.lit name, v) ∈ raw) : e = (PyText.lit name, v) :=
      List.inj_on_of_nodup_map hkeys hmem hv hname
    obtain ⟨name, hname, heq⟩ := List.any_eq_true.1 hreq
    have heq := (of_decide_eq_true heq).symm
    simp only [required, List.mem_cons, List.not_mem_nil, or_false] at hname
    rcases hname with rfl | rfl | rfl | rfl
    · rw [hsame heq hprotocol]
      exact List.mem_cons_self
    · rw [hsame heq hid]
      exact List.mem_cons_of_mem _ List.mem_cons_self
    · rw [hsame heq htime]
      exact List.mem_cons_of_mem _ (List.mem_cons_of_mem _ List.mem_cons_self)
    · rw [hsame heq htype]
      exact List.mem_cons_of_mem _ (List.mem_cons_of_mem _ (List.mem_cons_of_mem _
        List.mem_cons_self))
  · intro hmem
    have hall : ∀ name ∈ required, isRequired (PyText.lit name) = true := by decide
    simp only [Message.envelope, List.mem_cons, List.not_mem_nil, or_false] at hmem
    rcases hmem with rfl | rfl | rfl | rfl
    · exact ⟨hprotocol, hall "protocol" (by decide)⟩
    · exact ⟨hid, hall "request_id" (by decide)⟩
    · exact ⟨htime, hall "timestamp_ms" (by decide)⟩
    · exact ⟨htype, hall "type" (by decide)⟩

/-! ## The flat object -/

/-- A name of the envelope, or the one that stands for the whole body. -/
def reserved (key : PyText) : Bool := isRequired key || key == PyText.lit "payload"

theorem reserved_eq_false {key : PyText} :
    reserved key = false ↔ isRequired key = false ∧ key ≠ PyText.lit "payload" := by
  unfold reserved
  rw [Bool.or_eq_false_iff, beq_eq_false_iff_ne]

/-- What the fields of an accepted message are. -/
theorem fields_cases {age : Option Age} {raw : Dict} {m : Message} (h : Accepts age raw m) :
    (get raw "payload" = none ∧ m.fields = raw.filter fun e => !isRequired e.1) ∨
      (get raw "payload" = some (.dict m.fields) ∧
        ∀ e ∈ raw, isRequired e.1 = false → e.1 = PyText.lit "payload") := by
  have hbody := h.body
  unfold body at hbody
  split at hbody
  · rename_i fields hpayload
    split at hbody
    · cases hbody
    · rename_i hnone
      obtain rfl := Except.ok.inj hbody
      refine .inr ⟨hpayload, fun e he hreq => ?_⟩
      by_contra hne
      refine hnone (List.any_eq_true.2 ⟨e, he, ?_⟩)
      rw [hreq, Bool.not_false, Bool.true_and, bne_iff_ne]
      exact hne
  · cases hbody
  · rename_i hpayload
    exact .inl ⟨hpayload, (Except.ok.inj hbody).symm⟩

variable {age : Option Age} {raw : Dict} {m : Message}

/-- The body of a formed mapping is formed, under different keys. -/
theorem formed_fields (hformed : PyJson.Formed (.dict raw)) (h : Accepts age raw m) :
    (m.fields.map Prod.fst).Nodup ∧ ∀ e ∈ m.fields, PyJson.Formed e.2 := by
  rw [PyJson.Formed, PyJson.formedEntries_iff] at hformed
  obtain ⟨hkeys, hvalues⟩ := hformed
  rcases fields_cases h with ⟨-, hfields⟩ | ⟨hpayload, -⟩
  · rw [hfields]
    refine ⟨(List.filter_sublist.map _).nodup hkeys, fun e he => ?_⟩
    exact hvalues e (List.mem_of_mem_filter he)
  · have hbody := hvalues _ ((get_eq_some_iff hkeys).1 hpayload)
    rwa [PyJson.Formed, PyJson.formedEntries_iff] at hbody

/-- The values of the body can be written, and the flat object is no longer
than the mapping was. -/
theorem flat_of_accepts (hkeys : (raw.map Prod.fst).Nodup) (h : Accepts age raw m) :
    (∀ e ∈ m.fields, PyValue.dumpable e.2 = true) ∧
      PyValue.partsSize ((m.envelope ++ m.fields).map PyJson.entryText) + 1 ≤
        PyValue.size (PyValue.json (.dict raw)) := by
  have hdump := h.dumpable
  rw [PyValue.dumpable, PyValue.dumpableEntries_eq_true] at hdump
  have hne : raw ≠ [] := by
    rintro rfl
    exact absurd h.protocol (fun h => by cases h)
  have hsplit : raw.Perm (m.envelope ++ raw.filter fun e => !isRequired e.1) :=
    (List.filter_append_perm _ raw).symm.trans ((perm_of_accepts hkeys h).append_right _)
  have hsize := size_json_dict hne
  rw [PyValue.partsSize_perm (hsplit.map PyJson.entryText)] at hsize
  rcases fields_cases h with ⟨-, hfields⟩ | ⟨hpayload, honly⟩
  · rw [hfields, hsize]
    exact ⟨fun e he => hdump e (List.mem_of_mem_filter he), le_rfl⟩
  · have hmem := (get_eq_some_iff hkeys).1 hpayload
    have hbody := hdump _ hmem
    rw [PyValue.dumpable, PyValue.dumpableEntries_eq_true] at hbody
    refine ⟨hbody, ?_⟩
    -- Beside the envelope there is the payload and nothing else.
    have hsingle : (raw.filter fun e => !isRequired e.1) =
        [(PyText.lit "payload", .dict m.fields)] := by
      have hin : (PyText.lit "payload", PyValue.dict m.fields) ∈
          raw.filter fun e => !isRequired e.1 :=
        List.mem_filter.2 ⟨hmem, show (!isRequired (PyText.lit "payload")) = true by decide⟩
      have hall : ∀ e ∈ raw.filter fun e => !isRequired e.1,
          e = (PyText.lit "payload", .dict m.fields) := by
        intro e he
        obtain ⟨her, hreq⟩ := List.mem_filter.1 he
        exact List.inj_on_of_nodup_map hkeys her hmem (honly e her (by simpa using hreq))
      have hnodup : (raw.filter fun e => !isRequired e.1).Nodup :=
        (List.Nodup.of_map Prod.fst hkeys).filter _
      exact List.perm_singleton.1 ((List.perm_ext_iff_of_nodup hnodup (List.nodup_singleton _)).2
        fun e => ⟨fun he => List.mem_singleton.2 (hall e he),
          fun he => List.mem_singleton.1 he ▸ hin⟩)
    rw [hsize, hsingle, List.map_append, List.map_append, PyValue.partsSize_append,
      PyValue.partsSize_append]
    have hentry : PyValue.partsSize (m.fields.map PyJson.entryText) ≤ PyValue.partsSize
        ([(PyText.lit "payload", PyValue.dict m.fields)].map PyJson.entryText) := by
      by_cases hnil : m.fields = []
      · rw [hnil]
        exact Nat.zero_le _
      · have hdict := size_json_dict hnil
        show _ ≤ PyValue.size (PyValue.jsonStr (PyText.lit "payload") ++
          ':' :: PyValue.json (.dict m.fields)) + 1 + 0
        rw [PyValue.size_append, PyValue.size_cons, hdict]
        omega
    omega

/-! ## What comes back -/

/-- The envelope of a message, and the companion and owner its body names, as
sorted dictionaries hold them. -/
structure SameEnvelope (m m' : Message) : Prop where
  protocol : m'.protocol = m.protocol
  requestId : m'.requestId = m.requestId
  timestampMs : m'.timestampMs = m.timestampMs
  type : m'.type = m.type
  npcId : get m'.fields "npc_id" = (get m.fields "npc_id").map PyValue.sorted
  owner : get m'.fields "owner" = (get m.fields "owner").map PyValue.sorted

/-- Equal messages; a dictionary is equal to another with its entries in
another order. -/
structure Message.Same (m m' : Message) : Prop where
  protocol : m'.protocol = m.protocol
  requestId : m'.requestId = m.requestId
  timestampMs : m'.timestampMs = m.timestampMs
  type : m'.type = m.type
  fields : m'.fields.Perm m.fields

/-- A version has no order to change. -/
theorem sorted_of_isVersion {v : PyValue} (h : isVersion v = true) : PyValue.sorted v = v := by
  cases v with
  | list items => cases h
  | dict entries => cases h
  | _ => rw [PyValue.sorted]

/-- What the flat object of an unreserved body holds. -/
theorem nodup_asDict (hnodup : (m.fields.map Prod.fst).Nodup)
    (hfree : ∀ e ∈ m.fields, isRequired e.1 = false) : (m.asDict.map Prod.fst).Nodup := by
  have henvelope : (m.envelope.map Prod.fst).Nodup := by
    show ([PyText.lit "protocol", PyText.lit "request_id", PyText.lit "timestamp_ms",
      PyText.lit "type"] : List PyText).Nodup
    decide
  have hall : ∀ name ∈ required, isRequired (PyText.lit name) = true := by decide
  have hreq : ∀ key ∈ m.envelope.map Prod.fst, isRequired key = true := by
    show ∀ key ∈ required.map PyText.lit, isRequired key = true
    intro key hkey
    obtain ⟨name, hname, rfl⟩ := List.mem_map.1 hkey
    exact hall name hname
  rw [asDict_eq hfree, List.map_append]
  refine List.nodup_append.2 ⟨henvelope, hnodup, fun key hkey key' hkey' heq => ?_⟩
  obtain ⟨e, he, rfl⟩ := List.mem_map.1 hkey'
  have hkeyReq := hreq key hkey
  rw [heq, hfree e he] at hkeyReq
  cases hkeyReq

/-- **A message of an unreserved body** is what its flat object holds. -/
theorem accepts_of_unreserved (hformed : PyJson.Formed (.dict raw)) (h : Accepts age raw m)
    (hfree : ∀ e ∈ m.fields, reserved e.1 = false) :
    Accepts none m.asDict m ∧ PyJson.Formed (.dict m.asDict) := by
  have hnames : ∀ e ∈ m.fields, isRequired e.1 = false ∧ e.1 ≠ PyText.lit "payload" :=
    fun e he => reserved_eq_false.1 (hfree e he)
  have hkeys := hformed
  rw [PyJson.Formed, PyJson.formedEntries_iff] at hkeys
  obtain ⟨hkeys, hvalues⟩ := hkeys
  obtain ⟨hnodup, hfields⟩ := formed_fields hformed h
  obtain ⟨hdump, hsize⟩ := flat_of_accepts hkeys h
  have hdict := asDict_eq fun e he => (hnames e he).1
  -- The values of the envelope come from the mapping.
  have henvelope : ∀ e ∈ m.envelope, e ∈ raw := fun e he =>
    List.mem_of_mem_filter ((perm_of_accepts hkeys h).mem_iff.2 he)
  have hall := h.dumpable
  rw [PyValue.dumpable, PyValue.dumpableEntries_eq_true] at hall
  have hdumpable : PyValue.dumpable (.dict m.asDict) = true := by
    rw [PyValue.dumpable, PyValue.dumpableEntries_eq_true, hdict]
    intro e he
    rcases List.mem_append.1 he with he | he
    · exact hall e (henvelope e he)
    · exact hdump e he
  have hfits : PyValue.size (PyValue.json (.dict m.asDict)) ≤ maxMessageBytes := by
    have hne : m.envelope ++ m.fields ≠ [] := List.cons_ne_nil _ _
    rw [hdict, size_json_dict hne]
    exact hsize.trans h.size
  refine ⟨accepts_asDict hnames h.version h.validType h.validId h.positive hdumpable hfits, ?_⟩
  rw [PyJson.Formed, PyJson.formedEntries_iff]
  refine ⟨nodup_asDict hnodup fun e he => (hnames e he).1, fun e he => ?_⟩
  rw [hdict] at he
  rcases List.mem_append.1 he with he | he
  · exact hvalues e (henvelope e he)
  · exact hfields e he

/-- The body a sorted flat object gives back. -/
theorem filter_sortedDict (hfree : ∀ e ∈ m.fields, isRequired e.1 = false) :
    ((PyValue.sortedDict m.asDict).filter fun e => !isRequired e.1).Perm
      (PyValue.sortedDict m.fields) := by
  have hkept : ((m.asDict.map fun e => (e.1, PyValue.sorted e.2)).filter fun e =>
      !isRequired e.1) = m.fields.map fun e => (e.1, PyValue.sorted e.2) := by
    have hfields : ((m.fields.map fun e => (e.1, PyValue.sorted e.2)).filter fun e =>
        !isRequired e.1) = m.fields.map fun e => (e.1, PyValue.sorted e.2) :=
      List.filter_eq_self.2 fun e he => by
        obtain ⟨f, hf, rfl⟩ := List.mem_map.1 he
        rw [hfree f hf]
        rfl
    rw [asDict_eq hfree]
    exact hfields
  have hperm := (PyValue.sortedDict_perm m.asDict).filter fun e => !isRequired e.1
  rw [hkept] at hperm
  exact hperm.trans (PyValue.sortedDict_perm m.fields).symm

/-- **What the bytes of a message decode to.** The envelope, and the body with
its dictionaries sorted. -/
theorem decode_encode_of_unreserved (haccepts : Accepts none m.asDict m)
    (hformed : PyJson.Formed (.dict m.asDict)) (hfree : ∀ e ∈ m.fields, reserved e.1 = false)
    (hnodup : (m.fields.map Prod.fst).Nodup) :
    ∃ data m', encodeMessage m = .ok data ∧ decodeMessage data = .ok m' ∧ SameEnvelope m m' := by
  have hnames : ∀ e ∈ m.fields, isRequired e.1 = false ∧ e.1 ≠ PyText.lit "payload" :=
    fun e he => reserved_eq_false.1 (hfree e he)
  have hfields : ∀ e ∈ m.fields, isRequired e.1 = false := fun e he => (hnames e he).1
  have hkeys := nodup_asDict hnodup hfields
  set text := PyValue.json (PyValue.sorted (.dict m.asDict)) with htext
  have hsize : (Utf8.encode text).length ≤ maxMessageBytes := by
    show PyValue.size text ≤ _
    rw [htext, PyValue.size_json_sorted]
    exact haccepts.size
  have hencode : encodeMessage m = .ok (Utf8.encode text) := by
    have hmapping : fromMapping m.asDict = .ok m := fromMappingAt_eq_ok.2 haccepts
    unfold encodeMessage
    rw [hmapping]
    show (if !PyValue.dumpable (.dict m.asDict) then _ else
      if maxMessageBytes < (Utf8.encode text).length then _ else _) = _
    rw [haccepts.dumpable, if_neg (by decide), if_neg (not_lt.2 hsize)]
  have hloads : PyJson.loads text = some (.dict (PyValue.sortedDict m.asDict)) := by
    rw [htext, PyJson.loads_json (PyValue.formed_sorted hformed)
      ((PyValue.dumpable_sorted _).trans haccepts.dumpable), PyValue.sorted_dict]
  have hsorted : Accepts none (PyValue.sortedDict m.asDict)
      { m with fields := (PyValue.sortedDict m.asDict).filter fun e => !isRequired e.1 } := by
    have hget {name : String} {v : PyValue} (hv : get m.asDict name = some v) :
        get (PyValue.sortedDict m.asDict) name = some v.sorted := by
      rw [get_sortedDict hkeys, hv, Option.map_some]
    have hpayload : get (PyValue.sortedDict m.asDict) "payload" = none := by
      rw [get_sortedDict hkeys, Option.map_eq_none_iff]
      exact payload_asDict hnames
    refine ⟨?_, ?_, ?_, haccepts.version, ?_, haccepts.validId, ?_, haccepts.positive, nofun, ?_,
      haccepts.validType, ?_⟩
    · rw [← PyValue.sorted_dict, PyValue.dumpable_sorted]
      exact haccepts.dumpable
    · rw [← PyValue.sorted_dict, PyValue.size_json_sorted]
      exact haccepts.size
    · rw [hget haccepts.protocol, sorted_of_isVersion haccepts.version]
    · rw [hget haccepts.requestId, PyValue.sorted]
    · rw [hget haccepts.timestamp, PyValue.sorted]
    · rw [hget haccepts.type, PyValue.sorted]
    · unfold body
      rw [hpayload]
  have hdecode : decodeMessage (Utf8.encode text) = .ok
      { m with fields := (PyValue.sortedDict m.asDict).filter fun e => !isRequired e.1 } := by
    unfold decodeMessage
    rw [if_neg (not_lt.2 hsize), Utf8.decode_encode, Option.bind_some, hloads]
    exact fromMappingAt_eq_ok.2 hsorted
  -- The body that comes back holds what the sorted body does.
  have hget (name : String) :
      get ((PyValue.sortedDict m.asDict).filter fun e => !isRequired e.1) name =
        (get m.fields name).map PyValue.sorted := by
    have hperm := filter_sortedDict hfields
    have hsortedKeys : ((PyValue.sortedDict m.fields).map Prod.fst).Nodup :=
      (PyValue.keys_sortedDict _).nodup_iff.2 hnodup
    rw [← get_sortedDict hnodup]
    refine Option.ext fun v => ?_
    rw [get_eq_some_iff ((hperm.map Prod.fst).nodup_iff.2 hsortedKeys), hperm.mem_iff,
      get_eq_some_iff hsortedKeys]
  exact ⟨_, _, hencode, hdecode, ⟨rfl, rfl, rfl, rfl, hget "npc_id", hget "owner"⟩⟩

/-- A field of the flat object under an unreserved name is one of the body. -/
theorem mem_fields_of_mem_asDict {e : PyText × PyValue} (he : e ∈ m.asDict)
    (hreq : isRequired e.1 = false) : e ∈ m.fields := by
  have hall : ∀ name ∈ required, isRequired (PyText.lit name) = true := by decide
  rcases List.mem_append.1 he with he | he
  · obtain ⟨f, hf, rfl⟩ := List.mem_map.1 he
    have hkey : ((m.fields.find? fun g => g.1 = f.1).getD f).1 = f.1 := by
      rcases hfind : m.fields.find? fun g => g.1 = f.1 with _ | g
      · rw [hfind, Option.getD_none]
      · rw [hfind, Option.getD_some]
        simpa using List.find?_some hfind
    have hname : f.1 ∈ required.map PyText.lit :=
      show f.1 ∈ m.envelope.map Prod.fst from List.mem_map_of_mem hf
    obtain ⟨name, hname, heq⟩ := List.mem_map.1 hname
    rw [hkey, ← heq, hall name hname] at hreq
    cases hreq
  · exact List.mem_of_mem_filter he

/-- A flat object that gives the message back has an unreserved body. -/
theorem unreserved_of_same {m' : Message} (haccepts : Accepts none m.asDict m')
    (hsame : m.Same m') : ∀ e ∈ m.fields, reserved e.1 = false := by
  intro e he
  rw [reserved_eq_false]
  rcases fields_cases haccepts with ⟨hpayload, hfields⟩ | ⟨hpayload, honly⟩
  · -- The body that came back is what is under unreserved names.
    have hmem : e ∈ m.asDict.filter fun e => !isRequired e.1 := by
      rw [← hfields]
      exact hsame.fields.mem_iff.2 he
    obtain ⟨hflat, hreq⟩ := List.mem_filter.1 hmem
    refine ⟨by simpa using hreq, fun heq => ?_⟩
    unfold get at hpayload
    rw [Option.map_eq_none_iff] at hpayload
    exact absurd heq (by simpa using List.find?_eq_none.1 hpayload e hflat)
  · -- A body inside itself would be smaller than it is.
    unfold get at hpayload
    obtain ⟨f, hfind, hvalue⟩ := Option.map_eq_some_iff.1 hpayload
    have hkey : f.1 = PyText.lit "payload" := by simpa using List.find?_some hfind
    have hfield : f ∈ m'.fields := by
      refine hsame.fields.mem_iff.2 (mem_fields_of_mem_asDict (List.mem_of_find?_eq_some hfind) ?_)
      rw [hkey]
      decide
    have hlt := List.sizeOf_lt_of_mem hfield
    have hsize : sizeOf f.2 < sizeOf f := by
      rcases f with ⟨key, v⟩
      simp only [Prod.mk.sizeOf_spec]
      omega
    rw [hvalue, PyValue.dict.sizeOf_spec] at hsize
    omega

variable (m) in
/-- The flat object gives the message back, and its bytes its envelope. -/
def RoundTrip : Prop :=
  (∃ m', fromMapping m.asDict = .ok m' ∧ m.Same m') ∧
    ∃ data m', encodeMessage m = .ok data ∧ decodeMessage data = .ok m' ∧ SameEnvelope m m'

/-- **A message comes back** exactly when no field of its body has a name of
the envelope, or the name of the body. -/
theorem round_trip_iff (hformed : PyJson.Formed (.dict raw)) (h : fromMappingAt age raw = .ok m) :
    RoundTrip m ↔ ∀ e ∈ m.fields, reserved e.1 = false := by
  have haccepts := fromMappingAt_eq_ok.1 h
  constructor
  · rintro ⟨⟨m', hm', hsame⟩, -⟩
    exact unreserved_of_same (fromMappingAt_eq_ok.1 hm') hsame
  · intro hfree
    obtain ⟨hflat, hformedFlat⟩ := accepts_of_unreserved hformed haccepts hfree
    have hnodup := (formed_fields hformed haccepts).1
    exact ⟨⟨m, fromMappingAt_eq_ok.2 hflat, ⟨rfl, rfl, rfl, rfl, List.Perm.refl _⟩⟩,
      decode_encode_of_unreserved hflat hformedFlat hfree hnodup⟩

/-- A message of a chat, whose body has one text in it. -/
def wrapped (name : String) (text : PyText) : Dict :=
  [(PyText.lit "protocol", int 2), (PyText.lit "request_id", str (PyText.lit "r1")),
    (PyText.lit "timestamp_ms", int 1), (PyText.lit "type", str (PyText.lit "chat.player")),
    (PyText.lit "payload", dict [(PyText.lit name, str text)])]

def unwrapped (name : String) (text : PyText) : Message :=
  ⟨int 2, PyText.lit "r1", 1, PyText.lit "chat.player", [(PyText.lit name, str text)]⟩

theorem formed_wrapped (name : String) (text : PyText) :
    PyJson.Formed (.dict (wrapped name text)) := by
  have hkeys : ((wrapped name text).map Prod.fst).Nodup := by
    show ([PyText.lit "protocol", PyText.lit "request_id", PyText.lit "timestamp_ms",
      PyText.lit "type", PyText.lit "payload"] : List PyText).Nodup
    decide
  rw [PyJson.Formed]
  exact ⟨hkeys, trivial, trivial, trivial, trivial,
    ⟨List.nodup_singleton _, trivial, trivial⟩, trivial⟩

theorem fromMapping_wrapped (name : String) (text : PyText)
    (hsize : PyValue.size (PyValue.json (.dict (wrapped name text))) ≤ maxMessageBytes) :
    fromMapping (wrapped name text) = .ok (unwrapped name text) := by
  have hdump : PyValue.dumpable (.dict (wrapped name text)) = true := by
    rw [PyValue.dumpable, PyValue.dumpableEntries_eq_true]
    intro e he
    simp only [wrapped, List.mem_cons, List.not_mem_nil, or_false] at he
    rcases he with rfl | rfl | rfl | rfl | rfl
    · exact PyValue.dumpable_int (show 2 < 10 ^ 1 by decide) (by decide)
    · rfl
    · exact PyValue.dumpable_int (show 1 < 10 ^ 1 by decide) (by decide)
    · rfl
    · rfl
  have hid : validRequestId (PyText.lit "r1") = true := by decide
  have htype : validType (PyText.lit "chat.player") = true := by decide
  exact fromMappingAt_eq_ok.2 ⟨hdump, hsize, rfl, rfl, rfl, hid, rfl, Int.one_pos, (fun _ h => by cases h), rfl,
    htype, rfl⟩

/-- **A body that names the type**: the message is accepted as a chat, and its
flat object is the death event its body names, without the body. -/
theorem round_trip_renamed : ¬ ∀ raw m, PyJson.Formed (.dict raw) →
    fromMapping raw = .ok m → RoundTrip m := by
  intro hall
  have hsize : PyValue.size (PyValue.json (.dict (wrapped "type" (PyText.lit "event.death")))) ≤
      maxMessageBytes := by decide
  obtain ⟨⟨m', hm', hsame⟩, -⟩ := hall _ _ (formed_wrapped _ _) (fromMapping_wrapped _ _ hsize)
  have htype := (fromMappingAt_eq_ok.1 hm').type
  have hflat : get (unwrapped "type" (PyText.lit "event.death")).asDict "type" =
      some (str (PyText.lit "event.death")) := by rfl
  rw [hflat, hsame.type] at htype
  exact absurd (PyValue.str.inj (Option.some_inj.1 htype)) (by decide)

theorem round_trip_iff_chat :
    RoundTrip (unwrapped "text" (PyText.lit "hi")) ↔
      ∀ e ∈ (unwrapped "text" (PyText.lit "hi")).fields, reserved e.1 = false :=
  round_trip_iff (formed_wrapped "text" (PyText.lit "hi"))
    (fromMapping_wrapped "text" (PyText.lit "hi") (by decide))

end Protocol

end GoblinZomboid
