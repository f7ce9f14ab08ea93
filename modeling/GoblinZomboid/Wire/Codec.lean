import GoblinZomboid.Agent.Codec
import GoblinZomboid.Server.Ipc
import GoblinZomboid.Wire.Documents
/-!
# Messages across the bridge

A message the agent accepted, the bytes it is sent as, and the table the mod
decodes them to.
-/

namespace GoblinZomboid

namespace Wire

open PyValue (int str dict)
open Protocol (Dict Message Accepts get isRequired isVersion encodeMessage fromMapping)

/-! ## What is sent and read -/

/-- `jsonDecode` of the bytes of a message. -/
def jsonDecode (data : Bytes) : LuaValue :=
  JSON.decode (.str data) (.num (.finite IPC.maxMessageBytes))

/-- A table holds a message: its envelope and its fields, and nothing else. -/
structure Holds (m : Message) (table : List (LuaKey × LuaValue)) : Prop where
  keys : ∀ key ∈ table.map Prod.fst, ∃ e ∈ m.envelope ++ m.fields, key = .str (Utf8.encode e.1)
  values : ∀ e ∈ m.envelope ++ m.fields, ∃ w, (.str (Utf8.encode e.1), w) ∈ table ∧ Carries e.2 w

/-- The mod reads what the agent sends: the message is encoded, decoded to a
table that holds it, and passes the check of its envelope. -/
def Reads (m : Message) : Prop :=
  ∃ data table, encodeMessage m = .ok data ∧ jsonDecode data = .table table ∧ Holds m table ∧
    IPC.validateMessage (.table table) data.length = true

/-- A body without nulls, of whole numbers that a double holds, within the
bounds of `JSON.lua`. -/
structure Moderate (m : Message) : Prop where
  values : ∀ e ∈ m.fields, ∀ w ∈ e.2.inside, w ≠ .none ∧ ∀ n, w = .int n → n.natAbs ≤ 2 ^ 53
  depth : ∀ e ∈ m.fields, e.2.depth ≤ JSON.maxDepth
  nodes : (PyValue.dict (m.envelope ++ m.fields)).nodes ≤ JSON.maxNodes

/-- A field leaves the envelope as it is. -/
structure Agrees (m : Message) (e : PyText × PyValue) : Prop where
  payload : e.1 ≠ PyText.lit "payload"
  protocol : e.1 = PyText.lit "protocol" → isVersion e.2 = true
  requestId : e.1 = PyText.lit "request_id" → e.2 = str m.requestId
  timestamp : e.1 = PyText.lit "timestamp_ms" → e.2 = int m.timestampMs
  type : e.1 = PyText.lit "type" → e.2 = str m.type

/-! ## The flat object -/

section flat

variable {m m' : Message}

theorem find_getD (d : Dict) (name : String) (v : PyValue) :
    (d.find? fun f => f.1 = PyText.lit name).getD (PyText.lit name, v) =
      (PyText.lit name, (get d name).getD v) := by
  unfold Protocol.get
  rcases h : d.find? fun f => f.1 = PyText.lit name with _ | f
  · rw [h]
    rfl
  · have hkey : f.1 = PyText.lit name := of_decide_eq_true (List.find?_some h :)
    rw [h]
    exact Prod.ext hkey rfl

/-- The flat object: the envelope, with what the fields hold under its names,
and the other fields. -/
theorem asDict_split (m : Message) : m.asDict =
    [(PyText.lit "protocol", (get m.fields "protocol").getD m.protocol),
      (PyText.lit "request_id", (get m.fields "request_id").getD (str m.requestId)),
      (PyText.lit "timestamp_ms", (get m.fields "timestamp_ms").getD (int m.timestampMs)),
      (PyText.lit "type", (get m.fields "type").getD (str m.type))] ++
    m.fields.filter fun e => !isRequired e.1 := by
  unfold Message.asDict Message.envelope
  rw [List.map_cons, List.map_cons, List.map_cons, List.map_cons, List.map_nil]
  dsimp only
  rw [find_getD, find_getD, find_getD, find_getD]

theorem isRequired_payload : isRequired (PyText.lit "payload") = false := by decide

/-- The names of the envelope. -/
theorem isRequired_iff {key : PyText} : isRequired key = true ↔ key = PyText.lit "protocol" ∨
    key = PyText.lit "request_id" ∨ key = PyText.lit "timestamp_ms" ∨ key = PyText.lit "type" := by
  simp only [isRequired, Protocol.required, List.any_cons, List.any_nil, Bool.or_false,
    Bool.or_eq_true, decide_eq_true_eq]
  rw [eq_comm, eq_comm (b := key), eq_comm (b := key), eq_comm (b := key)]

theorem mem_asDict {e : PyText × PyValue} (h : e ∈ m.asDict) : e ∈ m.envelope ++ m.fields := by
  have hfound (name : String) (v : PyValue) (hv : (PyText.lit name, v) ∈ m.envelope) :
      (PyText.lit name, (get m.fields name).getD v) ∈ m.envelope ++ m.fields := by
    rw [← find_getD]
    rcases hfind : m.fields.find? fun f => f.1 = PyText.lit name with _ | f
    · rw [hfind, Option.getD_none]
      exact List.mem_append_left _ hv
    · rw [hfind, Option.getD_some]
      exact List.mem_append_right _ (List.mem_of_find?_eq_some hfind)
  rw [asDict_split] at h
  rcases List.mem_append.1 h with h | h
  · simp only [List.mem_cons, List.not_mem_nil, or_false] at h
    rcases h with rfl | rfl | rfl | rfl
    · exact hfound _ _ (by simp [Message.envelope])
    · exact hfound _ _ (by simp [Message.envelope])
    · exact hfound _ _ (by simp [Message.envelope])
    · exact hfound _ _ (by simp [Message.envelope])
  · exact List.mem_append_right _ (List.mem_of_mem_filter h)

theorem nodup_keys_asDict (hnodup : (m.fields.map Prod.fst).Nodup) :
    (m.asDict.map Prod.fst).Nodup := by
  rw [asDict_split, List.map_append]
  have hnames : ([PyText.lit "protocol", PyText.lit "request_id", PyText.lit "timestamp_ms",
      PyText.lit "type"] : List PyText).Nodup := by decide
  have hrequired : ∀ key ∈ ([PyText.lit "protocol", PyText.lit "request_id",
      PyText.lit "timestamp_ms", PyText.lit "type"] : List PyText), isRequired key = true := by decide
  refine List.nodup_append.2 ⟨hnames, (List.filter_sublist.map _).nodup hnodup, ?_⟩
  intro key hkey key' hkey' heq
  obtain ⟨e, he, rfl⟩ := List.mem_map.1 hkey'
  have hfree := (List.mem_filter.1 he).2
  rw [← heq, hrequired key hkey] at hfree
  cases hfree

theorem get_asDict_protocol (m : Message) :
    get m.asDict "protocol" = some ((get m.fields "protocol").getD m.protocol) := by
  rw [asDict_split]
  rfl

theorem get_asDict_requestId (m : Message) :
    get m.asDict "request_id" = some ((get m.fields "request_id").getD (str m.requestId)) := by
  rw [asDict_split]
  rfl

theorem get_asDict_timestamp (m : Message) :
    get m.asDict "timestamp_ms" = some ((get m.fields "timestamp_ms").getD (int m.timestampMs)) := by
  rw [asDict_split]
  rfl

theorem get_asDict_type (m : Message) :
    get m.asDict "type" = some ((get m.fields "type").getD (str m.type)) := by
  rw [asDict_split]
  rfl

theorem get_asDict_payload (m : Message) : get m.asDict "payload" = get m.fields "payload" := by
  have hfilter : (m.fields.filter fun e => !isRequired e.1).find?
      (fun e => e.1 = PyText.lit "payload") = m.fields.find? fun e => e.1 = PyText.lit "payload" := by
    rw [List.find?_filter]
    refine congrArg (fun p => m.fields.find? p) (funext fun e => ?_)
    by_cases hkey : e.1 = PyText.lit "payload"
    · rw [hkey, isRequired_payload]
      rfl
    · rw [decide_eq_false hkey]
      exact decide_eq_false fun h => Bool.false_ne_true h.2
  rw [asDict_split, Protocol.get_append]
  show (none : Option PyValue).or (get (m.fields.filter fun e => !isRequired e.1) "payload") = _
  rw [Option.none_or, Protocol.get, hfilter, Protocol.get]

theorem filter_asDict (m : Message) : (m.asDict.filter fun e => !isRequired e.1) =
    m.fields.filter fun e => !isRequired e.1 := by
  rw [asDict_split, List.filter_append, List.filter_filter]
  simp only [Bool.and_self]
  rfl

/-- What is accepted of a flat object without a payload has that flat object. -/
theorem asDict_of_accepts (h : Accepts none m.asDict m')
    (hpayload : get m.fields "payload" = none) : m'.asDict = m.asDict := by
  have hfields : m'.fields = m.fields.filter fun e => !isRequired e.1 := by
    have hnone : get m.asDict "payload" = none := (get_asDict_payload m).trans hpayload
    rcases Protocol.fields_cases h with ⟨-, heq⟩ | ⟨hsome, -⟩
    · rw [heq, filter_asDict]
    · rw [hnone] at hsome
      cases hsome
  have hfree (name : String) (hname : isRequired (PyText.lit name) = true) :
      get m'.fields name = none := by
    refine Protocol.get_eq_none fun e he heq => ?_
    rw [hfields] at he
    have hkept := (List.mem_filter.1 he).2
    rw [heq, hname] at hkept
    cases hkept
  have hprotocol := h.protocol
  have hid := h.requestId
  have htime := h.timestamp
  have htype := h.type
  rw [get_asDict_protocol, Option.some_inj] at hprotocol
  rw [get_asDict_requestId, Option.some_inj] at hid
  rw [get_asDict_timestamp, Option.some_inj] at htime
  rw [get_asDict_type, Option.some_inj] at htype
  have hall : ∀ name ∈ Protocol.required, isRequired (PyText.lit name) = true := by decide
  rw [asDict_split m', asDict_split m, hprotocol, hid, htime, htype,
    hfree "protocol" (hall _ (by decide)), hfree "request_id" (hall _ (by decide)),
    hfree "timestamp_ms" (hall _ (by decide)), hfree "type" (hall _ (by decide)), hfields,
    List.filter_filter]
  simp only [Bool.and_self]
  rfl

end flat

/-! ## Sending a dictionary -/

/-- A dictionary of values that can be sent, within the bounds. -/
structure Bounded (d : Dict) : Prop where
  send : ∀ e ∈ d, ∀ w ∈ e.2.inside, Sendable w
  depth : ∀ e ∈ d, e.2.depth ≤ JSON.maxDepth
  nodes : (dict d).nodes ≤ JSON.maxNodes

theorem limitOf_maxMessageBytes :
    JSON.limitOf (.num (.finite IPC.maxMessageBytes)) = some IPC.maxMessageBytes := by
  decide

/-- **A dictionary is read back** as the table of its content. -/
theorem decode_dict {d : Dict} (hformed : PyJson.Formed (.dict d))
    (hdump : PyValue.dumpable (.dict d) = true) (hbounded : Bounded d)
    (hsize : PyValue.size (PyValue.json (.dict d)) ≤ Protocol.maxMessageBytes) :
    ∃ table, jsonDecode (Utf8.encode (PyValue.json (PyValue.sorted (.dict d)))) = .table table ∧
      Carries (.dict d) (.table table) := by
  obtain ⟨doc, hdoc⟩ := exists_written hformed hdump
    (PyValue.forall_inside_dict.2 ⟨trivial, hbounded.send⟩)
  have hlength : (Utf8.encode (PyValue.json (PyValue.sorted (.dict d)))).length ≤
      IPC.maxMessageBytes := by
    have hsorted := PyValue.size_json_sorted (.dict d)
    unfold PyValue.size at hsorted hsize
    rw [hsorted]
    exact hsize
  have hdepth : doc.depth ≤ JSON.maxDepth + 1 := by
    have hentries := PyValue.depthEntries_le_iff.2 hbounded.depth
    have hle := hdoc.depth
    rw [PyValue.depth] at hle
    omega
  have haccepts : JSON.Accepts (JSON.limitOf (.num (.finite IPC.maxMessageBytes)))
      (Utf8.encode (PyValue.json (PyValue.sorted (.dict d)))) doc := by
    refine ⟨⟨.none, .none, ?_⟩, hdoc.valid, hdepth, ?_, ?_⟩
    · rw [← hdoc.text]
      exact (List.append_nil _).symm
    · rw [hdoc.nodes]
      exact hbounded.nodes
    · rw [limitOf_maxMessageBytes, JSON.overLimit, Option.any_some, decide_eq_false_iff_not]
      exact not_lt.2 hlength
  have hdecode := (JSON.decode_eq_iff hdoc.carries.ne_nil).2 ⟨doc, haccepts, rfl⟩
  have hcarries := hdoc.carries
  generalize doc.value = w at hdecode hcarries
  cases hcarries with
  | @dict entries table keys values => exact ⟨table, hdecode, .dict keys values⟩

/-- A number in a table that was read is a double. -/
theorem isDouble_of_read {doc : JsonText.Doc} {table : List (LuaKey × LuaValue)} {key : LuaKey}
    {q : ℚ} (h : doc.value = .table table) (hmem : (key, .num (.finite q)) ∈ table) :
    Double.IsDouble q := by
  have hnumber (doc : JsonText.Doc) (h : doc.value = .num (.finite q)) : Double.IsDouble q := by
    cases doc with
    | number p => exact Double.IsDouble.of_ofRat (LuaValue.num.inj h)
    | _ => cases h
  cases doc with
  | null => cases h
  | bool b => cases h
  | number p => cases h
  | string t => cases h
  | emptyArray blanks =>
    obtain rfl := LuaValue.table.inj h
    cases hmem
  | emptyObject blanks =>
    obtain rfl := LuaValue.table.inj h
    cases hmem
  | array items =>
    obtain rfl := LuaValue.table.inj h
    obtain ⟨e, he, heq⟩ := List.mem_filterMap.1 hmem
    have hvalue : e.1 ∈ JsonText.itemValues items := List.fst_mem_of_mem_zipIdx he
    rw [JsonText.itemValues_eq] at hvalue
    obtain ⟨p, -, hp⟩ := List.mem_map.1 hvalue
    split at heq
    · cases heq
    · exact hnumber p.inner (hp.trans (congrArg Prod.snd (Option.some_inj.1 heq)))
  | object members =>
    obtain rfl := LuaValue.table.inj h
    obtain ⟨e, he, heq⟩ := List.mem_filterMap.1 hmem
    rw [JsonText.memberValues_eq] at he
    obtain ⟨p, -, rfl⟩ := List.mem_map.1 he
    split at heq
    · cases heq
    · exact hnumber p.2.inner (congrArg Prod.snd (Option.some_inj.1 heq))

/-- No value of a dictionary has the content of the dictionary. -/
theorem carries_absurd {v : PyValue} {d : Dict} {w : LuaValue} {key : PyText}
    (hmem : (key, v) ∈ d) (hv : Carries v w) (hd : Carries (.dict d) w) : False := by
  induction v using PyValue.induction generalizing d w with
  | none => cases hv
  | bool b => cases hv; cases hd
  | int n => cases hv; cases hd
  | float text => cases hv; cases hd
  | str t => cases hv; cases hd
  | list items ih =>
    cases hd with
    | dict keys values =>
      cases hv with
      | list keys' values' =>
        have hkey := (keys.symm.trans keys').mem_iff.1
          (List.mem_map_of_mem (f := fun e => LuaKey.str (Utf8.encode e.1)) hmem)
        obtain ⟨index, -, hindex⟩ := List.mem_map.1 hkey
        cases hindex
  | dict entries ih =>
    cases hd with
    | @dict _ table keys values =>
      cases hv with
      | dict keys' values' =>
        -- The same key is in the value, and under it a smaller such value.
        have hkey := List.mem_map_of_mem (f := fun e => LuaKey.str (Utf8.encode e.1)) hmem
        obtain ⟨e, he, hname⟩ := List.mem_map.1 ((keys.symm.trans keys').mem_iff.1 hkey)
        have hsame : e.1 = key := Utf8.encode_injective (LuaKey.str.inj hname)
        subst hsame
        obtain ⟨f, hf, hfkey⟩ := List.mem_map.1 (keys.mem_iff.2 hkey)
        have hin : (LuaKey.str (Utf8.encode e.1), f.2) ∈ table := by
          rw [← hfkey]
          exact hf
        exact ih e he he (values' _ _ _ he hin) (values _ _ _ hmem hin)

/-! ## The flat object of an accepted message -/

section accepted

variable {raw : Dict} {m : Message}

theorem sum_le_of_subset {α : Type} {f : α → ℕ} {l l' : List α} (hnodup : l.Nodup) (h : l ⊆ l') :
    (l.map f).sum ≤ (l'.map f).sum := by
  obtain ⟨l'', hperm, hsub⟩ := List.subperm_iff.1 (hnodup.subperm h)
  rw [← (hperm.map f).sum_eq]
  exact (hsub.map f).sum_le_sum fun _ _ => Nat.zero_le _

theorem formed_protocol (hformed : PyJson.Formed (.dict raw)) (h : Accepts none raw m) :
    PyJson.Formed m.protocol := by
  rw [PyJson.Formed, PyJson.formedEntries_iff] at hformed
  exact hformed.2 _ ((Protocol.get_eq_some_iff hformed.1).1 h.protocol)

theorem formed_asDict (hprotocol : PyJson.Formed m.protocol)
    (hnodup : (m.fields.map Prod.fst).Nodup) (hvalues : ∀ e ∈ m.fields, PyJson.Formed e.2) : PyJson.Formed (.dict m.asDict) := by
  rw [PyJson.Formed, PyJson.formedEntries_iff]
  refine ⟨nodup_keys_asDict hnodup, fun e he => ?_⟩
  rcases List.mem_append.1 (mem_asDict he) with he | he
  · simp only [Message.envelope, List.mem_cons, List.not_mem_nil, or_false] at he
    rcases he with rfl | rfl | rfl | rfl
    · exact hprotocol
    · trivial
    · trivial
    · trivial
  · exact hvalues e he

theorem send_protocol (h : isVersion m.protocol = true) : ∀ w ∈ m.protocol.inside, Sendable w := by
  generalize m.protocol = v at h
  intro w hw
  cases v with
  | int n =>
    obtain rfl := List.mem_singleton.1 hw
    obtain rfl : n = Protocol.version := by simpa only [isVersion, beq_iff_eq] using h
    exact Double.ofRat_intCast (n := 2) (by decide)
  | float text =>
    obtain rfl := List.mem_singleton.1 hw
    trivial
  | _ => cases h

theorem nodes_of_isVersion {v : PyValue} (h : isVersion v = true) : v.nodes = 1 ∧ v.depth = 0 := by
  cases v with
  | list => cases h
  | dict => cases h
  | _ => exact ⟨rfl, rfl⟩

theorem bounded_asDict (hversion : isVersion m.protocol = true)
    (hnodup : (m.fields.map Prod.fst).Nodup) (htime : Double.IsDouble m.timestampMs)
    (hmoderate : Moderate m) : Bounded m.asDict := by
  refine ⟨fun e he w hw => ?_, fun e he => ?_, ?_⟩
  · rcases List.mem_append.1 (mem_asDict he) with he | he
    · simp only [Message.envelope, List.mem_cons, List.not_mem_nil, or_false] at he
      rcases he with rfl | rfl | rfl | rfl
      · exact send_protocol hversion w hw
      · obtain rfl := List.mem_singleton.1 hw
        trivial
      · obtain rfl := List.mem_singleton.1 hw
        exact htime
      · obtain rfl := List.mem_singleton.1 hw
        trivial
    · obtain ⟨hne, hint⟩ := hmoderate.values e he w hw
      cases w with
      | none => exact absurd rfl hne
      | int n => exact Double.ofRat_intCast (hint n rfl)
      | _ => trivial
  · rcases List.mem_append.1 (mem_asDict he) with he | he
    · simp only [Message.envelope, List.mem_cons, List.not_mem_nil, or_false] at he
      rcases he with rfl | rfl | rfl | rfl
      · exact (nodes_of_isVersion hversion).2.trans_le (Nat.zero_le _)
      · exact Nat.zero_le _
      · exact Nat.zero_le _
      · exact Nat.zero_le _
    · exact hmoderate.depth e he
  · have hle := sum_le_of_subset (f := fun e => e.2.nodes) (nodup_keys_asDict hnodup).of_map
      fun e he => mem_asDict he
    have hnodes := hmoderate.nodes
    rw [PyValue.nodes, PyValue.nodesEntries_eq] at hnodes ⊢
    omega

/-- The flat object can be written, in no more bytes than allowed. -/
theorem fits_asDict (hformed : PyJson.Formed (.dict raw)) (h : Accepts none raw m) :
    PyValue.dumpable (.dict m.asDict) = true ∧
      PyValue.size (PyValue.json (.dict m.asDict)) ≤ Protocol.maxMessageBytes := by
  have hkeys := hformed
  rw [PyJson.Formed, PyJson.formedEntries_iff] at hkeys
  obtain ⟨hkeys, -⟩ := hkeys
  obtain ⟨hnodup, -⟩ := Protocol.formed_fields hformed h
  obtain ⟨hdump, hsize⟩ := Protocol.flat_of_accepts hkeys h
  have hall := h.dumpable
  rw [PyValue.dumpable, PyValue.dumpableEntries_eq_true] at hall
  constructor
  · rw [PyValue.dumpable, PyValue.dumpableEntries_eq_true]
    intro e he
    rcases List.mem_append.1 (mem_asDict he) with he | he
    · exact hall e (List.mem_of_mem_filter ((Protocol.perm_of_accepts hkeys h).mem_iff.2 he))
    · exact hdump e he
  · have hne : m.asDict ≠ [] := by
      rw [asDict_split]
      exact List.cons_ne_nil _ _
    have hle := sum_le_of_subset (f := fun e => PyValue.size (PyJson.entryText e) + 1)
      (nodup_keys_asDict hnodup).of_map fun e he => mem_asDict he
    rw [Protocol.size_json_dict hne]
    refine le_trans (Nat.add_le_add_right ?_ 1) (hsize.trans h.size)
    unfold PyValue.partsSize
    rw [List.map_map, List.map_map]
    exact hle

/-- What `encode_message` sends. -/
theorem encodeMessage_eq {m' : Message} (h : Accepts none m.asDict m')
    (hdump : PyValue.dumpable (.dict m'.asDict) = true)
    (hsize : PyValue.size (PyValue.json (.dict m'.asDict)) ≤ Protocol.maxMessageBytes) :
    encodeMessage m = .ok (Utf8.encode (PyValue.json (PyValue.sorted (.dict m'.asDict)))) := by
  have hsorted := (PyValue.size_json_sorted (.dict m'.asDict)).trans_le hsize
  have hmapping : fromMapping m.asDict = .ok m' := Protocol.fromMappingAt_eq_ok.2 h
  unfold encodeMessage
  rw [hmapping]
  show (if !PyValue.dumpable (.dict m'.asDict) then _ else
    if Protocol.maxMessageBytes < PyValue.size (PyValue.json (PyValue.sorted (.dict m'.asDict)))
      then _ else _) = _
  rw [hdump, if_neg (by decide), if_neg (not_lt.2 hsorted)]

end accepted

/-! ## The table that is read -/

section reading

variable {raw : Dict} {m : Message} {table : List (LuaKey × LuaValue)}

theorem exists_of_carries {d : Dict} (h : Carries (.dict d) (.table table)) {key : PyText}
    {v : PyValue} (hmem : (key, v) ∈ d) :
    ∃ w, (.str (Utf8.encode key), w) ∈ table ∧ Carries v w := by
  cases h with
  | dict keys values =>
    have hkey := List.mem_map_of_mem (f := fun e => LuaKey.str (Utf8.encode e.1)) hmem
    obtain ⟨f, hf, hfkey⟩ := List.mem_map.1 (keys.mem_iff.2 hkey)
    have hin : (LuaKey.str (Utf8.encode key), f.2) ∈ table := by
      rw [← hfkey]
      exact hf
    exact ⟨f.2, hin, values _ _ _ hmem hin⟩

theorem nodup_of_carries {d : Dict} (hnodup : (d.map Prod.fst).Nodup)
    (h : Carries (.dict d) (.table table)) : (table.map Prod.fst).Nodup := by
  cases h with
  | dict keys values =>
    have hstr : Function.Injective fun t : PyText => LuaKey.str (Utf8.encode t) :=
      fun a b heq => Utf8.encode_injective (LuaKey.str.inj heq)
    have hmap := hnodup.map hstr
    rw [List.map_map] at hmap
    exact keys.nodup_iff.2 hmap

/-- A version is read as the number. -/
theorem carries_version {v : PyValue} (h : isVersion v = true) {w : LuaValue} :
    Carries v w ↔ w = .num (.finite 2) := by
  cases v with
  | int n =>
    obtain rfl : n = Protocol.version := by simpa only [isVersion, beq_iff_eq] using h
    refine ⟨fun hw => ?_, fun hw => ?_⟩
    · cases hw
      rfl
    · rw [hw]
      exact .int Protocol.version
  | float text =>
    obtain rfl : text = PyText.lit "2.0" := by simpa only [isVersion, beq_iff_eq] using h
    have hvalue : Double.ofRat (Decimal.value (PyText.lit "2.0")) = .finite 2 := by decide +kernel
    refine ⟨fun hw => ?_, fun hw => ?_⟩
    · cases hw
      rw [hvalue]
    · rw [hw, ← hvalue]
      exact .float _
  | _ => cases h

theorem getD_eq {d : Dict} {name : String} {v : PyValue}
    (h : ∀ e ∈ d, e.1 = PyText.lit name → e.2 = v) : (Protocol.get d name).getD v = v := by
  rcases hget : Protocol.get d name with _ | w
  · rfl
  · unfold Protocol.get at hget
    obtain ⟨e, he, rfl⟩ := Option.map_eq_some_iff.1 hget
    exact h e (List.mem_of_find?_eq_some he) (of_decide_eq_true (List.find?_some he :))

theorem isVersion_getD (hversion : isVersion m.protocol = true)
    (hagrees : ∀ e ∈ m.fields, Agrees m e) :
    isVersion ((Protocol.get m.fields "protocol").getD m.protocol) = true := by
  rcases hget : Protocol.get m.fields "protocol" with _ | w
  · exact hversion
  · unfold Protocol.get at hget
    obtain ⟨e, he, rfl⟩ := Option.map_eq_some_iff.1 hget
    have hkey : e.1 = PyText.lit "protocol" := of_decide_eq_true (List.find?_some he :)
    exact (hagrees e (List.mem_of_find?_eq_some he)).protocol hkey

/-- The table of a flat object holds the message. -/
theorem holds_of_carries (hversion : isVersion m.protocol = true)
    (hagrees : ∀ e ∈ m.fields, Agrees m e) (hcarries : Carries (.dict m.asDict) (.table table)) :
    Holds m table := by
  have hmem : ∀ e ∈ ([(PyText.lit "protocol", (Protocol.get m.fields "protocol").getD m.protocol),
      (PyText.lit "request_id", str m.requestId), (PyText.lit "timestamp_ms", int m.timestampMs),
      (PyText.lit "type", str m.type)] : Dict), e ∈ m.asDict := by
    intro e he
    rw [asDict_split, getD_eq fun e he => (hagrees e he).requestId,
      getD_eq fun e he => (hagrees e he).timestamp, getD_eq fun e he => (hagrees e he).type]
    exact List.mem_append_left _ he
  refine ⟨fun key hkey => ?_, fun e he => ?_⟩
  · cases hcarries with
    | dict keys values =>
      obtain ⟨e, he, rfl⟩ := List.mem_map.1 (keys.mem_iff.1 hkey)
      exact ⟨e, mem_asDict he, rfl⟩
  · have hnamed {key : PyText} {v : PyValue} (heq : e = (key, v)) (hin : (key, v) ∈ m.asDict) :
        ∃ w, (.str (Utf8.encode e.1), w) ∈ table ∧ Carries e.2 w := by
      rw [heq]
      exact exists_of_carries hcarries hin
    by_cases hreq : isRequired e.1 = true
    · have hown : e.1 = PyText.lit "protocol" ∧ isVersion e.2 = true ∨
          e = (PyText.lit "request_id", str m.requestId) ∨
          e = (PyText.lit "timestamp_ms", int m.timestampMs) ∨
          e = (PyText.lit "type", str m.type) := by
        rcases List.mem_append.1 he with he | he
        · simp only [Message.envelope, List.mem_cons, List.not_mem_nil, or_false] at he
          rcases he with rfl | he
          · exact .inl ⟨rfl, hversion⟩
          · exact .inr he
        · rcases isRequired_iff.1 hreq with hkey | hkey | hkey | hkey
          · exact .inl ⟨hkey, (hagrees e he).protocol hkey⟩
          · exact .inr (.inl (Prod.ext hkey ((hagrees e he).requestId hkey)))
          · exact .inr (.inr (.inl (Prod.ext hkey ((hagrees e he).timestamp hkey))))
          · exact .inr (.inr (.inr (Prod.ext hkey ((hagrees e he).type hkey))))
      rcases hown with ⟨hkey, hown⟩ | heq | heq | heq
      · obtain ⟨w, hw, hvalue⟩ := exists_of_carries hcarries (hmem _ List.mem_cons_self)
        rw [carries_version (isVersion_getD hversion hagrees)] at hvalue
        rw [hkey]
        exact ⟨w, hw, (carries_version hown).2 hvalue⟩
      · exact hnamed heq (hmem _ (by simp))
      · exact hnamed heq (hmem _ (by simp))
      · exact hnamed heq (hmem _ (by simp))
    · have hfree : e ∈ m.fields := by
        rcases List.mem_append.1 he with he | he
        · have hall : ∀ f ∈ m.envelope, isRequired f.1 = true := by
            intro f hf
            simp only [Message.envelope, List.mem_cons, List.not_mem_nil, or_false] at hf
            rcases hf with rfl | rfl | rfl | rfl <;> exact isRequired_iff.2 (by simp)
          exact absurd (hall e he) hreq
        · exact he
      refine hnamed rfl ?_
      rw [asDict_split]
      refine List.mem_append_right _ (List.mem_filter.2 ⟨hfree, ?_⟩)
      rw [Bool.not_eq_true] at hreq
      rw [hreq]
      rfl

/-! ## The check of the envelope -/

/-- A byte of a text of ASCII is one of its characters. -/
theorem forall_encode {t : PyText} {p : Char → Bool} {q : UInt8 → Bool}
    (hascii : ∀ c, p c = true → c.toNat < 128)
    (hbyte : ∀ b : UInt8, b < 128 → p (Utf8.char b) = true → q b = true)
    (h : ∀ c ∈ t, p c = true) : (Utf8.encode t).length = t.length ∧
      ∀ b ∈ Utf8.encode t, q b = true := by
  induction t with
  | nil => exact ⟨rfl, nofun⟩
  | cons c t ih =>
    obtain ⟨hc, ht⟩ := List.forall_mem_cons.1 h
    obtain ⟨b, rfl, hb, hencode⟩ := Utf8.exists_byte_of_ascii (hascii c hc)
    obtain ⟨hlength, hall⟩ := ih ht
    have hlow : b < 128 := by
      have hnat := hascii _ hc
      rw [← hb] at hnat
      exact hnat
    rw [Utf8.encode_cons, hencode, List.singleton_append, List.length_cons, hlength]
    exact ⟨rfl, List.forall_mem_cons.2 ⟨hbyte b hlow hc, hall⟩⟩

/-- A character of a request id. -/
def idChar (c : Char) : Bool :=
  Protocol.isAlnum c || c == '.' || c == '_' || c == ':' || c == '-'

theorem ascii_of_idChar {c : Char} (h : idChar c = true) : c.toNat < 128 := by
  simp only [idChar, Protocol.isAlnum, Bool.or_eq_true, beq_iff_eq] at h
  rcases h with (((h | rfl) | rfl) | rfl) | rfl
  · have hrange := Utf8.range_of_isAlphanum h
    omega
  all_goals decide

theorem idByte_of_idChar : ∀ b : UInt8, b < 128 → idChar (Utf8.char b) = true →
    Net.idByte b = true :=
  Bytes.forall_byte (p := fun b => b < 128 → idChar (Utf8.char b) = true → Net.idByte b = true)
    (by decide +kernel)

theorem safeStem_encode {t : PyText} (h : Protocol.validRequestId t = true) :
    (IPC.safeStem (.str (Utf8.encode t))).isSome = true := by
  unfold Protocol.validRequestId at h
  split at h
  · cases h
  rename_i first rest
  simp only [Bool.and_eq_true, decide_eq_true_eq, List.all_eq_true] at h
  obtain ⟨⟨hfirst, hlen⟩, hrest⟩ := h
  have hall : ∀ c ∈ first :: rest, idChar c = true := by
    refine List.forall_mem_cons.2 ⟨?_, hrest⟩
    rw [idChar, hfirst]
    rfl
  obtain ⟨hlength, hbytes⟩ := forall_encode (fun c hc => ascii_of_idChar hc) idByte_of_idChar hall
  have hhead : (Utf8.encode (first :: rest)).head?.any Bytes.isAlnum = true := by
    obtain ⟨b, rfl, hb, hencode⟩ := Utf8.exists_byte_of_ascii
      (ascii_of_idChar (hall first List.mem_cons_self))
    have halnum : ∀ b : UInt8, Protocol.isAlnum (Utf8.char b) = true → b < 128 →
        Bytes.isAlnum b = true :=
      Bytes.forall_byte (p := fun b => Protocol.isAlnum (Utf8.char b) = true → b < 128 →
        Bytes.isAlnum b = true) (by decide +kernel)
    rw [Utf8.encode_cons, hencode]
    refine halnum b hfirst ?_
    have hlow := ascii_of_idChar (hall _ List.mem_cons_self)
    rw [← hb] at hlow
    exact hlow
  have hbad : ((Utf8.encode (first :: rest)).any fun b => !Net.idByte b) = false := by
    rw [List.any_eq_false]
    intro b hb
    rw [hbytes b hb]
    exact Bool.false_ne_true
  have hbounds : ((Utf8.encode (first :: rest)).length < 1 ||
      128 < (Utf8.encode (first :: rest)).length) = false := by
    rw [hlength, List.length_cons, Bool.or_eq_false_iff, decide_eq_false_iff_not,
      decide_eq_false_iff_not]
    omega
  unfold IPC.safeStem
  dsimp only
  rw [hbounds, hhead, hbad]
  rfl

theorem typeName_encode {t : PyText} (h : Protocol.validType t = true) :
    IPC.typeName (.str (Utf8.encode t)) = true := by
  unfold Protocol.validType at h
  split at h
  · cases h
  rename_i first rest
  simp only [Bool.and_eq_true, decide_eq_true_eq, List.all_eq_true] at h
  obtain ⟨⟨hfirst, -⟩, hrest⟩ := h
  have hlower {c : Char} (hc : c.isLower = true) : c.isAlphanum = true := by
    show ((c.isUpper || c.isLower) || c.isDigit) = true
    rw [hc, Bool.or_true, Bool.true_or]
  have hall : ∀ c ∈ rest, idChar c = true := by
    intro c hc
    have hclass := hrest c hc
    simp only [idChar, Protocol.isAlnum, Bool.or_eq_true] at hclass ⊢
    rcases hclass with ((((hc | hc) | hc) | hc) | hc) | hc
    · exact .inl (.inl (.inl (.inl (hlower hc))))
    · refine .inl (.inl (.inl (.inl ?_)))
      show (c.isAlpha || c.isDigit) = true
      rw [hc, Bool.or_true]
    · exact .inl (.inl (.inl (.inr hc)))
    · exact .inl (.inl (.inr hc))
    · exact .inl (.inr hc)
    · exact .inr hc
  obtain ⟨-, hbytes⟩ := forall_encode (fun c hc => ascii_of_idChar hc) idByte_of_idChar hall
  have hid : idChar first = true := by
    rw [idChar, Protocol.isAlnum, hlower hfirst]
    rfl
  obtain ⟨b, rfl, hb, hencode⟩ := Utf8.exists_byte_of_ascii (ascii_of_idChar hid)
  have halpha : ∀ b : UInt8, (Utf8.char b).isLower = true → b < 128 → Bytes.isAlpha b = true :=
    Bytes.forall_byte (p := fun b => (Utf8.char b).isLower = true → b < 128 →
      Bytes.isAlpha b = true) (by decide +kernel)
  have hlow : b < 128 := by
    have hnat := ascii_of_idChar hid
    rw [← hb] at hnat
    exact hnat
  rw [Utf8.encode_cons, hencode, List.singleton_append, IPC.typeName, halpha b hfirst hlow,
    Bool.true_and, List.all_eq_true]
  exact hbytes

/-- **The table of an accepted envelope passes the check.** -/
theorem validateMessage_of_carries {m' : Message} (h : Accepts none m.asDict m')
    (hnodup : (m.asDict.map Prod.fst).Nodup) (hcarries : Carries (.dict m.asDict) (.table table))
    {size : ℕ} (hsize : size ≤ Protocol.maxMessageBytes) :
    IPC.validateMessage (.table table) size = true := by
  have htable := nodup_of_carries hnodup hcarries
  have hfield {name : String} {v : PyValue} (hv : Protocol.get m.asDict name = some v) :
      Carries v ((LuaValue.table table).field name) := by
    obtain ⟨w, hw, hvalue⟩ := exists_of_carries hcarries ((Protocol.get_eq_some_iff hnodup).1 hv)
    rw [PyText.lit, ← Utf8.lit_eq_encode] at hw
    rwa [JSON.field_eq htable hw]
  have hprotocol := (carries_version h.version).1 (hfield h.protocol)
  have hid := hfield h.requestId
  have htime := hfield h.timestamp
  have htype := hfield h.type
  generalize hidField : (LuaValue.table table).field "request_id" = idField at hid
  generalize htimeField : (LuaValue.table table).field "timestamp_ms" = timeField at htime
  generalize htypeField : (LuaValue.table table).field "type" = typeField at htype
  cases hid with
  | str t =>
    cases htime with
    | int n =>
      cases htype with
      | str t' =>
        have hpos : IPC.positive (.num (.finite m'.timestampMs)) = true := by
          rw [IPC.positive, decide_eq_true_eq]
          exact_mod_cast h.positive
        have hversion : IPC.isProtocol (.num (.finite 2)) = true := by decide
        unfold IPC.validateMessage
        dsimp only
        rw [hprotocol, hidField, htimeField, htypeField, hversion, safeStem_encode h.validId, hpos,
          typeName_encode h.validType]
        simp only [Bool.and_true, decide_eq_true_eq]
        exact hsize

end reading

/-! ## What the mod reads -/

section reads

variable {raw : Dict} {m : Message}

/-- A message whose fields agree with its envelope is read. -/
theorem reads_of_agrees (hformed : PyJson.Formed (.dict raw)) (h : Accepts none raw m)
    (hmoderate : Moderate m) (htime : Double.IsDouble m.timestampMs)
    (hagrees : ∀ e ∈ m.fields, Agrees m e) : Reads m := by
  obtain ⟨hnodup, hvalues⟩ := Protocol.formed_fields hformed h
  obtain ⟨hdump, hsize⟩ := fits_asDict hformed h
  have hpayload : Protocol.get m.fields "payload" = none :=
    Protocol.get_eq_none fun e he => (hagrees e he).payload
  have haccepts : Accepts none m.asDict ⟨(Protocol.get m.fields "protocol").getD m.protocol,
      m.requestId, m.timestampMs, m.type, m.asDict.filter fun e => !isRequired e.1⟩ := by
    refine ⟨hdump, hsize, get_asDict_protocol m, isVersion_getD h.version hagrees, ?_, h.validId,
      ?_, h.positive, nofun, ?_, h.validType, ?_⟩
    · rw [get_asDict_requestId, getD_eq fun e he => (hagrees e he).requestId]
    · rw [get_asDict_timestamp, getD_eq fun e he => (hagrees e he).timestamp]
    · rw [get_asDict_type, getD_eq fun e he => (hagrees e he).type]
    · rw [Protocol.body, get_asDict_payload, hpayload]
  have hflat := asDict_of_accepts haccepts hpayload
  have hencode := encodeMessage_eq haccepts (by rw [hflat]; exact hdump) (by rw [hflat]; exact hsize)
  rw [hflat] at hencode
  obtain ⟨table, hread, hcarries⟩ :=
    decode_dict (formed_asDict (formed_protocol hformed h) hnodup hvalues) hdump
      (bounded_asDict h.version hnodup htime hmoderate) hsize
  have hlength := (PyValue.size_json_sorted (.dict m.asDict)).trans_le hsize
  exact ⟨_, table, hencode, hread, holds_of_carries h.version hagrees hcarries,
    validateMessage_of_carries haccepts (nodup_keys_asDict hnodup) hcarries hlength⟩

/-- What is accepted of a bounded flat object is bounded. -/
theorem bounded_of_accepts {m' : Message} (h : Accepts none m.asDict m')
    (hnodup : (m.asDict.map Prod.fst).Nodup) (hbounded : Bounded m.asDict)
    (hnodup' : (m'.fields.map Prod.fst).Nodup) : Bounded m'.asDict := by
  rcases Protocol.fields_cases h with ⟨hnone, -⟩ | ⟨hpayload, -⟩
  · rw [get_asDict_payload] at hnone
    rw [asDict_of_accepts h hnone]
    exact hbounded
  have hbody := (Protocol.get_eq_some_iff hnodup).1 hpayload
  have hversion := nodes_of_isVersion h.version
  refine ⟨fun e he w hw => ?_, fun e he => ?_, ?_⟩
  · rcases List.mem_append.1 (mem_asDict he) with he | he
    · simp only [Message.envelope, List.mem_cons, List.not_mem_nil, or_false] at he
      rcases he with rfl | rfl | rfl | rfl
      · exact send_protocol h.version w hw
      · obtain rfl := List.mem_singleton.1 hw
        trivial
      · exact hbounded.send _ ((Protocol.get_eq_some_iff hnodup).1 h.timestamp) w hw
      · obtain rfl := List.mem_singleton.1 hw
        trivial
    · exact (PyValue.forall_inside_dict.1 (hbounded.send _ hbody)).2 e he w hw
  · rcases List.mem_append.1 (mem_asDict he) with he | he
    · simp only [Message.envelope, List.mem_cons, List.not_mem_nil, or_false] at he
      rcases he with rfl | rfl | rfl | rfl
      · exact hversion.2.trans_le (Nat.zero_le _)
      · exact Nat.zero_le _
      · exact Nat.zero_le _
      · exact Nat.zero_le _
    · have hdepth := hbounded.depth _ hbody
      have hentry := PyValue.depthEntries_le_iff.1 le_rfl e he
      rw [PyValue.depth] at hdepth
      omega
  · have hle := sum_le_of_subset (f := fun e => e.2.nodes) (nodup_keys_asDict hnodup').of_map
      fun e he => mem_asDict he
    have hsplit := hbounded.nodes
    -- The payload is one value more than its fields.
    have hkept : (PyText.lit "payload", dict m'.fields) ∈
        m.fields.filter fun e => !isRequired e.1 := by
      rw [← filter_asDict]
      refine List.mem_filter.2 ⟨hbody, ?_⟩
      rw [isRequired_payload]
      rfl
    have hone := List.single_le_sum (fun _ _ => Nat.zero_le _) _
      (List.mem_map_of_mem (f := fun e => e.2.nodes) hkept)
    have hpos (v : PyValue) : 1 ≤ v.nodes := by
      cases v with
      | list => exact Nat.le_add_right 1 _
      | dict => exact Nat.le_add_right 1 _
      | _ => exact le_rfl
    have hfour := hpos ((Protocol.get m.fields "protocol").getD m.protocol)
    have hfour' := hpos ((Protocol.get m.fields "request_id").getD (str m.requestId))
    have hfour'' := hpos ((Protocol.get m.fields "timestamp_ms").getD (int m.timestampMs))
    have hfour''' := hpos ((Protocol.get m.fields "type").getD (str m.type))
    rw [PyValue.nodes, PyValue.nodesEntries_eq, asDict_split, List.map_append, List.sum_append]
      at hsplit
    simp only [List.map_cons, List.map_nil, List.sum_cons, List.sum_nil] at hsplit
    dsimp only at hone
    rw [PyValue.nodes, PyValue.nodesEntries_eq] at hone
    rw [List.map_append, List.sum_append] at hle
    have henvelope : (m'.envelope.map fun e => e.2.nodes).sum = 4 := by
      show m'.protocol.nodes + (1 + (1 + (1 + 0))) = 4
      rw [hversion.1]
    rw [PyValue.nodes, PyValue.nodesEntries_eq]
    omega

theorem exists_mem_of_carries {d : Dict} {table : List (LuaKey × LuaValue)}
    (h : Carries (.dict d) (.table table)) {key : PyText} {w : LuaValue}
    (hmem : (.str (Utf8.encode key), w) ∈ table) : ∃ v, (key, v) ∈ d ∧ Carries v w := by
  cases h with
  | dict keys values =>
    obtain ⟨e, he, hname⟩ := List.mem_map.1 (keys.mem_iff.1 (List.mem_map_of_mem hmem))
    have hkey : e.1 = key := Utf8.encode_injective (LuaKey.str.inj hname)
    subst hkey
    exact ⟨e.2, he, values _ _ _ he hmem⟩

theorem str_eq_of_carries {t t' : PyText} {w : LuaValue} (h : Carries (str t) w)
    (h' : Carries (str t') w) : t = t' := by
  cases h
  generalize hw : LuaValue.str (Utf8.encode t) = w at h'
  cases h'
  exact Utf8.encode_injective (LuaValue.str.inj hw)

theorem int_eq_of_carries {n n' : ℤ} {w : LuaValue} (h : Carries (int n) w)
    (h' : Carries (int n') w) : n = n' := by
  cases h
  generalize hw : LuaValue.num (.finite (n : ℚ)) = w at h'
  cases h'
  exact_mod_cast LuaNum.finite.inj (LuaValue.num.inj hw)

theorem encodeMessage_eq_ok {data : Bytes} (h : encodeMessage m = .ok data) :
    ∃ m', Accepts none m.asDict m' ∧ PyValue.dumpable (.dict m'.asDict) = true ∧
      PyValue.size (PyValue.json (.dict m'.asDict)) ≤ Protocol.maxMessageBytes ∧
      Utf8.encode (PyValue.json (PyValue.sorted (.dict m'.asDict))) = data := by
  rw [encodeMessage, Protocol.bind_eq_ok] at h
  obtain ⟨m', hmapping, hrest⟩ := h
  refine ⟨m', Protocol.fromMappingAt_eq_ok.1 hmapping, ?_⟩
  split at hrest
  · cases hrest
  rename_i hdump
  dsimp only at hrest
  split at hrest
  · cases hrest
  rename_i hsize
  refine ⟨by simpa using hdump, ?_, Except.ok.inj hrest⟩
  rw [← PyValue.size_json_sorted]
  exact not_lt.1 hsize

/-- **A message that is read** has fields that agree with its envelope. -/
theorem agrees_of_reads (hformed : PyJson.Formed (.dict raw)) (h : Accepts none raw m)
    (hmoderate : Moderate m) (hreads : Reads m) :
    Double.IsDouble m.timestampMs ∧ ∀ e ∈ m.fields, Agrees m e := by
  obtain ⟨data, table, hencode, hread, hholds, -⟩ := hreads
  obtain ⟨hnodup, hvalues⟩ := Protocol.formed_fields hformed h
  -- The time in the table was read, so it is a double.
  have htime : Double.IsDouble m.timestampMs := by
    obtain ⟨w, hw, hcarries⟩ := hholds.values (PyText.lit "timestamp_ms", int m.timestampMs)
      (List.mem_append_left _ (by simp [Message.envelope]))
    cases hcarries
    have hne : LuaValue.table table ≠ .nil := fun h => by cases h
    obtain ⟨doc, -, hdoc⟩ := (JSON.decode_eq_iff hne).1 hread
    exact isDouble_of_read hdoc hw
  have hbounded := bounded_asDict h.version hnodup htime hmoderate
  have hflatFormed := formed_asDict (formed_protocol hformed h) hnodup hvalues
  -- What was encoded is a message that the flat object was accepted as.
  obtain ⟨m', haccepts, hdump, hsize, rfl⟩ : ∃ m', Accepts none m.asDict m' ∧
      PyValue.dumpable (.dict m'.asDict) = true ∧
      PyValue.size (PyValue.json (.dict m'.asDict)) ≤ Protocol.maxMessageBytes ∧
      Utf8.encode (PyValue.json (PyValue.sorted (.dict m'.asDict))) = data :=
    encodeMessage_eq_ok hencode
  obtain ⟨hnodup', hvalues'⟩ := Protocol.formed_fields hflatFormed haccepts
  obtain ⟨table', hread', hcarries⟩ :=
    decode_dict (formed_asDict (formed_protocol hflatFormed haccepts) hnodup' hvalues') hdump
      (bounded_of_accepts haccepts (nodup_keys_asDict hnodup) hbounded hnodup') hsize
  rw [hread] at hread'
  obtain rfl := LuaValue.table.inj hread'
  have htable := nodup_of_carries (nodup_keys_asDict hnodup') hcarries
  have hpayload : ∀ e ∈ m.fields, e.1 ≠ PyText.lit "payload" := by
    rintro ⟨key, v⟩ he rfl
    have hget := (Protocol.get_eq_some_iff hnodup).2 he
    rw [← get_asDict_payload] at hget
    rcases Protocol.fields_cases haccepts with ⟨hnone, -⟩ | ⟨hsome, -⟩
    · rw [hget] at hnone
      cases hnone
    · rw [hget] at hsome
      obtain rfl := Option.some_inj.1 hsome
      -- The table would hold the payload under the name, and its own field of that name.
      obtain ⟨w, hw, hvalue⟩ := hholds.values _ (List.mem_append_right _ he)
      obtain ⟨v, hv, hvalue'⟩ := exists_mem_of_carries hcarries hw
      rcases List.mem_append.1 (mem_asDict hv) with hv | hv
      · have hnames : ∀ key ∈ m'.envelope.map Prod.fst, key ≠ PyText.lit "payload" := by
          show ∀ key ∈ ([PyText.lit "protocol", PyText.lit "request_id",
            PyText.lit "timestamp_ms", PyText.lit "type"] : List PyText), key ≠ PyText.lit "payload"
          decide
        exact hnames _ (List.mem_map_of_mem hv) rfl
      · exact carries_absurd hv hvalue' hvalue
  have hheld {name : String} {v v' : PyValue} (hv : (PyText.lit name, v) ∈ m.envelope)
      (hv' : (PyText.lit name, v') ∈ m.fields) : ∃ w, Carries v w ∧ Carries v' w := by
    obtain ⟨w, hw, hvalue⟩ := hholds.values _ (List.mem_append_left _ hv)
    obtain ⟨w', hw', hvalue'⟩ := hholds.values _ (List.mem_append_right _ hv')
    have hone := congrArg Prod.snd (List.inj_on_of_nodup_map htable hw hw' rfl)
    dsimp only at hone
    exact ⟨w, hvalue, by rw [hone]; exact hvalue'⟩
  refine ⟨htime, ?_⟩
  rintro ⟨key, v⟩ he
  refine ⟨hpayload _ he, ?_, ?_, ?_, ?_⟩
  · rintro rfl
    have hget := haccepts.protocol
    rw [get_asDict_protocol, (Protocol.get_eq_some_iff hnodup).2 he] at hget
    obtain rfl := Option.some_inj.1 hget
    exact haccepts.version
  · rintro rfl
    have hget := haccepts.requestId
    rw [get_asDict_requestId, (Protocol.get_eq_some_iff hnodup).2 he] at hget
    obtain rfl := Option.some_inj.1 hget
    obtain ⟨w, hvalue, hvalue'⟩ := hheld (v := str m.requestId) (by simp [Message.envelope]) he
    exact congrArg str (str_eq_of_carries hvalue' hvalue)
  · rintro rfl
    have hget := haccepts.timestamp
    rw [get_asDict_timestamp, (Protocol.get_eq_some_iff hnodup).2 he] at hget
    obtain rfl := Option.some_inj.1 hget
    obtain ⟨w, hvalue, hvalue'⟩ := hheld (v := int m.timestampMs) (by simp [Message.envelope]) he
    exact congrArg int (int_eq_of_carries hvalue' hvalue)
  · rintro rfl
    have hget := haccepts.type
    rw [get_asDict_type, (Protocol.get_eq_some_iff hnodup).2 he] at hget
    obtain rfl := Option.some_inj.1 hget
    obtain ⟨w, hvalue, hvalue'⟩ := hheld (v := str m.type) (by simp [Message.envelope]) he
    exact congrArg str (str_eq_of_carries hvalue' hvalue)

/-- **What the mod reads.** A message that the agent accepted, without nulls and
within the bounds, is sent and read as it is exactly when its time is a double
and its fields agree with its envelope: none is called `payload`, and one that
is called like a part of the envelope is that part. -/
theorem reads_iff (hformed : PyJson.Formed (.dict raw)) (h : fromMapping raw = .ok m)
    (hmoderate : Moderate m) :
    Reads m ↔ Double.IsDouble m.timestampMs ∧ ∀ e ∈ m.fields, Agrees m e := by
  have haccepts := Protocol.fromMappingAt_eq_ok.1 h
  constructor
  · exact agrees_of_reads hformed haccepts hmoderate
  · rintro ⟨htime, hagrees⟩
    exact reads_of_agrees hformed haccepts hmoderate htime hagrees

end reads

/-- The body of the message is one text. -/
theorem moderate_unwrapped (name : String) (text : PyText) :
    Moderate (Protocol.unwrapped name text) := by
  refine ⟨fun e he w hw => ?_, fun e he => ?_, ?_⟩
  · obtain rfl := List.mem_singleton.1 he
    obtain rfl := List.mem_singleton.1 hw
    exact ⟨nofun, nofun⟩
  · obtain rfl := List.mem_singleton.1 he
    exact Nat.zero_le _
  · show (6 : ℕ) ≤ JSON.maxNodes
    decide

theorem reads_iff_chat : Reads (Protocol.unwrapped "text" (PyText.lit "hi")) ↔
    Double.IsDouble (Protocol.unwrapped "text" (PyText.lit "hi")).timestampMs ∧
      ∀ e ∈ (Protocol.unwrapped "text" (PyText.lit "hi")).fields,
        Agrees (Protocol.unwrapped "text" (PyText.lit "hi")) e :=
  reads_iff (Protocol.formed_wrapped "text" (PyText.lit "hi"))
    (Protocol.fromMapping_wrapped "text" (PyText.lit "hi") (by decide))
    (moderate_unwrapped "text" (PyText.lit "hi"))

/-- **A body that names the type**: the chat is read as the event its body
names. -/
theorem reads_renamed : ¬ ∀ raw m, PyJson.Formed (.dict raw) → fromMapping raw = .ok m →
    Moderate m → Reads m := by
  intro hall
  have haccepted := Protocol.fromMapping_wrapped "type" (PyText.lit "event.death") (by decide)
  have hformed := Protocol.formed_wrapped "type" (PyText.lit "event.death")
  have hmoderate := moderate_unwrapped "type" (PyText.lit "event.death")
  obtain ⟨-, hagrees⟩ := agrees_of_reads hformed (Protocol.fromMappingAt_eq_ok.1 haccepted)
    hmoderate (hall _ _ hformed haccepted hmoderate)
  have htype := (hagrees _ List.mem_cons_self).type rfl
  exact absurd (PyValue.str.inj htype) (by decide)

end Wire

end GoblinZomboid
