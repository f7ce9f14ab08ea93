import GoblinZomboid.Agent.Validator
import GoblinZomboid.Agent.Driver
import GoblinZomboid.Server.Execute
import GoblinZomboid.Wire.Codec
/-!
# Commands on the wire

The command of an accepted intent is encoded, written and decoded by the
mod. Whatever the intent, the table the bridge checks has the fields the
driver gave the command, each with the same content.
-/

namespace GoblinZomboid

namespace Wire

open PyValue (int str dict)
open Protocol (Dict Message get makeMessage encodeMessage isRequired)
open Controllers (SafeAction)
open Npc (get_optional_self get_optional_ne)

/-! ## Light values -/

/-- A formed value without nulls or large numbers, of this depth and with this
many values in it at most. -/
structure Light (depth nodes : ℕ) (v : PyValue) : Prop where
  formed : PyJson.Formed v
  values : ∀ w ∈ v.inside, w ≠ .none ∧ ∀ n, w = .int n → n.natAbs ≤ 2 ^ 53
  depth : v.depth ≤ depth
  nodes : v.nodes ≤ nodes

theorem Light.mono {d n d' n' : ℕ} {v : PyValue} (h : Light d n v) (hd : d ≤ d') (hn : n ≤ n') :
    Light d' n' v :=
  ⟨h.formed, h.values, h.depth.trans hd, h.nodes.trans hn⟩

theorem light_str (t : PyText) : Light 0 1 (str t) := by
  refine ⟨trivial, fun w hw => ?_, le_rfl, le_rfl⟩
  obtain rfl := List.mem_singleton.1 hw
  exact ⟨nofun, nofun⟩

theorem light_bool (b : Bool) : Light 0 1 (.bool b) := by
  refine ⟨trivial, fun w hw => ?_, le_rfl, le_rfl⟩
  obtain rfl := List.mem_singleton.1 hw
  exact ⟨nofun, nofun⟩

theorem light_int {n : ℤ} (h : n.natAbs ≤ 2 ^ 53) : Light 0 1 (int n) := by
  refine ⟨trivial, fun w hw => ?_, le_rfl, le_rfl⟩
  obtain rfl := List.mem_singleton.1 hw
  refine ⟨nofun, fun k hk => ?_⟩
  obtain rfl := PyValue.int.inj hk
  exact h

theorem light_texts (ts : List PyText) : Light 1 (1 + ts.length) (Npc.texts ts) := by
  have hall : ∀ v ∈ ts.map str, Light 0 1 v := by
    intro v hv
    obtain ⟨t, -, rfl⟩ := List.mem_map.1 hv
    exact light_str t
  refine ⟨?_, ?_, ?_, ?_⟩
  · rw [Npc.texts, PyJson.Formed, PyJson.formedItems_iff]
    exact fun v hv => (hall v hv).formed
  · rw [Npc.texts, PyValue.forall_inside_list]
    exact ⟨⟨(fun h => by cases h), fun _ h => by cases h⟩, fun v hv => (hall v hv).values⟩
  · have hdepth : PyValue.depthItems (ts.map str) = 0 := by
      induction ts with
      | nil => rfl
      | cons t ts ih =>
        rw [List.map_cons, PyValue.depthItems, ih fun v hv => hall v (List.mem_cons_of_mem _ hv)]
        rfl
    rw [Npc.texts, PyValue.depth, hdepth]
  · have hnodes : PyValue.nodesItems (ts.map str) = ts.length := by
      induction ts with
      | nil => rfl
      | cons t ts ih =>
        rw [List.map_cons, PyValue.nodesItems, ih fun v hv => hall v (List.mem_cons_of_mem _ hv),
          List.length_cons]
        exact Nat.add_comm 1 _
    rw [Npc.texts, PyValue.nodes, hnodes]

/-- A dictionary of light values under different keys is light. -/
theorem light_dict {entries : Dict} {d n : ℕ} (hnodup : (entries.map Prod.fst).Nodup)
    (hall : ∀ e ∈ entries, Light d n e.2) :
    Light (d + 1) (1 + entries.length * n) (dict entries) := by
  refine ⟨?_, ?_, ?_, ?_⟩
  · rw [PyJson.Formed, PyJson.formedEntries_iff]
    exact ⟨hnodup, fun e he => (hall e he).formed⟩
  · rw [PyValue.forall_inside_dict]
    exact ⟨⟨(fun h => by cases h), fun _ h => by cases h⟩, fun e he => (hall e he).values⟩
  · have hle := PyValue.depthEntries_le_iff.2 fun e he => (hall e he).depth
    rw [PyValue.depth]
    omega
  · have hle : (entries.map fun e => e.2.nodes).sum ≤ entries.length * n := by
      have hsum := List.sum_le_card_nsmul (entries.map fun e => e.2.nodes) n fun k hk => by
        obtain ⟨e, he, rfl⟩ := List.mem_map.1 hk
        exact (hall e he).nodes
      rwa [List.length_map, Nat.nsmul_eq_mul] at hsum
    rw [PyValue.nodes, PyValue.nodesEntries_eq]
    omega

/-! ## The fields of a command -/

section fields

variable {npcId : PyText} {a : SafeAction} {o : Npc.Orders}

/-- What is known of an action that is put into a command. -/
structure Sent (a : SafeAction) (o : Npc.Orders) : Prop where
  priority : 0 ≤ a.priority ∧ a.priority ≤ 3
  count : ∀ n, a.itemCount = some n → 1 ≤ n ∧ n ≤ 20
  members : a.members.length ≤ 16
  token : Npc.needsToken a o = true → ∃ t, o.authorityToken = str t

/-- The keys of optional parts are some of their names. -/
theorem keys_optional (name : String) (v : Option PyValue) :
    ((Npc.optional name v).map Prod.fst).Sublist [PyText.lit name] := by
  cases v with
  | none => exact List.nil_sublist _
  | some v => exact List.Sublist.refl _

theorem keys_ite (c : Prop) [Decidable c] (name : String) (v : PyValue) :
    ((if c then [(PyText.lit name, v)] else []).map Prod.fst).Sublist [PyText.lit name] := by
  split
  · exact List.Sublist.refl _
  · exact List.nil_sublist _

theorem keys_ite_nil (c : Prop) [Decidable c] (name : String) (v : PyValue) :
    ((if c then [] else [(PyText.lit name, v)]).map Prod.fst).Sublist [PyText.lit name] := by
  split
  · exact List.nil_sublist _
  · exact List.Sublist.refl _

/-- The fields are some of those a command can have, in this order. -/
theorem keys_fields :
    ((Npc.fields npcId a o).map Prod.fst).Sublist (Npc.fieldNames.map PyText.lit) := by
  simp only [Npc.fields, List.map_append]
  exact ((((((((((((List.Sublist.refl _ |>.append (keys_optional ..)).append (keys_ite ..)).append
    (keys_ite ..)).append (keys_ite ..)).append (keys_optional ..)).append (keys_optional ..)).append
    (keys_optional ..)).append (keys_optional ..)).append (keys_optional ..)).append
    (keys_optional ..)).append (keys_optional ..)).append (keys_optional ..)).append
    (keys_ite_nil ..)

/-- No two fields have one name. -/
theorem nodup_fields : ((Npc.fields npcId a o).map Prod.fst).Nodup := by
  have hnames : (Npc.fieldNames.map PyText.lit).Nodup := by decide
  exact keys_fields.nodup hnames

theorem length_fields_le (npcId : PyText) (a : SafeAction) (o : Npc.Orders) :
    (Npc.fields npcId a o).length ≤ 18 := by
  have hle := (@keys_fields npcId a o).length_le
  rwa [List.length_map] at hle

/-- What holds of the value holds of the entry, if there is one. -/
theorem forall_optional {name : String} {v : Option PyValue} {P : PyValue → Prop}
    (h : ∀ w, v = some w → P w) : ∀ e ∈ Npc.optional name v, P e.2 := by
  intro e he
  obtain ⟨w, hw, rfl⟩ := List.mem_map.1 he
  exact h w (Option.mem_toList.1 hw)

theorem forall_ite {name : String} {v : PyValue} {P : PyValue → Prop} {c : Prop} [Decidable c]
    (h : c → P v) : ∀ e ∈ (if c then [(PyText.lit name, v)] else []), P e.2 := by
  intro e he
  split at he
  · rename_i hc
    obtain rfl := List.mem_singleton.1 he
    exact h hc
  · cases he

/-- A string that may be missing. -/
theorem light_text {t : Option PyText} {f : PyText → PyText} {d n : ℕ} (hn : 1 ≤ n) :
    ∀ w, (t.map fun s => str (f s)) = some w → Light d n w := by
  intro w hw
  obtain ⟨s, -, rfl⟩ := Option.map_eq_some_iff.1 hw
  exact (light_str (f s)).mono (Nat.zero_le d) hn

theorem light_target {kind : Option PyText} {label : PyText} {d n : ℕ} (hd : 1 ≤ d) (hn : 3 ≤ n) :
    ∀ w, (kind.map fun k => dict [(PyText.lit "kind", str k), (PyText.lit "label", str label)]) =
      some w → Light d n w := by
  intro w hw
  obtain ⟨k, -, rfl⟩ := Option.map_eq_some_iff.1 hw
  refine (light_dict (d := 0) (n := 1) ?_ ?_).mono hd hn
  · exact (by decide : [PyText.lit "kind", PyText.lit "label"].Nodup)
  · intro e he
    simp only [List.mem_cons, List.not_mem_nil, or_false] at he
    rcases he with rfl | rfl <;> exact light_str _

/-- What is sent as the count is between the bounds. -/
theorem itemCount_between (h : Sent a o) :
    1 ≤ Npc.asDict.itemCount a ∧ Npc.asDict.itemCount a ≤ 20 := by
  have hcount := h.count
  unfold Npc.asDict.itemCount
  cases hn : a.itemCount with
  | none => decide
  | some n =>
    have hbounds := hcount n hn
    show 1 ≤ (if n = 0 then 1 else n) ∧ (if n = 0 then 1 else n) ≤ 20
    split <;> omega

theorem light_item (h : Sent a o) {f : PyText → PyText} {d n : ℕ} (hd : 1 ≤ d) (hn : 3 ≤ n) :
    ∀ w, (a.itemName.map fun name => dict [(PyText.lit "name", str (f name)),
      (PyText.lit "count", int (Npc.asDict.itemCount a))]) = some w → Light d n w := by
  intro w hw
  obtain ⟨name, -, rfl⟩ := Option.map_eq_some_iff.1 hw
  refine (light_dict (d := 0) (n := 1) ?_ ?_).mono hd hn
  · exact (by decide : [PyText.lit "name", PyText.lit "count"].Nodup)
  · intro e he
    simp only [List.mem_cons, List.not_mem_nil, or_false] at he
    rcases he with rfl | rfl
    · exact light_str _
    · have hbounds := itemCount_between h
      exact light_int (by omega)

theorem light_members (h : Sent a o) :
    ∀ e ∈ (if a.members.isEmpty then [] else [(PyText.lit "members", Npc.texts a.members)]),
      Light 1 17 e.2 := by
  intro e he
  split at he
  · cases he
  · obtain rfl := List.mem_singleton.1 he
    have := h.members
    exact (light_texts a.members).mono le_rfl (by omega)

/-- The names of what `as_dict` has. -/
def asDictNames : List String :=
  ["action", "priority", "reason", "npc_id", "target", "item", "leader", "members", "job",
    "formation", "text", "squad_id", "loot_focus"]

theorem keys_asDict : ((Npc.asDict a).map Prod.fst).Sublist (asDictNames.map PyText.lit) := by
  simp only [Npc.asDict, List.map_append]
  exact (((((((((List.Sublist.refl _).append (keys_optional ..)).append (keys_optional ..)).append
    (keys_optional ..)).append (keys_ite_nil ..)).append (keys_optional ..)).append
    (keys_optional ..)).append (keys_optional ..)).append (keys_optional ..)).append
    (keys_optional ..)

/-- What the driver says of the action, as one value. -/
theorem light_asDict (h : Sent a o) : Light 2 222 (dict (Npc.asDict a)) := by
  have hpriority := h.priority
  have hnames : (asDictNames.map PyText.lit).Nodup := by decide
  have hkeys := @keys_asDict a
  have hlength : (Npc.asDict a).length ≤ 13 := by
    have := hkeys.length_le
    rwa [List.length_map] at this
  have hall : ∀ e ∈ Npc.asDict a, Light 1 17 e.2 := by
    unfold Npc.asDict
    simp only [List.forall_mem_append]
    refine ⟨⟨⟨⟨⟨⟨⟨⟨⟨?_, forall_optional (light_target le_rfl (by decide))⟩,
      forall_optional (light_item h le_rfl (by decide))⟩, forall_optional (light_text (by decide))⟩,
      light_members h⟩, forall_optional (light_text (by decide))⟩,
      forall_optional (light_text (by decide))⟩, forall_optional (light_text (by decide))⟩,
      forall_optional (light_text (by decide))⟩, forall_optional (light_text (by decide))⟩
    intro e he
    simp only [List.mem_cons, List.not_mem_nil, or_false] at he
    rcases he with rfl | rfl | rfl | rfl
    · exact (light_str _).mono (by decide) (by decide)
    · exact (light_int (by omega)).mono (by decide) (by decide)
    · exact (light_str _).mono (by decide) (by decide)
    · exact (light_str _).mono (by decide) (by decide)
  refine (light_dict (hkeys.nodup hnames) hall).mono le_rfl ?_
  omega

theorem light_fields (npcId : PyText) (h : Sent a o) : ∀ e ∈ Npc.fields npcId a o, Light 2 222 e.2 := by
  have hpriority := h.priority
  unfold Npc.fields
  simp only [List.forall_mem_append]
  refine ⟨⟨⟨⟨⟨⟨⟨⟨⟨⟨⟨⟨⟨?_, forall_optional (light_text (by decide))⟩, forall_ite fun hc => ?_⟩,
    forall_ite fun _ => (light_bool _).mono (by decide) (by decide)⟩,
    forall_ite fun _ => (light_bool _).mono (by decide) (by decide)⟩,
    forall_optional (light_target (by decide) (by decide))⟩,
    forall_optional (light_item h (by decide) (by decide))⟩,
    forall_optional (light_text (by decide))⟩, forall_optional (light_text (by decide))⟩,
    forall_optional (light_text (by decide))⟩, forall_optional (light_text (by decide))⟩,
    forall_optional (light_text (by decide))⟩, forall_optional (light_text (by decide))⟩,
    fun e he => (light_members h e he).mono (by decide) (by decide)⟩
  · intro e he
    simp only [List.mem_cons, List.not_mem_nil, or_false] at he
    rcases he with rfl | rfl | rfl | rfl | rfl
    · exact (light_str _).mono (by decide) (by decide)
    · exact (light_str _).mono (by decide) (by decide)
    · exact (light_int (by omega)).mono (by decide) (by decide)
    · exact (light_str _).mono (by decide) (by decide)
    · exact light_asDict h
  · obtain ⟨t, ht⟩ := h.token hc
    rw [ht]
    exact (light_str t).mono (by decide) (by decide)

/-- A command is the message it was made to be. -/
theorem eq_of_makeMessage {clock : ℤ} {type requestId : PyText} {m : Message}
    (h : makeMessage clock type requestId 0 (Npc.fields npcId a o) = .ok m) :
    m = ⟨int Protocol.version, requestId, clock, type, Npc.fields npcId a o⟩ := by
  have hnames : ∀ e ∈ Npc.fields npcId a o, isRequired e.1 = false ∧ e.1 ≠ PyText.lit "payload" :=
    fun e he => Npc.name_of_mem_fields he
  have hfields := Protocol.fields_of_makeMessage hnames h
  have haccepts := Protocol.fromMappingAt_eq_ok.1 h
  have hdict : Message.asDict ⟨int Protocol.version, requestId, clock, type,
      Npc.fields npcId a o⟩ = Message.envelope ⟨int Protocol.version, requestId, clock, type,
        Npc.fields npcId a o⟩ ++ Npc.fields npcId a o := Protocol.asDict_eq fun e he => (hnames e he).1
  obtain ⟨protocol, id, time, type', fields'⟩ := m
  have hprotocol := haccepts.protocol
  have hid := haccepts.requestId
  have htime := haccepts.timestamp
  have htype := haccepts.type
  rw [if_pos rfl, hdict] at hprotocol hid htime htype
  obtain rfl : int Protocol.version = protocol := Option.some_inj.1 hprotocol
  obtain rfl : requestId = id := PyValue.str.inj (Option.some_inj.1 hid)
  obtain rfl : clock = time := PyValue.int.inj (Option.some_inj.1 htime)
  obtain rfl : type = type' := PyValue.str.inj (Option.some_inj.1 htype)
  rw [show fields' = Npc.fields npcId a o from hfields]

/-- The value of a dictionary under a name is carried by the field of that
name. -/
theorem field_of_carries {d : Dict} {w : LuaValue} (hnodup : (d.map Prod.fst).Nodup)
    (h : Carries (dict d) w) {name : String} {v : PyValue} (hv : get d name = some v) :
    Carries v (w.field name) := by
  cases w with
  | table table =>
    obtain ⟨w, hw, hvalue⟩ := exists_of_carries h ((Protocol.get_eq_some_iff hnodup).1 hv)
    rw [PyText.lit, ← Utf8.lit_eq_encode] at hw
    rwa [JSON.field_eq (nodup_of_carries hnodup h) hw]
  | _ => cases h

/-- A name the dictionary does not have is no field. -/
theorem field_of_missing {d : Dict} {w : LuaValue} (h : Carries (dict d) w) {name : String}
    (hnone : get d name = none) : w.field name = .nil := by
  cases h with
  | @dict entries table keys values =>
    have hfind : (table.find? fun e => e.1 = .str (Bytes.lit name)) = none := by
      refine List.find?_eq_none.2 fun e he hkey => ?_
      obtain ⟨f, hf, hfkey⟩ := List.mem_map.1 (keys.mem_iff.1 (List.mem_map_of_mem he))
      rw [decide_eq_true_eq, ← hfkey, Utf8.lit_eq_encode] at hkey
      have hname : f.1 = PyText.lit name := Utf8.encode_injective (LuaKey.str.inj hkey)
      have hsome : (d.find? fun e => e.1 = PyText.lit name).isSome :=
        List.find?_isSome.2 ⟨f, hf, decide_eq_true hname⟩
      unfold Protocol.get at hnone
      rw [Option.map_eq_none_iff] at hnone
      rw [hnone] at hsome
      cases hsome
    rw [LuaValue.field, LuaValue.get, hfind]
    rfl

theorem eq_num_of_carries {n : ℤ} {w : LuaValue} (h : Carries (int n) w) :
    w = .num (.finite n) := by
  cases h
  rfl

theorem eq_str_of_carries {t : PyText} {w : LuaValue} (h : Carries (str t) w) :
    w = .str (Utf8.encode t) := by
  cases h
  rfl

theorem orEmpty_of_carries {d : Dict} {w : LuaValue} (h : Carries (dict d) w) : w.orEmpty = w := by
  cases h
  rfl

/-- The table of a command has the content of each of its fields, and no other
field but those of the envelope. -/
structure Received (fields : Dict) (table : List (LuaKey × LuaValue)) : Prop where
  nodup : (table.map Prod.fst).Nodup
  field : ∀ name v, get fields name = some v → Carries v ((LuaValue.table table).field name)
  missing : ∀ name, isRequired (PyText.lit name) = false → get fields name = none →
    (LuaValue.table table).field name = .nil
  keys : ∀ e ∈ table, ∃ key, e.1 = .str (Utf8.encode key) ∧
    (isRequired key = true ∨ key ∈ fields.map Prod.fst)

/-- **A command is read by the mod**: it is encoded, and decoded to a table
with its fields. -/
theorem exists_received {clock : ℤ} {type requestId : PyText} {m : Message} (hsent : Sent a o)
    (hclock : clock.natAbs ≤ 2 ^ 53)
    (h : makeMessage clock type requestId 0 (Npc.fields npcId a o) = .ok m) :
    ∃ data table, encodeMessage m = .ok data ∧ jsonDecode data = .table table ∧
      Carries (dict m.asDict) (.table table) ∧ Received (Npc.fields npcId a o) table := by
  have hnames : ∀ e ∈ Npc.fields npcId a o, isRequired e.1 = false ∧ e.1 ≠ PyText.lit "payload" :=
    fun e he => Npc.name_of_mem_fields he
  have haccepts := Protocol.fromMappingAt_eq_ok.1 h
  rw [if_pos rfl] at haccepts
  have hm := eq_of_makeMessage h
  rw [← hm] at haccepts
  have hlight := light_fields npcId hsent
  have hfields : m.fields = Npc.fields npcId a o := by rw [hm]
  have hnodup : (m.fields.map Prod.fst).Nodup := hfields ▸ nodup_fields
  have hprotocol : m.protocol = int Protocol.version := by rw [hm]
  have hformed : PyJson.Formed (dict m.asDict) :=
    formed_asDict (hprotocol ▸ trivial) hnodup fun e he => (hlight e (hfields ▸ he)).formed
  have hmoderate : Moderate m := by
    refine ⟨fun e he => (hlight e (hfields ▸ he)).values, fun e he => ?_, ?_⟩
    · exact (hlight e (hfields ▸ he)).depth.trans (by decide)
    · have hall : ∀ e ∈ m.envelope ++ m.fields, e.2.nodes ≤ 222 := by
        rw [List.forall_mem_append]
        refine ⟨fun e he => ?_, fun e he => (hlight e (hfields ▸ he)).nodes⟩
        rw [Message.envelope, hprotocol] at he
        simp only [List.mem_cons, List.not_mem_nil, or_false] at he
        rcases he with rfl | rfl | rfl | rfl <;> exact (by decide : 1 ≤ 222)
      have hsum := List.sum_le_card_nsmul ((m.envelope ++ m.fields).map fun e => e.2.nodes) 222
        fun k hk => by
          obtain ⟨e, he, rfl⟩ := List.mem_map.1 hk
          exact hall e he
      have hlength := length_fields_le npcId a o
      rw [← hfields] at hlength
      have henvelope : m.envelope.length = 4 := rfl
      rw [List.length_map, List.length_append, Nat.nsmul_eq_mul] at hsum
      rw [PyValue.nodes, PyValue.nodesEntries_eq]
      have hmax : JSON.maxNodes = 20000 := rfl
      omega
  have htime : Double.IsDouble m.timestampMs := by
    rw [hm]
    exact Double.ofRat_intCast hclock
  have hbounded := bounded_asDict haccepts.version hnodup htime hmoderate
  obtain ⟨table, hread, hcarries⟩ :=
    decode_dict hformed haccepts.dumpable hbounded haccepts.size
  refine ⟨_, table, encodeMessage_eq haccepts haccepts.dumpable haccepts.size, hread, hcarries,
    ?_⟩
  have hflat : m.asDict = m.envelope ++ Npc.fields npcId a o := by
    rw [← hfields]
    exact Protocol.asDict_eq fun e he => (hnames e (hfields ▸ he)).1
  have hkeys : (m.asDict.map Prod.fst).Nodup := nodup_keys_asDict hnodup
  have henvelope : ∀ f ∈ m.envelope, isRequired f.1 = true := by
    have hall : ∀ name ∈ Protocol.required, isRequired (PyText.lit name) = true := by decide
    intro f hf
    simp only [Message.envelope, List.mem_cons, List.not_mem_nil, or_false] at hf
    rcases hf with rfl | rfl | rfl | rfl <;> exact hall _ (by decide)
  have hget {name : String} (hfree : isRequired (PyText.lit name) = false) :
      get m.asDict name = get (Npc.fields npcId a o) name := by
    have hnone : get m.envelope name = none := by
      refine Protocol.get_eq_none fun f hf hname => ?_
      rw [← hname, henvelope f hf] at hfree
      cases hfree
    rw [hflat, Protocol.get_append, hnone, Option.none_or]
  refine ⟨nodup_of_carries hkeys hcarries, fun name v hv => ?_, fun name hfree hnone => ?_,
    fun e he => ?_⟩
  · have hmem := (Protocol.get_eq_some_iff nodup_fields).1 hv
    exact field_of_carries hkeys hcarries ((hget (hnames _ hmem).1).trans hv)
  · exact field_of_missing hcarries ((hget hfree).trans hnone)
  · cases hcarries with
    | dict keys values =>
      obtain ⟨f, hf, hfkey⟩ := List.mem_map.1 (keys.mem_iff.1 (List.mem_map_of_mem he))
      refine ⟨f.1, hfkey.symm, ?_⟩
      rw [hflat, List.mem_append] at hf
      exact hf.imp (henvelope f) fun hf => List.mem_map_of_mem hf

/-! ## The fields by name -/

theorem get_ite_ne {name name' : String} (h : PyText.lit name' ≠ PyText.lit name) (c : Prop)
    [Decidable c] (v : PyValue) :
    get (if c then [(PyText.lit name', v)] else []) name = none := by
  refine Protocol.get_eq_none fun e he => ?_
  split at he
  · rw [List.mem_singleton.1 he]
    exact h
  · cases he

theorem get_ite_nil_ne {name name' : String} (h : PyText.lit name' ≠ PyText.lit name) (c : Prop)
    [Decidable c] (v : PyValue) :
    get (if c then [] else [(PyText.lit name', v)]) name = none := by
  refine Protocol.get_eq_none fun e he => ?_
  split at he
  · cases he
  · rw [List.mem_singleton.1 he]
    exact h

theorem get_head_ne {name : String} (h : ∀ name' ∈ ["npc_id", "action", "priority", "reason",
      "controller_action"], PyText.lit name' ≠ PyText.lit name) (v w x y z : PyValue) :
    get [(PyText.lit "npc_id", v), (PyText.lit "action", w), (PyText.lit "priority", x),
      (PyText.lit "reason", y), (PyText.lit "controller_action", z)] name = none := by
  refine Protocol.get_eq_none fun e he => ?_
  simp only [List.mem_cons, List.not_mem_nil, or_false] at he
  rcases he with rfl | rfl | rfl | rfl | rfl <;> exact h _ (by decide)

theorem get_ite_self (name : String) (c : Prop) [Decidable c] (v : PyValue) :
    get (if c then [(PyText.lit name, v)] else []) name = if c then some v else none := by
  split
  · simp [Protocol.get]
  · rfl

theorem get_ite_nil_self (name : String) (c : Prop) [Decidable c] (v : PyValue) :
    get (if c then [] else [(PyText.lit name, v)]) name = if c then none else some v := by
  split
  · rfl
  · simp [Protocol.get]

section get

variable (npcId : PyText) (a : SafeAction) (o : Npc.Orders)

theorem get_item_fields : get (Npc.fields npcId a o) "item" = a.itemName.map fun name => dict
    [(PyText.lit "name", str (name.take 64)),
      (PyText.lit "count", int (Npc.asDict.itemCount a))] := by
  unfold Npc.fields
  simp (disch := decide) only [Protocol.get_append, get_optional_self, get_optional_ne, get_ite_ne,
    get_ite_nil_ne, get_head_ne, Option.none_or, Option.or_none]

theorem get_target_fields : get (Npc.fields npcId a o) "target" = a.targetKind.map fun kind => dict
    [(PyText.lit "kind", str kind),
      (PyText.lit "label", str ((a.targetLabel.getD []).take 96))] := by
  unfold Npc.fields
  simp (disch := decide) only [Protocol.get_append, get_optional_self, get_optional_ne, get_ite_ne,
    get_ite_nil_ne, get_head_ne, Option.none_or, Option.or_none]

theorem get_job_fields : get (Npc.fields npcId a o) "job" = a.job.map str := by
  unfold Npc.fields
  simp (disch := decide) only [Protocol.get_append, get_optional_self, get_optional_ne, get_ite_ne,
    get_ite_nil_ne, get_head_ne, Option.none_or, Option.or_none]

theorem get_text_fields :
    get (Npc.fields npcId a o) "text" = a.text.map fun t => str (Npc.compactSpeech t) := by
  unfold Npc.fields
  simp (disch := decide) only [Protocol.get_append, get_optional_self, get_optional_ne, get_ite_ne,
    get_ite_nil_ne, get_head_ne, Option.none_or, Option.or_none]

theorem get_lootFocus_fields :
    get (Npc.fields npcId a o) "loot_focus" = a.lootFocus.map str := by
  unfold Npc.fields
  simp (disch := decide) only [Protocol.get_append, get_optional_self, get_optional_ne, get_ite_ne,
    get_ite_nil_ne, get_head_ne, Option.none_or, Option.or_none]

theorem get_token_fields : get (Npc.fields npcId a o) "authority_token" =
    if Npc.needsToken a o then some o.authorityToken else none := by
  unfold Npc.fields
  simp (disch := decide) only [Protocol.get_append, get_ite_self, get_optional_ne, get_ite_ne,
    get_ite_nil_ne, get_head_ne, Option.none_or, Option.or_none]

theorem get_autonomous_fields : get (Npc.fields npcId a o) "autonomous" =
    if o.autonomous then some (.bool true) else none := by
  unfold Npc.fields
  simp (disch := decide) only [Protocol.get_append, get_ite_self, get_optional_ne, get_ite_ne,
    get_ite_nil_ne, get_head_ne, Option.none_or, Option.or_none]

theorem get_freewill_fields : get (Npc.fields npcId a o) "freewill" =
    if (o.freewill && !o.autonomous) = true then some (.bool true) else none := by
  unfold Npc.fields
  simp (disch := decide) only [Protocol.get_append, get_ite_self, get_optional_ne, get_ite_ne,
    get_ite_nil_ne, get_head_ne, Option.none_or, Option.or_none]

/-- The fields the bridge does not know, and what fills them. -/
theorem get_squad_fields : get (Npc.fields npcId a o) "leader" = a.leader.map str ∧
    get (Npc.fields npcId a o) "formation" = a.formation.map str ∧
    get (Npc.fields npcId a o) "squad_id" = a.squadId.map str ∧
    get (Npc.fields npcId a o) "members" =
      if a.members.isEmpty then none else some (Npc.texts a.members) := by
  unfold Npc.fields
  refine ⟨?_, ?_, ?_, ?_⟩
  all_goals
    simp (disch := decide) only [Protocol.get_append, get_optional_self, get_optional_ne,
      get_ite_ne, get_ite_nil_ne, get_ite_nil_self, get_head_ne, Option.none_or, Option.or_none]

end get

/-- What the gate and the driver have checked. -/
theorem sent_of_admitted {u : Unicode} {d : Npc.Driver} (h : d.refusal u a o = none)
    (hmembers : a.members.length ≤ 16) : Sent a o := by
  unfold Npc.Driver.refusal at h
  split_ifs at h with hgate hid hoffline htoken
  rw [Option.not_isSome_iff_eq_none] at hgate
  unfold Controllers.refusal at hgate
  dsimp only at hgate
  split_ifs at hgate with hpriority hkind hlabel hcount
  simp only [Bool.or_eq_true, decide_eq_true_eq, not_or, not_lt] at hpriority
  refine ⟨hpriority, fun n hn => ?_, hmembers, fun hneeds => ?_⟩
  · simpa [hn] using hcount
  · rw [hneeds, Bool.true_and, Bool.not_eq_true', Bool.not_eq_false] at htoken
    cases htok : o.authorityToken with
    | str t => exact ⟨t, rfl⟩
    | _ =>
      rw [htok] at htoken
      cases htoken

end fields

end Wire

end GoblinZomboid
