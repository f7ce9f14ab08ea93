import GoblinZomboid.Lib.PyData
import GoblinZomboid.Lib.Run
import GoblinZomboid.Lib.Table
/-!
# `tracker.py`: the history of the map

States and events go into two tables that are cut to their newest rows. The
last state is also held in memory, which is lost when the process ends; the
process can end in the middle of a record, before the table is cut.
-/

namespace GoblinZomboid

namespace Tracker

open PyStr (lit)

/-! ## The code -/

/-- The entries of a dictionary, in the order they came in. -/
abbrev Dict := List (PyStr × PyData)

/-- `d[key] = value`. -/
def setItem (d : Dict) (key : PyStr) (v : PyData) : Dict :=
  if d.any fun e => e.1 = key then d.map fun e => if e.1 = key then (key, v) else e
  else d ++ [(key, v)]

/-- `_json`; none where it raises. -/
def toJson (maximum : ℕ) (v : PyData) : Option PyText :=
  if v.writable then (PyStr.encode v.json).filter fun text => PyValue.size text ≤ maximum
  else none

/-- `int(observed_at or time.time())`, in a column of 64 bits. -/
def timestamp (observedAt : Option ℤ) (now : ℤ) : Option ℤ :=
  let t := (observedAt.filter (· ≠ 0)).getD now
  if -2 ^ 63 ≤ t ∧ t < 2 ^ 63 then some t else none

/-- A row of `tracker_positions`. -/
structure Position where
  observedAt : ℤ
  payload : PyText

/-- A row of `tracker_events`. -/
structure Event where
  observedAt : ℤ
  kind : PyText
  payload : PyText

structure Store where
  retention : ℕ
  positions : Table Position
  events : Table Event
  /-- What a restart loses. -/
  sequence : ℕ
  latest : Dict

/-- `TrackerStore`, on a new file. -/
def Store.new (retention : ℕ) : Store := ⟨retention, .empty, .empty, 0, []⟩

/-- `TrackerStore`, on the file of a process that has ended. -/
def Store.reopen (s : Store) : Store := { s with sequence := 0, latest := [] }

/-- What `record_state` is to hold in memory and to insert. -/
def statePayload (state : Dict) (t : ℤ) : Option (Dict × Position) :=
  let payload := setItem state (lit "updated_at") (.int t)
  (toJson (64 * 1024) (.dict payload)).map fun encoded => (payload, ⟨t, encoded⟩)

/-- `record_state`; none where it raises. -/
def recordState (state : Dict) (observedAt : Option ℤ) (now : ℤ) (s : Store) : Option Store :=
  ((timestamp observedAt now).bind (statePayload state)).map fun p =>
    { s with
      positions := (s.positions.insert p.2).cut s.retention
      latest := p.1
      sequence := s.sequence + 1 }

/-- What `record_event` is to insert. -/
def eventPayload (kind : PyStr) (fields : Dict) (t : ℤ) : Option Event :=
  if kind.isEmpty || kind.length > 64 then none
  else (toJson (16 * 1024) (.dict fields)).bind fun encoded =>
    (PyStr.encode kind).map fun kind => ⟨t, kind, encoded⟩

/-- `record_event`; none where it raises. -/
def recordEvent (kind : PyStr) (fields : Dict) (observedAt : Option ℤ) (now : ℤ) (s : Store) :
    Option Store :=
  ((timestamp observedAt now).bind (eventPayload kind fields)).map fun event =>
    { s with
      events := (s.events.insert event).cut s.retention
      sequence := s.sequence + 1 }

/-- `json.loads`, of what is to be a dictionary. -/
def loads (payload : PyText) : Option Dict :=
  match PyJson.loads payload with
  | some (.dict entries) => some (PyData.ofEntries entries)
  | _ => none

/-- `d.setdefault(key, value)`. -/
def setDefault (d : Dict) (key : PyStr) (v : PyData) : Dict :=
  if d.any fun e => e.1 = key then d else d ++ [(key, v)]

/-- `state`, which keeps what it reads; none where it raises. -/
def state (s : Store) : Option (Dict × Store) :=
  if s.latest ≠ [] then some (s.latest, s)
  else
    match s.positions.newest 1 with
    | [] => some ([], s)
    | (row, _) :: _ => (loads row.payload).map fun d =>
      let d := setDefault d (lit "updated_at") (.int row.observedAt)
      (d, { s with latest := d })

/-- The entries of a dictionary under such keys. -/
def pick (keys : List String) (d : Dict) : Dict :=
  keys.filterMap fun key => (d.lookup (lit key)).map fun v => (lit key, v)

/-- `allowed`. -/
def allowed : List String :=
  ["npc_id", "npc_alive", "npc_active", "body_mode", "server_status", "player_count", "updated_at",
    "entities", "npcs", "squads", "base", "role", "mode", "task", "target_player", "target_npc_id",
    "friendly", "protected", "spawn_status", "spawn_pending", "spawn_attempts"]

/-- What is shown of an entity. -/
def entityFields : List String :=
  ["npc_id", "entity_id", "id", "kind", "name", "role", "base_job", "expedition_role", "squad_id",
    "home_base", "mode", "task", "target_player", "target_npc_id", "friendly", "protected",
    "body_present", "x", "y", "z", "online", "alive", "active"]

def publicEntity : PyData → Option PyData
  | .dict d => some (.dict (pick entityFields d))
  | _ => none

def publicEntities : PyData → PyData
  | .list items => .list (items.filterMap publicEntity)
  | v => v

/-- `public_state_from`. -/
def publicStateFrom (source : Dict) : Dict :=
  (pick allowed source).map fun e =>
    if e.1 = lit "entities" ∨ e.1 = lit "npcs" then (e.1, publicEntities e.2) else e

/-- `safe_fields`. -/
def safeFields : List String :=
  ["npc_id", "player", "speaker", "role", "job", "squad_id", "leader", "member_count", "text",
    "reason", "entity_kind", "entity_id"]

/-- `key in safe_fields`. -/
def isSafe (e : PyStr × PyData) : Bool := safeFields.any fun key => e.1 = lit key

/-- `max(1, min(int(limit), 256))`. -/
def clamp (limit : ℤ) : ℕ := (max 1 (min limit 256)).toNat

/-- An event as it is shown. -/
def eventView (id : ℕ) (observedAt : ℤ) (kind : PyText) (fields : Dict) : PyData :=
  .dict ([(lit "id", .int id), (lit "observed_at", .int observedAt),
    (lit "kind", .str (PyStr.ofText kind))] ++ fields.filter isSafe)

/-- `events`; none where it raises. -/
def events (limit : ℤ) (s : Store) : Option (List PyData) :=
  (s.events.newest (clamp limit)).reverse.mapM fun row =>
    (loads row.1.payload).map (eventView row.2 row.1.observedAt row.1.kind)

/-- What a loop goes through; none where there is nothing to go through. -/
def iterate : PyData → Option (List PyData)
  | .list items => some items
  | .dict d => some (d.map fun e => .str e.1)
  | .str t => some (t.map fun c => .str [c])
  | _ => none

/-- `d.get(key, default)`. -/
def getOr (d : Dict) (key : String) (v : PyData) : PyData := (d.lookup (lit key)).getD v

/-- An entity of this name. -/
def isSubject (subject : PyStr) : PyData → Bool
  | .dict d =>
    match getOr d "npc_id" (PyData.get d "id") with
    | .str t => t = subject
    | _ => false
  | _ => false

/-- Whether a payload is about a subject. -/
def mentions (subject : PyStr) (payload : Dict) : Option Bool :=
  let entities := getOr payload "entities" (getOr payload "npcs" (.list []))
  let entities :=
    if subject = lit "goblin.primary" ∧ entities.truthy = false ∧
        (payload.lookup (lit "npc_id")).isSome then .list [.dict payload]
    else entities
  (iterate entities).map fun l => l.any (isSubject subject)

/-- A row as it is shown, if it is about the subject. -/
def rowView (id : ℕ) (observedAt : ℤ) (state : Dict) (mentioned : Bool) : Option PyData :=
  if mentioned then
    some (.dict [(lit "id", .int id), (lit "observed_at", .int observedAt),
      (lit "state", .dict state)])
  else none

/-- A row of the history; `some none` where it is about another. -/
def historyRow (subject : PyStr) (id : ℕ) (observedAt : ℤ) (payload : Dict) :
    Option (Option PyData) :=
  (mentions subject payload).map (rowView id observedAt (publicStateFrom payload))

/-- `rows_out[-limit:]`. -/
def newestOf (limit : ℕ) (rows : List (Option PyData)) : List PyData :=
  let out := rows.reduceOption
  out.drop (out.length - limit)

/-- `history`; none where it raises. -/
def history (subject : PyStr) (limit : ℤ) (s : Store) : Option (List PyData) :=
  ((s.positions.newest (clamp limit * 4)).reverse.mapM fun row =>
    (loads row.1.payload).bind (historyRow subject row.2 row.1.observedAt)).map
      (newestOf (clamp limit))

/-! ## Runs -/

/-- A dictionary with no key twice, and floats known by their `repr`. -/
abbrev Object := {d : Dict // (PyData.dict d).Formed}

/-- What is called, or happens to the process. -/
inductive Op
  | recordState (state : Object) (observedAt : Option ℤ) (now : ℤ)
  | recordEvent (kind : PyStr) (fields : Object) (observedAt : Option ℤ) (now : ℤ)
  | state
  | restart
  /-- The process ends after an `INSERT` and before the `DELETE`. -/
  | diesInState (state : Object) (observedAt : Option ℤ) (now : ℤ)
  | diesInEvent (kind : PyStr) (fields : Object) (observedAt : Option ℤ) (now : ℤ)

/-- A call that raises leaves the store as it was. -/
def step (s : Store) : Op → Store
  | .recordState state observedAt now => (recordState state observedAt now s).getD s
  | .recordEvent kind fields observedAt now => (recordEvent kind fields observedAt now s).getD s
  | .state => ((Tracker.state s).map Prod.snd).getD s
  | .restart => s.reopen
  | .diesInState state observedAt now =>
    (((timestamp observedAt now).bind (statePayload state)).map fun p =>
      { s.reopen with positions := s.positions.insert p.2 }).getD s.reopen
  | .diesInEvent kind fields observedAt now =>
    (((timestamp observedAt now).bind (eventPayload kind fields)).map fun event =>
      { s.reopen with events := s.events.insert event }).getD s.reopen

/-- The process ends in the middle of a record. -/
def Op.dies : Op → Bool
  | .diesInState .. | .diesInEvent .. => true
  | .recordState .. | .recordEvent .. | .state | .restart => false

/-! ## What is to be answered -/

/-- **All that was recorded**, with its time, and how many of the last are
kept. -/
structure Log where
  states : List (ℤ × Dict)
  events : List (ℤ × PyText × Dict)
  keptStates : ℕ
  keptEvents : ℕ

namespace Log

/-- Nothing yet. -/
def empty : Log := ⟨[], [], 0, 0⟩

/-- A state that is recorded, with its time in it. -/
def stateEntry (state : Dict) (observedAt : Option ℤ) (now : ℤ) : Option (ℤ × Dict) :=
  ((timestamp observedAt now).bind (statePayload state)).map fun p => (p.2.observedAt, p.1)

def eventEntry (kind : PyStr) (fields : Dict) (observedAt : Option ℤ) (now : ℤ) :
    Option (ℤ × PyText × Dict) :=
  ((timestamp observedAt now).bind (eventPayload kind fields)).map fun event =>
    (event.observedAt, event.kind, fields)

/-- One more is kept, up to the retention where the process lives on. -/
def step (retention : ℕ) (log : Log) : Op → Log
  | .recordState state observedAt now =>
    ((stateEntry state observedAt now).map fun e =>
      { log with
        states := log.states ++ [e]
        keptStates := min (log.keptStates + 1) retention }).getD log
  | .recordEvent kind fields observedAt now =>
    ((eventEntry kind fields observedAt now).map fun e =>
      { log with
        events := log.events ++ [e]
        keptEvents := min (log.keptEvents + 1) retention }).getD log
  | .state | .restart => log
  | .diesInState state observedAt now =>
    ((stateEntry state observedAt now).map fun e =>
      { log with states := log.states ++ [e], keptStates := log.keptStates + 1 }).getD log
  | .diesInEvent kind fields observedAt now =>
    ((eventEntry kind fields observedAt now).map fun e =>
      { log with events := log.events ++ [e], keptEvents := log.keptEvents + 1 }).getD log

/-- The last state. -/
def state (log : Log) : Dict := (log.states.getLast?.map Prod.snd).getD []

/-- The last events that are kept, so many at most, numbered in the order they
came in. -/
def lastEvents (limit : ℕ) (log : Log) : List PyData :=
  ((log.events.zipIdx 1).drop (log.events.length - min limit log.keptEvents)).map fun row =>
    eventView row.2 row.1.1 row.1.2.1 row.1.2.2

/-- Of four times as many of the last states, the last so many about a subject. -/
def lastHistory (subject : PyStr) (limit : ℕ) (log : Log) : Option (List PyData) :=
  (((log.states.zipIdx 1).drop (log.states.length - min (limit * 4) log.keptStates)).mapM fun row =>
    historyRow subject row.2 row.1.1 row.1.2).map (newestOf limit)

end Log

/-! ## What is written is read back -/

/-- The rows the records go in as. -/
def written (d : Dict) : PyText := (PyStr.encode (PyData.dict d).json).getD []

def position (e : ℤ × Dict) : Position := ⟨e.1, written e.2⟩

def event (e : ℤ × PyText × Dict) : Event := ⟨e.1, e.2.1, written e.2.2⟩

theorem formedEntries_iff {d : Dict} :
    PyData.FormedEntries d ↔ ∀ e ∈ d, PyData.Formed e.2 := by
  induction d with
  | nil => exact iff_of_true trivial nofun
  | cons e d ih => rw [List.forall_mem_cons, ← ih, PyData.FormedEntries]

/-- Setting an item leaves a dictionary one. -/
theorem formed_setItem {d : Dict} (h : (PyData.dict d).Formed) (key : PyStr) {v : PyData}
    (hv : v.Formed) : (PyData.dict (setItem d key v)).Formed := by
  obtain ⟨hnodup, hentries⟩ := h
  rw [formedEntries_iff] at hentries
  unfold setItem
  by_cases hkey : d.any (fun e => e.1 = key) = true
  · rw [if_pos hkey]
    have hkeys : (d.map fun e => if e.1 = key then (key, v) else e).map Prod.fst = d.map Prod.fst := by
      rw [List.map_map]
      refine List.map_congr_left fun e _ => ?_
      by_cases he : e.1 = key
      · rw [Function.comp_apply, if_pos he, he]
      · rw [Function.comp_apply, if_neg he]
    refine ⟨hkeys ▸ hnodup, formedEntries_iff.2 fun e he => ?_⟩
    obtain ⟨f, hf, rfl⟩ := List.mem_map.1 he
    by_cases hfkey : f.1 = key
    · rw [if_pos hfkey]
      exact hv
    · rw [if_neg hfkey]
      exact hentries f hf
  · rw [if_neg hkey]
    have hnew : ∀ e ∈ d, e.1 ≠ key := fun e he heq =>
      hkey (List.any_eq_true.2 ⟨e, he, decide_eq_true heq⟩)
    refine ⟨?_, formedEntries_iff.2 fun e he => ?_⟩
    · rw [List.map_append, List.nodup_append]
      refine ⟨hnodup, List.nodup_singleton _, fun a ha b hb => ?_⟩
      obtain ⟨e, he, rfl⟩ := List.mem_map.1 ha
      obtain rfl := List.mem_singleton.1 hb
      exact hnew e he
    · rcases List.mem_append.1 he with he | he
      · exact hentries e he
      · rw [List.mem_singleton.1 he]
        exact hv

/-- **What `_json` lets through** is read back as it was. -/
theorem loads_written {d : Dict} (h : (PyData.dict d).Formed) {maximum : ℕ} {text : PyText}
    (hjson : toJson maximum (.dict d) = some text) : text = written d ∧ loads text = some d := by
  unfold toJson at hjson
  by_cases hwritable : (PyData.dict d).writable = true
  · rw [if_pos hwritable, Option.filter_eq_some_iff] at hjson
    have hencode := hjson.1
    refine ⟨by rw [written, hencode]; rfl, ?_⟩
    have htext := PyStr.encode_eq_some.1 hencode
    have hplain : ∀ n, PyChar.lone n ∉ (PyData.dict d).json := by
      intro n hn
      rw [htext] at hn
      obtain ⟨c, -, hc⟩ := List.mem_map.1 hn
      cases hc
    obtain ⟨w, t, hw, ht, hloads⟩ :=
      PyData.loads_json h (PyData.encodable_of_json _ hplain) hwritable
    have hsame : t = text := by
      rw [ht] at htext
      exact List.map_injective_iff.2 (fun a b hab => PyChar.char.inj hab) htext
    rw [hsame] at hloads
    cases w with
    | dict entries =>
      rw [PyData.ofValue, PyData.dict.injEq] at hw
      unfold loads
      rw [hloads, ← hw]
    | _ => cases hw
  · rw [if_neg hwritable] at hjson
    cases hjson

/-- A state holds its time. -/
theorem any_setItem (d : Dict) (key : PyStr) (v : PyData) :
    (setItem d key v).any (fun e => e.1 = key) = true := by
  unfold setItem
  by_cases hkey : d.any (fun e => e.1 = key) = true
  · rw [if_pos hkey]
    obtain ⟨e, he, heq⟩ := List.any_eq_true.1 hkey
    refine List.any_eq_true.2 ⟨(key, v), List.mem_map.2 ⟨e, he, ?_⟩, decide_eq_true rfl⟩
    rw [if_pos (of_decide_eq_true heq)]
  · rw [if_neg hkey]
    refine List.any_eq_true.2 ⟨(key, v), ?_, decide_eq_true rfl⟩
    exact List.mem_append_right _ (List.mem_singleton_self _)

/-- What was recorded of a state is read back, and needs no time. -/
structure StateBack (e : ℤ × Dict) : Prop where
  loads : loads (position e).payload = some e.2
  timed : e.2.any (fun entry => entry.1 = lit "updated_at") = true

/-- **A state that goes in** is written down as it is. -/
theorem of_bind_statePayload {state : Object} {observedAt : Option ℤ} {now : ℤ}
    {p : Dict × Position} (h : (timestamp observedAt now).bind (statePayload state) = some p) :
    p.2 = position (p.2.observedAt, p.1) ∧ StateBack (p.2.observedAt, p.1) := by
  obtain ⟨t, -, hp⟩ := Option.bind_eq_some_iff.1 h
  unfold statePayload at hp
  obtain ⟨text, htext, rfl⟩ := Option.map_eq_some_iff.1 hp
  obtain ⟨hwritten, hloads⟩ := loads_written
    (formed_setItem state.2 _ (show (PyData.int t).Formed from trivial)) htext
  refine ⟨by rw [position, ← hwritten], ?_, any_setItem _ _ _⟩
  rw [position, ← hwritten]
  exact hloads

theorem of_bind_eventPayload {kind : PyStr} {fields : Object} {observedAt : Option ℤ} {now : ℤ}
    {row : Event} (h : (timestamp observedAt now).bind (eventPayload kind fields) = some row) :
    row = event (row.observedAt, row.kind, fields) ∧ loads row.payload = some fields.1 := by
  obtain ⟨t, -, hrow⟩ := Option.bind_eq_some_iff.1 h
  unfold eventPayload at hrow
  by_cases hkind : (kind.isEmpty || decide (kind.length > 64)) = true
  · rw [if_pos hkind] at hrow
    cases hrow
  · rw [if_neg hkind] at hrow
    obtain ⟨text, htext, hrow⟩ := Option.bind_eq_some_iff.1 hrow
    obtain ⟨k, -, rfl⟩ := Option.map_eq_some_iff.1 hrow
    obtain ⟨hwritten, hloads⟩ := loads_written fields.2 htext
    exact ⟨by rw [event, ← hwritten], hloads⟩

/-! ## The store follows the log -/

/-- A table that has so many of the last rows. -/
structure Holds {α : Type} (kept : ℕ) (table : Table α) (rows : List α) : Prop where
  le : kept ≤ rows.length
  shows : table.Shows rows (rows.length - kept)

/-- **The store beside the log.** -/
structure Tracks (s : Store) (log : Log) : Prop where
  positions : Holds log.keptStates s.positions (log.states.map position)
  events : Holds log.keptEvents s.events (log.events.map event)
  enoughStates : min log.states.length s.retention ≤ log.keptStates
  enoughEvents : min log.events.length s.retention ≤ log.keptEvents
  latest : s.latest ≠ [] → log.states.getLast?.map Prod.snd = some s.latest
  statesBack : ∀ e ∈ log.states, StateBack e
  eventsBack : ∀ e ∈ log.events, loads (event e).payload = some e.2.2

section

variable {α : Type} {kept : ℕ} {table : Table α} {rows : List α}

theorem holds_empty : Holds 0 (.empty : Table α) [] := ⟨Nat.zero_le _, Table.shows_empty⟩

/-- A row that goes in. -/
theorem Holds.insert (h : Holds kept table rows) (a : α) :
    Holds (kept + 1) (table.insert a) (rows ++ [a]) := by
  have hlength : (rows ++ [a]).length = rows.length + 1 := List.length_append
  have hle := h.le
  refine ⟨by omega, ?_⟩
  rw [show (rows ++ [a]).length - (kept + 1) = rows.length - kept by omega]
  exact h.shows.insert (Nat.sub_le ..) a

/-- A table that is cut. -/
theorem Holds.cut (h : Holds kept table rows) (retention : ℕ) :
    Holds (min kept retention) (table.cut retention) rows := by
  have hle := h.le
  refine ⟨by omega, ?_⟩
  rw [show rows.length - min kept retention =
    max (rows.length - kept) (rows.length - retention) by omega]
  exact h.shows.cut retention

theorem Holds.length (h : Holds kept table rows) : table.rows.length = kept := by
  have hle := h.le
  rw [h.shows.length]
  omega

/-- The newest rows are the end of the log. -/
theorem Holds.reverse_newest {β : Type} {f : β → α} {l : List β} (h : Holds kept table (l.map f))
    (size : ℕ) :
    (table.newest size).reverse =
      ((l.zipIdx 1).drop (l.length - min size kept)).map (Prod.map f id) := by
  have hle := h.le
  have hnewest := h.shows.reverse_newest size
  rw [List.length_map] at hle hnewest
  rw [hnewest, List.zipIdx_map, List.map_drop,
    show max (l.length - kept) (l.length - size) = l.length - min size kept by omega]

end

variable {s : Store} {log : Log}

/-- A restart loses only what is in memory. -/
theorem Tracks.reopen (h : Tracks s log) : Tracks s.reopen log :=
  { h with latest := fun hne => absurd rfl hne }

/-- **What is read back of the last state.** -/
theorem Tracks.state (h : Tracks s log) (hretention : 0 < s.retention) :
    ∃ s', state s = some (log.state, s') ∧ Tracks s' log ∧ s'.retention = s.retention := by
  unfold Tracker.state
  by_cases hlatest : s.latest ≠ []
  · rw [if_pos hlatest]
    refine ⟨s, ?_, h, rfl⟩
    rw [Log.state, h.latest hlatest]
    rfl
  · rw [if_neg hlatest]
    have hnewest := h.positions.reverse_newest 1
    cases hlast : log.states.getLast? with
    | none =>
      rw [List.getLast?_eq_none_iff.1 hlast] at hnewest
      have hnone : s.positions.newest 1 = [] := by simpa using hnewest
      rw [hnone]
      refine ⟨s, ?_, h, rfl⟩
      rw [Log.state, hlast]
      rfl
    | some e =>
      obtain ⟨init, hinit⟩ := List.getLast?_eq_some_iff.1 hlast
      have hlength : log.states.length = init.length + 1 := by
        rw [hinit]
        exact List.length_append
      have hone : (s.positions.newest 1).reverse = [(position e, init.length + 1)] := by
        have henough := h.enoughStates
        rw [hnewest, show log.states.length - min 1 log.keptStates = init.length by omega, hinit,
          List.zipIdx_append, List.drop_left' (List.length_zipIdx ..), Nat.add_comm 1]
        rfl
      rw [List.reverse_eq_iff.1 hone]
      have hback := h.statesBack e (hinit ▸ List.mem_append_right _ (List.mem_singleton_self e))
      refine ⟨{ s with latest := e.2 }, ?_, { h with latest := fun _ => ?_ }, rfl⟩
      · show (loads (position e).payload).map _ = _
        rw [hback.loads, Option.map_some, setDefault, if_pos hback.timed, Log.state, hlast]
        rfl
      · rw [hlast]
        rfl

/-! ## Run after run -/

theorem tracks_new (retention : ℕ) : Tracks (.new retention) .empty :=
  ⟨holds_empty, holds_empty, Nat.min_le_left .., Nat.min_le_left .., fun hne => absurd rfl hne,
    nofun, nofun⟩

theorem retention_step (s : Store) (op : Op) (hretention : 0 < s.retention) (h : Tracks s log) :
    (step s op).retention = s.retention := by
  cases op with
  | recordState state observedAt now =>
    unfold step recordState
    dsimp only
    cases (timestamp observedAt now).bind (statePayload state) <;> rfl
  | recordEvent kind fields observedAt now =>
    unfold step recordEvent
    dsimp only
    cases (timestamp observedAt now).bind (eventPayload kind fields) <;> rfl
  | state =>
    obtain ⟨s', hs', -, hsame⟩ := h.state hretention
    unfold step
    rw [hs']
    exact hsame
  | restart => rfl
  | diesInState state observedAt now =>
    unfold step
    dsimp only
    cases (timestamp observedAt now).bind (statePayload state) <;> rfl
  | diesInEvent kind fields observedAt now =>
    unfold step
    dsimp only
    cases (timestamp observedAt now).bind (eventPayload kind fields) <;> rfl

/-- What holds of a log and of one more holds of the longer log. -/
theorem forall_snoc {α : Type} {P : α → Prop} {l : List α} {a : α} (hl : ∀ b ∈ l, P b) (ha : P a) :
    ∀ b ∈ l ++ [a], P b := by
  intro b hb
  rcases List.mem_append.1 hb with hb | hb
  · exact hl b hb
  · rw [List.mem_singleton.1 hb]
    exact ha

/-- **One step** of the store is one of the log. -/
theorem tracks_step (h : Tracks s log) (hretention : 0 < s.retention) (op : Op) :
    Tracks (step s op) (log.step s.retention op) := by
  have hstates := h.enoughStates
  have hevents := h.enoughEvents
  cases op with
  | recordState state observedAt now =>
    unfold step Log.step Log.stateEntry recordState
    dsimp only
    cases hp : (timestamp observedAt now).bind (statePayload state) with
    | none => exact h
    | some p =>
      obtain ⟨hrow, hback⟩ := of_bind_statePayload hp
      refine ⟨?_, h.events, ?_, hevents, fun _ => ?_, forall_snoc h.statesBack hback, h.eventsBack⟩
      · show Holds _ ((s.positions.insert p.2).cut s.retention)
          ((log.states ++ [(p.2.observedAt, p.1)]).map position)
        rw [List.map_append, List.map_singleton, ← hrow]
        exact (h.positions.insert p.2).cut s.retention
      · show min (log.states ++ [(p.2.observedAt, p.1)]).length s.retention ≤
          min (log.keptStates + 1) s.retention
        rw [List.length_append, List.length_singleton]
        omega
      · show (log.states ++ [(p.2.observedAt, p.1)]).getLast?.map Prod.snd = some p.1
        rw [List.getLast?_concat]
        rfl
  | recordEvent kind fields observedAt now =>
    unfold step Log.step Log.eventEntry recordEvent
    dsimp only
    cases hrow : (timestamp observedAt now).bind (eventPayload kind fields) with
    | none => exact h
    | some row =>
      obtain ⟨heq, hback⟩ := of_bind_eventPayload hrow
      refine ⟨h.positions, ?_, hstates, ?_, h.latest, h.statesBack,
        forall_snoc h.eventsBack (heq ▸ hback)⟩
      · show Holds _ ((s.events.insert row).cut s.retention)
          ((log.events ++ [(row.observedAt, row.kind, fields.1)]).map event)
        rw [List.map_append, List.map_singleton, ← heq]
        exact (h.events.insert row).cut s.retention
      · show min (log.events ++ [(row.observedAt, row.kind, fields.1)]).length s.retention ≤
          min (log.keptEvents + 1) s.retention
        rw [List.length_append, List.length_singleton]
        omega
  | state =>
    obtain ⟨s', hs', htracks, -⟩ := h.state hretention
    unfold step
    rw [hs']
    exact htracks
  | restart => exact h.reopen
  | diesInState state observedAt now =>
    unfold step Log.step Log.stateEntry
    dsimp only
    cases hp : (timestamp observedAt now).bind (statePayload state) with
    | none => exact h.reopen
    | some p =>
      obtain ⟨hrow, hback⟩ := of_bind_statePayload hp
      refine ⟨?_, h.events, ?_, hevents, fun hne => absurd rfl hne, forall_snoc h.statesBack hback,
        h.eventsBack⟩
      · show Holds (log.keptStates + 1) (s.positions.insert p.2)
          ((log.states ++ [(p.2.observedAt, p.1)]).map position)
        rw [List.map_append, List.map_singleton, ← hrow]
        exact h.positions.insert p.2
      · show min (log.states ++ [(p.2.observedAt, p.1)]).length s.retention ≤ log.keptStates + 1
        rw [List.length_append, List.length_singleton]
        omega
  | diesInEvent kind fields observedAt now =>
    unfold step Log.step Log.eventEntry
    dsimp only
    cases hrow : (timestamp observedAt now).bind (eventPayload kind fields) with
    | none => exact h.reopen
    | some row =>
      obtain ⟨heq, hback⟩ := of_bind_eventPayload hrow
      refine ⟨h.positions, ?_, hstates, ?_, fun hne => absurd rfl hne, h.statesBack,
        forall_snoc h.eventsBack (heq ▸ hback)⟩
      · show Holds (log.keptEvents + 1) (s.events.insert row)
          ((log.events ++ [(row.observedAt, row.kind, fields.1)]).map event)
        rw [List.map_append, List.map_singleton, ← heq]
        exact h.events.insert row
      · show min (log.events ++ [(row.observedAt, row.kind, fields.1)]).length s.retention ≤
          log.keptEvents + 1
        rw [List.length_append, List.length_singleton]
        omega

theorem tracks_run {retention : ℕ} (hretention : 0 < retention) (ops : List Op) :
    Tracks (Machine.run step (.new retention) ops)
        (Machine.run (Log.step retention) .empty ops) ∧
      (Machine.run step (.new retention) ops).retention = retention := by
  induction ops using List.reverseRecOn with
  | nil => exact ⟨tracks_new retention, rfl⟩
  | append_singleton ops op ih =>
    obtain ⟨htracks, hsame⟩ := ih
    rw [Machine.run_snoc, Machine.run_snoc]
    have hpos : 0 < (Machine.run step (.new retention) ops).retention := by rwa [hsame]
    have hstep := tracks_step htracks hpos op
    rw [hsame] at hstep
    exact ⟨hstep, (retention_step _ op hpos htracks).trans hsame⟩

/-- One row too many is kept where the process dies. -/
theorem kept_step_le {retention most : ℕ} (hmost : retention ≤ most)
    (hstates : log.keptStates ≤ most) (hevents : log.keptEvents ≤ most) (op : Op) :
    (log.step retention op).keptStates ≤ most + [op].countP Op.dies ∧
      (log.step retention op).keptEvents ≤ most + [op].countP Op.dies := by
  cases op with
  | recordState state observedAt now =>
    unfold Log.step
    dsimp only
    cases Log.stateEntry state observedAt now with
    | none => exact ⟨hstates, hevents⟩
    | some e => exact ⟨(Nat.min_le_right ..).trans hmost, hevents⟩
  | recordEvent kind fields observedAt now =>
    unfold Log.step
    dsimp only
    cases Log.eventEntry kind fields observedAt now with
    | none => exact ⟨hstates, hevents⟩
    | some e => exact ⟨hstates, (Nat.min_le_right ..).trans hmost⟩
  | state => exact ⟨hstates, hevents⟩
  | restart => exact ⟨hstates, hevents⟩
  | diesInState state observedAt now =>
    unfold Log.step
    dsimp only
    cases Log.stateEntry state observedAt now with
    | none => exact ⟨Nat.le_succ_of_le hstates, Nat.le_succ_of_le hevents⟩
    | some e => exact ⟨Nat.succ_le_succ hstates, Nat.le_succ_of_le hevents⟩
  | diesInEvent kind fields observedAt now =>
    unfold Log.step
    dsimp only
    cases Log.eventEntry kind fields observedAt now with
    | none => exact ⟨Nat.le_succ_of_le hstates, Nat.le_succ_of_le hevents⟩
    | some e => exact ⟨Nat.le_succ_of_le hstates, Nat.succ_le_succ hevents⟩

theorem kept_run_le (retention : ℕ) (ops : List Op) :
    (Machine.run (Log.step retention) .empty ops).keptStates ≤ retention + ops.countP Op.dies ∧
      (Machine.run (Log.step retention) .empty ops).keptEvents ≤
        retention + ops.countP Op.dies := by
  induction ops using List.reverseRecOn with
  | nil => exact ⟨Nat.zero_le _, Nat.zero_le _⟩
  | append_singleton ops op ih =>
    rw [Machine.run_snoc, List.countP_append, ← Nat.add_assoc]
    exact kept_step_le (Nat.le_add_right ..) ih.1 ih.2 op

/-! ## What it answers -/

theorem mapM_congr {α β : Type} {f g : α → Option β} {l : List α} (h : ∀ a ∈ l, f a = g a) :
    l.mapM f = l.mapM g := by
  induction l with
  | nil => rfl
  | cons a l ih =>
    rw [List.mapM_cons, List.mapM_cons, h a (List.mem_cons_self ..),
      ih fun b hb => h b (List.mem_cons_of_mem _ hb)]

theorem mapM_some {α β : Type} (f : α → β) (l : List α) :
    l.mapM (fun a => some (f a)) = some (l.map f) := by
  induction l with
  | nil => rfl
  | cons a l ih =>
    rw [List.mapM_cons, ih]
    rfl

theorem Tracks.events_eq (h : Tracks s log) (limit : ℤ) :
    Tracker.events limit s = some (log.lastEvents (clamp limit)) := by
  unfold Tracker.events Log.lastEvents
  rw [h.events.reverse_newest, List.mapM_map, ← mapM_some]
  refine mapM_congr fun row hrow => ?_
  have hmem : row.1 ∈ log.events :=
    List.fst_mem_of_mem_zipIdx (List.mem_of_mem_drop hrow)
  show (loads (event row.1).payload).map _ = _
  rw [h.eventsBack row.1 hmem]
  rfl

theorem Tracks.history_eq (h : Tracks s log) (subject : PyStr) (limit : ℤ) :
    Tracker.history subject limit s = log.lastHistory subject (clamp limit) := by
  unfold Tracker.history Log.lastHistory
  rw [h.positions.reverse_newest, List.mapM_map]
  congr 1
  refine mapM_congr fun row hrow => ?_
  have hmem : row.1 ∈ log.states :=
    List.fst_mem_of_mem_zipIdx (List.mem_of_mem_drop hrow)
  show (loads (position row.1).payload).bind _ = _
  rw [(h.statesBack row.1 hmem).loads]
  rfl

/-- **What the tracker answers**, after any records, restarts and deaths: the
last state that was recorded, and the last events and states of those its tables
keep; which are as many as the retention says, and one more for each death at
most. -/
theorem run_answers (retention : ℕ) (hretention : 100 ≤ retention) (ops : List Op) :
    let s := Machine.run step (.new retention) ops
    let log := Machine.run (Log.step retention) .empty ops
    (∃ s', state s = some (log.state, s')) ∧
      (∀ limit, events limit s = some (log.lastEvents (clamp limit))) ∧
      (∀ subject limit, history subject limit s = log.lastHistory subject (clamp limit)) ∧
      s.positions.rows.length = log.keptStates ∧ s.events.rows.length = log.keptEvents ∧
      min log.states.length retention ≤ log.keptStates ∧
      min log.events.length retention ≤ log.keptEvents ∧
      log.keptStates ≤ retention + ops.countP Op.dies ∧
      log.keptEvents ≤ retention + ops.countP Op.dies := by
  intro s log
  obtain ⟨htracks, hsame⟩ := tracks_run (show 0 < retention by omega) ops
  obtain ⟨s', hs', -, -⟩ := htracks.state (by omega)
  have hstates := htracks.enoughStates
  have hevents := htracks.enoughEvents
  rw [hsame] at hstates hevents
  exact ⟨⟨s', hs'⟩, htracks.events_eq, htracks.history_eq, htracks.positions.length,
    htracks.events.length, hstates, hevents, kept_run_le retention ops⟩

/-- The state of a companion. -/
def alive : Object :=
  ⟨[(lit "npc_id", .str (lit "goblin.primary"))], by
    exact ⟨List.nodup_singleton _, trivial, trivial⟩⟩

/-- A state, a restart, and a state on which the process ends. -/
def restarted : List Op := [.recordState alive (some 5) 9, .restart, .diesInState alive (some 7) 9]

/-- The state that came in as the process ended is the one that is told. -/
theorem run_answers_restarted :
    (Machine.run (Log.step 100) .empty restarted).states.length = 2 ∧
      ∃ s', state (Machine.run step (.new 100) restarted) =
        some ((Machine.run (Log.step 100) .empty restarted).state, s') :=
  ⟨by decide +kernel, (run_answers 100 le_rfl restarted).1⟩

end Tracker

end GoblinZomboid
