import GoblinZomboid.Agent.Tracker
import GoblinZomboid.Lib.Bytes
/-!
# What the tracker shows

The HTTP side of `tracker.py`. Its answers are made of named fields, so that
two histories that differ in other fields cannot be told apart from outside.
-/

namespace GoblinZomboid

namespace Tracker

open PyStr (lit)

/-! ## The code -/

/-- A response, with a payload or the bytes of a file. -/
structure Response where
  status : ℕ
  headers : List (String × String)
  body : PyData ⊕ Bytes

/-- What `TrackerApp` has of files: `_static_response`, and the manifest where
there is a map. -/
structure App where
  static : PyStr → Option Response
  manifest : Option PyData

def noStore : List (String × String) := [("Cache-Control", "no-store")]

/-- An answer that says no. -/
def refusal (status : ℕ) (headers : List (String × String)) (error : String) : Response :=
  ⟨status, headers, .inl (.dict [(lit "ok", .bool false), (lit "error", .str (lit error))])⟩

/-- `public_state`. -/
def publicState (s : Store) : Option (Dict × Store) :=
  (state s).map fun p => (publicStateFrom p.1, p.2)

/-- `handle`, of the path as it is after `urlsplit` and `unquote`; none where it
raises. -/
def handle (app : App) (method : String) (route : PyStr) (s : Store) : Option (Response × Store) :=
  if method ≠ "GET" then some (refusal 405 [("Allow", "GET")] "read-only tracker", s)
  else if route = lit "/api/health" ∨ route = lit "/healthz" then
    some (⟨200, [], .inl (.dict [(lit "ok", .bool true),
      (lit "service", .str (lit "goblin-tracker"))])⟩, s)
  else if route = lit "/api/state" then
    (publicState s).map fun p => (⟨200, noStore, .inl (.dict p.1)⟩, p.2)
  else if route = lit "/api/events" then
    (events 100 s).map fun l => (⟨200, noStore, .inl (.dict [(lit "events", .list l)])⟩, s)
  else if route = lit "/api/history/goblin" then
    (history (lit "goblin.primary") 100 s).map fun l =>
      (⟨200, noStore, .inl (.dict [(lit "subject", .str (lit "goblin.primary")),
        (lit "history", .list l)])⟩, s)
  else if route = lit "/api/map/manifest" then
    match app.manifest with
    | some manifest => some (⟨200, noStore, .inl manifest⟩, s)
    | none => some (refusal 404 [] "map layer unavailable", s)
  else if route = lit "/api/stream" then
    (events 16 s).map fun l => (⟨200, [("Content-Type", "text/event-stream"),
      ("Cache-Control", "no-cache")], .inl (.dict [(lit "events", .list l)])⟩, s)
  else some ((app.static route).getD (refusal 404 [] "not found"), s)

/-- What `_stream` sends after `wait_for_update`. -/
def update (s : Store) : Option (PyData × Store) :=
  (state s).bind fun p => (events 16 p.2).map fun l =>
    (.dict [(lit "sequence", .int s.sequence), (lit "state", .dict (publicStateFrom p.1)),
      (lit "events", .list l)], p.2)

/-! ## Histories that look alike -/

/-- Dictionaries that have the same under such keys. -/
def AgreeOn (keys : List String) (d d' : Dict) : Prop :=
  ∀ key ∈ keys, d.lookup (lit key) = d'.lookup (lit key)

/-- Entities that look alike; what is no dictionary is no entity. -/
inductive LikeEntity : PyData → PyData → Prop
  | dict {d d' : Dict} (h : AgreeOn entityFields d d') : LikeEntity (.dict d) (.dict d')
  | other {v v' : PyData} (h : publicEntity v = none) (h' : publicEntity v' = none) :
    LikeEntity v v'

/-- Lists of entities that look alike; what is no list is shown as it is. -/
inductive LikeEntities : PyData → PyData → Prop
  | list {items items' : List PyData} (h : List.Forall₂ LikeEntity items items') :
    LikeEntities (.list items) (.list items')
  | same (v : PyData) : LikeEntities v v

/-- The keys that hold lists of entities. -/
def entityKeys : List String := ["entities", "npcs"]

/-- **States that look alike**: fields that are not allowed are anything, and so
are fields of an entity that are not shown. -/
structure LikeState (d d' : Dict) : Prop where
  plain : ∀ key ∈ allowed, key ∉ entityKeys → d.lookup (lit key) = d'.lookup (lit key)
  entities : ∀ key ∈ entityKeys, Option.Rel LikeEntities (d.lookup (lit key)) (d'.lookup (lit key))

/-- **Events that look alike**: they differ in entries that are not safe. -/
inductive LikeFields : Dict → Dict → Prop
  | nil : LikeFields [] []
  | both (e : PyStr × PyData) {d d' : Dict} (h : LikeFields d d') : LikeFields (e :: d) (e :: d')
  | left (e : PyStr × PyData) {d d' : Dict} (he : ∀ key ∈ safeFields, e.1 ≠ lit key)
      (h : LikeFields d d') : LikeFields (e :: d) d'
  | right (e : PyStr × PyData) {d d' : Dict} (he : ∀ key ∈ safeFields, e.1 ≠ lit key)
      (h : LikeFields d d') : LikeFields d (e :: d')

/-- Operations that look alike: of two records, both go in or neither does. -/
inductive LikeOp : Op → Op → Prop
  | recordState {state state' : Object} (observedAt : Option ℤ) (now : ℤ)
      (h : LikeState state.1 state'.1)
      (hboth : (Log.stateEntry state observedAt now).isSome =
        (Log.stateEntry state' observedAt now).isSome) :
    LikeOp (.recordState state observedAt now) (.recordState state' observedAt now)
  | recordEvent (kind : PyStr) {fields fields' : Object} (observedAt : Option ℤ) (now : ℤ)
      (h : LikeFields fields.1 fields'.1)
      (hboth : (Log.eventEntry kind fields observedAt now).isSome =
        (Log.eventEntry kind fields' observedAt now).isSome) :
    LikeOp (.recordEvent kind fields observedAt now) (.recordEvent kind fields' observedAt now)
  | state : LikeOp .state .state
  | restart : LikeOp .restart .restart
  | diesInState {state state' : Object} (observedAt : Option ℤ) (now : ℤ)
      (h : LikeState state.1 state'.1)
      (hboth : (Log.stateEntry state observedAt now).isSome =
        (Log.stateEntry state' observedAt now).isSome) :
    LikeOp (.diesInState state observedAt now) (.diesInState state' observedAt now)
  | diesInEvent (kind : PyStr) {fields fields' : Object} (observedAt : Option ℤ) (now : ℤ)
      (h : LikeFields fields.1 fields'.1)
      (hboth : (Log.eventEntry kind fields observedAt now).isSome =
        (Log.eventEntry kind fields' observedAt now).isSome) :
    LikeOp (.diesInEvent kind fields observedAt now) (.diesInEvent kind fields' observedAt now)

/-! ## What is shown of them -/

theorem publicEntity_like {v v' : PyData} (h : LikeEntity v v') : publicEntity v = publicEntity v' := by
  cases h with
  | dict h =>
    unfold publicEntity pick
    refine congrArg (fun entries => some (PyData.dict entries)) (List.filterMap_congr fun key hkey => ?_)
    rw [h key hkey]
  | other h h' => rw [h, h']

theorem isSubject_like (subject : PyStr) {v v' : PyData} (h : LikeEntity v v') :
    isSubject subject v = isSubject subject v' := by
  cases h with
  | dict h =>
    have hname := h "npc_id" (by decide)
    have hid := h "id" (by decide)
    unfold isSubject getOr PyData.get
    dsimp only
    rw [hname, hid]
  | other h h' =>
    have hno : ∀ {v : PyData}, publicEntity v = none → isSubject subject v = false := by
      intro v hv
      cases v with
      | dict d => cases hv
      | _ => rfl
    rw [hno h, hno h']

section

variable {v v' : PyData}

theorem publicEntities_like (h : LikeEntities v v') : publicEntities v = publicEntities v' := by
  cases h with
  | list h =>
    unfold publicEntities
    refine congrArg PyData.list ?_
    induction h with
    | nil => rfl
    | cons hhead _ ih => rw [List.filterMap_cons, List.filterMap_cons, publicEntity_like hhead, ih]
  | same v => rfl

theorem truthy_like (h : LikeEntities v v') : v.truthy = v'.truthy := by
  cases h with
  | list h => cases h <;> rfl
  | same v => rfl

theorem any_isSubject_like (subject : PyStr) (h : LikeEntities v v') :
    (iterate v).map (fun l => l.any (isSubject subject)) =
      (iterate v').map fun l => l.any (isSubject subject) := by
  cases h with
  | list h =>
    unfold iterate
    rw [Option.map_some, Option.map_some]
    refine congrArg some ?_
    induction h with
    | nil => rfl
    | cons hhead _ ih => rw [List.any_cons, List.any_cons, isSubject_like subject hhead, ih]
  | same v => rfl

end

section

variable {d d' : Dict}

theorem getOr_like {key : String} {v v' : PyData}
    (hkey : Option.Rel LikeEntities (d.lookup (lit key)) (d'.lookup (lit key)))
    (hv : LikeEntities v v') : LikeEntities (getOr d key v) (getOr d' key v') := by
  unfold getOr
  generalize d.lookup (lit key) = found, d'.lookup (lit key) = found' at hkey
  cases hkey with
  | some h => exact h
  | none => exact hv

/-- **What is shown of a state.** -/
theorem publicStateFrom_like (h : LikeState d d') : publicStateFrom d = publicStateFrom d' := by
  unfold publicStateFrom pick
  rw [List.map_filterMap, List.map_filterMap]
  refine List.filterMap_congr fun key hkey => ?_
  by_cases hentities : key ∈ entityKeys
  · have hspecial : lit key = lit "entities" ∨ lit key = lit "npcs" := by
      rcases List.mem_cons.1 hentities with rfl | hentities
      · exact .inl rfl
      · exact .inr (congrArg lit (List.mem_singleton.1 hentities))
    simp only [Option.map_map, Function.comp_def, if_pos hspecial]
    have hrel := h.entities key hentities
    generalize d.lookup (lit key) = found, d'.lookup (lit key) = found' at hrel
    cases hrel with
    | some hv => rw [Option.map_some, Option.map_some, publicEntities_like hv]
    | none => rfl
  · rw [h.plain key hkey hentities]

/-- **Whom a state is about.** -/
theorem mentions_like (subject : PyStr) (h : LikeState d d') :
    mentions subject d = mentions subject d' := by
  have hentities : LikeEntities (getOr d "entities" (getOr d "npcs" (.list [])))
      (getOr d' "entities" (getOr d' "npcs" (.list []))) :=
    getOr_like (h.entities "entities" (by decide))
      (getOr_like (h.entities "npcs" (by decide)) (.same _))
  have hname := h.plain "npc_id" (by decide) (by decide)
  unfold mentions
  dsimp only
  rw [truthy_like hentities, hname]
  by_cases hself : subject = lit "goblin.primary" ∧
      (getOr d' "entities" (getOr d' "npcs" (.list []))).truthy = false ∧
      (d'.lookup (lit "npc_id")).isSome
  · rw [if_pos hself, if_pos hself]
    obtain ⟨name, hsome⟩ := Option.isSome_iff_exists.1 hself.2.2
    have hsame : isSubject subject (.dict d) = isSubject subject (.dict d') := by
      unfold isSubject getOr
      dsimp only
      rw [hname, hsome]
      rfl
    unfold iterate
    rw [Option.map_some, Option.map_some, List.any_cons, List.any_cons, hsame]
  · rw [if_neg hself, if_neg hself]
    exact any_isSubject_like subject hentities

/-- **What is shown of an event.** -/
theorem eventView_like (h : LikeFields d d') (id : ℕ) (observedAt : ℤ) (kind : PyText) :
    eventView id observedAt kind d = eventView id observedAt kind d' := by
  have hno : ∀ {e : PyStr × PyData}, (∀ key ∈ safeFields, e.1 ≠ lit key) → ¬isSafe e = true := by
    intro e he hsafe
    obtain ⟨key, hkey, heq⟩ := List.any_eq_true.1 hsafe
    exact he key hkey (of_decide_eq_true heq)
  have hsafe : d.filter isSafe = d'.filter isSafe := by
    induction h with
    | nil => rfl
    | both e _ ih => rw [List.filter_cons, List.filter_cons, ih]
    | left e he _ ih => rw [List.filter_cons_of_neg (hno he), ih]
    | right e he _ ih => rw [List.filter_cons_of_neg (hno he), ih]
  unfold eventView
  rw [hsafe]

end

/-! ## What a log shows -/

/-- What the answers make of a state: its time, what is public of it, and whom it
is about. -/
abbrev Seen := ℤ × Dict × (PyStr → Option Bool)

def seenState (e : ℤ × Dict) : Seen :=
  (e.1, publicStateFrom e.2, fun subject => mentions subject e.2)

def seenEvent (e : ℤ × PyText × Dict) : ℕ → PyData := fun id => eventView id e.1 e.2.1 e.2.2

/-- **Logs that look alike.** -/
structure LikeLog (log log' : Log) : Prop where
  states : log.states.map seenState = log'.states.map seenState
  events : log.events.map seenEvent = log'.events.map seenEvent
  keptStates : log.keptStates = log'.keptStates
  keptEvents : log.keptEvents = log'.keptEvents

section

variable {log log' : Log}

/-- The last state. -/
theorem LikeLog.state (h : LikeLog log log') :
    publicStateFrom log.state = publicStateFrom log'.state := by
  have hlast := congrArg List.getLast? h.states
  rw [List.getLast?_map, List.getLast?_map] at hlast
  unfold Log.state
  generalize log.states.getLast? = last, log'.states.getLast? = last' at hlast
  cases last with
  | none =>
    cases last' with
    | none => rfl
    | some e' => cases hlast
  | some e =>
    cases last' with
    | none => cases hlast
    | some e' => exact congrArg (fun seen => seen.2.1) (Option.some.inj hlast)

theorem LikeLog.lastEvents (h : LikeLog log log') (limit : ℕ) :
    log.lastEvents limit = log'.lastEvents limit := by
  have hshown : ∀ log : Log, log.lastEvents limit =
      (((log.events.map seenEvent).zipIdx 1).drop ((log.events.map seenEvent).length -
        min limit log.keptEvents)).map fun row => row.1 row.2 := by
    intro log
    rw [List.zipIdx_map, ← List.map_drop, List.map_map, List.length_map]
    rfl
  rw [hshown log, hshown log', h.events, h.keptEvents]

theorem LikeLog.lastHistory (h : LikeLog log log') (subject : PyStr) (limit : ℕ) :
    log.lastHistory subject limit = log'.lastHistory subject limit := by
  have hshown : ∀ log : Log, log.lastHistory subject limit =
      ((((log.states.map seenState).zipIdx 1).drop ((log.states.map seenState).length -
        min (limit * 4) log.keptStates)).mapM fun row : Seen × ℕ =>
          (row.1.2.2 subject).map (rowView row.2 row.1.1 row.1.2.1)).map (newestOf limit) := by
    intro log
    rw [List.zipIdx_map, ← List.map_drop, List.mapM_map, List.length_map]
    rfl
  rw [hshown log, hshown log', h.states, h.keptStates]

end

/-! ## Runs that look alike -/

theorem lookup_setItem_of_ne (d : Dict) {key k : PyStr} (v : PyData) (hne : k ≠ key) :
    (setItem d key v).lookup k = d.lookup k := by
  have hmiss : (k == key) = false := beq_false_of_ne hne
  unfold setItem
  by_cases hkey : d.any (fun e => e.1 = key) = true
  · rw [if_pos hkey]
    clear hkey
    induction d with
    | nil => rfl
    | cons e d ih =>
      rw [List.map_cons, List.lookup_cons, List.lookup_cons, ih]
      by_cases he : e.1 = key
      · rw [if_pos he, he, hmiss]
      · rw [if_neg he]
  · rw [if_neg hkey]
    clear hkey
    induction d with
    | nil =>
      show (match k == key with
        | true => some v
        | false => none) = none
      rw [hmiss]
    | cons e d ih => rw [List.cons_append, List.lookup_cons, List.lookup_cons, ih]

theorem lookup_setItem_self (d : Dict) (key : PyStr) (v : PyData) :
    (setItem d key v).lookup key = some v := by
  unfold setItem
  by_cases hkey : d.any (fun e => e.1 = key) = true
  · rw [if_pos hkey]
    induction d with
    | nil => cases hkey
    | cons e d ih =>
      rw [List.map_cons, List.lookup_cons]
      by_cases he : e.1 = key
      · rw [if_pos he, beq_self_eq_true]
      · rw [if_neg he, beq_false_of_ne (Ne.symm he)]
        rw [List.any_cons, decide_eq_false he, Bool.false_or] at hkey
        exact ih hkey
  · rw [if_neg hkey]
    induction d with
    | nil => rw [List.nil_append, List.lookup_cons, beq_self_eq_true]
    | cons e d ih =>
      rw [List.any_cons, Bool.or_eq_true, not_or, decide_eq_true_eq] at hkey
      rw [List.cons_append, List.lookup_cons, beq_false_of_ne (Ne.symm hkey.1)]
      exact ih hkey.2

/-- The time in them, states look alike as before. -/
theorem likeState_setItem {d d' : Dict} (h : LikeState d d') (v : PyData) :
    LikeState (setItem d (lit "updated_at") v) (setItem d' (lit "updated_at") v) := by
  refine ⟨fun key hkey hplain => ?_, fun key hkey => ?_⟩
  · by_cases hself : lit key = lit "updated_at"
    · rw [hself, lookup_setItem_self, lookup_setItem_self]
    · rw [lookup_setItem_of_ne d v hself, lookup_setItem_of_ne d' v hself,
        h.plain key hkey hplain]
  · have hne : lit key ≠ lit "updated_at" := by
      rcases List.mem_cons.1 hkey with rfl | hkey
      · decide
      · rw [List.mem_singleton.1 hkey]
        decide
    rw [lookup_setItem_of_ne d v hne, lookup_setItem_of_ne d' v hne]
    exact h.entities key hkey

/-- An entry that looks alike, where there is one. -/
theorem stateEntry_like {d d' : Dict} (h : LikeState d d') (observedAt : Option ℤ) (now : ℤ)
    {e e' : ℤ × Dict} (he : Log.stateEntry d observedAt now = some e)
    (he' : Log.stateEntry d' observedAt now = some e') : seenState e = seenState e' := by
  have hentry : ∀ {d : Dict} {e : ℤ × Dict}, Log.stateEntry d observedAt now = some e →
      ∃ t, timestamp observedAt now = some t ∧ e = (t, setItem d (lit "updated_at") (.int t)) := by
    intro d e he
    obtain ⟨p, hp, rfl⟩ := Option.map_eq_some_iff.1 he
    obtain ⟨t, ht, hp⟩ := Option.bind_eq_some_iff.1 hp
    obtain ⟨text, -, rfl⟩ := Option.map_eq_some_iff.1 hp
    exact ⟨t, ht, rfl⟩
  obtain ⟨t, ht, rfl⟩ := hentry he
  obtain ⟨t', ht', rfl⟩ := hentry he'
  obtain rfl := Option.some.inj (ht.symm.trans ht')
  have hlike := likeState_setItem h (.int t)
  unfold seenState
  rw [publicStateFrom_like hlike, funext fun subject => mentions_like subject hlike]

theorem eventEntry_like {d d' : Dict} (h : LikeFields d d') (kind : PyStr) (observedAt : Option ℤ)
    (now : ℤ) {e e' : ℤ × PyText × Dict} (he : Log.eventEntry kind d observedAt now = some e)
    (he' : Log.eventEntry kind d' observedAt now = some e') : seenEvent e = seenEvent e' := by
  have hentry : ∀ {d : Dict} {e : ℤ × PyText × Dict}, Log.eventEntry kind d observedAt now = some e →
      ∃ t k, timestamp observedAt now = some t ∧ PyStr.encode kind = some k ∧ e = (t, k, d) := by
    intro d e he
    obtain ⟨row, hrow, rfl⟩ := Option.map_eq_some_iff.1 he
    obtain ⟨t, ht, hrow⟩ := Option.bind_eq_some_iff.1 hrow
    unfold eventPayload at hrow
    split at hrow
    · cases hrow
    · obtain ⟨text, -, hrow⟩ := Option.bind_eq_some_iff.1 hrow
      obtain ⟨k, hk, rfl⟩ := Option.map_eq_some_iff.1 hrow
      exact ⟨t, k, ht, hk, rfl⟩
  obtain ⟨t, k, ht, hk, rfl⟩ := hentry he
  obtain ⟨t', k', ht', hk', rfl⟩ := hentry he'
  obtain rfl := Option.some.inj (ht.symm.trans ht')
  obtain rfl := Option.some.inj (hk.symm.trans hk')
  exact funext fun id => eventView_like h id t k

/-- An entry on one side and on the other: in both logs or in neither. -/
theorem like_getD {α : Type} {found found' : Option α} {f f' : α → Log} {log log' : Log}
    (hboth : found.isSome = found'.isSome) (hlog : LikeLog log log')
    (hf : ∀ e e', found = some e → found' = some e' → LikeLog (f e) (f' e')) :
    LikeLog ((found.map f).getD log) ((found'.map f').getD log') := by
  cases found with
  | none =>
    cases found' with
    | none => exact hlog
    | some e' => cases hboth
  | some e =>
    cases found' with
    | none => cases hboth
    | some e' => exact hf e e' rfl rfl

/-- **A step that looks alike** keeps logs that do. -/
theorem likeLog_step {log log' : Log} (hlog : LikeLog log log') (retention : ℕ) {op op' : Op}
    (hop : LikeOp op op') : LikeLog (log.step retention op) (log'.step retention op') := by
  have hsnoc : ∀ {α β : Type} {f : α → β} {l l' : List α} {e e' : α}, l.map f = l'.map f →
      f e = f e' → (l ++ [e]).map f = (l' ++ [e']).map f := by
    intro α β f l l' e e' hl he
    rw [List.map_append, List.map_append, hl, List.map_singleton, List.map_singleton, he]
  cases hop with
  | recordState observedAt now h hboth =>
    refine like_getD hboth hlog fun e e' he he' => ?_
    exact ⟨hsnoc hlog.states (stateEntry_like h observedAt now he he'), hlog.events,
      congrArg (fun n => min (n + 1) retention) hlog.keptStates, hlog.keptEvents⟩
  | recordEvent kind observedAt now h hboth =>
    refine like_getD hboth hlog fun e e' he he' => ?_
    exact ⟨hlog.states, hsnoc hlog.events (eventEntry_like h kind observedAt now he he'),
      hlog.keptStates, congrArg (fun n => min (n + 1) retention) hlog.keptEvents⟩
  | state => exact hlog
  | restart => exact hlog
  | diesInState observedAt now h hboth =>
    refine like_getD hboth hlog fun e e' he he' => ?_
    exact ⟨hsnoc hlog.states (stateEntry_like h observedAt now he he'), hlog.events,
      congrArg (· + 1) hlog.keptStates, hlog.keptEvents⟩
  | diesInEvent kind observedAt now h hboth =>
    refine like_getD hboth hlog fun e e' he he' => ?_
    exact ⟨hlog.states, hsnoc hlog.events (eventEntry_like h kind observedAt now he he'),
      hlog.keptStates, congrArg (· + 1) hlog.keptEvents⟩

theorem likeLog_run (retention : ℕ) {ops ops' : List Op} (h : List.Forall₂ LikeOp ops ops') :
    ∀ {log log' : Log}, LikeLog log log' → LikeLog (Machine.run (Log.step retention) log ops)
      (Machine.run (Log.step retention) log' ops') := by
  induction h with
  | nil => exact fun hlog => hlog
  | cons hop _ ih => exact fun hlog => ih (likeLog_step hlog retention hop)

theorem sequence_state {s s' : Store} {d : Dict} (h : state s = some (d, s')) :
    s'.sequence = s.sequence := by
  unfold state at h
  split at h
  · cases h
    rfl
  split at h
  · cases h
    rfl
  · obtain ⟨d, -, hd⟩ := Option.map_eq_some_iff.1 h
    cases hd
    rfl

/-- **The sequence** counts alike. -/
theorem sequence_step_like {s s' : Store} (h : s.sequence = s'.sequence) {op op' : Op}
    (hop : LikeOp op op') : (step s op).sequence = (step s' op').sequence := by
  have hread : ∀ s : Store, (((state s).map Prod.snd).getD s).sequence = s.sequence := by
    intro s
    cases hs : state s with
    | none => rfl
    | some p => exact sequence_state hs
  have hcount : ∀ {α : Type} {found found' : Option α} {f f' : α → Store},
      found.isSome = found'.isSome → (∀ a, (f a).sequence = s.sequence + 1) →
      (∀ a, (f' a).sequence = s'.sequence + 1) →
      ((found.map f).getD s).sequence = ((found'.map f').getD s').sequence := by
    intro α found found' f f' hboth hf hf'
    cases found with
    | none =>
      cases found' with
      | none => exact h
      | some a => cases hboth
    | some a =>
      cases found' with
      | none => cases hboth
      | some a' => exact (hf a).trans ((congrArg (· + 1) h).trans (hf' a').symm)
  have hdies : ∀ {α : Type} (found : Option α) (s : Store) (f : α → Store),
      (∀ a, (f a).sequence = 0) → ((found.map f).getD s.reopen).sequence = 0 := by
    intro α found s f hf
    cases found with
    | none => rfl
    | some a => exact hf a
  cases hop with
  | recordState observedAt now _ hboth =>
    rw [Log.stateEntry, Log.stateEntry, Option.isSome_map, Option.isSome_map] at hboth
    exact hcount hboth (fun _ => rfl) fun _ => rfl
  | recordEvent kind observedAt now _ hboth =>
    rw [Log.eventEntry, Log.eventEntry, Option.isSome_map, Option.isSome_map] at hboth
    exact hcount hboth (fun _ => rfl) fun _ => rfl
  | state => exact (hread s).trans (h.trans (hread s').symm)
  | restart => rfl
  | diesInState observedAt now _ _ =>
    exact (hdies _ s _ fun _ => rfl).trans (hdies _ s' _ fun _ => rfl).symm
  | diesInEvent kind observedAt now _ _ =>
    exact (hdies _ s _ fun _ => rfl).trans (hdies _ s' _ fun _ => rfl).symm

theorem sequence_run_like {ops ops' : List Op} (h : List.Forall₂ LikeOp ops ops') :
    ∀ {s s' : Store}, s.sequence = s'.sequence →
      (Machine.run step s ops).sequence = (Machine.run step s' ops').sequence := by
  induction h with
  | nil => exact fun hs => hs
  | cons hop _ ih => exact fun hs => ih (sequence_step_like hs hop)

/-! ## What is answered -/

section

variable {s s' : Store} {log log' : Log}

theorem events_like (hs : Tracks s log) (hs' : Tracks s' log') (hlog : LikeLog log log')
    (limit : ℤ) : events limit s = events limit s' := by
  rw [hs.events_eq, hs'.events_eq, hlog.lastEvents]

theorem publicState_like (hs : Tracks s log) (hs' : Tracks s' log') (hlog : LikeLog log log')
    (hpos : 0 < s.retention) (hpos' : 0 < s'.retention) :
    (publicState s).map Prod.fst = (publicState s').map Prod.fst := by
  obtain ⟨next, hnext, -⟩ := hs.state hpos
  obtain ⟨next', hnext', -⟩ := hs'.state hpos'
  rw [publicState, publicState, hnext, hnext']
  exact congrArg some hlog.state

theorem update_like (hs : Tracks s log) (hs' : Tracks s' log') (hlog : LikeLog log log')
    (hpos : 0 < s.retention) (hpos' : 0 < s'.retention) (hsequence : s.sequence = s'.sequence) :
    (update s).map Prod.fst = (update s').map Prod.fst := by
  obtain ⟨next, hnext, htracks, -⟩ := hs.state hpos
  obtain ⟨next', hnext', htracks', -⟩ := hs'.state hpos'
  rw [update, update, hnext, hnext', Option.bind_some, Option.bind_some,
    events_like htracks htracks' hlog, htracks'.events_eq, Option.map_some, Option.map_some,
    hlog.state, hsequence]
  rfl

theorem handle_like (hs : Tracks s log) (hs' : Tracks s' log') (hlog : LikeLog log log')
    (hpos : 0 < s.retention) (hpos' : 0 < s'.retention) (app : App) (method : String)
    (route : PyStr) :
    (handle app method route s).map Prod.fst = (handle app method route s').map Prod.fst := by
  have hmap : ∀ {α : Type} {found found' : Option (α × Store)} (f : α → Response),
      found.map Prod.fst = found'.map Prod.fst →
      (found.map fun p => (f p.1, p.2)).map Prod.fst =
        (found'.map fun p => (f p.1, p.2)).map Prod.fst := by
    intro α found found' f h
    rw [Option.map_map, Option.map_map]
    exact (Option.map_map f Prod.fst found).symm.trans
      ((congrArg (Option.map f) h).trans (Option.map_map f Prod.fst found'))
  have hsame : ∀ {α : Type} {found found' : Option α} (f : α → Response), found = found' →
      (found.map fun a => (f a, s)).map Prod.fst = (found'.map fun a => (f a, s')).map Prod.fst := by
    intro α found found' f h
    rw [h, Option.map_map, Option.map_map]
    rfl
  have hhistory : history (lit "goblin.primary") 100 s = history (lit "goblin.primary") 100 s' := by
    rw [hs.history_eq, hs'.history_eq, hlog.lastHistory]
  unfold handle
  split
  · rfl
  split
  · rfl
  split
  · exact hmap (fun d => ⟨200, noStore, .inl (.dict d)⟩) (publicState_like hs hs' hlog hpos hpos')
  split
  · exact hsame _ (events_like hs hs' hlog 100)
  split
  · exact hsame _ hhistory
  split
  · cases app.manifest <;> rfl
  split
  · exact hsame _ (events_like hs hs' hlog 16)
  · rfl

end

/-- **Nothing else is shown.** After two runs whose records look alike, every
request is answered alike, and so is everyone who listens. -/
theorem answers_like (retention : ℕ) (hretention : 100 ≤ retention) {ops ops' : List Op}
    (hops : List.Forall₂ LikeOp ops ops') :
    (∀ app method route,
      (handle app method route (Machine.run step (.new retention) ops)).map Prod.fst =
        (handle app method route (Machine.run step (.new retention) ops')).map Prod.fst) ∧
      (update (Machine.run step (.new retention) ops)).map Prod.fst =
        (update (Machine.run step (.new retention) ops')).map Prod.fst := by
  obtain ⟨htracks, hsame⟩ := tracks_run (show 0 < retention by omega) ops
  obtain ⟨htracks', hsame'⟩ := tracks_run (show 0 < retention by omega) ops'
  have hlog := likeLog_run retention hops (show LikeLog .empty .empty from ⟨rfl, rfl, rfl, rfl⟩)
  have hsequence := @sequence_run_like ops ops' hops (.new retention) _ rfl
  exact ⟨handle_like htracks htracks' hlog (by omega) (by omega),
    update_like htracks htracks' hlog (by omega) (by omega) hsequence⟩

/-- A field that is not allowed makes no difference. -/
theorem likeState_append (d : Dict) {k : PyStr} (v : PyData) (hk : ∀ key ∈ allowed, lit key ≠ k) :
    LikeState d (d ++ [(k, v)]) := by
  have hlookup : ∀ key ∈ allowed, d.lookup (lit key) = (d ++ [(k, v)]).lookup (lit key) := by
    intro key hkey
    rw [List.lookup_append, List.lookup_cons, beq_false_of_ne (hk key hkey)]
    exact (Option.or_none ..).symm
  refine ⟨fun key hkey _ => hlookup key hkey, fun key hkey => ?_⟩
  have hallowed : ∀ key ∈ entityKeys, key ∈ allowed := by decide
  rw [← hlookup key (hallowed key hkey)]
  cases d.lookup (lit key) with
  | none => exact .none
  | some v => exact .some (.same v)

/-- The companion, and where the server hides its token. -/
def aliveWithToken : Object :=
  ⟨alive.1 ++ [(lit "authority_token", .str (lit "secret"))], by
    exact ⟨by decide, trivial, trivial, trivial⟩⟩

/-- The token is not shown. -/
theorem answers_like_token :
    (update (Machine.run step (.new 100) [.recordState alive (some 5) 9])).isSome = true ∧
      (update (Machine.run step (.new 100) [.recordState alive (some 5) 9])).map Prod.fst =
        (update (Machine.run step (.new 100) [.recordState aliveWithToken (some 5) 9])).map
          Prod.fst :=
  ⟨by decide +kernel, (answers_like 100 le_rfl (.cons (.recordState (some 5) 9
    (likeState_append alive.1 _ (by decide)) (by decide +kernel)) .nil)).2⟩

end Tracker

end GoblinZomboid
