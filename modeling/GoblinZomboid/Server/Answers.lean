import GoblinZomboid.Server.Replay
import GoblinZomboid.Server.Replies
/-!
# A command is answered once

What each call of `process` writes: a response and an acknowledgement, and
the copy that archives the command. In one session every request gets one
answer before it is archived, unless its execution ends in an error or the
bridge has forgotten it when it comes again.
-/

namespace GoblinZomboid

namespace Bridge

open IPC (Folder File Letter Channel Clock Destination)

/-- What is written, file after file. -/
inductive Output
  | letter (l : Letter)
  | archived (stem : Bytes) (destination : Destination) (reason : String)

/-- What the world is like when a command is processed, and the time. -/
structure Moment where
  scene : Scene
  clock : Clock

namespace Host

def archiveEvents (f : Folder) (stem : Bytes) (destination : Destination) (reason : String) :
    List Output :=
  match IPC.safeStem (.str stem) with
  | none => []
  | some safe => if (f.json safe).isNone then [] else [.archived safe destination reason]

/-- `IPC.writeResponse` and then `IPC.acknowledge`. -/
def answer (m : Moment) (requestId : Bytes) (status : String) (detail : Bytes) : List Output :=
  let enabled := m.scene.env.config.enabled
  let response := IPC.writeResponse m.clock enabled (.str requestId) (Bytes.lit status) detail
  let ack := IPC.acknowledge m.clock enabled (.str requestId) (Bytes.lit status)
  (response.toList ++ ack.toList).map .letter

/-- The end of `process`, in what it writes. -/
def finalizeEvents (w : Host) (m : Moment) (stem requestId : Bytes) (accepted : Bool)
    (detail : Bytes) : List Output :=
  let status := if accepted then "accepted" else "failed"
  answer m requestId status detail ++
    archiveEvents w.folder stem .archive ("Goblin command finalized: " ++ status)

/-- `process`, in what it writes. -/
def events (w : Host) (m : Moment) (stem : Bytes) : List Output :=
  match IPC.readReady w.folder stem with
  | none => archiveEvents w.folder stem .deadletter "malformed Goblin command"
  | some message =>
    let requestId := (message.field "request_id").str?.getD []
    match (Bridge.process m.scene.env m.scene.findByNpcId m.scene.findForOwner m.scene.foodBusy
      message w.seen m.scene.grants).1 with
    | .malformed => archiveEvents w.folder stem .deadletter "malformed Goblin command"
    | .duplicate => archiveEvents w.folder stem .archive "duplicate Goblin request"
    | .rejected =>
      answer m requestId "rejected" (Bytes.lit "Goblin command failed server validation") ++
        archiveEvents w.folder stem .archive "Goblin command rejected"
    | .absent =>
      w.finalizeEvents m stem requestId false
        (Bytes.lit "requested player's Goblin is not present")
    | .routed (.refuse detail) => w.finalizeEvents m stem requestId false (Bytes.lit detail)
    | .routed _ =>
      match m.scene.execution with
      | .accepted detail => w.finalizeEvents m stem requestId true detail
      | .refused detail => w.finalizeEvents m stem requestId false detail
      | .error => []

/-- The command goes to `Brain.execute`, and that raises an error. -/
def raises (w : Host) (m : Moment) (stem : Bytes) : Bool :=
  match IPC.readReady w.folder stem with
  | none => false
  | some message =>
    match (Bridge.process m.scene.env m.scene.findByNpcId m.scene.findForOwner m.scene.foodBusy
      message w.seen m.scene.grants).1 with
    | .routed (.refuse _) => false
    | .routed _ => (m.scene.execution matches .error)
    | _ => false

end Host

/-! ## A session -/

/-- One call of `process`: the request it is for and what it writes. -/
structure Turn where
  stem : Bytes
  request : Option Bytes
  events : List Output

/-- What happens in a session: ticks, and files that are delivered. -/
inductive Errand
  | list (ready enabled : Bool)
  | next (m : Moment)
  | write (stem : Bytes) (file : Option File)
  | index (entries : List LuaValue)

def Errand.move : Errand → Move
  | .list ready enabled => .list ready enabled
  | .next m => .next m.scene
  | .write stem file => .write stem file
  | .index entries => .index entries

/-- A bridge and what its calls of `process` have done, in order. -/
structure Session where
  host : Host
  turns : List Turn

namespace Session

def step (s : Session) (e : Errand) : Session where
  host := s.host.step e.move
  turns :=
    match e, s.host.queue with
    | .next m, stem :: rest =>
      s.turns ++ [⟨stem, s.host.incoming, { s.host with queue := rest }.events m stem⟩]
    | _, _ => s.turns

/-- A new session over any folder. -/
def start (f : Folder) : Session := ⟨Host.start f, []⟩

/-- The session after a run. -/
def after (f : Folder) (errands : List Errand) : Session := Machine.run step (start f) errands

/-- The requests that have been processed. -/
def asked (turns : List Turn) : List Bytes := turns.filterMap Turn.request

end Session

/-! ## What is promised -/

/-- How many letters of a call go to a request. -/
def Turn.letters (t : Turn) (channel : Channel) (id : Bytes) : ℕ :=
  t.events.countP fun
    | .letter l => l.channel = channel && l.stem = id
    | .archived .. => false

/-- How many letters of the session go to a request. -/
def letters (turns : List Turn) (channel : Channel) (id : Bytes) : ℕ :=
  (turns.map fun t => t.letters channel id).sum

/-- One response, one acknowledgement and then the archive. -/
def AnswersAt (events : List Output) (stem id : Bytes) : Prop :=
  ∃ response ack reason, events = [.letter response, .letter ack, .archived stem .archive reason] ∧
    response.channel = .responses ∧ response.stem = id ∧ ack.channel = .acks ∧ ack.stem = id

/-- The archive alone. -/
def DropsAt (events : List Output) (stem : Bytes) : Prop :=
  ∃ reason, events = [.archived stem .archive reason]

/-- **Every command is answered exactly once**: a request that comes for the
first time is answered and archived, one that comes again is only archived,
and so each has one response and one acknowledgement. -/
structure Answered (turns : List Turn) : Prop where
  each : ∀ pre t post, turns = pre ++ t :: post → ∀ id, t.request = some id →
    if id ∈ Session.asked pre then DropsAt t.events t.stem else AnswersAt t.events t.stem id
  total : ∀ id ∈ Session.asked turns,
    letters turns .responses id = 1 ∧ letters turns .acks id = 1

/-- **The proviso**: an execution does not end in an error, and a request
that comes again is still remembered. -/
def Session.Kept (s : Session) : Errand → Prop
  | .next m => ∀ id stem rest, s.host.queue = stem :: rest → s.host.incoming = some id →
    if id ∈ asked s.turns then id ∈ s.host.seen
    else { s.host with queue := rest }.raises m stem = false
  | _ => True

namespace Host

variable {w : Host} {m : Moment} {stem id : Bytes} {message : LuaValue}

/-! ## One call -/

/-- The request a ready command names can be published under. -/
theorem request_of_readReady {f : Folder} (h : IPC.readReady f stem = some message) :
    ∃ id, message.field "request_id" = .str id ∧ IPC.safeStem (.str id) = some id := by
  obtain ⟨-, ⟨file, -, rfl⟩, -⟩ := IPC.readReady_spec h
  have hvalid : ∃ n, IPC.validateMessage file.decoded n = true := by
    unfold IPC.readReady at h
    split at h
    · cases h
    · split at h
      · cases h
      · rename_i file' _
        split at h
        · cases h
        · split at h
          · rename_i hvalid
            exact ⟨_, Option.some_inj.1 h ▸ hvalid⟩
          · cases h
  obtain ⟨n, hvalid⟩ := hvalid
  unfold IPC.validateMessage at hvalid
  split at hvalid
  · simp only [Bool.and_eq_true] at hvalid
    obtain ⟨id, hid⟩ := Option.isSome_iff_exists.1 hvalid.1.1.2
    have hstr := IPC.safeStem_eq_some hid
    exact ⟨id, hstr, hstr ▸ hid⟩
  · cases hvalid

/-- A command that could be read is archived. -/
theorem archiveEvents_of_readReady {f : Folder} (h : IPC.readReady f stem = some message)
    (destination : Destination) (reason : String) :
    archiveEvents f stem destination reason = [.archived stem destination reason] := by
  obtain ⟨hsafe, ⟨file, hfile, -⟩, -⟩ := IPC.readReady_spec h
  unfold archiveEvents
  rw [hsafe]
  dsimp only
  rw [hfile, if_neg]
  rw [Option.isNone_some]
  exact Bool.false_ne_true

/-- **An answer** is a response and an acknowledgement. -/
theorem answer_eq (hid : IPC.safeStem (.str id) = some id) (m : Moment) {status : String}
    (hstatus : (Bytes.lit status).length ≤ 512) (detail : Bytes) :
    ∃ response ack, answer m id status detail = [.letter response, .letter ack] ∧
      response.channel = .responses ∧ response.stem = id ∧ ack.channel = .acks ∧ ack.stem = id := by
  obtain ⟨response, hresponse⟩ :=
    IPC.writeResponse_written m.clock m.scene.env.config.enabled hid hstatus detail
  obtain ⟨ack, hack⟩ := IPC.acknowledge_written m.clock m.scene.env.config.enabled hid hstatus
  refine ⟨⟨.responses, id, response⟩, ⟨.acks, id, ack⟩, ?_, rfl, rfl, rfl, rfl⟩
  unfold answer
  dsimp only
  rw [hresponse, hack]
  rfl

theorem answers_then_archive (h : IPC.readReady w.folder stem = some message)
    (hid : IPC.safeStem (.str id) = some id) {status : String}
    (hstatus : (Bytes.lit status).length ≤ 512) (detail : Bytes) (reason : String) :
    AnswersAt (answer m id status detail ++ archiveEvents w.folder stem .archive reason) stem id := by
  obtain ⟨response, ack, hanswer, hfacts⟩ := answer_eq hid m hstatus detail
  refine ⟨response, ack, reason, ?_, hfacts⟩
  rw [hanswer, archiveEvents_of_readReady h]
  rfl

theorem answers_finalize (h : IPC.readReady w.folder stem = some message)
    (hid : IPC.safeStem (.str id) = some id) (accepted : Bool) (detail : Bytes) :
    AnswersAt (w.finalizeEvents m stem id accepted detail) stem id := by
  cases accepted with
  | true => exact answers_then_archive h hid (by decide) detail _
  | false => exact answers_then_archive h hid (by decide) detail _

/-- How the check of a command ends: a request that is remembered is a
duplicate, and no other is. -/
theorem process_outcome
    (htype : Authority.fieldIs message "type" (Bytes.lit "command.npc_action") = true)
    (hid : (message.field "request_id").str?.getD [] = id) (m : Moment) (seen : Seen) :
    (id ∈ seen → (Bridge.process m.scene.env m.scene.findByNpcId m.scene.findForOwner
        m.scene.foodBusy message seen m.scene.grants).1 = .duplicate) ∧
      (id ∉ seen → (Bridge.process m.scene.env m.scene.findByNpcId m.scene.findForOwner
          m.scene.foodBusy message seen m.scene.grants).1 ≠ .duplicate ∧
        (Bridge.process m.scene.env m.scene.findByNpcId m.scene.findForOwner
          m.scene.foodBusy message seen m.scene.grants).1 ≠ .malformed) := by
  unfold Bridge.process
  rw [htype, hid, Bool.not_true, if_neg Bool.false_ne_true]
  constructor
  · intro hseen
    have hremember : remember seen id = none := by
      unfold remember
      rw [if_pos (List.contains_iff_mem.2 hseen)]
    rw [hremember]
  · intro hnew
    obtain ⟨seen', hremember⟩ : ∃ seen', remember seen id = some seen' := by
      unfold remember
      rw [if_neg (by rwa [List.contains_iff_mem])]
      exact ⟨_, rfl⟩
    rw [hremember]
    dsimp only
    split
    · exact ⟨nofun, nofun⟩
    · split
      · exact ⟨nofun, nofun⟩
      · split <;> exact ⟨nofun, nofun⟩

/-- **What a call of `process` writes** for a command: nothing but the
archive for a request it remembers; else an answer before it, or nothing at
all when the execution ends in an error. -/
theorem events_command (h : IPC.readReady w.folder stem = some message)
    (htype : Authority.fieldIs message "type" (Bytes.lit "command.npc_action") = true)
    (hid : message.field "request_id" = .str id) :
    (id ∈ w.seen → DropsAt (w.events m stem) stem) ∧
      (id ∉ w.seen → w.raises m stem = false → AnswersAt (w.events m stem) stem id) ∧
      (w.raises m stem = true → w.events m stem = []) := by
  obtain ⟨id', hid', hsafe⟩ := request_of_readReady h
  obtain rfl := LuaValue.str.inj (hid.symm.trans hid')
  have hrequest : (message.field "request_id").str?.getD [] = id := by rw [hid]; rfl
  obtain ⟨hduplicate, hother⟩ := process_outcome htype hrequest m w.seen
  unfold events raises
  rw [h]
  dsimp only
  rw [hrequest]
  generalize (Bridge.process m.scene.env m.scene.findByNpcId m.scene.findForOwner m.scene.foodBusy
    message w.seen m.scene.grants).1 = outcome at hduplicate hother ⊢
  cases outcome with
  | malformed =>
    by_cases hseen : id ∈ w.seen
    · cases hduplicate hseen
    · exact absurd rfl (hother hseen).2
  | duplicate =>
    exact ⟨fun _ => ⟨_, archiveEvents_of_readReady h _ _⟩,
      fun hnew => absurd rfl (hother hnew).1, nofun⟩
  | rejected =>
    exact ⟨fun hseen => (by cases hduplicate hseen),
      fun _ _ => answers_then_archive h hsafe (by decide) _ _, nofun⟩
  | absent =>
    exact ⟨fun hseen => (by cases hduplicate hseen), fun _ _ => answers_finalize h hsafe false _,
      nofun⟩
  | routed route =>
    refine ⟨fun hseen => (by cases hduplicate hseen), ?_⟩
    -- what the brain answers, once the command is handed to it
    have hbrain : (id ∉ w.seen → (m.scene.execution matches .error) = false →
        AnswersAt (match m.scene.execution with
          | .accepted detail => w.finalizeEvents m stem id true detail
          | .refused detail => w.finalizeEvents m stem id false detail
          | .error => []) stem id) ∧
        ((m.scene.execution matches .error) = true → (match m.scene.execution with
          | .accepted detail => w.finalizeEvents m stem id true detail
          | .refused detail => w.finalizeEvents m stem id false detail
          | .error => []) = []) := by
      cases m.scene.execution with
      | accepted detail => exact ⟨fun _ _ => answers_finalize h hsafe true detail, nofun⟩
      | refused detail => exact ⟨fun _ _ => answers_finalize h hsafe false detail, nofun⟩
      | error => exact ⟨nofun, fun _ => rfl⟩
    cases route with
    | refuse detail => exact ⟨fun _ _ => answers_finalize h hsafe false _, nofun⟩
    | offline normalized => exact hbrain
    | order normalized ownerAuthorized freewill => exact hbrain

/-- The command the next call is for. -/
theorem incoming_spec {rest : List Bytes} (hqueue : w.queue = stem :: rest)
    (h : w.incoming = some id) : ∃ message, IPC.readReady w.folder stem = some message ∧
      Authority.fieldIs message "type" (Bytes.lit "command.npc_action") = true ∧
      message.field "request_id" = .str id := by
  unfold incoming at h
  rw [hqueue] at h
  dsimp only at h
  cases hread : IPC.readReady w.folder stem with
  | none =>
    rw [hread] at h
    cases h
  | some message =>
    rw [hread] at h
    dsimp only at h
    split at h
    · rename_i htype
      exact ⟨message, rfl, htype, LuaValue.str?_eq_some.1 h⟩
    · cases h

theorem letters_archive (f : Folder) (stem : Bytes) (destination : Destination) (reason : String) :
    ∀ e ∈ archiveEvents f stem destination reason, ∀ l, e ≠ .letter l := by
  intro e he l
  unfold archiveEvents at he
  split at he
  · cases he
  · split at he
    · cases he
    · rw [List.mem_singleton.1 he]
      nofun

/-- What is no command is answered to nobody. -/
theorem events_malformed {rest : List Bytes} (hqueue : w.queue = stem :: rest)
    (h : w.incoming = none) (m : Moment) :
    ∀ e ∈ { w with queue := rest }.events m stem, ∀ l, e ≠ .letter l := by
  unfold incoming at h
  rw [hqueue] at h
  dsimp only at h
  unfold events
  dsimp only
  cases hread : IPC.readReady w.folder stem with
  | none => exact letters_archive _ _ _ _
  | some message =>
    rw [hread] at h
    dsimp only at h ⊢
    obtain ⟨id, hid, -⟩ := request_of_readReady hread
    rw [hid] at h
    split at h
    · cases h
    · rename_i htype
      rw [Bool.not_eq_true] at htype
      have hout : (Bridge.process m.scene.env m.scene.findByNpcId m.scene.findForOwner
          m.scene.foodBusy message w.seen m.scene.grants).1 = .malformed := by
        unfold Bridge.process
        rw [htype, Bool.not_false, if_pos rfl]
      rw [hout]
      exact letters_archive _ _ _ _

theorem seen_execute (w : Host) (scene : Scene) (stem requestId : Bytes) :
    (w.execute scene stem requestId).seen = w.seen := by
  unfold execute
  cases scene.execution <;> rfl

theorem seen_process_eq (w : Host) (scene : Scene) (stem : Bytes) :
    (w.process scene stem).seen =
      match IPC.readReady w.folder stem with
      | none => w.seen
      | some message => (Bridge.process scene.env scene.findByNpcId scene.findForOwner
          scene.foodBusy message w.seen scene.grants).2.1 := by
  unfold process
  cases IPC.readReady w.folder stem with
  | none => rfl
  | some message =>
    dsimp only
    generalize Bridge.process scene.env scene.findByNpcId scene.findForOwner scene.foodBusy message
      w.seen scene.grants = r
    obtain ⟨outcome, seen, grants⟩ := r
    cases outcome with
    | routed route =>
      cases route with
      | refuse detail => rfl
      | offline normalized => exact seen_execute _ _ _ _
      | order normalized ownerAuthorized freewill => exact seen_execute _ _ _ _
    | _ => rfl

theorem mem_of_remember {seen seen' : Seen} {x : Bytes} (h : remember seen id = some seen')
    (hx : x ∈ seen') : x ∈ seen ∨ x = id := by
  have hlist : x ∈ seen ++ [id] := by
    unfold remember at h
    split at h
    · cases h
    · have h := Option.some_inj.1 h
      split at h
      · exact List.mem_of_mem_tail (h ▸ hx)
      · exact h ▸ hx
  rcases List.mem_append.1 hlist with hx | hx
  · exact Or.inl hx
  · exact Or.inr (List.mem_singleton.1 hx)

/-- The memory of the bridge holds nothing but requests it was given. -/
theorem seen_process {rest : List Bytes} (hqueue : w.queue = stem :: rest) {x : Bytes}
    (h : x ∈ ({ w with queue := rest }.process m.scene stem).seen) :
    x ∈ w.seen ∨ w.incoming = some x := by
  rw [seen_process_eq] at h
  dsimp only at h
  unfold incoming
  rw [hqueue]
  dsimp only
  cases hread : IPC.readReady w.folder stem with
  | none =>
    rw [hread] at h
    exact Or.inl h
  | some message =>
    rw [hread] at h
    dsimp only at h ⊢
    obtain ⟨id, hid, -⟩ := request_of_readReady hread
    rcases process_seen m.scene message w.seen m.scene.grants with ⟨hsame, -⟩ | ⟨htype, hremember⟩
    · exact Or.inl (hsame ▸ h)
    · rw [hid] at hremember ⊢
      rw [if_pos htype]
      exact (mem_of_remember hremember h).imp_right fun heq => congrArg some heq.symm

/-! ## What the folders hold -/

/-- The copy an archive makes. -/
def copyOf : Output → Option (Destination × Bytes × String)
  | .archived stem destination reason => some (destination, stem, reason)
  | .letter _ => none

/-- The request a response is for. -/
def respondent : Output → Option Bytes
  | .letter l => if l.channel = .responses then some l.stem else none
  | .archived .. => none

theorem copies_archive (f : Folder) (stem : Bytes) (destination : Destination) (reason : String)
    (doneWritten : Bool) : (IPC.archiveReady f stem destination reason doneWritten).copies =
      (archiveEvents f stem destination reason).filterMap copyOf ++ f.copies := by
  unfold IPC.archiveReady archiveEvents
  cases IPC.safeStem (.str stem) with
  | none => rfl
  | some safe =>
    dsimp only
    split <;> rfl

theorem respondent_archive (f : Folder) (stem : Bytes) (destination : Destination)
    (reason : String) : (archiveEvents f stem destination reason).filterMap respondent = [] := by
  refine List.filterMap_eq_nil_iff.2 fun e he => ?_
  cases e with
  | letter l => exact absurd rfl (letters_archive f stem destination reason _ he l)
  | archived stem destination reason => rfl

theorem answer_writes (hid : IPC.safeStem (.str id) = some id) (m : Moment) {status : String}
    (hstatus : (Bytes.lit status).length ≤ 512) (detail : Bytes) :
    (answer m id status detail).filterMap copyOf = [] ∧
      (answer m id status detail).filterMap respondent = [id] := by
  obtain ⟨response, ack, hanswer, hrc, hrs, hac, -⟩ := answer_eq hid m hstatus detail
  have hack : ack.channel ≠ .responses := by rw [hac]; nofun
  have hresponse : respondent (.letter response) = some id := by
    unfold respondent
    dsimp only
    rw [if_pos hrc, hrs]
  have hnone : respondent (.letter ack) = none := by
    unfold respondent
    exact if_neg hack
  rw [hanswer]
  refine ⟨rfl, ?_⟩
  rw [List.filterMap_cons_some hresponse, List.filterMap_cons_none hnone]
  rfl

/-- **The account is that of the bridge**: `process` makes the copies and
the responses that the calls are said to write. -/
theorem process_writes (w : Host) (m : Moment) (stem : Bytes) :
    (w.process m.scene stem).folder.copies =
        (w.events m stem).filterMap copyOf ++ w.folder.copies ∧
      (w.process m.scene stem).responses.map Response.requestId =
        (w.events m stem).filterMap respondent ++ w.responses.map Response.requestId := by
  have harchive (destination : Destination) (reason : String) :
      ((w.archive m.scene stem destination reason).folder.copies =
        (archiveEvents w.folder stem destination reason).filterMap copyOf ++ w.folder.copies) ∧
      (w.archive m.scene stem destination reason).responses.map Response.requestId =
        (archiveEvents w.folder stem destination reason).filterMap respondent ++
          w.responses.map Response.requestId := by
    rw [respondent_archive]
    exact ⟨copies_archive _ _ _ _ _, rfl⟩
  unfold process events
  cases hread : IPC.readReady w.folder stem with
  | none => exact harchive _ _
  | some message =>
    obtain ⟨id, hid, hsafe⟩ := request_of_readReady hread
    have hrequest : (message.field "request_id").str?.getD [] = id := by rw [hid]; rfl
    dsimp only
    rw [hrequest]
    generalize Bridge.process m.scene.env m.scene.findByNpcId m.scene.findForOwner m.scene.foodBusy
      message w.seen m.scene.grants = r
    obtain ⟨outcome, seen, grants⟩ := r
    have hanswer (w' : Host) (hw : w'.folder = w.folder ∧ w'.responses = w.responses)
        {status : String} (hstatus : (Bytes.lit status).length ≤ 512) (detail : Bytes)
        (reason : String) :
        ((w'.respond id status detail).archive m.scene stem .archive reason).folder.copies =
            (answer m id status detail ++ archiveEvents w.folder stem .archive reason).filterMap
              copyOf ++ w.folder.copies ∧
          ((w'.respond id status detail).archive m.scene stem .archive reason).responses.map
              Response.requestId =
            (answer m id status detail ++ archiveEvents w.folder stem .archive reason).filterMap
              respondent ++ w.responses.map Response.requestId := by
      obtain ⟨hcopy, hrespond⟩ := answer_writes hsafe m hstatus detail
      rw [List.filterMap_append, List.filterMap_append, hcopy, hrespond, respondent_archive,
        List.nil_append, List.append_nil, ← hw.1, ← hw.2]
      exact ⟨copies_archive _ _ _ _ _, rfl⟩
    have hfinalize (w' : Host) (hw : w'.folder = w.folder ∧ w'.responses = w.responses)
        (accepted : Bool) (detail : Bytes) :
        (w'.finalize m.scene stem id accepted detail).folder.copies =
            (w.finalizeEvents m stem id accepted detail).filterMap copyOf ++ w.folder.copies ∧
          (w'.finalize m.scene stem id accepted detail).responses.map Response.requestId =
            (w.finalizeEvents m stem id accepted detail).filterMap respondent ++
              w.responses.map Response.requestId := by
      cases accepted with
      | true => exact hanswer w' hw (by decide) detail _
      | false => exact hanswer w' hw (by decide) detail _
    have hexecute : ({ w with seen := seen }.execute m.scene stem id).folder.copies =
          (match m.scene.execution with
            | .accepted detail => w.finalizeEvents m stem id true detail
            | .refused detail => w.finalizeEvents m stem id false detail
            | .error => []).filterMap copyOf ++ w.folder.copies ∧
        ({ w with seen := seen }.execute m.scene stem id).responses.map Response.requestId =
          (match m.scene.execution with
            | .accepted detail => w.finalizeEvents m stem id true detail
            | .refused detail => w.finalizeEvents m stem id false detail
            | .error => []).filterMap respondent ++ w.responses.map Response.requestId := by
      unfold execute
      cases m.scene.execution with
      | accepted detail => exact hfinalize _ ⟨rfl, rfl⟩ true detail
      | refused detail => exact hfinalize _ ⟨rfl, rfl⟩ false detail
      | error => exact ⟨rfl, rfl⟩
    cases outcome with
    | malformed => exact harchive _ _
    | duplicate => exact harchive _ _
    | rejected => exact hanswer _ ⟨rfl, rfl⟩ (by decide) _ _
    | absent => exact hfinalize _ ⟨rfl, rfl⟩ false _
    | routed route =>
      cases route with
      | refuse detail => exact hfinalize _ ⟨rfl, rfl⟩ false _
      | offline normalized => exact hexecute
      | order normalized ownerAuthorized freewill => exact hexecute

end Host

namespace Session

variable {f : Folder} {s : Session}

/-! ## Runs -/

/-- A call does what is promised, after the requests before it. -/
def Good (t : Turn) (earlier : List Bytes) : Prop :=
  ∀ id, t.request = some id →
    if id ∈ earlier then DropsAt t.events t.stem else AnswersAt t.events t.stem id

/-- All calls do. -/
def AllGood (turns : List Turn) : Prop :=
  ∀ pre t post, turns = pre ++ t :: post → Good t (asked pre)

theorem allGood_snoc {turns : List Turn} {t : Turn} :
    AllGood (turns ++ [t]) ↔ AllGood turns ∧ Good t (asked turns) := by
  constructor
  · intro h
    refine ⟨fun pre x post hsplit => h pre x (post ++ [t]) ?_, h turns t [] rfl⟩
    rw [hsplit, List.append_assoc, List.cons_append]
  · rintro ⟨h, ht⟩ pre x post hsplit
    rcases List.eq_nil_or_concat post with rfl | ⟨post, y, rfl⟩
    · obtain ⟨rfl, hx⟩ := List.append_inj' hsplit rfl
      rw [← List.singleton_inj.1 hx]
      exact ht
    · rw [List.concat_eq_append, ← List.cons_append, ← List.append_assoc] at hsplit
      obtain ⟨hinit, -⟩ := List.append_inj' hsplit rfl
      exact h pre x post hinit

/-- What the requests of a session are to the memory of the bridge. -/
structure Remembers (s : Session) : Prop where
  asked : ∀ id ∈ s.host.seen, id ∈ Session.asked s.turns
  quiet : ∀ t ∈ s.turns, t.request = none → ∀ e ∈ t.events, ∀ l, e ≠ .letter l

theorem asked_snoc (turns : List Turn) (t : Turn) :
    asked (turns ++ [t]) = asked turns ++ t.request.toList := by
  unfold asked
  rw [List.filterMap_append]
  cases h : t.request with
  | none => rw [List.filterMap_cons_none h]; rfl
  | some id => rw [List.filterMap_cons_some h]; rfl

/-- A step that calls `process`, or leaves the calls as they are. -/
theorem step_cases (s : Session) (e : Errand) :
    (∃ m stem rest, e = .next m ∧ s.host.queue = stem :: rest ∧
      (s.step e).host = { s.host with queue := rest }.process m.scene stem ∧
      (s.step e).turns =
        s.turns ++ [⟨stem, s.host.incoming, { s.host with queue := rest }.events m stem⟩]) ∨
      (s.step e).turns = s.turns ∧ (∀ id ∈ (s.step e).host.seen, id ∈ s.host.seen) ∧ s.Kept e := by
  cases e with
  | next m =>
    cases hqueue : s.host.queue with
    | nil =>
      refine Or.inr ⟨?_, fun id hid => ?_, fun id stem rest h => ?_⟩
      · unfold step
        rw [hqueue]
      · simpa only [step, Errand.move, Host.step, hqueue] using hid
      · rw [hqueue] at h
        cases h
    | cons stem rest =>
      refine Or.inl ⟨m, stem, rest, rfl, rfl, ?_, ?_⟩
      · simp only [step, Errand.move, Host.step, hqueue]
      · simp only [step, hqueue]
  | list ready enabled =>
    refine Or.inr ⟨rfl, fun id hid => ?_, trivial⟩
    simp only [step, Errand.move, Host.step] at hid
    split at hid <;> exact hid
  | write stem file => exact Or.inr ⟨rfl, fun id hid => hid, trivial⟩
  | index entries => exact Or.inr ⟨rfl, fun id hid => hid, trivial⟩

theorem remembers_step (h : Remembers s) (e : Errand) : Remembers (s.step e) := by
  rcases step_cases s e with ⟨m, stem, rest, -, hqueue, hhost, hturns⟩ | ⟨hturns, hseen, -⟩
  · refine ⟨fun id hid => ?_, fun t ht hnone => ?_⟩
    · rw [hhost] at hid
      rw [hturns, asked_snoc]
      rcases Host.seen_process hqueue hid with hid | hid
      · exact List.mem_append_left _ (h.asked id hid)
      · refine List.mem_append_right _ ?_
        dsimp only
        rw [hid]
        exact List.mem_singleton.2 rfl
    · rw [hturns] at ht
      rcases List.mem_append.1 ht with ht | ht
      · exact h.quiet t ht hnone
      · obtain rfl := List.mem_singleton.1 ht
        exact Host.events_malformed hqueue hnone m
  · refine ⟨fun id hid => ?_, ?_⟩
    · rw [hturns]
      exact h.asked id (hseen id hid)
    · rw [hturns]
      exact h.quiet

theorem remembers_after (f : Folder) (errands : List Errand) : Remembers (after f errands) := by
  have hstep : ∀ (s : Session) (e : Errand), Remembers s → Remembers (s.step e) := fun s e h =>
    remembers_step h e
  have hstart : Remembers (start f) := ⟨fun id h => (by cases h), fun t h => (by cases h)⟩
  exact Machine.invariant hstep hstart errands

/-- **One step**: its call does what is promised exactly under the
proviso. -/
theorem good_step_iff (h : Remembers s) (e : Errand) :
    AllGood (s.step e).turns ↔ AllGood s.turns ∧ s.Kept e := by
  rcases step_cases s e with ⟨m, stem, rest, rfl, hqueue, -, hturns⟩ | ⟨hturns, -, hkept⟩
  · rw [hturns, allGood_snoc]
    refine and_congr_right fun _ => ?_
    have hkept : s.Kept (.next m) ↔ ∀ id, s.host.incoming = some id →
        if id ∈ asked s.turns then id ∈ s.host.seen
        else { s.host with queue := rest }.raises m stem = false := by
      refine ⟨fun hk id hid => hk id stem rest hqueue hid, fun hk id stem' rest' hq hid => ?_⟩
      rw [hqueue] at hq
      obtain ⟨rfl, rfl⟩ := List.cons.inj hq
      exact hk id hid
    rw [hkept]
    refine forall_congr' fun id => forall_congr' fun hid => ?_
    obtain ⟨message, hread, htype, hrequest⟩ := Host.incoming_spec hqueue hid
    obtain ⟨hdrop, hanswer, hraise⟩ :=
      @Host.events_command { s.host with queue := rest } m stem id message hread htype hrequest
    dsimp only at hdrop hanswer hraise ⊢
    by_cases hasked : id ∈ asked s.turns
    · rw [if_pos hasked, if_pos hasked]
      refine ⟨fun ⟨reason, hevents⟩ => ?_, hdrop⟩
      by_contra hnew
      cases hr : { s.host with queue := rest }.raises m stem with
      | true =>
        rw [hraise hr] at hevents
        cases hevents
      | false =>
        obtain ⟨response, ack, reason', hevents', -⟩ := hanswer hnew hr
        rw [hevents'] at hevents
        cases hevents
    · rw [if_neg hasked, if_neg hasked]
      have hnew : id ∉ s.host.seen := fun hseen => hasked (h.asked id hseen)
      refine ⟨fun ⟨response, ack, reason, hevents, _⟩ => ?_, hanswer hnew⟩
      cases hr : { s.host with queue := rest }.raises m stem with
      | true =>
        rw [hraise hr] at hevents
        cases hevents
      | false => rfl
  · rw [hturns]
    exact ⟨fun hgood => ⟨hgood, hkept⟩, fun hgood => hgood.1⟩

theorem allGood_iff (f : Folder) (errands : List Errand) :
    AllGood (after f errands).turns ↔ Machine.Meets step Kept (start f) errands := by
  induction errands using List.reverseRecOn with
  | nil =>
    refine iff_of_true (fun pre t post h => ?_) trivial
    cases pre <;> cases h
  | append_singleton errands e ih =>
    have hsnoc : after f (errands ++ [e]) = (after f errands).step e := Machine.run_snoc _ _ _ _
    rw [hsnoc, good_step_iff (remembers_after f errands), ih, Machine.meets_append]
    exact and_congr_right fun _ => ⟨fun h => ⟨h, trivial⟩, fun h => h.1⟩

/-- One answer for each request, where every call does what is promised. -/
theorem total_of_allGood {turns : List Turn} (h : AllGood turns)
    (hquiet : ∀ t ∈ turns, t.request = none → ∀ e ∈ t.events, ∀ l, e ≠ .letter l) (id : Bytes) :
    letters turns .responses id = (if id ∈ asked turns then 1 else 0) ∧
      letters turns .acks id = if id ∈ asked turns then 1 else 0 := by
  induction turns using List.reverseRecOn with
  | nil => exact ⟨rfl, rfl⟩
  | append_singleton turns t ih =>
    obtain ⟨hinit, hgood⟩ := allGood_snoc.1 h
    obtain ⟨hresponses, hacks⟩ := ih hinit fun x hx => hquiet x (List.mem_append_left _ hx)
    have hsum (channel : Channel) : letters (turns ++ [t]) channel id =
        letters turns channel id + t.letters channel id := by
      unfold letters
      rw [List.map_append, List.sum_append, List.map_singleton, List.sum_singleton]
    have hnone : (∀ e ∈ t.events, ∀ l, e ≠ .letter l) → ∀ channel, t.letters channel id = 0 := by
      intro hno channel
      refine List.countP_eq_zero.2 fun e he => ?_
      cases e with
      | letter l => exact absurd rfl (hno _ he l)
      | archived stem destination reason => exact Bool.false_ne_true
    rw [hsum, hsum, hresponses, hacks, asked_snoc]
    cases hrequest : t.request with
    | none =>
      have hzero := hnone (hquiet t (List.mem_append_right _ (List.mem_singleton.2 rfl)) hrequest)
      rw [hzero, hzero, Option.toList_none, List.append_nil]
      exact ⟨rfl, rfl⟩
    | some id' =>
      have hturn := hgood id' hrequest
      rw [Option.toList_some]
      by_cases hasked : id' ∈ asked turns
      · rw [if_pos hasked] at hturn
        obtain ⟨reason, hevents⟩ := hturn
        have hzero := hnone fun e he l => by
          rw [hevents] at he
          rw [List.mem_singleton.1 he]
          nofun
        have hsame : (id ∈ asked turns ++ [id']) ↔ id ∈ asked turns := by
          rw [List.mem_append, List.mem_singleton]
          exact or_iff_left_of_imp fun heq => heq ▸ hasked
        rw [hzero, hzero, if_congr hsame rfl rfl]
        exact ⟨rfl, rfl⟩
      · rw [if_neg hasked] at hturn
        obtain ⟨response, ack, reason, hevents, hrc, hrs, hac, has⟩ := hturn
        have hcount (channel : Channel) : t.letters channel id =
            (if response.channel = channel ∧ id' = id then 1 else 0) +
              if ack.channel = channel ∧ id' = id then 1 else 0 := by
          unfold Turn.letters
          rw [hevents]
          simp only [List.countP_cons, List.countP_nil, hrs, has, Bool.and_eq_true, decide_eq_true_eq,
            Bool.false_eq_true, if_false, Nat.zero_add, Nat.add_comm]
        rw [hcount, hcount, hrc, hac]
        by_cases heq : id' = id
        · subst heq
          simp [hasked]
        · have hsame : (id ∈ asked turns ++ [id']) ↔ id ∈ asked turns := by
            rw [List.mem_append, List.mem_singleton]
            exact or_iff_left_of_imp fun h => absurd h.symm heq
          simp only [if_congr hsame rfl rfl, heq, and_false, if_false, Nat.add_zero, and_self]

end Session

/-- **Every command is answered exactly once** in a session if and only if
no execution ends in an error and no request comes again after the bridge
has forgotten it. -/
theorem answered_iff (f : Folder) (errands : List Errand) :
    Answered (Session.after f errands).turns ↔
      Machine.Meets Session.step Session.Kept (Session.start f) errands := by
  rw [← Session.allGood_iff]
  constructor
  · exact fun h => h.each
  · intro h
    refine ⟨h, fun id hid => ?_⟩
    have htotal := Session.total_of_allGood h (Session.remembers_after f errands).quiet id
    rwa [if_pos hid] at htotal

/-! ## An execution that ends in an error -/

/-- One second past 1970. -/
def firstSecond : Clock :=
  ⟨1000, by unfold Double.IsDouble; decide +kernel, by decide, by decide⟩

/-- A command is delivered and processed in a tick; the next tick finds it
again. -/
def orderedTwice (execution : Execution) : List Errand :=
  [.write (Bytes.lit "r1") (some ⟨200, Host.waitCommand⟩), .index [.str (Bytes.lit "r1")],
    .list true true, .next ⟨Host.aliceScene execution, firstSecond⟩,
    .list true true, .next ⟨Host.aliceScene execution, firstSecond⟩]

/-- **An error leaves the command without an answer**: the next tick
archives it as a duplicate. -/
theorem error_not_answered :
    (Session.after Host.emptyFolder (orderedTwice .error)).turns.map
        (fun t => (t.request, t.events.length)) =
      [(some (Bytes.lit "r1"), 0), (some (Bytes.lit "r1"), 1)] ∧
    ¬ Answered (Session.after Host.emptyFolder (orderedTwice .error)).turns := by
  have hturns : (Session.after Host.emptyFolder (orderedTwice .error)).turns.map
      (fun t => (t.request, t.events.length)) =
        [(some (Bytes.lit "r1"), 0), (some (Bytes.lit "r1"), 1)] := by
    decide +kernel
  refine ⟨hturns, fun h => ?_⟩
  obtain ⟨t, turns, hsplit, ht, -⟩ := List.map_eq_cons_iff.1 hturns
  obtain ⟨hrequest, hlength⟩ := Prod.mk.inj ht
  have hanswer := h.each [] t turns hsplit _ hrequest
  rw [if_neg (show Bytes.lit "r1" ∉ Session.asked [] from List.not_mem_nil)] at hanswer
  obtain ⟨response, ack, reason, hevents, -⟩ := hanswer
  rw [hevents] at hlength
  cases hlength

end Bridge

end GoblinZomboid
