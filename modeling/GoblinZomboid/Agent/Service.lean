import GoblinZomboid.Lib.Attempt
import GoblinZomboid.Agent.Ipc
import GoblinZomboid.Agent.Driver
import Mathlib.Algebra.Order.Ring.Unbundled.Rat
/-!
# `service.py`: turns

The service polls events, and in each pass takes at most one turn: a
chat, an offline decision, finished thoughts, or a remark in passing.
While a model call is pending it polls on. Memory, moods and the model
itself are the outside: every question put to them can fail, and the
process can be stopped at each of them.
-/

namespace GoblinZomboid

namespace Service

open Protocol (Dict Message)
open Controllers (BodyState SafeAction Intent)
open Npc (Driver Orders)

/-- An error, by what catches it. -/
inductive Error
  | qwen
  /-- `TypeError`, `ValueError`. -/
  | value
  /-- `OSError`. -/
  | os
  | other
  deriving DecidableEq

/-! ## Telemetry -/

/-- `d.get(name)`, where a missing key is `None`. -/
def field (d : Dict) (name : String) : PyValue := (Protocol.get d name).getD .none

/-- `d.get(name) == text`. -/
def fieldIs (d : Dict) (name text : String) : Bool := (field d name).str? == some (PyText.lit text)

/-- `_companions`. -/
def companions (fields : Dict) : List Dict :=
  match Protocol.get fields "companions" with
  | some (.list items) => items.filterMap fun
    | .dict d => some d
    | _ => none
  | _ => []

/-- `owner.casefold()`. -/
def casefold (u : Unicode) (t : PyText) : PyText := t.flatMap u.casefold

/-- The record is for this owner, letter case apart. -/
def ownedBy (u : Unicode) (owner : PyText) (companion : Dict) : Bool :=
  match field companion "owner" with
  | .str t => casefold u t == casefold u owner
  | _ => false

/-- `_companion_for_owner`. -/
def companionForOwner (u : Unicode) (fields : Dict) (owner : PyValue) : Option Dict :=
  match owner with
  | .str owner => (companions fields).find? (ownedBy u owner)
  | _ =>
    match (companions fields).find? fun c => (field c "body_present").isTrue with
    | some c => some c
    | none => (companions fields).head?

/-- `_number`. -/
def number (fields : Dict) (name : String) : Except Error ℚ :=
  match field fields name with
  | .int n =>
    match PyValue.finite? (.int n) with
    | some q => .ok (min 1 (max 0 q))
    | none => .error .other
  | .float t => .ok (((PyValue.finite? (.float t)).map fun q => min 1 (max 0 q)).getD 0)
  | _ => .ok 0

/-- `bool(fields.get(name, default))`. -/
def flag (fields : Dict) (name : String) (default : Bool) : Bool :=
  match Protocol.get fields name with
  | some v => v.truthy
  | none => default

/-- A text of the list, or the default; a container cannot be looked up. -/
def choice (fields : Dict) (name : String) (allowed : List String) (default : String) :
    Except Error PyText :=
  match field fields name with
  | .str t => .ok (if Events.isNamed t allowed then t else PyText.lit default)
  | .list _ | .dict _ => .error .value
  | _ => .ok (PyText.lit default)

/-- The id a record gives its body. -/
def npcIdOf (companion : Dict) : PyText := (field companion "npc_id").str?.getD Npc.npcId

/-- `_body_state`. -/
def bodyState (fields : Dict) : Except Error BodyState := do
  let threat ← choice fields "threat_level" ["none", "near", "overwhelming"] "none"
  let mode ← choice fields "mode" ["SAFE", "ROAM", "PARTY", "HUNT"] "SAFE"
  let hunger ← number fields "hunger"
  let thirst ← number fields "thirst"
  let fatigue ← number fields "fatigue"
  let panic ← number fields "panic"
  let injury ← number fields "injury"
  let bodyMode ← choice fields "body_mode" ["disabled", "sensor_only", "npc"] "sensor_only"
  if (npcIdOf fields).isEmpty || 96 < (npcIdOf fields).length then .error .value
  else
    .ok
      { alive := flag fields "alive" true
        bodyPresent := flag fields "body_present" false
        hunger := hunger
        thirst := thirst
        fatigue := fatigue
        panic := panic
        injury := injury
        threatLevel := threat
        weaponReady := flag fields "weapon_ready" false
        hasFood := flag fields "has_food" false
        hasWater := flag fields "has_water" false
        hasMedical := flag fields "has_medical" false
        mode := mode
        controlReady := flag fields "control_ready" false
        npcEngineReady := flag fields "npc_engine_ready" false
        npcId := npcIdOf fields
        bodyMode := bodyMode }

/-! ## Who is free for what -/

/-- `idle` is a finite number of so many seconds. -/
def idleFor (companion : Dict) (seconds : ℚ) : Except Error Bool :=
  match Protocol.get companion "owner_idle_seconds" with
  | some (.int n) =>
    match PyValue.finite? (.int n) with
    | some q => .ok (seconds ≤ q)
    | none => .error .other
  | some (.float t) => .ok ((PyValue.finite? (.float t)).any fun q => seconds ≤ q)
  | _ => .ok false

/-- The order may be replaced: idle following, or a chore of its own. -/
def idleTask (companion : Dict) : Bool :=
  fieldIs companion "task" "FOLLOW" || (field companion "autonomous").isTrue

/-- `_social_ready`. -/
def socialReady (companion : Dict) : Bool :=
  (field companion "owner_online").isTrue && (field companion "body_present").isTrue
    && (field companion "control_ready").isTrue && (field companion "npc_engine_ready").isTrue
    && !(field companion "riding").truthy && !(field companion "transport_active").truthy
    && (Protocol.get companion "combat_state").all fun v => v.str? == some (PyText.lit "NONE")

/-- `_offline_eligible`. -/
def offlineEligible (companion : Dict) : Bool :=
  (field companion "owner_online").isFalse && (field companion "body_present").isTrue
    && idleTask companion && (field companion "authority_token").str?.isSome

/-- `_ambient_eligible`. -/
def ambientEligible (companion : Dict) : Except Error Bool := do
  let idle ← idleFor companion 30
  pure (idle && socialReady companion && idleTask companion
    && !(field companion "freewill").isTrue)

/-- `goblin.get("survival_busy") is True` in the situation. -/
def survivalBusy (companion : Dict) : Bool :=
  match field companion "situation" with
  | .dict situation =>
    match field situation "goblin" with
    | .dict goblin => (field goblin "survival_busy").isTrue
    | _ => false
  | _ => false

/-- `_think_eligible`. -/
def thinkEligible (companion : Dict) : Except Error Bool :=
  if socialReady companion && (field companion "freewill").isTrue && !survivalBusy companion
      && idleTask companion then do
    let idle ← idleFor companion 10
    pure (idle && (field companion "companion_authority_token").str?.isSome)
  else pure false

/-- `_cognition_ready`. -/
def cognitionReady (companion : Dict) : Bool :=
  (field companion "owner_online").isTrue && (field companion "body_present").isTrue
    && (field companion "npc_id").str?.isSome
    && match field companion "situation" with
      | .dict _ => true
      | _ => false

/-! ## State -/

/-- A chat that waits for its turn. -/
structure Chat where
  /-- The event's number: how many were queued before it. -/
  ticket : ℕ
  /-- The id and time of its message. -/
  key : PyText × ℤ
  fields : Dict

/-- The companion a thought is about. -/
structure Selected where
  npcId : PyText
  owner : PyValue

/-- A thought in its lane. -/
inductive Job
  | think (selected : Selected)
  | reflect (selected : Selected)
  | banter (pair : List (PyText × PyText))
  | journal

/-- `_lane`. -/
def Job.lane : Job → PyText
  | think selected | reflect selected => PyText.lit "npc:" ++ selected.npcId
  | banter _ => PyText.lit "banter"
  | journal => PyText.lit "journal"

/-- What a command is published in. -/
inductive Turn
  | chat (chat : Chat)
  | scheduled
  | offline
  | thought
  | ambient

/-- The service, with what it has read and published. -/
structure State where
  driver : Driver
  currentOwner : Option PyText
  paused : Bool
  desk : Ipc.Desk
  gate : Events.Gate
  pendingChats : List Chat
  /-- `scheduled_says`: when, by whom, what. -/
  scheduledSays : List (ℚ × PyText × PyText)
  thinkJobs : List Job
  ambient : Option Selected
  /-- The turn that is going on. -/
  turn : Option Turn
  /-- The chats queued so far. -/
  queued : List Chat
  /-- The polls of the event consumer. -/
  polls : List Ipc.Step
  /-- Every companion record read from a state file. -/
  records : List Dict
  /-- Every command that was published, with its turn, the latest first. -/
  published : List (Message × Option Turn)

/-- The model adapter, in what it can be asked. -/
structure Adapter where
  chat : Bool
  ambient : Bool
  think : Bool
  reflect : Bool
  banter : Bool
  journal : Bool

structure Config where
  unicode : Unicode
  enabled : Bool
  startPaused : Bool
  qwen : Option Adapter
  thinkParallel : ℕ
  bounds : Ipc.Bounds

/-- `ReflexDecision`, in what a turn reads. -/
structure Reflex where
  social : Bool
  /-- The reply of a social decision, when it is fit to be said. -/
  reply : Option PyText
  /-- What is said when the model fails. -/
  fallback : Option PyText

/-- What a finished reflection wants said, if it is said now. -/
abbrev Remark := Option PyText

/-- What the outside says at one call. -/
structure Answer where
  killed : Bool
  fails : Option Error
  now : ℚ
  nowMs : ℤ
  /-- The ready files of a poll. -/
  items : List Ipc.Item
  /-- A state file that is fresh: its type and its fields. -/
  state : Option (PyText × Dict)
  allowed : Bool
  /-- How often the pending call is waited for. -/
  waits : ℕ
  text : PyText
  intent : Intent
  reflex : Reflex
  /-- Yes or no, to what memory and moods are asked. -/
  yes : Bool
  remark : Remark
  /-- Which companions want to reflect, and how much. -/
  wants : PyText → Option ℚ
  /-- Which companions are due, and since when. -/
  due : PyText → Option ℚ
  meetup : Option (PyText × PyText)
  lines : List (PyText × PyText)
  /-- The lanes whose thought is done. -/
  done : PyText → Bool
  requestId : PyText
  /-- The command got out. -/
  written : Bool

/-- An action of the service. -/
abbrev Act (α : Type) : Type := Attempt State Answer Error α

/-- A question to the outside. -/
def ask {α : Type} (f : Answer → α) : Act α :=
  Attempt.call fun t s => (if t.killed then none else some (match t.fails with
    | some e => .error e
    | none => .ok (f t)), s)

/-! ## Events -/

/-- `event_consumer.poll`. -/
def pollConsumer (config : Config) (nowMs : ℤ) (items : List Ipc.Item) (s : State) :
    Except Error (List Message) × State :=
  let s := { s with polls := s.polls ++ [Ipc.Step.poll nowMs 32 items] }
  match Ipc.pollItems (.event []) config.bounds nowMs 32 { s.desk with clock := nowMs } [] items with
  | (some taken, desk) =>
    (.ok taken, { s with desk := { desk with returned := desk.returned ++ taken.map Ipc.key } })
  | (none, desk) => (.error .other, { s with desk := desk })

/-- `kind` of an event message. -/
def kindOf (message : Message) : PyText :=
  let event := PyText.lit "event."
  if event.isPrefixOf message.type then message.type.drop event.length else message.type

/-- `_chat_is_addressed`. -/
def addressed (u : Unicode) (fields : Dict) : Bool :=
  match field fields "text" with
  | .str t => PyText.contains (casefold u t) (PyText.lit "goblin") || (field fields "addressed").isTrue
  | _ => false

/-- `event_gate.make`. -/
def gateEvent (u : Unicode) (clock : ℤ) (message : Message) (s : State) :
    Except Error (Option Message) × State :=
  let (decision, gate) := Events.make u s.gate clock (kindOf message) message.fields
    (message.timestampMs / 1000) message.requestId
  (.ok (if decision.accepted then decision.message else none), { s with gate := gate })

/-- `self.pending_chats.append(queued)`, with its last 32. -/
def queueChat (message : Message) (fields : Dict) (s : State) : State :=
  let chat : Chat := ⟨s.queued.length, Ipc.key message, fields⟩
  let pending := s.pendingChats ++ [chat]
  { s with pendingChats := pending.drop (pending.length - 32), queued := s.queued ++ [chat] }

/-- The body of the loop of `_poll_events`. -/
def handleEvent (u : Unicode) (message : Message) : Act Unit := do
  let clock ← ask (·.nowMs)
  match ← Attempt.state (gateEvent u clock message) with
  | none => ask fun _ => ()
  | some accepted =>
    ask fun _ => ()
    Attempt.when (kindOf message = PyText.lit "chat" && addressed u accepted.fields)
      (Attempt.modify (queueChat message accepted.fields))
    ask fun _ => ()

/-- `_poll_events`. -/
def pollEvents (config : Config) : Act Unit := do
  let nowMs ← ask (·.nowMs)
  let items ← ask (·.items)
  let taken ← Attempt.state (pollConsumer config nowMs items)
  Attempt.each (handleEvent config.unicode) taken

/-- `_read_state`. -/
def readState : Act (Option (PyText × Dict)) := do
  match ← ask (·.state) with
  | none => pure none
  | some message =>
    Attempt.modify fun s => { s with records := companions message.2 ++ s.records }
    pure (some message)

/-- `_poll_during_inference`. -/
def pollDuringInference (config : Config) : Act Unit := do
  let early ← ask (·.yes)
  if early then pure ()
  else
    -- The heartbeat, and below the responses.
    ask fun _ => ()
    pollEvents config
    ask fun _ => ()
    let _ ← readState
    ask fun _ => ()

/-- A call of the model on the service's own thread; what the polls raise
counts as its failure, where the client expects such errors. -/
def infer {α : Type} (config : Config) (f : Answer → α) : Act α := do
  let waits ← ask (·.waits)
  tryCatch (Attempt.times (pollDuringInference config) waits) fun e =>
    throw (if e = .os || e = .value then .qwen else e)
  ask f

/-! ## Commands -/

/-- `_configure_driver`. -/
def configureDriver (companion : Dict) : Act BodyState := do
  let body ← Attempt.lift (bodyState companion)
  Attempt.modify fun s =>
    { s with
      currentOwner := (field companion "owner").str?
      driver := ⟨body.npcId, body.controlReady, body.npcEngineReady⟩ }
  pure body

/-- `store.publish`: the answer is what the driver makes of its outcome. -/
def publish (message : Message) : Act Bool :=
  Attempt.call fun t s =>
    let s := if t.written then { s with published := (message, s.turn) :: s.published } else s
    (if t.killed then none else some (match t.fails with
      | none => .ok true
      | some .os => .ok false
      | some .value => .ok false
      | some e => .error e), s)

/-- `npc_driver.execute`: whether the command was published. -/
def execute (config : Config) (a : SafeAction) (o : Orders) : Act Bool := do
  let s ← Attempt.get
  match s.driver.refusal config.unicode a o with
  | some _ => pure false
  | none =>
    let requestId ← ask (·.requestId)
    let clock ← ask (·.nowMs)
    match Protocol.makeMessage clock (PyText.lit "command.npc_action") requestId 0
        (Npc.fields s.driver.npcId a o) with
    | .error _ => throw .value
    | .ok message => publish message

/-- A remark by this body. -/
def say (priority : ℤ) (reason : String) (text npcId : PyText) : SafeAction :=
  { SafeAction.plain .say priority reason npcId with text := some text }

/-- No grant, no flags. -/
def spoken (owner : PyValue) : Orders := ⟨.none, owner, false, false⟩

/-! ## The chat turn -/

/-- What is to be said: the speech that is prepared, or the model's. -/
def speechFor (config : Config) (prepared : Option PyText) : Act (Option PyText) :=
  match prepared with
  | some speech => pure (some speech)
  | none =>
    tryCatch (some <$> infer config (·.text)) fun e =>
      if e = .qwen || e = .value then pure none else throw e

/-- `_publish_reply`: the speech, if it was published. -/
def publishReply (config : Config) (chat : Chat) (companion : Dict) (prepared : Option PyText) :
    Act (Option PyText) := do
  if config.qwen.isNone && prepared.isNone then pure none
  else
    match field chat.fields "speaker", field chat.fields "text" with
    | .str speaker, .str _ => do
      let body ← configureDriver companion
      if !body.ready then pure none
      else
        ask fun _ => ()
        match ← speechFor config prepared with
        | none => pure none
        | some speech =>
          let allowed ← ask (·.allowed)
          if !allowed then pure none
          else
            let accepted ← execute config (say 3 "addressed player reply" speech body.npcId)
              (spoken (.str speaker))
            pure (if accepted then some speech else none)
    | _, _ => pure none

/-- The model's answer to a chat: what to do, and what was said. -/
def answerChat (config : Config) (chat : Chat) (companion : Dict) (combined : Bool) : Act Intent :=
  if combined then do
    let generated ← infer config fun t => (t.intent, t.text)
    let _ ← publishReply config chat companion (some generated.2)
    -- The turn is remembered.
    ask fun _ => ()
    pure generated.1
  else do
    let _ ← publishReply config chat companion none
    infer config (·.intent)

/-- What is said when the model failed. -/
def radioJammed : PyText :=
  PyText.lit "Comrade, my radio jammed. Try again; /goblin follow, loot, home or wait still work."

/-- The decision about an intent, and the order it leads to. -/
def giveOrder (config : Config) (chat : Chat) (speaker : PyText) (body : BodyState)
    (intent : Intent) : Act String :=
  match Controllers.decide intent body with
  | .error _ => pure "controller_rejected"
  | .ok action =>
    if action.action = .say then pure "npc_spoke"
    else do
      let accepted ← execute config action
        ⟨field chat.fields "authority_token", .str speaker, false, false⟩
      pure (if accepted then "npc_command_published" else "rejected")

/-- `_handle_chat`. -/
def handleChat (config : Config) (chat : Chat) (companion : Dict) : Act String := do
  match field chat.fields "speaker", field chat.fields "text" with
  | .str speaker, .str _ => do
    let body ← configureDriver companion
    if !body.ready then pure "sensor_only"
    else
      match field chat.fields "direct_action" with
      | .str _ =>
        if (field chat.fields "direct_reported").isTrue then pure "npc_command_handled"
        else
          let detail := match field chat.fields "direct_detail" with
            | .str t => if PyText.strip t = [] then none else some t
            | _ => none
          let detail := detail.getD (if (field chat.fields "direct_applied").isTrue then
            PyText.lit "order accepted" else PyText.lit "I could not carry out that order")
          let speech ← publishReply config chat companion
            (some (PyText.lit "Comrade, " ++ detail.take 180 ++ PyText.lit "."))
          pure (if speech.isSome then "npc_spoke" else "npc_steady")
      | _ =>
        let reflex ← ask (·.reflex)
        -- Memory and moods hear of it.
        ask fun _ => ()
        match config.qwen with
        | none =>
          match reflex.reply with
          | some reply =>
            let speech ← publishReply config chat companion (some reply)
            ask fun _ => ()
            pure (if speech.isSome then "reflex_spoke" else "npc_steady")
          | none => pure "no_qwen"
        | some adapter =>
          ask fun _ => ()
          let intent ← tryCatch (some <$> answerChat config chat companion adapter.chat) fun e =>
            if e = .qwen then do
              let _ ← publishReply config chat companion (some (reflex.fallback.getD radioJammed))
              pure none
            else throw e
          match intent with
          | none => pure "qwen_failed"
          | some intent => giveOrder config chat speaker body intent
  | _, _ => pure "chat_ignored"

/-- What is said when a chat turn raised. -/
def commandFailed : PyText :=
  PyText.lit "Comrade, that command failed. I am still here; please give the order again."

/-- The chat turn of `run_once`. -/
def chatTurn (config : Config) (fields : Dict) (chat : Chat) : Act String := do
  match companionForOwner config.unicode fields (field chat.fields "speaker") with
  | none => pure "waiting_for_goblin"
  | some companion =>
    tryCatch (handleChat config chat companion) fun _ => do
      tryCatch (do
        let _ ← publishReply config chat companion (some commandFailed)
        pure ()) fun _ => pure ()
      pure "chat_failed"

/-! ## The other turns -/

/-- `_flush_scheduled_says`. -/
def flushScheduledSays (config : Config) (fields : Dict) : Act Unit := do
  let now ← ask (·.now)
  let s ← Attempt.get
  let due := s.scheduledSays.filter fun e => e.1 ≤ now
  if due.isEmpty then pure ()
  else
    Attempt.modify fun s => { s with scheduledSays := s.scheduledSays.filter fun e => now < e.1 }
    let sorted := due.mergeSort fun a b => a.1 < b.1 || a.1 = b.1 && (a.2.1 < b.2.1
      || a.2.1 = b.2.1 && a.2.2 ≤ b.2.2)
    Attempt.each (fun e : ℚ × PyText × PyText => do
      -- Of two records with one id the later one counts.
      match (companions fields).reverse.find? fun c =>
          (field c "npc_id").str? == some e.2.1 with
      | none => pure ()
      | some companion =>
        if !(field companion "body_present").isTrue then pure ()
        else
          let body ← configureDriver companion
          if !body.ready then pure ()
          else
            let _ ← execute config (say 1 "goblin banter" e.2.2 body.npcId)
              (spoken (field companion "owner"))) sorted

/-- `_handle_offline`. -/
def handleOffline (config : Config) (companion : Dict) : Act String := do
  let body ← configureDriver companion
  ask fun _ => ()
  let intent ← tryCatch (some <$> infer config (·.intent)) fun e =>
    if e = .qwen || e = .value then pure none else throw e
  match intent with
  | none => pure "qwen_failed"
  | some intent =>
    match Controllers.decide intent body with
    | .error _ => pure "controller_rejected"
    | .ok action =>
      if !Npc.offline.contains action.action then pure "controller_rejected"
      else
        match (← readState).bind fun current =>
            companionForOwner config.unicode current.2 (field companion "owner") with
        | none => pure "offline_cancelled"
        | some latest =>
          let task := match action.action with
            | .lootArea => "LOOT"
            | .secureBase => "FORTIFY"
            | other => other.value
          if !offlineEligible latest then pure "offline_cancelled"
          else if fieldIs latest "task" task then pure "npc_steady"
          else
            let accepted ← execute config action
              ⟨field companion "authority_token", field companion "owner", true, false⟩
            pure (if accepted then "offline_command_published" else "rejected")

/-- `latest` of a thought: the record of its owner, if it still is the one the
thought is about. -/
def latestFor (u : Unicode) (fields : Dict) (selected : Selected) : Option Dict :=
  (companionForOwner u fields selected.owner).filter fun latest =>
    (field latest "npc_id").str? == some selected.npcId

/-- The record of a thought, if no chat waits and it may still think. -/
def thoughtfulFor (u : Unicode) (fields : Dict) (selected : Selected) (s : State) :
    Except Error (Option Dict) :=
  match latestFor u fields selected with
  | none => .ok none
  | some latest =>
    if !s.pendingChats.isEmpty then .ok none
    else do
      let eligible ← thinkEligible latest
      pure (if eligible then some latest else none)

/-- `_finish_think`. -/
def finishThink (config : Config) (fields : Dict) (selected : Selected) : Act (Option String) := do
  let s ← Attempt.get
  match ← Attempt.lift (thoughtfulFor config.unicode fields selected s) with
  | none => pure (some "think_cancelled")
  | some latest =>
    let body ← configureDriver latest
    match Controllers.decide (← ask (·.intent)) body with
    | .error _ => pure (some "controller_rejected")
    | .ok action =>
      let speech ← ask (·.text)
      let allowed ← ask (·.allowed)
      Attempt.when (!speech.isEmpty && allowed) do
        let _ ← execute config (say 2 "free-will narration" speech body.npcId) (spoken selected.owner)
        ask fun _ => ()
      if action.action = .say
          || action.action = .follow && fieldIs latest "task" "FOLLOW" then
        pure (some "think_spoke")
      else
        let cooling ← ask (·.yes)
        if cooling then pure (some "npc_steady")
        else
          ask fun _ => ()
          let accepted ← execute config action
            ⟨field latest "companion_authority_token", selected.owner, false, true⟩
          pure (some (if accepted then "freewill_command_published" else "rejected"))

/-- `_finish_reflect`. -/
def finishReflect (config : Config) (fields : Dict) (selected : Selected) :
    Act (Option String) := do
  match ← ask (·.remark) with
  | none => pure (some "sentience_thought")
  | some remark =>
    let s ← Attempt.get
    match latestFor config.unicode fields selected with
    | none => pure (some "sentience_thought")
    | some latest =>
      if !socialReady latest || !s.pendingChats.isEmpty then pure (some "sentience_thought")
      else
        let allowed ← ask (·.allowed)
        if !allowed then pure (some "sentience_thought")
        else
          let body ← configureDriver latest
          let accepted ← execute config (say 2 "sentience remark" remark body.npcId)
            (spoken selected.owner)
          pure (some (if accepted then "sentience_spoke" else "sentience_thought"))

/-- `_finish_banter`. -/
def finishBanter (config : Config) (fields : Dict) (pair : List (PyText × PyText)) :
    Act (Option String) := do
  let now ← ask (·.now)
  let lines ← ask (·.lines)
  -- Of two goblins with one name the later one speaks.
  let scheduled := lines.zipIdx.filterMap fun (line, i) =>
    (pair.reverse.find? fun p => p.2 = line.1).map fun p => (now + i * 4, p.1, line.2)
  Attempt.modify fun s => { s with scheduledSays := s.scheduledSays ++ scheduled }
  ask fun _ => ()
  flushScheduledSays config fields
  pure (some "banter_scheduled")

/-- `_finish_journal`. -/
def finishJournal : Act (Option String) := do
  ask fun _ => ()
  pure none

/-- A job whose lane is done: its thought, or its failure. -/
def finish (config : Config) (fields : Dict) (job : Job) : Act (Option String) := do
  Attempt.modify fun s => { s with thinkJobs := s.thinkJobs.filter fun j => j.lane ≠ job.lane }
  let failed ← ask (·.yes)
  if failed then pure none
  else
    match job with
    | .think selected => finishThink config fields selected
    | .reflect selected => finishReflect config fields selected
    | .banter pair => finishBanter config fields pair
    | .journal => finishJournal

/-- The loop of `_think_tick`: its last result. -/
def finishJobs (config : Config) (fields : Dict) :
    List Job → Option String → Act (Option String)
  | [], outcome => pure outcome
  | job :: rest, outcome => do
    let result ← finish config fields job
    finishJobs config fields rest (result.or outcome)

/-- `_lane_free`. -/
def laneFree (config : Config) (s : State) (lane : PyText) : Bool :=
  !s.thinkJobs.any (fun j => j.lane = lane) && s.thinkJobs.length < config.thinkParallel

/-- `_submit_think`. -/
def submit (job : Job) : Act Unit :=
  Attempt.modify fun s => { s with thinkJobs := s.thinkJobs ++ [job] }

/-- The record a thought is about. -/
def selectedOf (companion : Dict) : Selected := ⟨npcIdOf companion, field companion "owner"⟩

/-- `_reflect_candidate`: the one that wants it most. -/
def reflectCandidate (wants : PyText → Option ℚ) (urgent : Bool) (pool : List Dict) :
    Option (Dict × ℚ) :=
  (pool.filterMap fun c =>
    if cognitionReady c && (field c "freewill").isTrue then
      (wants (npcIdOf c)).bind fun p => if urgent == (1 / 2 ≤ p) then some (c, p) else none
    else none).foldl (fun best x => match best with
      | some b => if b.2 < x.2 then some x else some b
      | none => some x) none

/-- The loop over the companions that want to reflect; every round takes a
lane, so there are no more rounds than companions. -/
def submitReflections (config : Config) (fields : Dict) (urgent : Bool) : Act Unit :=
  Attempt.times (do
    let s ← Attempt.get
    let wants ← ask (·.wants)
    let pool := (companions fields).filter fun c =>
      laneFree config s (PyText.lit "npc:" ++ npcIdOf c)
    match reflectCandidate wants urgent pool with
    | none => pure ()
    | some (companion, _) => submit (.reflect (selectedOf companion))) (companions fields).length

/-- The companions that may think now. -/
def thinkers (fields : Dict) : Except Error (List Dict) :=
  (companions fields).filterM fun c => do
    let eligible ← thinkEligible c
    pure (eligible && (field c "npc_id").str?.isSome)

/-- `_banter_pair`, when this pair was chosen. -/
def banterPair (fields : Dict) (pair : PyText × PyText) : Option (List (PyText × PyText)) :=
  let ready (id : PyText) : Option (PyText × PyText) :=
    ((companions fields).reverse.find? fun c => socialReady c && (field c "npc_id").str? == some id
      && (field c "name").str?.isSome).bind fun c =>
        (field c "name").str?.map fun name => (id, name)
  if pair.1 = pair.2 then none
  else
    match ready pair.1, ready pair.2 with
    | some a, some b => some [a, b]
    | _, _ => none

/-- The records that are due, the one that waited longest first. -/
def inOrder (due : PyText → Option ℚ) (l : List Dict) : List Dict :=
  (l.filter fun c => (due (npcIdOf c)).isSome).mergeSort fun a b =>
    (due (npcIdOf a)).getD 0 ≤ (due (npcIdOf b)).getD 0

/-- The loop of `_start_thoughts` over the companions that are due. -/
def submitThoughts (config : Config) : List Dict → Act Unit
  | [] => pure ()
  | companion :: rest => do
    let s ← Attempt.get
    if !laneFree config s (PyText.lit "npc:" ++ npcIdOf companion) then pure ()
    else
      let _ ← configureDriver companion
      ask fun _ => ()
      submit (.think (selectedOf companion))
      submitThoughts config rest

/-- The journal that is due, if there is one. -/
def submitJournal (config : Config) (adapter : Adapter) : Act Unit := do
  let s ← Attempt.get
  let queued ← ask (·.yes)
  Attempt.when (queued && laneFree config s (PyText.lit "journal") && adapter.journal) do
    ask fun _ => ()
    submit .journal

/-- A talk of two companions that met. -/
def submitBanter (config : Config) (adapter : Adapter) (fields : Dict) : Act Unit := do
  let s ← Attempt.get
  let meetup ← ask (·.meetup)
  match meetup.bind (banterPair fields) with
  | some pair =>
    Attempt.when (laneFree config s (PyText.lit "banter") && adapter.banter) (submit (.banter pair))
  | none => pure ()

/-- `_start_thoughts`. -/
def startThoughts (config : Config) (adapter : Adapter) (fields : Dict) : Act Unit := do
  Attempt.when adapter.reflect (submitReflections config fields true)
  submitJournal config adapter
  let eligible ← Attempt.lift (thinkers fields)
  submitBanter config adapter fields
  Attempt.when adapter.think do
    let due ← ask (·.due)
    submitThoughts config (inOrder due eligible)
  Attempt.when adapter.reflect (submitReflections config fields false)

/-- `_think_tick`. -/
def thinkTick (config : Config) (fields : Dict) : Act (Option String) := do
  let s ← Attempt.get
  let done ← ask (·.done)
  let finished := s.thinkJobs.filter fun j => done j.lane
  let outcome ← finishJobs config fields finished none
  let s ← Attempt.get
  match config.qwen with
  | none => pure outcome
  | some adapter =>
    Attempt.when (finished.isEmpty && s.pendingChats.isEmpty) (startThoughts config adapter fields)
    pure outcome

/-- `_ambient_tick` while a remark is pending. -/
def finishAmbient (config : Config) (fields : Dict) (selected : Selected) : Act Bool := do
  let done ← ask (·.yes)
  if !done then pure false
  else
    Attempt.modify fun s => { s with ambient := none }
    let failed ← ask (·.yes)
    if failed then pure false
    else
      let s ← Attempt.get
      let quiet ← ask (·.yes)
      if !s.pendingChats.isEmpty || quiet then pure false
      else
        match latestFor config.unicode fields selected with
        | none => pure false
        | some latest =>
          let eligible ← Attempt.lift (ambientEligible latest)
          let text ← ask (·.text)
          let allowed ← ask (·.allowed)
          if !eligible || !allowed then pure false
          else
            let body ← configureDriver latest
            execute config (say 0 "Lenin-themed downtime remark" text body.npcId)
              (spoken selected.owner)

/-- The loop of `_ambient_tick` that looks for a companion to remark on. -/
def startAmbient : List Dict → Act Unit
  | [] => pure ()
  | companion :: rest => do
    let eligible ← Attempt.lift (ambientEligible companion)
    if !eligible || (field companion "npc_id").str?.isNone then startAmbient rest
    else
      let due ← ask (·.due)
      let allowed ← ask (·.allowed)
      if (due (npcIdOf companion)).isNone || !allowed then startAmbient rest
      else Attempt.modify fun s => { s with ambient := some (selectedOf companion) }

/-- `_ambient_tick`: whether a remark was published. -/
def ambientTick (config : Config) (fields : Dict) : Act Bool := do
  let s ← Attempt.get
  match s.ambient with
  | some selected => finishAmbient config fields selected
  | none =>
    let quiet ← ask (·.yes)
    if !s.pendingChats.isEmpty || quiet || !config.qwen.any (·.ambient) then pure false
    else
      startAmbient (companions fields)
      pure false

/-! ## A pass -/

/-- The records that are free for an offline decision. -/
def offlineCandidates (config : Config) (fields : Dict) : Except Error (List Dict) :=
  if config.qwen.isSome then
    ((companions fields).filter offlineEligible).filterM fun c => do
      let body ← bodyState c
      pure body.ready
  else .ok []

/-- A turn goes on. -/
def inTurn {α : Type} (turn : Turn) (m : Act α) : Act α := do
  Attempt.modify fun s => { s with turn := some turn }
  m

/-- `self.pending_chats.pop(0)`. -/
def popChat (s : State) : Except Error (Option Chat) × State :=
  (.ok s.pendingChats.head?, { s with pendingChats := s.pendingChats.tail })

/-- The turn of a pass in which no chat waits. -/
def quietTurn (config : Config) (fields : Dict) : Act Unit := do
  let candidates ← Attempt.lift (offlineCandidates config fields)
  let due ← ask (·.due)
  match (inOrder due candidates).head? with
  | some companion =>
    let _ ← inTurn .offline (handleOffline config companion)
    pure ()
  | none =>
    let thought ← inTurn .thought (thinkTick config fields)
    if thought.isSome then pure ()
    else
      let ambient ← inTurn .ambient (ambientTick config fields)
      if ambient then pure ()
      else
        match companionForOwner config.unicode fields .none with
        | some companion =>
          let _ ← configureDriver companion
          pure ()
        | none => Attempt.modify fun s => { s with currentOwner := none }

/-- The turn of a pass over a state. -/
def takeTurn (config : Config) (fields : Dict) : Act Unit := do
  inTurn .scheduled (flushScheduledSays config fields)
  match ← Attempt.state popChat with
  | some chat =>
    let _ ← inTurn (.chat chat) (chatTurn config fields chat)
    ask fun _ => ()
  | none => quietTurn config fields

/-- `run_once`. -/
def runOnce (config : Config) : Act Unit := do
  ask fun _ => ()
  if !config.enabled then pure ()
  else
    ask fun _ => ()
    pollEvents config
    let s ← Attempt.get
    if s.paused then pure ()
    else
      match ← readState with
      | none => pure ()
      | some (type, fields) =>
        if type ≠ PyText.lit "runtime.state" then pure ()
        else
          -- The state is recorded and observed.
          ask fun _ => ()
          takeTurn config fields

/-! ## Runs -/

/-- What can happen: a pass; the polls between passes; pausing and resuming;
the agent starts anew. -/
inductive Op
  | runOnce (turns : Turns Answer)
  | idle (turns : Turns Answer)
  | control (paused : Bool)
  | restart

/-- The service as it starts, over this ledger. -/
def State.fresh (config : Config) (s : State) : State :=
  { s with
    driver := ⟨Npc.npcId, false, false⟩
    currentOwner := none
    paused := config.startPaused
    desk := { s.desk with entries := Ipc.load config.bounds.maxEntries s.desk.file }
    gate := ⟨s.gate.window, []⟩
    pendingChats := []
    scheduledSays := []
    thinkJobs := []
    ambient := none
    turn := none
    polls := s.polls ++ [Ipc.Step.reload] }

/-- The next state. -/
def step (config : Config) (s : State) : Op → State
  | .runOnce turns => ((runOnce config).run { s with turn := none } turns).2
  | .idle turns => ((do
      pollEvents config
      ask fun _ => () : Act Unit).run { s with turn := none } turns).2
  | .control paused => { s with paused := paused }
  | .restart => s.fresh config

/-- A service that has read and published nothing yet. -/
def start (config : Config) (desk : Ipc.Desk) (window : ℤ) : State where
  driver := ⟨Npc.npcId, false, false⟩
  currentOwner := none
  paused := config.startPaused
  desk := desk
  gate := ⟨window, []⟩
  pendingChats := []
  scheduledSays := []
  thinkJobs := []
  ambient := none
  turn := none
  queued := []
  polls := []
  records := []
  published := []

end Service

end GoblinZomboid
