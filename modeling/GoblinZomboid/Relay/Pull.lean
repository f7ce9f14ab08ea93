import GoblinZomboid.Relay.Push
/-!
# `relay.py`: pulling messages

A pass of `pull` lists each channel of the game host and copies what is
not there yet, one call after another. The consumer of a channel moves
files away and the game host writes new ones between any two calls, so the
pass is a list of tasks, and one call is one step.
-/

namespace GoblinZomboid

namespace Relay

/-- `_REMOTE_READ_CHANNELS`. -/
inductive Channel
  | state
  | events
  | runtime
  | responses
  | acks
  | archive
  | deadletter
  deriving DecidableEq

/-- A message of a channel. -/
abbrev Letter := Channel × Stem

/-- The two files of a message. -/
inductive Half
  | json
  | ready
  deriving DecidableEq

def Half.suffix : Half → PyText
  | .json => PyText.lit ".json"
  | .ready => PyText.lit ".ready"

/-- The name of a message's file. -/
def Half.name (half : Half) (s : Stem) : PyText := s ++ half.suffix

/-- What a pass has left to do. -/
inductive Task
  /-- `_pull_runtime` lists the runtime files. -/
  | runtime
  /-- It copies one of them. -/
  | snapshot (s : Stem)
  /-- `_pull_ready_channel` lists the markers of a channel. -/
  | markers (c : Channel)
  /-- It copies a message's `.json`. -/
  | json (p : Letter)
  /-- It copies its `.ready`. -/
  | marker (p : Letter)
  /-- `_pull_json_fallback` lists the `.json` files of a channel. -/
  | files (c : Channel)
  /-- It looks a message up among those it has seen, and copies it. -/
  | fetch (p : Letter)
  /-- It reads the copy. -/
  | decode (p : Letter)
  /-- It writes the local marker. -/
  | gate (p : Letter)

/-- The game host's folders, the local ones, and what the relay is at. -/
structure Mirror where
  /-- The files of the game host. -/
  remote : List (Channel × PyText)
  /-- The local files. -/
  here : List (Channel × PyText)
  /-- The type of the message in a file; none if `decode_message` refuses it. -/
  kind : Letter → Option PyText
  todo : List Task
  /-- `_remote_json_seen`. -/
  seen : List Letter
  /-- The messages whose `.json` was ever there. -/
  copied : List Letter
  /-- The messages that became ready, each as often as it did. -/
  introduced : List Letter

/-- Both files of the message are among these. -/
def wholeIn (here : List (Channel × PyText)) (p : Letter) : Bool :=
  List.elem (p.1, Half.json.name p.2) here && List.elem (p.1, Half.ready.name p.2) here

namespace Mirror

/-- The message is ready: both its files are there. -/
def whole (w : Mirror) (p : Letter) : Bool := wholeIn w.here p

/-- The relay puts a file there. -/
def bring (w : Mirror) (p : Letter) (half : Half) : Mirror :=
  let here := (p.1, half.name p.2) :: w.here
  { w with
    here := here
    copied := if half = .json then p :: w.copied else w.copied
    introduced := if !w.whole p && wholeIn here p then p :: w.introduced else w.introduced }

end Mirror

/-- How a call goes, and the order a listing comes in. -/
structure Call where
  outcome : Outcome
  order : List PyText → List PyText
  perm : ∀ l, (order l).Perm l

/-! ## The functions of a pass -/

/-- A name `_remote_names` keeps. -/
def eligible (suffix name : PyText) : Bool :=
  suffix.isSuffixOf name && safeStem (name.take (name.length - suffix.length))
    && !(PyText.lit "relaytmp-").isPrefixOf name

/-- The names `_remote_names` reads before it stops. -/
def window (suffix : PyText) (lines : List PyText) : List PyText :=
  ((lines.map PyText.strip).filter (eligible suffix)).take maxFilesPerPass

/-- The lines `find` prints. -/
def Mirror.lines (w : Mirror) (c : Channel) (suffix : PyText) (call : Call) : List PyText :=
  call.order ((w.remote.filter fun e => e.1 = c && suffix.isSuffixOf e.2).map Prod.snd)

/-- `_remote_names`, as stems. -/
def remoteStems (w : Mirror) (c : Channel) (half : Half) (call : Call) : List Stem :=
  match call.outcome with
  | .ok =>
    (((window half.suffix (w.lines c half.suffix call)).dedup).mergeSort (· ≤ ·)).map
      fun name => name.take (name.length - half.suffix.length)
  | _ => []

/-- `_pull_file`: none where there is no copy. -/
def pullFile (w : Mirror) (p : Letter) (half : Half) (call : Call) : Option Mirror :=
  if List.elem (p.1, half.name p.2) w.here then some w
  else
    match call.outcome with
    | .ok => if List.elem (p.1, half.name p.2) w.remote then some (w.bring p half) else none
    | _ => none

/-- `_json_fallback_type_allowed`. -/
def typeAllowed (c : Channel) (type : PyText) : Bool :=
  match c with
  | .events => (PyText.lit "event.").isPrefixOf type
  | .responses => type == PyText.lit "response.command"
  | _ => false

/-- `_REMOTE_JSON_FALLBACK_CHANNELS`. -/
def isFallback (c : Channel) : Bool :=
  match c with
  | .events | .responses => true
  | _ => false

/-- The next tasks go first. -/
def Mirror.first (w : Mirror) (tasks : List Task) : Mirror := { w with todo := tasks ++ w.todo }

/-- One task, which is no longer on the list. -/
def perform (w : Mirror) (call : Call) : Task → Mirror
  | .runtime => w.first ((remoteStems w .runtime .json call).map .snapshot)
  | .snapshot s => (pullFile w (.runtime, s) .json call).getD w
  | .markers c => w.first ((remoteStems w c .ready call).map fun s => .json (c, s))
  | .json p =>
    match pullFile w p .json call with
    | some w => w.first [.marker p]
    | none => w
  | .marker p => (pullFile w p .ready call).getD w
  | .files c =>
    if isFallback c then w.first ((remoteStems w c .json call).map fun s => .fetch (c, s)) else w
  | .fetch p =>
    if List.elem p w.seen then w
    else
      match pullFile w p .json call with
      | some w => w.first [.decode p]
      | none => w
  | .decode p =>
    match call.outcome with
    | .ok =>
      if List.elem (p.1, Half.json.name p.2) w.here then
        match w.kind p with
        | some type => if typeAllowed p.1 type then w.first [.gate p] else w
        | none => w
      else w
    | _ => w
  | .gate p =>
    if List.elem (p.1, Half.ready.name p.2) w.here then { w with seen := p :: w.seen }
    else
      match call.outcome with
      | .ok => { w.bring p .ready with seen := p :: w.seen }
      | .unheard => w.bring p .ready
      | _ => w

/-- The tasks of `pull`. -/
def pullTasks : List Task :=
  .runtime ::
    [Channel.state, .events, .responses, .acks, .archive, .deadletter].flatMap
      fun c => [.markers c, .files c]

/-! ## Runs -/

/-- What can happen next: the relay makes a call; a consumer moves a local
file away; the game host writes a file. -/
inductive Move
  | relay (call : Call)
  | take (c : Channel) (name : PyText)
  | write (c : Channel) (name : PyText)

/-- The relay's next step: a new process if it was stopped, a new pass when
it is through with the last. -/
def Mirror.work (w : Mirror) (call : Call) : Mirror :=
  match call.outcome with
  | .stopped => { w with todo := [], seen := [] }
  | _ =>
    match w.todo with
    | [] => { w with todo := pullTasks }
    | task :: rest => perform { w with todo := rest } call task

/-- The next state. -/
def Mirror.step (w : Mirror) : Move → Mirror
  | .relay call => w.work call
  | .take c name => { w with here := w.here.filter (· != (c, name)) }
  | .write c name =>
    if List.elem (c, name) w.remote then w else { w with remote := (c, name) :: w.remote }

end Relay

end GoblinZomboid
