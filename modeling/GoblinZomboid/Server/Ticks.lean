import GoblinZomboid.Server.Bridge
import GoblinZomboid.Server.Ipc
import GoblinZomboid.Lib.Run
/-!
# `GoblinBridge.lua`: the ticks

A tick lists the ready commands and processes the first of them one after
the other; an error in one ends the tick. In between, files are delivered
and the server is started anew, which empties the memory of the bridge and
leaves the folder.
-/

namespace GoblinZomboid

namespace Bridge

open IPC (Folder File Destination)

/-- How a call of `Brain.execute` ends; an error in what follows it up to
the archive counts as its own. -/
inductive Execution
  | accepted (detail : Bytes)
  | refused (detail : Bytes)
  | error

/-- What the world is like when a command is processed. -/
structure Scene where
  env : Authority.Env
  grants : Authority.Store
  findByNpcId : Bytes → Option Body
  findForOwner : Bytes → Option Body
  foodBusy : Bool
  execution : Execution
  /-- The `.done` file could be written. -/
  doneWritten : Bool

/-- `IPC.writeResponse` and `IPC.acknowledge`. -/
structure Response where
  requestId : Bytes
  status : String
  detail : Bytes

/-- The bridge, its folder, and what it has done. -/
structure Host where
  seen : Seen
  /-- The stems the tick has still to process. -/
  queue : List Bytes
  folder : Folder
  responses : List Response
  /-- The requests `Brain.execute` was called for, the latest first. -/
  executed : List Bytes

namespace Host

def archive (w : Host) (scene : Scene) (stem : Bytes) (destination : Destination)
    (reason : String) : Host :=
  { w with folder := IPC.archiveReady w.folder stem destination reason scene.doneWritten }

def respond (w : Host) (requestId : Bytes) (status : String) (detail : Bytes) : Host :=
  { w with responses := ⟨requestId, status, detail.take 512⟩ :: w.responses }

/-- The end of `process`. -/
def finalize (w : Host) (scene : Scene) (stem requestId : Bytes) (accepted : Bool)
    (detail : Bytes) : Host :=
  let status := if accepted then "accepted" else "failed"
  (w.respond requestId status detail).archive scene stem .archive
    ("Goblin command finalized: " ++ status)

/-- The call of `Brain.execute` and what follows it. -/
def execute (w : Host) (scene : Scene) (stem requestId : Bytes) : Host :=
  let w := { w with executed := requestId :: w.executed }
  match scene.execution with
  | .accepted detail => w.finalize scene stem requestId true detail
  | .refused detail => w.finalize scene stem requestId false detail
  | .error => { w with queue := [] }

/-- `process`. -/
def process (w : Host) (scene : Scene) (stem : Bytes) : Host :=
  match IPC.readReady w.folder stem with
  | none => w.archive scene stem .deadletter "malformed Goblin command"
  | some message =>
    let requestId := (message.field "request_id").str?.getD []
    let (outcome, seen, _) := Bridge.process scene.env scene.findByNpcId scene.findForOwner
      scene.foodBusy message w.seen scene.grants
    let w := { w with seen := seen }
    match outcome with
    | .malformed => w.archive scene stem .deadletter "malformed Goblin command"
    | .duplicate => w.archive scene stem .archive "duplicate Goblin request"
    | .rejected =>
      (w.respond requestId "rejected" (Bytes.lit "Goblin command failed server validation")).archive
        scene stem .archive "Goblin command rejected"
    | .absent =>
      w.finalize scene stem requestId false (Bytes.lit "requested player's Goblin is not present")
    | .routed (.refuse detail) => w.finalize scene stem requestId false (Bytes.lit detail)
    | .routed _ => w.execute scene stem requestId

end Host

/-- How many commands a tick processes. -/
def tickLimit : ℕ := 32

inductive Move
  /-- A tick begins. -/
  | list (ready enabled : Bool)
  /-- The tick goes on with its next command. -/
  | next (scene : Scene)
  /-- A command file is delivered, replaced or taken away. -/
  | write (stem : Bytes) (file : Option File)
  | index (entries : List LuaValue)
  | restart

namespace Host

def step (w : Host) : Move → Host
  | .list ready enabled =>
    if ready && enabled && w.queue.isEmpty then
      { w with queue := (IPC.listReady w.folder).take tickLimit }
    else w
  | .next scene =>
    match w.queue with
    | [] => w
    | stem :: rest => { w with queue := rest }.process scene stem
  | .write stem file =>
    { w with folder := { w.folder with json := Function.update w.folder.json stem file } }
  | .index entries => { w with folder := { w.folder with index := entries } }
  | .restart => { w with seen := [], queue := [] }

/-- A bridge that has done nothing yet, over any folder. -/
def start (f : Folder) : Host := ⟨[], [], f, [], []⟩

end Host

end Bridge

end GoblinZomboid
