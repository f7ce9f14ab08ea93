import GoblinZomboid.Lib.Run
import GoblinZomboid.Lib.Script
import GoblinZomboid.Agent.Protocol
import Mathlib.Data.List.Dedup
/-!
# `relay.py`: pushing commands

The relay copies each ready command to the game host under a temporary
name, renames it, lists its stem in the remote index and archives the
local files. Every remote call can fail, can take effect unheard, and can
be the last one before the relay is stopped.
-/

namespace GoblinZomboid

namespace Relay

/-- The stem of a command's two files. -/
abbrev Stem := PyText

/-- `_safe_stem`. -/
def safeStem (s : Stem) : Bool := s.length ≤ 128 && Protocol.validRequestId s

def jsonName (s : Stem) : PyText := s ++ PyText.lit ".json"

def readyName (s : Stem) : PyText := s ++ PyText.lit ".ready"

/-- `path.stem` of a name that ends in `.ready`. -/
def stemOf (name : PyText) : Stem := name.take (name.length - 6)

def maxFilesPerPass : ℕ := 256

def maxRemoteIndexEntries : ℕ := 1024

/-! ## The state -/

/-- A file of the remote `commands` folder. Temporary names are drawn from
random numbers and never meet another name. -/
inductive Name
  | json (s : Stem)
  | ready (s : Stem)
  | index
  | temp (n : ℕ)
  deriving DecidableEq

/-- What a remote file holds: a copy that was cut short, the whole of a
command's file, or an index. -/
inductive Stored
  | part
  | file
  | stems (l : List Stem)

/-- The two folders, and what the relay remembers. -/
structure World where
  /-- The names in the local `commands` folder. -/
  folder : List PyText
  /-- The stems of the files in the local `archive` folder. -/
  archived : List Stem
  /-- Every name that ever was in the local folder. -/
  published : List PyText
  remote : Name → Option Stored
  /-- The stems the game host has taken away. -/
  consumed : List Stem
  /-- `_remote_ready`. -/
  remoteReady : Bool
  /-- `_remote_command_stems`. -/
  stems : Option (List Stem)
  /-- The temporary names used so far. -/
  serial : ℕ

namespace World

/-- New local files, under names that are free. -/
def arrive (w : World) (names : List PyText) : World :=
  { w with
    folder := w.folder ++ (names.filter fun name => !List.elem name w.folder).dedup
    published := w.published ++ names }

/-- A remote file is there, with this content. -/
def put (w : World) (name : Name) (x : Option Stored) : World :=
  { w with remote := Function.update w.remote name x }

/-- The relay is a new process. -/
def restart (w : World) : World := { w with remoteReady := false, stems := none }

variable (w : World) (name : Name) (x : Option Stored)

@[simp] theorem remote_put_self : (w.put name x).remote name = x := Function.update_self _ _ _

theorem remote_put_of_ne {name' : Name} (h : name' ≠ name) :
    (w.put name x).remote name' = w.remote name' := Function.update_of_ne h _ _

@[simp] theorem folder_put : (w.put name x).folder = w.folder := rfl

@[simp] theorem archived_put : (w.put name x).archived = w.archived := rfl

@[simp] theorem stems_put : (w.put name x).stems = w.stems := rfl

end World

/-! ## Calls -/

/-- How a call goes: it works; it fails; it works but is reported failed;
or the relay is stopped before it. -/
inductive Outcome
  | ok
  | failed
  | unheard
  | stopped
  deriving DecidableEq

/-- What happens at a call: local files appear, and the call goes this way. -/
structure Turn where
  arrivals : List PyText
  outcome : Outcome

/-- A script of the relay. -/
abbrev Push := Script World Turn

/-- A command, none where it exits with an error; a failed call leaves
`broken` behind. -/
def run (command broken : World → Option World) : Push Bool :=
  Script.call fun turn w =>
    let w := w.arrive turn.arrivals
    match turn.outcome with
    | .stopped => (none, w)
    | .failed => (some false, (broken w).getD w)
    | .unheard => (some false, (command w).getD w)
    | .ok =>
      match command w with
      | some w => (some true, w)
      | none => (some false, w)

/-- `_ssh`, for a command that succeeds or changes nothing. -/
def ssh (command : World → Option World) : Push Bool := run command some

/-- `_scp` of a whole file; a copy that fails may leave a part. -/
def scp (n : ℕ) (x : Stored) : Push Bool :=
  run (fun w => some (w.put (.temp n) (some x))) fun w => some (w.put (.temp n) (some .part))

/-- `mv -- remote_tmp target`. -/
def rename (n : ℕ) (target : Name) : Push Bool :=
  ssh fun w => (w.remote (.temp n)).map fun x => (w.put target (some x)).put (.temp n) none

/-- `chmod g+r`, which no file here is asked about. -/
def chmod : Push Bool := ssh some

/-- `_remote_exists`: a failed test counts as no file. -/
def remoteExists (name : Name) : Push Bool :=
  ssh fun w => if (w.remote name).isSome then some w else none

/-- `cat`, none where it fails. -/
def cat (name : Name) : Push (Option Stored) :=
  Script.call fun turn w =>
    let w := w.arrive turn.arrivals
    match turn.outcome with
    | .stopped => (none, w)
    | .ok => (some (w.remote name), w)
    | _ => (some none, w)

/-- A temporary name of its own. -/
def freshName : Push ℕ := do
  let w ← Script.get
  Script.modify fun w => { w with serial := w.serial + 1 }
  pure w.serial

/-! ## The relay -/

/-- `_remote_bridge_ready`. -/
def remoteBridgeReady : Push Bool := do
  let w ← Script.get
  if w.remoteReady then pure true
  else
    let ready ← ssh some
    if ready then
      Script.modify fun w => { w with remoteReady := true }
      pure true
    else pure false

/-- A list of stems the index may hold. -/
def wellFormed (l : List Stem) : Bool :=
  l.length ≤ maxRemoteIndexEntries && l.all safeStem && decide l.Nodup

/-- `_load_remote_command_index`. -/
def loadRemoteCommandIndex : Push Bool := do
  let w ← Script.get
  if w.stems.isSome then pure true
  else
    let ready ← remoteBridgeReady
    if !ready then pure false
    else
      let content ← cat .index
      match content with
      | some (.stems l) =>
        if wellFormed l then
          Script.modify fun w => { w with stems := some l }
          pure true
        else pure false
      | _ => pure false

/-- The length of the index as JSON. -/
def encodedSize (l : List Stem) : ℕ := 1 + max 1 (l.map fun s => s.length + 3).sum

/-- `_write_remote_command_index`. -/
def writeRemoteCommandIndex : Push Bool := do
  let w ← Script.get
  match w.stems with
  | none => pure false
  | some l =>
    let ready ← remoteBridgeReady
    if !ready then pure false
    else if 256 * 1024 < encodedSize l then pure false
    else
      let n ← freshName
      let uploaded ← scp n (.stems l)
      if !uploaded then pure false
      else
        let moved ← rename n .index
        if !moved then pure false else chmod

/-- One half of `_publish_remote`: a file that is not there is copied under
a temporary name and renamed. -/
def place (target : Name) : Push Bool := do
  let there ← remoteExists target
  if there then pure true
  else
    let n ← freshName
    let uploaded ← scp n .file
    if !uploaded then pure false
    else
      let moved ← rename n target
      if !moved then pure false else chmod

/-- `_publish_remote`. -/
def publishRemote (s : Stem) : Push Bool := do
  let ready ← remoteBridgeReady
  if !ready then pure false
  else
    let w ← Script.get
    if !(List.elem (jsonName s) w.folder && List.elem (readyName s) w.folder) then pure false
    else
      let json ← place (.json s)
      if !json then pure false
      else
        let marker ← place (.ready s)
        if !marker then pure false
        else
          let there ← remoteExists (.json s)
          if !there then pure false else remoteExists (.ready s)

/-- `os.replace` of one file of the command. -/
def archiveFile (s : Stem) (name : PyText) : Push Bool :=
  run (fun w => some { w with folder := w.folder.filter (· != name), archived := s :: w.archived })
    some

/-- `_archive_local_command`: it gives up at the first file that stays. -/
def archiveLocalCommand (s : Stem) : Push Unit := do
  let moved ← archiveFile s (jsonName s)
  if moved then
    let _ ← archiveFile s (readyName s)
    pure ()
  else pure ()

/-- The end of the loop of `push`: a command that is on the game host is
listed and archived. -/
def recordOne (s : Stem) : Push Bool := do
  let w ← Script.get
  match w.stems with
  | none => pure false
  | some l =>
    if List.elem s l then
      archiveLocalCommand s
      pure true
    else if maxRemoteIndexEntries ≤ l.length then pure false
    else
      Script.modify fun w => { w with stems := some (l ++ [s]) }
      let written ← writeRemoteCommandIndex
      if !written then
        Script.modify fun w => { w with stems := w.stems.map List.dropLast }
        pure false
      else
        archiveLocalCommand s
        pure true

/-- The body of the loop of `push`: whether the entry counts. -/
def pushOne (name : PyText) : Push Bool := do
  let s := stemOf name
  if !safeStem s then pure false
  else
    let there ← publishRemote s
    if !there then pure false else recordOne s

/-- The loop of `push`. -/
def pushAll : List PyText → Push ℕ
  | [] => pure 0
  | name :: rest => do
    let sent ← pushOne name
    let count ← pushAll rest
    pure (if sent then count + 1 else count)

/-- The names `glob("*.ready")` finds, sorted. -/
def readyNames (folder : List PyText) : List PyText :=
  (folder.filter fun name => (PyText.lit ".ready").isSuffixOf name).mergeSort (· ≤ ·)

/-- `push`. -/
def push : Push ℕ := do
  let loaded ← loadRemoteCommandIndex
  if !loaded then pure 0
  else
    let w ← Script.get
    pushAll ((readyNames w.folder).take maxFilesPerPass)

/-! ## Runs -/

/-- What can happen: a pass, which may be stopped at any call; local files
appear; the game host takes away the files of a listed command. -/
inductive Op
  | pass (turns : Turns Turn)
  | arrive (names : List PyText)
  | consume (s : Stem)

/-- The stems of the remote index. -/
def World.listed (w : World) : List Stem :=
  match w.remote .index with
  | some (.stems l) => l
  | _ => []

/-- The game host takes away the files of a command. -/
def World.consume (w : World) (s : Stem) : World :=
  { (w.put (.json s) none).put (.ready s) none with consumed := s :: w.consumed }

/-- After a pass: a relay that was stopped starts anew. -/
def afterPass : Option (ℕ × Turns Turn) × World → World
  | (some _, w) => w
  | (none, w) => w.restart

/-- The next state. -/
def step (w : World) : Op → World
  | .pass turns => afterPass (push w turns)
  | .arrive names => w.arrive names
  | .consume s => if List.elem s w.listed then w.consume s else w

theorem remote_consume_self (w : World) (s : Stem) :
    (w.consume s).remote (.json s) = none ∧ (w.consume s).remote (.ready s) = none := by
  have hne : Name.json s ≠ .ready s := nofun
  refine ⟨?_, World.remote_put_self _ _ _⟩
  exact (World.remote_put_of_ne (w.put (.json s) none) (.ready s) none hne).trans
    (World.remote_put_self w (.json s) none)

theorem remote_consume_of_ne (w : World) {s : Stem} {name : Name} (hjson : name ≠ .json s)
    (hready : name ≠ .ready s) : (w.consume s).remote name = w.remote name :=
  (World.remote_put_of_ne (w.put (.json s) none) (.ready s) none hready).trans
    (World.remote_put_of_ne w (.json s) none hjson)

end Relay

end GoblinZomboid
