import GoblinZomboid.Lib.Run
import GoblinZomboid.Agent.Events
/-!
# `ipc.py`: consumers and their ledger

A consumer polls the ready files of its channel. It keeps the ids it took
in a bounded ledger, in memory and on disk; what it does not take it moves
away. Reading a file and writing the ledger can fail.
-/

namespace GoblinZomboid

namespace Ipc

open Protocol (Message Age Dict)

/-! ## The ledger -/

/-- `RequestLedger._entries`, in the order of insertion. -/
abbrev Entries := List (PyText × ℤ)

/-- `RequestLedger._trim`. -/
def trim (maxEntries : ℕ) (entries : Entries) : Entries :=
  if entries.length ≤ maxEntries then entries
  else (entries.mergeSort fun a b => b.2 ≤ a.2).take maxEntries

/-- `RequestLedger.seen`. -/
def seen (entries : Entries) (requestId : PyText) : Bool :=
  entries.any fun e => e.1 = requestId

/-- `entries[request_id] = timestamp`. -/
def assign (entries : Entries) (requestId : PyText) (timestampMs : ℤ) : Entries :=
  if seen entries requestId then
    entries.map fun e => if e.1 = requestId then (requestId, timestampMs) else e
  else entries ++ [(requestId, timestampMs)]

/-- `RequestLedger._load` of the file, whose keys are sorted. -/
def load (maxEntries : ℕ) (file : Option Entries) : Entries :=
  match file with
  | none => []
  | some entries =>
    trim maxEntries ((entries.mergeSort fun a b => a.1 ≤ b.1).filter fun e =>
      Protocol.validRequestId e.1)

/-- How writing the ledger goes: it works, it fails, or it fails after the
file was replaced. -/
inductive Write
  | ok
  | failed
  | unheard
  deriving DecidableEq

/-! ## The consumers -/

/-- What a consumer makes of a message. -/
inductive Verdict
  | pass
  | refuse (detail : String)
  /-- An error that `poll` does not catch. -/
  | raise

/-- A consumer, with the types it was given. -/
inductive Consumer
  | command (expected : List PyText)
  | event (accepted : List PyText)
  | response

/-- The types a command may have. -/
def commandTypes (expected : List PyText) : List PyText :=
  if expected.isEmpty then [PyText.lit "command.intent", PyText.lit "command.npc_action"]
  else expected

/-- The types an event may have. -/
def eventTypes (accepted : List PyText) : List PyText :=
  if accepted.isEmpty then Events.eventFields.map fun kind => PyText.lit ("event." ++ kind.1)
  else accepted

/-- `status not in {...}`, which a list or a dictionary cannot be asked. -/
def statusVerdict : Option PyValue → Verdict
  | some (.list _) | some (.dict _) => .raise
  | some (.str t) =>
    if Events.isNamed t ["accepted", "rejected", "busy", "failed"] then .pass
    else .refuse "invalid response status"
  | _ => .refuse "invalid response status"

/-- `not isinstance(detail, str) or len(detail) > 512`. -/
def detailVerdict : Option PyValue → Verdict
  | none => .pass
  | some (.str t) => if t.length ≤ 512 then .pass else .refuse "invalid response detail"
  | some _ => .refuse "invalid response detail"

/-- The checks of `poll` before the ledger. -/
def Consumer.check (c : Consumer) (message : Message) : Verdict :=
  match c with
  | .command expected =>
    if List.elem message.type (commandTypes expected) then .pass
    else .refuse "unexpected command type"
  | .event accepted =>
    if !(PyText.lit "event.").isPrefixOf message.type then .refuse "unexpected event type"
    else if List.elem message.type (eventTypes accepted) then .pass
    else .refuse "unsupported event type"
  | .response =>
    if message.type != PyText.lit "response.command" then .refuse "unexpected response type"
    else
      match statusVerdict (Protocol.get message.fields "status") with
      | .pass => detailVerdict (Protocol.get message.fields "detail")
      | verdict => verdict

/-! ## Polling -/

/-- What a ready file gives: an error of the file system; no JSON; an error
that `poll` does not catch; or a value. -/
inductive Reading
  | unreadable
  | broken
  | raises
  | value (v : PyValue)

/-- A ready file, and how the ledger is written if its message is taken. -/
structure Item where
  reading : Reading
  write : Write

/-- The bounds of a consumer and its ledger. -/
structure Bounds where
  maxEntries : ℕ
  maxAgeMs : ℤ

/-- A consumer's ledger, in memory and on disk, and what came of it. -/
structure Desk where
  entries : Entries
  file : Option Entries
  /-- The time of the last poll. -/
  clock : ℤ
  /-- The id and time of every message `poll` returned. -/
  returned : List (PyText × ℤ)
  /-- Everything the ledger was ever given. -/
  remembered : List (PyText × ℤ)

/-- `from_mapping` of a decoded value. -/
def fromValue (age : Age) : PyValue → Except String Message
  | .dict raw => Protocol.fromMappingAt (some age) raw
  | _ => .error "message must be a JSON object"

/-- What becomes of an item. -/
inductive Outcome
  /-- It is moved away. -/
  | dropped
  | taken (message : Message)
  | raised

/-- `RequestLedger.remember`; it raises unless the file is written. -/
def remember (b : Bounds) (d : Desk) (requestId : PyText) (timestampMs : ℤ) (write : Write) : Desk :=
  let entries := trim b.maxEntries (assign d.entries requestId timestampMs)
  { d with
    entries := entries
    file := if write = .failed then d.file else some entries
    remembered := (requestId, timestampMs) :: d.remembered }

/-- The body of the loop of `poll`. -/
def handle (c : Consumer) (b : Bounds) (now : ℤ) (d : Desk) (item : Item) : Outcome × Desk :=
  match item.reading with
  | .unreadable | .broken => (.dropped, d)
  | .raises => (.raised, d)
  | .value v =>
    match fromValue ⟨b.maxAgeMs, now⟩ v with
    | .error _ => (.dropped, d)
    | .ok message =>
      match c.check message with
      | .refuse _ => (.dropped, d)
      | .raise => (.raised, d)
      | .pass =>
        if seen d.entries message.requestId then (.dropped, d)
        else
          let d := remember b d message.requestId message.timestampMs item.write
          if item.write = .ok then (.taken message, d) else (.dropped, d)

/-- The loop of `poll`: none where it raises. -/
def pollItems (c : Consumer) (b : Bounds) (now : ℤ) (limit : ℕ) (d : Desk) (taken : List Message) :
    List Item → Option (List Message) × Desk
  | [] => (some taken, d)
  | item :: items =>
    if limit ≤ taken.length then (some taken, d)
    else
      match handle c b now d item with
      | (.dropped, d) => pollItems c b now limit d taken items
      | (.taken message, d) => pollItems c b now limit d (taken ++ [message]) items
      | (.raised, d) => (none, d)

/-- What a message is known by. -/
def key (message : Message) : PyText × ℤ := (message.requestId, message.timestampMs)

/-- `poll`. -/
def poll (c : Consumer) (b : Bounds) (now : ℤ) (limit : ℕ) (items : List Item) (d : Desk) : Desk :=
  match pollItems c b now limit { d with clock := now } [] items with
  | (some taken, d) => { d with returned := d.returned ++ taken.map key }
  | (none, d) => d

/-- What can happen: a poll, over these files; the consumer starts anew. -/
inductive Step
  | poll (now : ℤ) (limit : ℕ) (items : List Item)
  | reload

/-- The next state. -/
def step (c : Consumer) (b : Bounds) (d : Desk) : Step → Desk
  | .poll now limit items => poll c b now limit items d
  | .reload => { d with entries := load b.maxEntries d.file }

end Ipc

end GoblinZomboid
