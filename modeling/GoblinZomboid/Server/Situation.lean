import GoblinZomboid.Server.Body
import Mathlib.Order.Nat
import Mathlib.Order.MinMax
/-!
# `GoblinSituation.lua`: the event log

A body's log holds its last sixteen events under consecutive sequence
numbers. The situation report attached to telemetry carries a projection
of it.
-/

namespace GoblinZomboid

namespace Situation

/-- `MAX_EVENTS`. -/
def maxEvents : ℕ := 16

/-- The metadata `note` is given, in the fields it reads. -/
structure Metadata where
  freewill : Bool
  goalId : Option Bytes

/-- A logged event; the last two fields are set when metadata was given. -/
structure Event where
  seq : ℕ
  kind : Bytes
  text : Bytes
  notedAt : ℕ
  freewill : Option Bool
  goalId : Option Bytes
  deriving DecidableEq

/-- **The event log**: the counter, and the last events noted, which end at
it and are numbered without a gap. -/
structure Log where
  seq : ℕ
  events : List Event
  length_events : events.length = min seq maxEvents
  seq_events : events.map Event.seq = List.range' (seq + 1 - events.length) events.length

/-- The numbers in the log are the last ones up to the counter. -/
theorem seq_le_of_mem {log : Log} {e : Event} (he : e ∈ log.events) : e.seq ≤ log.seq := by
  have hmem : e.seq ∈ log.events.map Event.seq := List.mem_map_of_mem he
  rw [log.seq_events, List.mem_range'_1] at hmem
  have := log.length_events
  omega

/-- The log of a server that has just started. -/
def Log.empty : Log where
  seq := 0
  events := []
  length_events := rfl
  seq_events := rfl

/-- The event `note` appends. -/
def newEvent (seq : ℕ) (kind text : Bytes) (metadata : Option Metadata) (now : ℕ) : Event where
  seq := seq
  kind := kind
  text := text.take 160
  notedAt := now
  freewill := metadata.map Metadata.freewill
  goalId := metadata.bind Metadata.goalId

/-- The window after one more event: `while #log > MAX_EVENTS`. -/
def slide (events : List Event) (e : Event) : List Event :=
  (events ++ [e]).drop ((events ++ [e]).length - maxEvents)

theorem length_slide (log : Log) (e : Event) :
    (slide log.events e).length = min (log.seq + 1) maxEvents := by
  have hlen := log.length_events
  simp only [slide, List.length_drop, List.length_append, List.length_singleton]
  omega

theorem seq_slide (log : Log) (e : Event) (he : e.seq = log.seq + 1) :
    (slide log.events e).map Event.seq =
      List.range' (log.seq + 2 - (slide log.events e).length) (slide log.events e).length := by
  have hlen := log.length_events
  have hall : (log.events ++ [e]).map Event.seq =
      List.range' (log.seq + 1 - log.events.length) (log.events.length + 1) := by
    rw [List.map_append, log.seq_events, List.map_singleton, he, List.range'_concat]
    congr 2
    omega
  rw [slide, List.map_drop, hall, List.drop_range']
  simp only [List.length_drop, List.length_append, List.length_singleton]
  congr 1
  omega

/-- `Situation.note`. -/
def note (log : Log) (kind text : Bytes) (metadata : Option Metadata) (now : ℕ) : Log where
  seq := log.seq + 1
  events := slide log.events (newEvent (log.seq + 1) kind text metadata now)
  length_events := length_slide log _
  seq_events := seq_slide log _ rfl

/-- A call of `Situation.note`. -/
structure Note where
  kind : Bytes
  text : Bytes
  metadata : Option Metadata
  now : ℕ

/-- The log after the call. -/
def Note.apply (log : Log) (n : Note) : Log := note log n.kind n.text n.metadata n.now

@[simp] theorem Note.seq_apply (log : Log) (n : Note) : (n.apply log).seq = log.seq + 1 := rfl

/-- An event of the situation report, in the fields its readers look for. -/
structure ReportEvent where
  seq : ℕ
  kind : Bytes
  text : Bytes
  freewill : Option Bool
  goalId : Option Bytes
  deriving DecidableEq

/-- The table `Situation.build` makes of an event: the number, the kind and
the text, and no other field. -/
def Event.report (e : Event) : ReportEvent := ⟨e.seq, e.kind, e.text, none, none⟩

/-- `report.events` of `Situation.build`. -/
def Log.report (log : Log) : List ReportEvent := log.events.map Event.report

end Situation

end GoblinZomboid
