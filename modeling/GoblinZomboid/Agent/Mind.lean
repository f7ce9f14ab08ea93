import GoblinZomboid.Server.Situation
import GoblinZomboid.Lib.Utf8
import GoblinZomboid.Lib.PyText
import Mathlib.Data.Rat.Init
/-!
# `mind.py`, `service.py`: folding telemetry into memory

The agent reads a companion's situation report and folds the events it
has not seen into its memory. What it has seen is one number per
companion, kept in memory only: the highest sequence number folded.
-/

namespace GoblinZomboid

/-- An event of a decoded situation report. `freewill` and `goalId` are
what `event.get` returns. -/
structure PyEvent where
  seq : ℕ
  kind : PyText
  text : PyText
  freewill : Option Bool
  goalId : Option PyText
  deriving DecidableEq

/-- Decoding one event of the report: its strings must be UTF-8. -/
def decodeEvent (e : Situation.ReportEvent) : Option PyEvent :=
  match Utf8.decode e.kind, Utf8.decode e.text, e.goalId.mapM Utf8.decode with
  | some kind, some text, some goalId => some ⟨e.seq, kind, text, e.freewill, goalId⟩
  | _, _, _ => none

/-- Decoding the events of the report; one bad string refuses the message. -/
def decodeEvents (events : List Situation.ReportEvent) : Option (List PyEvent) :=
  events.mapM decodeEvent

theorem decodeEvents_eq_some {reports : List Situation.ReportEvent} {events : List PyEvent} :
    decodeEvents reports = some events ↔ reports.map decodeEvent = events.map some := by
  induction reports generalizing events with
  | nil => cases events <;> simp [decodeEvents]
  | cons r reports ih =>
    have hcons : decodeEvents (r :: reports) =
        (decodeEvent r).bind fun e => (decodeEvents reports).map (e :: ·) := by
      simp only [decodeEvents, List.mapM_cons, Option.bind_eq_bind, Option.pure_def]
      cases decodeEvent r <;> cases reports.mapM decodeEvent <;> rfl
    rw [hcons]
    cases events with
    | nil => simp [Option.bind_eq_some_iff]
    | cons e events =>
      rw [List.map_cons, List.map_cons, List.cons_eq_cons, ← ih]
      constructor
      · intro h
        obtain ⟨d, hd, h⟩ := Option.bind_eq_some_iff.1 h
        obtain ⟨ds, hds, h⟩ := Option.map_eq_some_iff.1 h
        rw [List.cons_eq_cons] at h
        exact ⟨by rw [hd, h.1], by rw [hds, h.2]⟩
      · rintro ⟨hd, hds⟩
        rw [hd, hds]
        rfl

/-- An event of the decoded report is one of the report, decoded. -/
theorem exists_of_mem_decodeEvents {reports : List Situation.ReportEvent} {events : List PyEvent}
    (h : decodeEvents reports = some events) {e : PyEvent} (he : e ∈ events) :
    ∃ r ∈ reports, decodeEvent r = some e := by
  have hmem : some e ∈ reports.map decodeEvent := by
    rw [decodeEvents_eq_some.1 h]
    exact List.mem_map_of_mem he
  exact List.mem_map.1 hmem

/-- What a decoded event says of the event it was made of. -/
theorem decodeEvent_report {x : Situation.Event} {e : PyEvent}
    (h : decodeEvent x.report = some e) :
    e.seq = x.seq ∧ Utf8.decode x.kind = some e.kind ∧ Utf8.decode x.text = some e.text ∧
      e.freewill = none ∧ e.goalId = none := by
  simp only [decodeEvent, Situation.Event.report, Option.mapM_none, Option.pure_def] at h
  split at h
  · rename_i kind text goalId hkind htext hgoal
    cases h
    cases hgoal
    exact ⟨rfl, hkind, htext, rfl, rfl⟩
  · cases h

namespace Mind

/-- The number `observe` compares with: the mark, or 0 once every number of
the report is below it. -/
def threshold (mark : ℕ) (events : List PyEvent) : ℕ :=
  if !events.isEmpty && events.all fun e => e.seq < mark then 0 else mark

/-- The events `observe` folds. -/
def newEvents (mark : ℕ) (events : List PyEvent) : List PyEvent :=
  events.filter fun e => threshold mark events < e.seq

/-- The mark `observe` leaves. -/
def newMark (mark : ℕ) (events : List PyEvent) : ℕ :=
  (newEvents mark events).foldl (fun m e => max m e.seq) (threshold mark events)

/-- `record` drops a blank text. -/
def recorded (e : PyEvent) : Bool := !(PyText.strip (e.text.take 240)).isEmpty

/-- The trust adjustment an event makes, in thousandths. -/
def trustDelta (e : PyEvent) : Option ℤ :=
  if e.kind = PyText.lit "horde" then some (-30)
  else if e.kind = PyText.lit "owner_hurt" then some (-10)
  else if e.kind = PyText.lit "job" && PyText.contains e.text (PyText.lit "COMPLETE") then some 5
  else none

end Mind

namespace Service

/-- The call of `Sentience.note_job` that `_observe` makes for an event it
has just folded: the intent and the success. -/
def noteJob (e : PyEvent) : Option (PyText × Bool) :=
  if e.kind = PyText.lit "job" then
    match PyText.split e.text with
    | intent :: code :: _ =>
      some (intent, PyText.rstripWhere (· == ':') code == PyText.lit "COMPLETE")
    | _ => none
  else none

/-- The call of `Sentience.step_result` that follows it, for events marked
as free will and without a goal id. -/
def stepResult (e : PyEvent) : Option (PyText × Bool) :=
  if e.freewill = some true && (e.goalId.getD []).isEmpty then noteJob e else none

end Service

end GoblinZomboid
