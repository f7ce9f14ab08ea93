import GoblinZomboid.Server.Capabilities
import GoblinZomboid.Agent.Mind
import GoblinZomboid.Lib.Run
/-!
# Free-will results on the wire

A finished job is noted with its free-will flag and goal id, logged,
copied into the situation report, sent, decoded and folded. The note and
the agent's reader agree; the copy in between leaves the metadata out, so
the plan hears of no job at all.
-/

namespace GoblinZomboid

namespace FreeWill

open Situation (Log Note)

/-! ## The text of a job note -/

/-- The codes of a finished job, as text. -/
def codeNames : List String :=
  ["COMPLETE", "NO_TARGET", "NO_PATH", "BLOCKED", "LOCKED", "MISSING_MATERIAL", "MISSING_TOOL",
    "TARGET_UNLOADED", "TARGET_CHANGED", "UNSUPPORTED", "PERMISSION_DENIED", "INTERRUPTED",
    "TIMEOUT", "ENGINE_ERROR"]

theorem exists_codeName {r : Capabilities.Result} (h : r.done = true) :
    ∃ c ∈ codeNames, r.code = Bytes.lit c := by
  have hall : Capabilities.complete :: Capabilities.failureCodes = codeNames.map Bytes.lit := rfl
  have hmem := Capabilities.code_mem h
  rw [hall] at hmem
  obtain ⟨c, hc, heq⟩ := List.mem_map.1 hmem
  exact ⟨c, hc, heq.symm⟩

/-- A word: not empty, with no blank and no colon in it. -/
def IsWord (s : String) : Prop := s.toList ≠ [] ∧ ∀ c ∈ s.toList, PyText.isSpace c = false ∧ c ≠ ':'

instance (s : String) : Decidable (IsWord s) :=
  decidable_of_iff
    (s.toList ≠ [] ∧ (s.toList.all fun c => PyText.isSpace c = false ∧ c ≠ ':') = true)
    (by simp only [IsWord, List.all_eq_true, decide_eq_true_eq])

theorem isWord_taskName (t : Task) : IsWord t.name := by cases t <;> decide

theorem isWord_codeName {c : String} (h : c ∈ codeNames) : IsWord c := by
  have hall : ∀ c ∈ codeNames, IsWord c := by decide
  exact hall c h

/-- The longest name and code, with the colon and the blanks, fit the 160
bytes a note keeps. -/
theorem length_head_le {t : Task} {c : String} (h : c ∈ codeNames) :
    (Bytes.lit t.name).length + (Bytes.lit c).length ≤ 100 := by
  have hname : ∀ t : Task, (Bytes.lit t.name).length ≤ 50 := by
    intro t
    cases t <;> decide
  have hcode : ∀ c ∈ codeNames, (Bytes.lit c).length ≤ 50 := by decide
  have := hname t
  have := hcode c h
  omega

/-- The characters before the detail. -/
def head (t : Task) (c : String) : PyText := t.name.toList ++ ' ' :: (c.toList ++ [':']) ++ [' ']

theorem encode_head (t : Task) (c : String) :
    Utf8.encode (head t c) = t.bytes ++ Bytes.lit " " ++ Bytes.lit c ++ Bytes.lit ": " := by
  have hspace : Bytes.lit " " = Utf8.encode [' '] := by decide
  have hcolon : Bytes.lit ": " = Utf8.encode [':', ' '] := by decide
  rw [Task.bytes, Utf8.lit_eq_encode t.name, Utf8.lit_eq_encode c, hspace, hcolon,
    ← Utf8.encode_append, ← Utf8.encode_append, ← Utf8.encode_append]
  simp [head]

/-- A decoded job note starts with its head. -/
theorem exists_detail_of_decode {t : Task} {c : String} (hc : c ∈ codeNames) {detail : Bytes}
    {text : PyText}
    (h : Utf8.decode ((t.bytes ++ Bytes.lit " " ++ Bytes.lit c ++ Bytes.lit ": " ++ detail).take
      160) = some text) :
    ∃ rest, text = head t c ++ rest := by
  -- The cut comes after the head, so the head decodes as itself.
  have hshort : (Utf8.encode (head t c)).length ≤ 160 := by
    have := length_head_le (t := t) hc
    rw [encode_head]
    simp only [List.length_append, Task.bytes]
    have hone : (Bytes.lit " ").length = 1 := by decide
    have htwo : (Bytes.lit ": ").length = 2 := by decide
    omega
  rw [← encode_head, List.take_append, List.take_of_length_le hshort,
    Utf8.decode_encode_append] at h
  obtain ⟨rest, -, rfl⟩ := Option.map_eq_some_iff.1 h
  exact ⟨rest, rfl⟩

/-- **The first two words of a decoded job note** are the task and the code
with its colon. -/
theorem split_of_decode {t : Task} {c : String} (hc : c ∈ codeNames) {detail : Bytes}
    {text : PyText}
    (h : Utf8.decode ((t.bytes ++ Bytes.lit " " ++ Bytes.lit c ++ Bytes.lit ": " ++ detail).take
      160) = some text) :
    ∃ words, PyText.split text = t.name.toList :: (c.toList ++ [':']) :: words := by
  obtain ⟨hne, hword⟩ := isWord_taskName t
  obtain ⟨-, hcode⟩ := isWord_codeName hc
  obtain ⟨rest, rfl⟩ := exists_detail_of_decode hc h
  have hblank : PyText.isSpace ' ' = true := by decide
  have hcolon : ∀ d ∈ c.toList ++ [':'], PyText.isSpace d = false := by
    intro d hd
    rcases List.mem_append.1 hd with hd | hd
    · exact (hcode d hd).1
    · rw [List.mem_singleton.1 hd]; decide
  refine ⟨PyText.split rest, ?_⟩
  have hshape : head t c ++ rest =
      t.name.toList ++ ' ' :: ((c.toList ++ [':']) ++ ' ' :: rest) := by
    simp [head]
  rw [hshape, PyText.split_word_append hne (fun d hd => (hword d hd).1) hblank,
    PyText.split_word_append (by simp) hcolon hblank]

/-- Stripping the colon leaves the code. -/
theorem rstrip_code {c : String} (hc : c ∈ codeNames) :
    PyText.rstripWhere (· == ':') (c.toList ++ [':']) = c.toList := by
  have hall : ∀ c ∈ codeNames,
      PyText.rstripWhere (· == ':') (c.toList ++ [':']) = c.toList := by decide
  exact hall c hc

/-! ## From the note to the fold -/

variable {log : Log} {t : Task} {r : Capabilities.Result} {freewill : Bool}
  {goalId : Option Bytes} {now : ℕ} {later : List Note} {mark : ℕ} {e : PyEvent}

/-- **The snapshot carries the job.** The report of the log, as it is after
the job was noted and more was noted later, decodes, and `e` is the event
of the job among those `observe` folds. -/
def Carries (log : Log) (t : Task) (r : Capabilities.Result) (freewill : Bool)
    (goalId : Option Bytes) (now : ℕ) (later : List Note) (mark : ℕ) (e : PyEvent) : Prop :=
  ∃ events, decodeEvents (Machine.run Note.apply
      (Brain.noteJob log t r freewill goalId now) later).report = some events ∧
    e ∈ Mind.newEvents mark events ∧ e.seq = log.seq + 1

/-- Later notes get higher numbers, so the number stays the job's. -/
theorem event_eq_of_seq {log' : Log} {ev : Situation.Event} {n : ℕ} (hle : n ≤ log'.seq)
    (hev : ∀ x ∈ log'.events, x.seq = n → x = ev) (later : List Note) :
    ∀ x ∈ (Machine.run Note.apply log' later).events, x.seq = n → x = ev := by
  have hstep : ∀ (l : Log) (m : Note),
      (n ≤ l.seq ∧ ∀ x ∈ l.events, x.seq = n → x = ev) →
      (n ≤ (Note.apply l m).seq ∧ ∀ x ∈ (Note.apply l m).events, x.seq = n → x = ev) := by
    rintro l m ⟨hl, hall⟩
    refine ⟨hl.trans (Nat.le_succ _), fun x hx hseq => ?_⟩
    rcases List.mem_append.1 (List.mem_of_mem_drop hx) with hx | hx
    · exact hall x hx hseq
    · rw [List.mem_singleton.1 hx] at hseq
      have : l.seq + 1 = n := hseq
      omega
  exact (Machine.invariant hstep ⟨hle, hev⟩ later).2

/-- The event of a job, in the log and as the agent has it. -/
theorem exists_job_of_carries (h : Carries log t r freewill goalId now later mark e) :
    Utf8.decode (Bytes.lit "job") = some e.kind ∧
      Utf8.decode ((t.bytes ++ Bytes.lit " " ++ r.code ++ Bytes.lit ": " ++ r.detail).take 160) =
        some e.text ∧
      e.freewill = none ∧ e.goalId = none := by
  obtain ⟨events, hd, he, hseq⟩ := h
  obtain ⟨y, hy, hye⟩ := exists_of_mem_decodeEvents hd (List.mem_of_mem_filter he)
  obtain ⟨x, hx, rfl⟩ := List.mem_map.1 hy
  obtain ⟨hxe, hkind, htext, hf, hg⟩ := decodeEvent_report hye
  have hnoted : ∀ z ∈ (Brain.noteJob log t r freewill goalId now).events,
      z.seq = log.seq + 1 → z = Situation.newEvent (log.seq + 1) (Bytes.lit "job")
        (t.bytes ++ Bytes.lit " " ++ r.code ++ Bytes.lit ": " ++ r.detail)
        (some ⟨freewill, goalId⟩) now := by
    intro z hz hzseq
    rcases List.mem_append.1 (List.mem_of_mem_drop hz) with hz | hz
    · have := Situation.seq_le_of_mem hz
      omega
    · exact List.mem_singleton.1 hz
  have hjob := event_eq_of_seq le_rfl hnoted later x hx (hxe.symm.trans hseq)
  rw [hjob] at hkind htext
  exact ⟨hkind, htext, hf, hg⟩

/-- **The job itself arrives**: its event is folded as the task and whether
it succeeded. -/
theorem noteJob_of_carries (hdone : r.done = true)
    (h : Carries log t r freewill goalId now later mark e) :
    Service.noteJob e = some (t.name.toList, r.success) := by
  obtain ⟨hkind, htext, -, -⟩ := exists_job_of_carries h
  obtain ⟨c, hc, hcode⟩ := exists_codeName hdone
  rw [hcode] at htext
  obtain ⟨words, hwords⟩ := split_of_decode hc htext
  have hjob : Utf8.decode (Bytes.lit "job") = some (PyText.lit "job") := by decide
  rw [hjob, Option.some_inj] at hkind
  have hsuccess : (c.toList == PyText.lit "COMPLETE") = r.success := by
    rw [Bool.eq_iff_iff, beq_iff_eq, Capabilities.success_iff_complete hdone, hcode,
      Capabilities.complete, Utf8.lit_eq_encode, Utf8.lit_eq_encode, PyText.lit]
    exact Utf8.encode_injective.eq_iff.symm
  simp only [Service.noteJob, ← hkind, if_true, hwords, rstrip_code hc, hsuccess]

/-- A free-will job without a standing goal id. -/
def FreeJob (freewill : Bool) (goalId : Option Bytes) : Prop :=
  freewill = true ∧ goalId.getD [] = []

instance : Decidable (FreeJob freewill goalId) := inferInstanceAs (Decidable (_ ∧ _))

/-- **The note and its reader agree.** Had the report kept the metadata,
the plan would hear of the free-will jobs without a goal id, and of no
other. -/
theorem stepResult_of_metadata (hdone : r.done = true)
    (h : Carries log t r freewill goalId now later mark e) {goal : Option PyText}
    (hgoal : goalId.mapM Utf8.decode = some goal) :
    Service.stepResult { e with freewill := some freewill, goalId := goal } =
      if FreeJob freewill goalId then some (t.name.toList, r.success) else none := by
  have hempty : (goal.getD []).isEmpty = true ↔ goalId.getD [] = [] := by
    cases goalId with
    | none => cases hgoal; simp
    | some g =>
      simp only [Option.mapM_some, Option.map_eq_map, Option.map_eq_some_iff] at hgoal
      obtain ⟨w, hw, rfl⟩ := hgoal
      simpa using Utf8.eq_nil_iff_of_decode hw
  have hnote := noteJob_of_carries hdone h
  by_cases hfree : FreeJob freewill goalId
  · rw [if_pos hfree, ← hnote, Service.stepResult, if_pos]
    · rfl
    · simp [hfree.1, hempty.2 hfree.2]
  · rw [if_neg hfree, Service.stepResult, if_neg]
    intro hcond
    simp only [Bool.and_eq_true, decide_eq_true_eq, Option.some_inj] at hcond
    exact hfree ⟨hcond.1, hempty.1 hcond.2⟩

/-- **The metadata is lost.** Of the event of a job the plan hears nothing. -/
theorem stepResult_of_carries (h : Carries log t r freewill goalId now later mark e) :
    Service.stepResult e = none := by
  obtain ⟨-, -, hf, -⟩ := exists_job_of_carries h
  rw [Service.stepResult, hf]
  rfl

/-- **Free-will results on the wire.** Whatever was logged before and after,
for the snapshot that carries a finished job: the plan is told of the job
exactly when it was a free-will job without a goal id, and with its
success, if and only if it was none. -/
theorem stepResult_iff_freeJob_iff (h : Carries log t r freewill goalId now later mark e) :
    (((∃ intent ok, Service.stepResult e = some (intent, ok)) ↔ FreeJob freewill goalId) ∧
        ∀ intent ok, Service.stepResult e = some (intent, ok) → ok = r.success) ↔
      ¬ FreeJob freewill goalId := by
  rw [stepResult_of_carries h]
  simp

/-! ## A free-will forage -/

/-- A forage that found something. -/
def forageResult : Capabilities.Result :=
  ⟨true, true, Capabilities.complete, Bytes.lit "found 2 apples", by decide⟩

/-- The event of the forage, as it is received. -/
def forageEvent : PyEvent where
  seq := 1
  kind := PyText.lit "job"
  text := PyText.lit "FORAGE COMPLETE: found 2 apples"
  freewill := none
  goalId := none

theorem carries_forage (freewill : Bool) :
    Carries Log.empty .forage forageResult freewill none 1000 [] 0 forageEvent := by
  refine ⟨[forageEvent], ?_, ?_, rfl⟩
  · cases freewill <;> decide
  · decide

/-- A forage the owner ordered leaves the plan alone, as it should. -/
theorem stepResult_iff_freeJob_iff_forage :
    (((∃ intent ok, Service.stepResult forageEvent = some (intent, ok)) ↔ FreeJob false none) ∧
        ∀ intent ok, Service.stepResult forageEvent = some (intent, ok) →
          ok = forageResult.success) ↔
      ¬ FreeJob false none :=
  stepResult_iff_freeJob_iff (carries_forage false)

/-- **A forage of free will** is received and folded, and the plan is not
told of it. -/
theorem freewill_forage_lost :
    Carries Log.empty .forage forageResult true none 1000 [] 0 forageEvent ∧
      FreeJob true none ∧ Service.stepResult forageEvent = none :=
  ⟨⟨[forageEvent], by decide, by decide, rfl⟩, by decide, by decide⟩

end FreeWill

end GoblinZomboid
