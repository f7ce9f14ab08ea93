import GoblinZomboid.Wire.FreeWill
import GoblinZomboid.Agent.Sentience
/-!
# Who takes a job for a success

Four readers go through the text `TASK CODE: detail` of a job. The plan
compares the code; the weight, the mood and the trust look for `COMPLETE`
anywhere, the first two in small letters too. They agree on a job that
failed as long as its detail does not spell the word.
-/

namespace GoblinZomboid

namespace Success

open FreeWill

/-! ## The word in the head of a note -/

theorem spells_head (u : Unicode) {t : Task} {c : String} (hc : c ∈ codeNames) (rest : PyText) :
    Sentience.spellsComplete u (PyStr.ofText (head t c ++ rest)) = true ↔
      c = "COMPLETE" ∨ Sentience.spellsComplete u (PyStr.ofText rest) = true := by
  have hname : ∀ t : Task, (t.name.toList.all fun c => c.toNat < 128 && c.toUpper == c) = true ∧
      ¬ PyStr.lit "COMPLETE" <:+: PyStr.ofText t.name.toList := by
    intro t
    cases t <;> decide +kernel
  have hcode : ∀ c ∈ codeNames, (c.toList.all fun c => c.toNat < 128 && c.toUpper == c) = true ∧
      (PyStr.lit "COMPLETE" <:+: PyStr.ofText c.toList ↔ c = "COMPLETE") := by
    decide +kernel
  have hblank : PyChar.char ' ' ∉ PyStr.lit "COMPLETE" := by decide +kernel
  have hcolon : PyChar.char ':' ∉ PyStr.lit "COMPLETE" := by decide +kernel
  have hsmall : PyStr.upper u (PyStr.ofText [' ']) = [.char ' '] :=
    PyStr.upper_ofText u (by decide)
  have hend : PyStr.upper u (PyStr.ofText [':', ' ']) = [.char ':', .char ' '] :=
    PyStr.upper_ofText u (by decide)
  -- In capitals the text is the name, the code and the detail, set apart.
  have hshape : PyStr.upper u (PyStr.ofText (head t c ++ rest)) =
      PyStr.ofText t.name.toList ++ .char ' ' :: (PyStr.ofText c.toList ++
        .char ':' :: ([] ++ .char ' ' :: PyStr.upper u (PyStr.ofText rest))) := by
    have hparts : head t c ++ rest = t.name.toList ++ ([' '] ++ (c.toList ++
        ([':', ' '] ++ rest))) := by
      simp [head]
    rw [hparts]
    simp only [PyStr.ofText_append, PyStr.upper_append, PyStr.upper_ofText u (hname t).1,
      PyStr.upper_ofText u (hcode c hc).1]
    rw [hsmall, hend]
    rfl
  have hnil : ¬ PyStr.lit "COMPLETE" <:+: [] := by decide +kernel
  rw [Sentience.spellsComplete, Sentience.spellsComplete, PyStr.contains_iff, PyStr.contains_iff,
    hshape, PyStr.infix_append_cons_iff hblank, PyStr.infix_append_cons_iff hcolon,
    PyStr.infix_append_cons_iff hblank, (hcode c hc).2]
  simp only [(hname t).2, hnil, false_or]

/-- The word as it stands is found in capitals too. -/
theorem spells_of_contains (u : Unicode) {text : PyText}
    (h : PyText.contains text (PyText.lit "COMPLETE") = true) :
    Sentience.spellsComplete u (PyStr.ofText text) = true := by
  obtain ⟨s, t, rfl⟩ := PyText.contains_iff.1 h
  have hword : PyStr.upper u (PyStr.ofText (PyText.lit "COMPLETE")) = PyStr.lit "COMPLETE" :=
    PyStr.upper_ofText u (by decide +kernel)
  rw [Sentience.spellsComplete, PyStr.contains_iff]
  simp only [PyStr.ofText_append, PyStr.upper_append]
  rw [hword]
  exact ⟨_, _, rfl⟩

/-! ## The four readers -/

variable {log : Situation.Log} {t : Task} {r : Capabilities.Result} {freewill : Bool}
  {goalId : Option Bytes} {now : ℕ} {later : List Situation.Note} {mark : ℕ} {e : PyEvent}

/-- The four readers take the event for a success exactly when it is one. -/
structure Agreed (u : Unicode) (e : PyEvent) (success : Prop) : Prop where
  weight : Sentience.eventWeight u (PyStr.ofText e.kind) (PyStr.ofText e.text) =
    Sentience.jobComplete ↔ success
  mood : Sentience.perceivedKind u (PyStr.ofText e.kind) (PyStr.ofText e.text) =
    PyStr.lit "job_complete" ↔ success
  trust : Mind.trustDelta e = some 5 ↔ success
  plan : ∃ intent ok, Service.noteJob e = some (intent, ok) ∧ (ok = true ↔ success) ∧
    ∀ freewill goalId, Service.stepResult { e with freewill := freewill, goalId := goalId } =
      if freewill = some true ∧ goalId.getD [] = [] then some (intent, ok) else none

/-- The detail as it arrives: what is left of the text after the task and the
code. -/
def detail (t : Task) (r : Capabilities.Result) (e : PyEvent) : PyText :=
  e.text.drop (t.name.toList.length + r.code.length + 3)

/-- What is known of the text of a carried job. -/
theorem text_of_carries (hdone : r.done = true)
    (h : Carries log t r freewill goalId now later mark e) :
    ∃ c ∈ codeNames, r.code = Bytes.lit c ∧ e.text = head t c ++ detail t r e := by
  obtain ⟨-, htext, -, -⟩ := exists_job_of_carries h
  obtain ⟨c, hc, hcode⟩ := exists_codeName hdone
  rw [hcode] at htext
  obtain ⟨rest, hrest⟩ := exists_detail_of_decode hc htext
  have hlength : ∀ c ∈ codeNames, (Bytes.lit c).length = c.toList.length := by decide +kernel
  have hdetail : detail t r e = rest := by
    rw [detail, hrest, hcode, hlength c hc]
    refine List.drop_left' ?_
    simp only [head, List.length_append, List.length_cons, List.length_nil]
    omega
  exact ⟨c, hc, hcode, by rw [hdetail, hrest]⟩

/-- **Agreement on job success.** The four readers of a carried job take it
for a success exactly when its code is `COMPLETE`, if and only if the code
is, or the detail does not spell the word in letters of any size. -/
theorem agreed_iff (u : Unicode) (h : Carries log t r freewill goalId now later mark e)
    (hdone : r.done = true) :
    Agreed u e (r.code = Capabilities.complete) ↔
      r.code = Capabilities.complete ∨
        Sentience.spellsComplete u (PyStr.ofText (detail t r e)) = false := by
  obtain ⟨hkind, -, -, -⟩ := exists_job_of_carries h
  obtain ⟨c, hc, hcode, htext⟩ := text_of_carries hdone h
  have hjob : e.kind = PyText.lit "job" := by
    have hdec : Utf8.decode (Bytes.lit "job") = some (PyText.lit "job") := by decide +kernel
    rw [hdec, Option.some_inj] at hkind
    exact hkind.symm
  have hcomplete : r.code = Capabilities.complete ↔ c = "COMPLETE" := by
    have hnames : ∀ c ∈ codeNames, Bytes.lit c = Capabilities.complete ↔ c = "COMPLETE" := by
      decide +kernel
    rw [hcode]
    exact hnames c hc
  have hspells : Sentience.spellsComplete u (PyStr.ofText e.text) = true ↔
      r.code = Capabilities.complete ∨
        Sentience.spellsComplete u (PyStr.ofText (detail t r e)) = true := by
    rw [htext, spells_head u hc, hcomplete]
  have hweight : Sentience.eventWeight u (PyStr.ofText e.kind) (PyStr.ofText e.text) =
      Sentience.jobComplete ↔ Sentience.spellsComplete u (PyStr.ofText e.text) = true := by
    have hne : Sentience.jobFailed ≠ Sentience.jobComplete := by decide +kernel
    rw [Sentience.eventWeight, hjob, if_pos (by rfl)]
    cases Sentience.spellsComplete u (PyStr.ofText e.text) <;> simp [hne]
  have hmood : Sentience.perceivedKind u (PyStr.ofText e.kind) (PyStr.ofText e.text) =
      PyStr.lit "job_complete" ↔ Sentience.spellsComplete u (PyStr.ofText e.text) = true := by
    have hne : PyStr.lit "job_failed" ≠ PyStr.lit "job_complete" := by decide +kernel
    rw [Sentience.perceivedKind, hjob, if_pos (by rfl)]
    cases Sentience.spellsComplete u (PyStr.ofText e.text) <;> simp [hne]
  constructor
  · intro hagreed
    by_contra hnot
    rw [not_or, Bool.not_eq_false] at hnot
    exact hnot.1 (hagreed.weight.1 (hweight.2 (hspells.2 (.inr hnot.2))))
  · intro hcond
    have hexact : Sentience.spellsComplete u (PyStr.ofText e.text) = true ↔
        r.code = Capabilities.complete := by
      rw [hspells, or_iff_left_iff_imp]
      intro hdetail
      rcases hcond with hcond | hcond
      · exact hcond
      · rw [hcond] at hdetail
        cases hdetail
    refine ⟨hweight.trans hexact, hmood.trans hexact, ?_, t.name.toList, r.success,
      noteJob_of_carries hdone h, Capabilities.success_iff_complete hdone, ?_⟩
    · have htrust : Mind.trustDelta e = some 5 ↔
          PyText.contains e.text (PyText.lit "COMPLETE") = true := by
        have hhorde : PyText.lit "job" ≠ PyText.lit "horde" := by decide +kernel
        have hhurt : PyText.lit "job" ≠ PyText.lit "owner_hurt" := by decide +kernel
        rw [Mind.trustDelta, hjob, if_neg hhorde, if_neg hhurt]
        simp
      rw [htrust, ← hexact]
      refine ⟨spells_of_contains u, fun hs => ?_⟩
      -- The code is the word, and the text has the code in it.
      rw [hexact, hcomplete] at hs
      rw [PyText.contains_iff, htext, hs]
      exact ⟨t.name.toList ++ [' '], [':', ' '] ++ detail t r e, by simp [head, PyText.lit]⟩
    · intro freewill goalId
      have hnote : Service.noteJob { e with freewill := freewill, goalId := goalId } =
          Service.noteJob e := rfl
      rw [Service.stepResult, hnote, noteJob_of_carries hdone h]
      simp

/-! ## A fetch that failed -/

/-- The item asked for is called after the word. -/
def fetchResult : Capabilities.Result :=
  ⟨true, false, Bytes.lit "MISSING_MATERIAL", Bytes.lit "no Base.CompleteKit found in the base",
    by decide⟩

/-- The event of the fetch, as it is received. -/
def fetchEvent : PyEvent where
  seq := 1
  kind := PyText.lit "job"
  text := PyText.lit "FETCH_ITEM MISSING_MATERIAL: no Base.CompleteKit found in the base"
  freewill := none
  goalId := none

/-- A forage that found something is taken for a success by all. -/
theorem agreed_iff_forage :
    Agreed Unicode.ascii forageEvent (forageResult.code = Capabilities.complete) ↔
      forageResult.code = Capabilities.complete ∨
        Sentience.spellsComplete Unicode.ascii
          (PyStr.ofText (detail .forage forageResult forageEvent)) = false :=
  agreed_iff Unicode.ascii (carries_forage true) rfl

/-- **A failed fetch of a kit called complete** is a failure to the plan and
a success to the mood. -/
theorem fetch_not_agreed :
    Carries Situation.Log.empty .fetchItem fetchResult false none 1000 [] 0 fetchEvent ∧
      fetchResult.code ≠ Capabilities.complete ∧
      Service.noteJob fetchEvent = some (PyText.lit "FETCH_ITEM", false) ∧
      Sentience.perceivedKind Unicode.ascii (PyStr.ofText fetchEvent.kind)
        (PyStr.ofText fetchEvent.text) = PyStr.lit "job_complete" ∧
      ¬ Agreed Unicode.ascii fetchEvent (fetchResult.code = Capabilities.complete) := by
  have hmood : Sentience.perceivedKind Unicode.ascii (PyStr.ofText fetchEvent.kind)
      (PyStr.ofText fetchEvent.text) = PyStr.lit "job_complete" := by decide +kernel
  have hcode : fetchResult.code ≠ Capabilities.complete := by decide
  exact ⟨⟨[fetchEvent], by decide +kernel, by decide +kernel, rfl⟩, hcode, by decide +kernel,
    hmood, fun hagreed => hcode (hagreed.mood.1 hmood)⟩

end Success

end GoblinZomboid
