import GoblinZomboid.Server.Brain
/-!
# Refused orders

What `setTask` has written by the time it refuses. The preparation may
have claimed a base or replaced a target; an order refused after that has
replaced the one before.
-/

namespace GoblinZomboid

namespace Brain

/-! ## The condition -/

/-- **The order goes on unchanged**: the task, the payload and the sequence
number of the body, the record, the running capability and the targets. -/
structure Unchanged (p p' : Post) : Prop where
  task : p'.body.data.goblinTask = p.body.data.goblinTask
  payload : p'.body.data.goblinTaskPayload = p.body.data.goblinTaskPayload
  sequence : p'.body.data.goblinTaskSequence = p.body.data.goblinTaskSequence
  record : p'.record = p.record
  running : p'.running = p.running
  curtains : p'.curtains = p.curtains
  dismantle : p'.dismantle = p.dismantle

namespace Unchanged

variable {p p' p'' : Post}

theorem symm (h : Unchanged p p') : Unchanged p' p :=
  ⟨h.task.symm, h.payload.symm, h.sequence.symm, h.record.symm, h.running.symm,
    h.curtains.symm, h.dismantle.symm⟩

theorem trans (h : Unchanged p p') (h' : Unchanged p' p'') : Unchanged p p'' :=
  ⟨h'.task.trans h.task, h'.payload.trans h.payload, h'.sequence.trans h.sequence,
    h'.record.trans h.record, h'.running.trans h.running, h'.curtains.trans h.curtains,
    h'.dismantle.trans h.dismantle⟩

end Unchanged

/-- The task of an order: the body is a goblin, and the order is allowed and
neither speech nor equipment. -/
def IsOrder (p : Post) (task : Bytes) (t : Task) : Prop :=
  Body.isGoblin p.body = true ∧ Task.ofBytes? task = some t ∧ t ≠ .speak ∧ t ≠ .equip

/-- No base is claimed, or the one there is. -/
def KeepsBase (e : Engine) (p : Post) (t : Task) : Prop :=
  ∀ point, claimed e p.body.data t = some point → Spawner.ownerKey p.body.owner ≠ none →
    ∃ r, p.record = some r ∧ r.base = some point

/-- A curtain order captures no house, or finds no open curtain for a body
without a target; a dismantling order selects nothing. -/
def KeepsTargets (e : Engine) (p : Post) (t : Task) (payload : LuaValue) : Prop :=
  jobRefusal e t payload = none →
    (t = .closeCurtains →
      e.noHouse ≠ none ∨ p.curtains = none ∧ ∃ why, e.handler = .refused why) ∧
      (t = .dismantle → ∀ prepared detail, e.handler ≠ .payload prepared detail)

/-- Whether a capability's preparation is refused. -/
def refusesJob (e : Engine) (t : Task) (payload : LuaValue) : Bool :=
  (jobRefusal e t payload).isSome || (t = .closeCurtains && e.noHouse.isSome) ||
    match e.handler with
    | .payload prepared _ => !Capabilities.serializable prepared
    | _ => true

/-- Whether an order is refused while it is prepared. -/
def refuses (e : Engine) (t : Task) (payload : LuaValue) : Bool :=
  if isTransport t then !e.transport.isOk
  else if Jobs.handles t then refusesJob e t payload
  else if isOpening t then !e.opening.isOk
  else if t = .build then !(prepareBuild e payload).isOk
  else false

/-- **What keeps the order before**: the base and the targets stay, and the
refusal comes from the preparation, or else from the name of an owner who
has none while nothing runs. -/
def Keeps (e : Engine) (p : Post) (t : Task) (payload : LuaValue) : Prop :=
  KeepsBase e p t ∧ KeepsTargets e p t payload ∧
    (refuses e t payload = true ∨ Spawner.ownerKey p.body.owner = none ∧ p.running = none)

variable {e : Engine} {p p' : Post} {t : Task} {payload : LuaValue}

/-! ## Claiming a base -/

/-- A claim changes nothing but the base. -/
theorem claimBase_frame (e : Engine) (p : Post) (t : Task) :
    (claimBase e p t).running = p.running ∧ (claimBase e p t).curtains = p.curtains ∧
      (claimBase e p t).dismantle = p.dismantle ∧
      (claimBase e p t).body.owner = p.body.owner ∧
      (claimBase e p t).body.data.goblinTask = p.body.data.goblinTask ∧
      (claimBase e p t).body.data.goblinTaskPayload = p.body.data.goblinTaskPayload ∧
      (claimBase e p t).body.data.goblinTaskSequence = p.body.data.goblinTaskSequence := by
  unfold claimBase
  split
  · exact ⟨rfl, rfl, rfl, rfl, rfl, rfl, rfl⟩
  · unfold Post.setBase Post.withRecord
    split
    · exact ⟨rfl, rfl, rfl, rfl, rfl, rfl, rfl⟩
    · exact ⟨rfl, rfl, rfl, rfl, rfl, rfl, rfl⟩

theorem claimBase_record_iff (e : Engine) (p : Post) (t : Task) :
    (claimBase e p t).record = p.record ↔ KeepsBase e p t := by
  unfold claimBase KeepsBase
  split
  · rename_i hnone
    simp [hnone]
  · rename_i point hsome
    unfold Post.setBase Post.withRecord
    split
    · rename_i hkey
      simp [hkey]
    · rename_i key hkey
      simp only [hsome, hkey, Option.map_some, Option.getD_some, Post.withData]
      constructor
      · intro h q hq _
        rw [← Option.some_inj.1 hq]
        exact ⟨_, h.symm, rfl⟩
      · intro h
        obtain ⟨r, hr, hbase⟩ := h point rfl (by simp)
        rw [hr, Option.getD_some, ← hbase]

/-! ## Preparing a capability -/

/-- A new curtain target is not the one there was. -/
theorem aimCurtains_ne (p : Post) : p.aimCurtains.curtains ≠ p.curtains := by
  intro h
  have := p.curtains_lt p.tables h.symm
  omega

theorem aimDismantle_ne (p : Post) : p.aimDismantle.dismantle ≠ p.dismantle := by
  intro h
  have := p.dismantle_lt p.tables h.symm
  omega

/-- What a handler's `prepare` leaves alone. -/
structure HandlerFrame (p p' : Post) : Prop where
  body : p'.body = p.body
  record : p'.record = p.record
  running : p'.running = p.running

/-- The targets a handler's `prepare` keeps. -/
theorem handlerPrepare_spec (e : Engine) (p : Post) (t : Task) :
    HandlerFrame p (handlerPrepare e p t).2 ∧
      ((handlerPrepare e p t).2.curtains = p.curtains ↔
        (t = .closeCurtains →
          e.noHouse ≠ none ∨ p.curtains = none ∧ ∃ why, e.handler = .refused why)) ∧
      ((handlerPrepare e p t).2.dismantle = p.dismantle ↔
        (t = .dismantle → ∀ prepared detail, e.handler ≠ .payload prepared detail)) := by
  unfold handlerPrepare
  split
  · split
    · rename_i why hwhy
      exact ⟨⟨rfl, rfl, rfl⟩, by simp [hwhy], by simp⟩
    · rename_i hnone hanswer
      refine ⟨⟨rfl, rfl, rfl⟩, ?_, by simp [Post.aimCurtains, Post.dropCurtains]⟩
      simp [hnone, hanswer, Post.dropCurtains, eq_comm]
    · rename_i answer hnone hanswer
      refine ⟨⟨rfl, rfl, rfl⟩, ?_, by simp [Post.aimCurtains]⟩
      refine iff_of_false (aimCurtains_ne p) fun h => ?_
      rcases h rfl with h | ⟨-, why, h⟩
      · exact h hnone
      · exact hanswer why h
  · rename_i prepared detail hanswer
    refine ⟨⟨rfl, rfl, rfl⟩, by simp [Post.aimDismantle], ?_⟩
    exact iff_of_false (aimDismantle_ne p) fun h => h rfl _ _ hanswer
  · rename_i hcurtains hdismantle
    refine ⟨⟨rfl, rfl, rfl⟩, ?_, ?_⟩
    · exact iff_of_true rfl fun h => absurd h hcurtains
    · exact iff_of_true rfl fun h prepared detail hanswer => hdismantle prepared detail h hanswer

/-- Whether a handler's answer is a payload that can be kept. -/
def accepts : Prepared → Bool
  | .payload prepared _ => Capabilities.serializable prepared
  | _ => false

/-- A captured house leaves the answer to the handler. -/
theorem accepts_handlerPrepare (e : Engine) (p : Post) (t : Task) :
    accepts (handlerPrepare e p t).1 =
      (!(t = .closeCurtains && e.noHouse.isSome) && accepts e.handler) := by
  unfold handlerPrepare
  split
  · split
    · rename_i why hwhy
      simp [accepts, hwhy]
    · rename_i hnone hanswer
      simp [accepts, hanswer]
    · rename_i hnone _
      simp [hnone]
  · rename_i hanswer
    simp [accepts, hanswer]
  · rename_i hne _
    have hcurtains : ¬ _ = Task.closeCurtains := hne
    simp [hcurtains]

theorem refusesJob_eq (e : Engine) (t : Task) (payload : LuaValue) :
    refusesJob e t payload =
      ((jobRefusal e t payload).isSome ||
        !(!(t = .closeCurtains && e.noHouse.isSome) && accepts e.handler)) := by
  unfold refusesJob accepts
  cases e.handler <;> simp [Bool.or_assoc]

/-- `Capabilities.prepare` refuses what it should, and keeps the targets
exactly under the condition. -/
theorem prepareJob_spec (e : Engine) (p : Post) (t : Task) (payload : LuaValue) :
    HandlerFrame p (prepareJob e p t payload).2 ∧
      (prepareJob e p t payload).1.isOk = !refusesJob e t payload ∧
      ((prepareJob e p t payload).2.curtains = p.curtains ∧
          (prepareJob e p t payload).2.dismantle = p.dismantle ↔
        KeepsTargets e p t payload) := by
  rw [refusesJob_eq]
  unfold prepareJob KeepsTargets
  cases hrefusal : jobRefusal e t payload with
  | some detail => exact ⟨⟨rfl, rfl, rfl⟩, rfl, by simp⟩
  | none =>
    obtain ⟨hframe, hcurtains, hdismantle⟩ := handlerPrepare_spec e p t
    have haccepts := accepts_handlerPrepare e p t
    have hkeeps := and_congr hcurtains hdismantle
    simp only [Option.isSome_none, Bool.false_or, Bool.not_not, true_imp_iff, ← haccepts]
    generalize handlerPrepare e p t = answer at hframe hkeeps
    obtain ⟨prepared, p'⟩ := answer
    cases prepared with
    | raised => exact ⟨hframe, rfl, hkeeps⟩
    | refused detail => exact ⟨hframe, rfl, hkeeps⟩
    | payload prepared detail =>
      simp only [accepts]
      split
      · rename_i hser
        exact ⟨hframe, by simp [hser, Except.isOk, Except.toBool], hkeeps⟩
      · rename_i hser
        exact ⟨hframe, by simp [hser, Except.isOk, Except.toBool], hkeeps⟩

/-! ## Preparing an order -/

/-- The preparation of an order, which `KeepsBase` and `KeepsTargets`
describe exactly. -/
theorem prepare_spec (e : Engine) (p : Post) (t : Task) (payload : LuaValue) :
    (prepare e p t payload).1.isOk = !refuses e t payload ∧
      (prepare e p t payload).2.body.owner = p.body.owner ∧
      (prepare e p t payload).2.running = p.running ∧
      (prepare e p t payload).2.body.data.goblinTaskSequence = p.body.data.goblinTaskSequence ∧
      (Unchanged p (prepare e p t payload).2 ↔ KeepsBase e p t ∧ KeepsTargets e p t payload) := by
  obtain ⟨hrunning, hcurtains, hdismantle, howner, htask, hpayload, hseq⟩ := claimBase_frame e p t
  have hrecord := claimBase_record_iff e p t
  have hunchanged : Unchanged p (claimBase e p t) ↔ KeepsBase e p t :=
    ⟨fun h => hrecord.1 h.record,
      fun h => ⟨htask, hpayload, hseq, hrecord.2 h, hrunning, hcurtains, hdismantle⟩⟩
  have htargets : ¬ Jobs.handles t = true → KeepsTargets e p t payload := by
    intro h _
    refine ⟨fun ht => absurd ?_ h, fun ht => absurd ?_ h⟩ <;> rw [ht] <;> decide
  unfold prepare refuses
  split
  · rename_i htransport
    simp only [isTransport, Bool.or_eq_true, decide_eq_true_eq] at htransport
    have hplain : claimed e p.body.data t = none ∧ ¬ Jobs.handles t = true := by
      rcases htransport with ((rfl | rfl) | rfl) | rfl <;> exact ⟨rfl, by decide⟩
    refine ⟨(Bool.not_not _).symm, rfl, rfl, rfl, iff_of_true ⟨rfl, rfl, rfl, rfl, rfl, rfl, rfl⟩ ?_⟩
    refine ⟨fun point h => ?_, htargets hplain.2⟩
    rw [hplain.1] at h
    cases h
  · dsimp only
    split
    · obtain ⟨hframe, hok, hkeeps⟩ := prepareJob_spec e (claimBase e p t) t payload
      have hjob : Unchanged p (prepareJob e (claimBase e p t) t payload).2 ↔
          KeepsBase e p t ∧ KeepsTargets e p t payload := by
        unfold KeepsTargets at hkeeps ⊢
        rw [hcurtains, hdismantle] at hkeeps
        constructor
        · intro h
          exact ⟨hrecord.1 (hframe.record ▸ h.record), hkeeps.1 ⟨h.curtains, h.dismantle⟩⟩
        · rintro ⟨hbase, ht⟩
          obtain ⟨hc, hd⟩ := hkeeps.2 ht
          exact ⟨hframe.body ▸ htask, hframe.body ▸ hpayload, hframe.body ▸ hseq,
            hframe.record.trans (hrecord.2 hbase), hframe.running.trans hrunning, hc, hd⟩
      generalize prepareJob e (claimBase e p t) t payload = answer at hframe hok hjob
      obtain ⟨prepared | prepared, p'⟩ := answer
      · exact ⟨hok, hframe.body ▸ howner, hframe.running.trans hrunning, hframe.body ▸ hseq, hjob⟩
      · exact ⟨hok, hframe.body ▸ howner, hframe.running.trans hrunning, hframe.body ▸ hseq, hjob⟩
    · rename_i hhandles
      have hplain : Unchanged p (claimBase e p t) ↔ KeepsBase e p t ∧ KeepsTargets e p t payload := by
        rw [hunchanged, and_iff_left (htargets hhandles)]
      split
      · exact ⟨(Bool.not_not _).symm, howner, hrunning, hseq, hplain⟩
      · split
        · exact ⟨(Bool.not_not _).symm, howner, hrunning, hseq, hplain⟩
        · exact ⟨rfl, howner, hrunning, hseq, hplain⟩

/-! ## Placing an order -/

theorem persist_isSome (p : Post) (t : Task) (payload : LuaValue) :
    (p.persist t payload).isSome = (Spawner.ownerKey p.body.owner).isSome := by
  unfold Post.persist Post.withRecord
  split
  · rename_i h
    simp [h]
  · rename_i h
    simp [h]

theorem sequence_persist {t : Task} {payload : LuaValue} (h : p.persist t payload = some p') :
    p'.body.data.goblinTaskSequence = p.body.data.goblinTaskSequence + 1 := by
  unfold Post.persist Post.withRecord at h
  split at h
  · cases h
  · cases h
    rfl

/-- An order in place that is refused stays in place. -/
theorem finish_of_refused {detail : String} (h : (finish e p t detail).1.1 = false) :
    (finish e p t detail).2 = p := by
  unfold finish at h ⊢
  split
  · rfl
  · rename_i hplain
    rw [if_neg hplain] at h
    cases t <;> first | rfl | skip
    unfold finishSetBase at h ⊢
    dsimp only at h ⊢
    split
    · rfl
    · rfl
    · rename_i howner
      rw [howner] at h
      cases h

/-- With nothing running, clearing clears nothing. -/
theorem clearJobs_frame (p : Post) (next : Option Task) :
    (clearJobs p next).body = p.body ∧ (clearJobs p next).record = p.record ∧
      (clearJobs p next).running = none ∧ (p.running = none → clearJobs p next = p) := by
  unfold clearJobs
  split
  · rename_i h
    exact ⟨rfl, rfl, h, fun _ => rfl⟩
  · rename_i running h
    refine ⟨?_, ?_, ?_, fun hnone => ?_⟩
    · dsimp only
      split_ifs <;> rfl
    · dsimp only
      split_ifs <;> rfl
    · dsimp only
      split_ifs <;> rfl
    · rw [h] at hnone
      cases hnone

/-- **A placed order that is refused** has replaced the one before, unless
its owner has no name and nothing was running. -/
theorem place_of_refused {detail : String} (h : (place e p t payload detail).1.1 = false) :
    (Spawner.ownerKey p.body.owner ≠ none →
      (place e p t payload detail).2.body.data.goblinTaskSequence =
        p.body.data.goblinTaskSequence + 1) ∧
      (Spawner.ownerKey p.body.owner = none →
        (place e p t payload detail).2.running = none ∧
          (p.running = none → Unchanged p (place e p t payload detail).2)) := by
  unfold place at h ⊢
  dsimp only at h ⊢
  obtain ⟨hbody, hrecord, hrunning, hsame⟩ :=
    clearJobs_frame p (if Jobs.handles t then some t else none)
  have howner : ((clearJobs p (if Jobs.handles t then some t else none)).withData
      (flagged payload)).body.owner = p.body.owner := by
    rw [← hbody]
    rfl
  have hisSome := persist_isSome ((clearJobs p (if Jobs.handles t then some t else none)).withData
      (flagged payload)) t payload
  rw [howner] at hisSome
  split
  · rename_i hpersist
    rw [hpersist] at hisSome
    refine ⟨fun hkey => ?_, fun _ => ⟨hrunning, fun hnone => ?_⟩⟩
    · rw [← Option.isSome_iff_ne_none, ← hisSome] at hkey
      cases hkey
    · rw [hsame hnone]
      exact ⟨rfl, rfl, rfl, rfl, rfl, rfl, rfl⟩
  · rename_i p' hpersist
    rw [hpersist] at h hisSome
    rw [finish_of_refused h]
    refine ⟨fun _ => ?_, fun hkey => ?_⟩
    · rw [sequence_persist hpersist, ← hbody]
      rfl
    · rw [hkey] at hisSome
      cases hisSome

/-! ## Refusing -/

/-- **A refused order leaves what was there exactly under the condition.**
Outside the tasks that are taken nothing is written at all. -/
theorem setTask_unchanged_iff {task : Bytes} (h : (setTask e p task payload).1.1 = false) :
    Unchanged p (setTask e p task payload).2 ↔
      ∀ t, IsOrder p task t → Keeps e p t payload.orEmpty := by
  have hrefl : Unchanged p p := ⟨rfl, rfl, rfl, rfl, rfl, rfl, rfl⟩
  unfold setTask at h ⊢
  split
  · rename_i hbody
    refine iff_of_true hrefl fun t ht => ?_
    rw [ht.1] at hbody
    cases hbody
  · rename_i hbody
    simp only [Bool.not_eq_true', Bool.not_eq_false] at hbody
    rw [if_neg (by simp [hbody])] at h
    have hother : (∀ t, Task.ofBytes? task = some t → t = .speak ∨ t = .equip) →
        ∀ t, IsOrder p task t → Keeps e p t payload.orEmpty := by
      rintro hspeech t ⟨-, hof, hspeak, hequip⟩
      exact absurd (hspeech t hof) (not_or.2 ⟨hspeak, hequip⟩)
    split
    · rename_i hof
      refine iff_of_true hrefl (hother fun t ht => ?_)
      cases ht.symm.trans hof
    · rename_i hof
      refine iff_of_true hrefl (hother fun t ht => .inl ?_)
      exact Option.some_inj.1 (ht.symm.trans hof)
    · rename_i hof
      refine iff_of_true hrefl (hother fun t ht => .inr ?_)
      exact Option.some_inj.1 (ht.symm.trans hof)
    · rename_i t hspeak hequip hof
      have horder : (∀ t, IsOrder p task t → Keeps e p t payload.orEmpty) ↔
          Keeps e p t payload.orEmpty := by
        constructor
        · intro hall
          exact hall t ⟨hbody, hof, hspeak, hequip⟩
        · rintro hkeeps t' ⟨-, hof', -, -⟩
          rw [hof] at hof'
          exact Option.some_inj.1 hof' ▸ hkeeps
      rw [horder]
      simp only [hof] at h
      obtain ⟨hok, howner, hrunning, hseq, hunchanged⟩ := prepare_spec e p t payload.orEmpty
      unfold Keeps
      rw [← and_assoc, ← hunchanged]
      generalize prepare e p t payload.orEmpty = answer at h hok howner hrunning hseq hunchanged
      obtain ⟨why | ⟨prepared, detail⟩, p'⟩ := answer
      · have hrefuses : refuses e t payload.orEmpty = true := by
          simpa [Except.isOk, Except.toBool] using hok.symm
        exact (and_iff_left (.inl hrefuses)).symm
      · have hrefuses : refuses e t payload.orEmpty = false := by
          simpa [Except.isOk, Except.toBool] using hok.symm
        obtain ⟨hnamed, hnameless⟩ := place_of_refused h
        rw [howner] at hnamed hnameless
        by_cases hkey : Spawner.ownerKey p.body.owner = none
        · obtain ⟨hstopped, hsame⟩ := hnameless hkey
          constructor
          · intro hplaced
            have hnone : p.running = none := hplaced.running.symm.trans hstopped
            exact ⟨hplaced.trans (hsame (hrunning.trans hnone)).symm, .inr ⟨hkey, hnone⟩⟩
          · rintro ⟨hprepared, hrefused | ⟨-, hnone⟩⟩
            · rw [hrefuses] at hrefused
              cases hrefused
            · exact hprepared.trans (hsame (hrunning.trans hnone))
        · refine iff_of_false (fun hplaced => ?_) ?_
          · have hkept : (place e p' t prepared detail).2.body.data.goblinTaskSequence =
                p.body.data.goblinTaskSequence := hplaced.sequence
            have hbefore : p'.body.data.goblinTaskSequence = p.body.data.goblinTaskSequence := hseq
            rw [hnamed hkey] at hkept
            omega
          · rintro ⟨-, hrefused | ⟨hnone, -⟩⟩
            · rw [hrefuses] at hrefused
              cases hrefused
            · exact hkey hnone

/-- A body at work: an order of its owner's, running, with a base. -/
private def atWork (t : Task) : Post where
  body := ⟨{ Body.mark 1 (Bytes.lit "Ann") Config.npcId with
    goblinTask := t, goblinBase := some ⟨0, 0, 0⟩ }, true⟩
  record := some ⟨t, .table [], some ⟨0, 0, 0⟩⟩
  running := some ⟨t, 0, none⟩
  curtains := some 0
  dismantle := none
  tables := 1
  curtains_lt := by simp
  dismantle_lt := by simp

/-- A world with the owner at the base and nothing to do. -/
private def nothingToDo : Engine where
  owner := some (some ⟨0, 0, 0⟩)
  serverReady := true
  say := (true, "")
  weapon := (true, "")
  transport := .error ""
  opening := .error ""
  houseAt := fun _ => true
  houseNearBase := none
  house := none
  noHouse := none
  handler := .refused "nothing to do"
  movement := (true, "")

/-- An errand refused for an absent owner leaves the order before it. -/
theorem setTask_unchanged_errand :
    (setTask { nothingToDo with owner := none } (atWork .cook) (Task.bytes .fetchItem) .nil).1.1 =
        false ∧
      Unchanged (atWork .cook)
        (setTask { nothingToDo with owner := none } (atWork .cook) (Task.bytes .fetchItem) .nil).2 := by
  refine ⟨by decide, (setTask_unchanged_iff (by decide)).2 fun t ht => ?_⟩
  obtain rfl : t = .fetchItem := by
    have hof : Task.ofBytes? (Task.bytes .fetchItem) = some .fetchItem := by decide
    exact Option.some_inj.1 (ht.2.1.symm.trans hof)
  refine ⟨fun point h _ => ?_, fun h => ?_, .inl (by decide)⟩
  · cases h
  · cases h

/-- Curtains being drawn are forgotten when the same order comes again and
every curtain in reach is drawn: the order stands, without its target. -/
theorem refused_order_drops_target :
    (setTask nothingToDo (atWork .closeCurtains) (Task.bytes .closeCurtains) .nil).1.1 = false ∧
      ¬ Unchanged (atWork .closeCurtains)
        (setTask nothingToDo (atWork .closeCurtains) (Task.bytes .closeCurtains) .nil).2 := by
  refine ⟨by decide, fun h => ?_⟩
  have htarget : (setTask nothingToDo (atWork .closeCurtains) (Task.bytes .closeCurtains) .nil).2.curtains =
      none := by decide
  have hkept := h.curtains
  rw [htarget] at hkept
  cases hkept

end Brain

end GoblinZomboid
