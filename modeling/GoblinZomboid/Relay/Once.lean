import GoblinZomboid.Relay.Pull
/-!
# A message is introduced once

The relay makes a message ready by bringing the second of its two files.
It keeps from doing so again by finding the files still there, or by
remembering that it has seen the message; a marker on the game host goes
past that memory. So a message comes once if its files are only taken away
while the relay remembers it and the game host has no marker for it.
-/

namespace GoblinZomboid

namespace Relay

/-- The game host lists a marker for the message. -/
def Mirror.marked (w : Mirror) (p : Letter) : Bool :=
  w.remote.any fun e => e.1 = p.1 && PyText.strip e.2 == Half.ready.name p.2

/-- A step after which nothing comes twice: files of a message that was
introduced are taken away only while the relay has it among the seen and
the game host has no marker for it, which it does not get later; and the
relay is stopped only while all of them are there. -/
def Tidy (w : Mirror) : Move → Prop
  | .relay call => call.outcome = .stopped → ∀ p ∈ w.introduced, w.whole p = true
  | .take c name => ∀ p ∈ w.introduced, p.1 = c →
      name = Half.json.name p.2 ∨ name = Half.ready.name p.2 → p ∈ w.seen ∧ w.marked p = false
  | .write c name => ∀ p ∈ w.introduced, p.1 = c →
      PyText.strip name = Half.ready.name p.2 → w.whole p = true

instance (w : Mirror) : (move : Move) → Decidable (Tidy w move)
  | .relay call => inferInstanceAs
      (Decidable (call.outcome = .stopped → ∀ p ∈ w.introduced, w.whole p = true))
  | .take c name => inferInstanceAs (Decidable (∀ p ∈ w.introduced, p.1 = c →
      name = Half.json.name p.2 ∨ name = Half.ready.name p.2 → p ∈ w.seen ∧ w.marked p = false))
  | .write c name => inferInstanceAs (Decidable (∀ p ∈ w.introduced, p.1 = c →
      PyText.strip name = Half.ready.name p.2 → w.whole p = true))

/-- The message a task is in the middle of. -/
def Task.inner? : Task → Option Letter
  | .decode p | .gate p => some p
  | _ => none

/-- A task that goes by a marker has one; the others are about a channel
that has a fallback. -/
def Task.Fits (w : Mirror) : Task → Prop
  | .json p | .marker p => w.marked p = true
  | .fetch p | .decode p | .gate p => isFallback p.1 = true
  | _ => True

/-- **The invariant.** No message was introduced twice, and one that was is
there, or is seen and has no marker. -/
structure Base (w : Mirror) : Prop where
  nodup : w.introduced.Nodup
  whole : ∀ p, w.whole p = true → p ∈ w.introduced
  settled : ∀ p ∈ w.introduced, w.whole p = true ∨ p ∈ w.seen ∧ w.marked p = false
  seen : ∀ p ∈ w.seen, isFallback p.1 = true
  fits : ∀ task ∈ w.todo, task.Fits w

/-- Only the first task can be in the middle of a message, one not seen. -/
structure Once (w : Mirror) : Prop extends Base w where
  inner : ∀ task rest, w.todo = task :: rest →
    (∀ p, task.inner? = some p → p ∉ w.seen) ∧ ∀ t ∈ rest, t.inner? = none

variable {w : Mirror} {p : Letter} {half : Half}

/-! ## Bringing a file -/

theorem name_injective {half half' : Half} {s s' : Stem} (h : half.name s = half'.name s') :
    half = half' ∧ s = s' := by
  have hlast := congrArg List.getLast? h
  cases half with
  | json =>
    cases half' with
    | json => exact ⟨rfl, List.append_cancel_right h⟩
    | ready => simp [Half.name, Half.suffix, PyText.lit] at hlast
  | ready =>
    cases half' with
    | json => simp [Half.name, Half.suffix, PyText.lit] at hlast
    | ready => exact ⟨rfl, List.append_cancel_right h⟩

theorem whole_iff : w.whole p = true ↔
    (p.1, Half.json.name p.2) ∈ w.here ∧ (p.1, Half.ready.name p.2) ∈ w.here := by
  rw [Mirror.whole, wholeIn, Bool.and_eq_true, List.elem_iff, List.elem_iff]

/-- What bringing a file leaves alone. -/
structure Brought (w : Mirror) (p : Letter) (w' : Mirror) : Prop where
  remote : w'.remote = w.remote
  todo : w'.todo = w.todo
  seen : w'.seen = w.seen
  whole : ∀ p', p' ≠ p → w'.whole p' = w.whole p'
  kept : w.whole p = true → w'.whole p = true
  introduced : w'.introduced = if !w.whole p && w'.whole p then p :: w.introduced else w.introduced

theorem brought_bring (w : Mirror) (p : Letter) (half : Half) : Brought w p (w.bring p half) := by
  have hmem {e : Channel × PyText} : e ∈ (w.bring p half).here ↔
      e = (p.1, half.name p.2) ∨ e ∈ w.here := List.mem_cons
  refine ⟨rfl, rfl, rfl, fun p' hne => ?_, fun h => ?_, rfl⟩
  · -- The file is no half of another message.
    have hother (half' : Half) : (p'.1, half'.name p'.2) ≠ (p.1, half.name p.2) := by
      intro heq
      obtain ⟨hc, hname⟩ := Prod.mk.inj heq
      exact hne (Prod.ext hc (name_injective hname).2)
    rw [Bool.eq_iff_iff, whole_iff, whole_iff, hmem, hmem]
    simp only [hother, false_or]
  · obtain ⟨hjson, hready⟩ := whole_iff.1 h
    exact whole_iff.2 ⟨hmem.2 (.inr hjson), hmem.2 (.inr hready)⟩

theorem marked_congr {w' : Mirror} (h : w'.remote = w.remote) (p : Letter) :
    w'.marked p = w.marked p := by
  unfold Mirror.marked
  rw [h]

theorem fits_congr {w' : Mirror} (h : w'.remote = w.remote) {t : Task} (ht : t.Fits w) :
    t.Fits w' := by
  cases t with
  | json p | marker p =>
    show w'.marked p = true
    rw [marked_congr h]
    exact ht
  | _ => exact ht

/-- **A file may be brought** of a message that is new or still there. -/
theorem Base.brought (h : Base w) {w' : Mirror} (hb : Brought w p w')
    (hfresh : p ∈ w.introduced → w.whole p = true) : Base w' := by
  have hmem : ∀ p', p' ∈ w'.introduced → p' ∈ w.introduced ∨ p' = p ∧ w'.whole p = true := by
    intro p' hp'
    rw [hb.introduced] at hp'
    split at hp'
    · rename_i hnew
      rw [Bool.and_eq_true] at hnew
      rcases List.mem_cons.1 hp' with heq | hp'
      · exact .inr ⟨heq, hnew.2⟩
      · exact .inl hp'
    · exact .inl hp'
  have hsub : ∀ p', p' ∈ w.introduced → p' ∈ w'.introduced := by
    intro p' hp'
    rw [hb.introduced]
    split
    · exact List.mem_cons_of_mem _ hp'
    · exact hp'
  refine ⟨?_, fun p' hp' => ?_, fun p' hp' => ?_, ?_, fun task htask => ?_⟩
  · rw [hb.introduced]
    split
    · rename_i hnew
      rw [Bool.and_eq_true, Bool.not_eq_true'] at hnew
      refine List.nodup_cons.2 ⟨fun hold => ?_, h.nodup⟩
      rw [hfresh hold] at hnew
      cases hnew.1
    · exact h.nodup
  · by_cases heq : p' = p
    · rw [heq] at hp' ⊢
      cases hbefore : w.whole p with
      | true => exact hsub p (h.whole p hbefore)
      | false =>
        rw [hb.introduced, hbefore, hp']
        exact List.mem_cons_self
    · rw [hb.whole p' heq] at hp'
      exact hsub p' (h.whole p' hp')
  · rcases hmem p' hp' with hold | ⟨heq, hwhole⟩
    · by_cases heq : p' = p
      · rw [heq] at hold ⊢
        exact .inl (hb.kept (hfresh hold))
      · rw [hb.whole p' heq, hb.seen, marked_congr hb.remote]
        exact h.settled p' hold
    · rw [heq]
      exact .inl hwhole
  · rw [hb.seen]
    exact h.seen
  · rw [hb.todo] at htask
    exact fits_congr hb.remote (h.fits task htask)

/-! ## One task -/

theorem pullFile_eq_some {call : Call} {w' : Mirror} (h : pullFile w p half call = some w') :
    w' = w ∨ w' = w.bring p half := by
  unfold pullFile at h
  split at h
  · exact .inl (Option.some_inj.1 h).symm
  · split at h
    · split at h
      · exact .inr (Option.some_inj.1 h).symm
      · cases h
    · cases h

/-- Copying a file of a message that is new or still there. -/
theorem Base.pullFile (h : Base w) (hfresh : p ∈ w.introduced → w.whole p = true) {call : Call}
    {w' : Mirror} (hpull : pullFile w p half call = some w') :
    Base w' ∧ w'.todo = w.todo ∧ w'.seen = w.seen ∧ w'.remote = w.remote := by
  rcases pullFile_eq_some hpull with rfl | rfl
  · exact ⟨h, rfl, rfl, rfl⟩
  · exact ⟨h.brought (brought_bring w p half) hfresh, rfl, rfl, rfl⟩

/-- A stem of a listing is among its first names. -/
theorem name_mem_window {c : Channel} {call : Call} {s : Stem}
    (h : s ∈ remoteStems w c half call) :
    half.name s ∈ window half.suffix (w.lines c half.suffix call) := by
  unfold remoteStems at h
  split at h
  · obtain ⟨name, hname, rfl⟩ := List.mem_map.1 h
    rw [List.mem_mergeSort, List.mem_dedup] at hname
    obtain ⟨-, helig⟩ := List.mem_filter.1 (List.mem_of_mem_take hname)
    rw [eligible, Bool.and_eq_true, Bool.and_eq_true] at helig
    obtain ⟨s, rfl⟩ := List.isSuffixOf_iff_suffix.1 helig.1.1
    rwa [List.length_append, Nat.add_sub_cancel, List.take_left]
  · cases h

/-- It stands for a line of the listing. -/
theorem exists_of_mem_remoteStems {c : Channel} {call : Call} {s : Stem}
    (h : s ∈ remoteStems w c half call) :
    ∃ name, (c, name) ∈ w.remote ∧ PyText.strip name = half.name s := by
  obtain ⟨hline, -⟩ := List.mem_filter.1 (List.mem_of_mem_take (name_mem_window h))
  obtain ⟨raw, hraw, hstrip⟩ := List.mem_map.1 hline
  rw [Mirror.lines, (Call.perm _ _).mem_iff] at hraw
  obtain ⟨e, he, rfl⟩ := List.mem_map.1 hraw
  obtain ⟨hmem, hcond⟩ := List.mem_filter.1 he
  rw [Bool.and_eq_true, decide_eq_true_eq] at hcond
  refine ⟨e.2, ?_, hstrip⟩
  rw [← hcond.1]
  exact hmem

/-- The tasks left behind the current one. -/
structure Calm (w : Mirror) : Prop extends Base w where
  calm : ∀ t ∈ w.todo, t.inner? = none

theorem Calm.once (h : Calm w) : Once w := by
  refine ⟨h.toBase, fun task rest htodo => ⟨fun q hq => ?_, fun t ht => ?_⟩⟩
  · have hnone := h.calm task (by rw [htodo]; exact List.mem_cons_self)
    rw [hnone] at hq
    cases hq
  · exact h.calm t (by rw [htodo]; exact List.mem_cons_of_mem _ ht)

theorem Calm.of_eq (h : Calm w) {w' : Mirror} (hbase : Base w') (htodo : w'.todo = w.todo) :
    Calm w' := by
  refine ⟨hbase, ?_⟩
  rw [htodo]
  exact h.calm

/-- New tasks that are in the middle of nothing. -/
theorem Calm.first (h : Calm w) {tasks : List Task} (hfits : ∀ t ∈ tasks, t.Fits w)
    (hcalm : ∀ t ∈ tasks, t.inner? = none) : Calm (w.first tasks) := by
  refine ⟨⟨h.nodup, h.whole, h.settled, h.seen, fun t ht => ?_⟩, fun t ht => ?_⟩
  · rcases List.mem_append.1 ht with ht | ht
    · exact fits_congr rfl (hfits t ht)
    · exact fits_congr rfl (h.fits t ht)
  · rcases List.mem_append.1 ht with ht | ht
    · exact hcalm t ht
    · exact h.calm t ht

/-- A next task in the middle of a message that is not seen. -/
theorem Calm.next (h : Calm w) {task : Task} (hfits : task.Fits w)
    (hinner : ∀ p, task.inner? = some p → p ∉ w.seen) : Once (w.first [task]) := by
  refine ⟨⟨h.nodup, h.whole, h.settled, h.seen, fun t ht => ?_⟩, fun t rest htodo => ?_⟩
  · rcases List.mem_cons.1 ht with rfl | ht
    · exact fits_congr rfl hfits
    · exact fits_congr rfl (h.fits t ht)
  · obtain ⟨rfl, rfl⟩ := List.cons.inj htodo
    exact ⟨hinner, h.calm⟩

/-- A message with a marker comes only while it is new or there. -/
theorem Base.whole_of_marked (h : Base w) (hm : w.marked p = true) (hp : p ∈ w.introduced) :
    w.whole p = true := by
  rcases h.settled p hp with hwhole | ⟨-, hnone⟩
  · exact hwhole
  · rw [hm] at hnone
    cases hnone

/-- So does one the relay has not seen. -/
theorem Base.whole_of_unseen (h : Base w) (hs : p ∉ w.seen) (hp : p ∈ w.introduced) :
    w.whole p = true := by
  rcases h.settled p hp with hwhole | ⟨hseen, -⟩
  · exact hwhole
  · exact absurd hseen hs

theorem Base.see (h : Base w) (hp : isFallback p.1 = true) :
    Base { w with seen := p :: w.seen } := by
  refine ⟨h.nodup, h.whole, fun p' hp' => ?_, fun p' hp' => ?_, fun t ht => ?_⟩
  · exact (h.settled p' hp').imp id fun hs => ⟨List.mem_cons_of_mem _ hs.1, hs.2⟩
  · rcases List.mem_cons.1 hp' with rfl | hp'
    · exact hp
    · exact h.seen p' hp'
  · exact fits_congr rfl (h.fits t ht)

/-- **One task** keeps the invariant. -/
theorem once_perform (h : Calm w) (call : Call) {task : Task} (hfits : task.Fits w)
    (hinner : ∀ p, task.inner? = some p → p ∉ w.seen) : Once (perform w call task) := by
  cases task with
  | runtime =>
    refine (h.first (fun t ht => ?_) fun t ht => ?_).once
    · obtain ⟨s, -, rfl⟩ := List.mem_map.1 ht
      trivial
    · obtain ⟨s, -, rfl⟩ := List.mem_map.1 ht
      rfl
  | snapshot s =>
    -- No message of the runtime channel is ever among the seen.
    have hunseen : (Channel.runtime, s) ∉ w.seen := fun hs => by
      have hfallback := h.seen _ hs
      cases hfallback
    show Once ((pullFile w (.runtime, s) .json call).getD w)
    cases hpull : pullFile w (.runtime, s) .json call with
    | none => exact h.once
    | some w' =>
      obtain ⟨hbase, htodo, -, -⟩ := h.pullFile (h.whole_of_unseen hunseen) hpull
      exact (h.of_eq hbase htodo).once
  | markers c =>
    refine (h.first (fun t ht => ?_) fun t ht => ?_).once
    · obtain ⟨s, hs, rfl⟩ := List.mem_map.1 ht
      obtain ⟨name, hmem, hstrip⟩ := exists_of_mem_remoteStems hs
      refine List.any_eq_true.2 ⟨(c, name), hmem, ?_⟩
      rw [hstrip]
      simp
    · obtain ⟨s, -, rfl⟩ := List.mem_map.1 ht
      rfl
  | json p =>
    have hperform : perform w call (.json p) =
        ((pullFile w p .json call).map fun w => w.first [.marker p]).getD w := by
      unfold perform
      dsimp only
      cases pullFile w p .json call with
      | none => rfl
      | some _ => rfl
    rw [hperform]
    cases hpull : pullFile w p .json call with
    | none => exact h.once
    | some w' =>
      obtain ⟨hbase, htodo, -, hremote⟩ := h.pullFile (h.whole_of_marked hfits) hpull
      refine (h.of_eq hbase htodo).next (fits_congr (t := .marker p) hremote hfits) (fun _ h => by cases h)
  | marker p =>
    show Once ((pullFile w p .ready call).getD w)
    cases hpull : pullFile w p .ready call with
    | none => exact h.once
    | some w' =>
      obtain ⟨hbase, htodo, -, -⟩ := h.pullFile (h.whole_of_marked hfits) hpull
      exact (h.of_eq hbase htodo).once
  | files c =>
    show Once (if isFallback c then _ else w)
    split
    · rename_i hc
      refine (h.first (fun t ht => ?_) fun t ht => ?_).once
      · obtain ⟨s, -, rfl⟩ := List.mem_map.1 ht
        exact hc
      · obtain ⟨s, -, rfl⟩ := List.mem_map.1 ht
        rfl
    · exact h.once
  | fetch p =>
    have hperform : perform w call (.fetch p) = if List.elem p w.seen then w else
        ((pullFile w p .json call).map fun w => w.first [.decode p]).getD w := by
      unfold perform
      dsimp only
      cases pullFile w p .json call with
      | none => rfl
      | some _ => rfl
    rw [hperform]
    split
    · exact h.once
    · rename_i hseen
      have hunseen : p ∉ w.seen := by simpa using hseen
      cases hpull : pullFile w p .json call with
      | none => exact h.once
      | some w' =>
        obtain ⟨hbase, htodo, hsame, -⟩ := h.pullFile (h.whole_of_unseen hunseen) hpull
        refine (h.of_eq hbase htodo).next hfits fun q hq => ?_
        obtain rfl := Option.some_inj.1 hq
        rwa [hsame]
  | decode p =>
    have hnext : Once (w.first [.gate p]) := h.next hfits hinner
    rw [perform]
    split
    · split
      · split
        · split
          · exact hnext
          · exact h.once
        · exact h.once
      · exact h.once
    · exact h.once
  | gate p =>
    have hunseen : p ∉ w.seen := hinner p rfl
    have hbring : Base (w.bring p .ready) :=
      h.brought (brought_bring w p .ready) (h.whole_of_unseen hunseen)
    rw [perform]
    split
    · exact (h.of_eq (h.see hfits) rfl).once
    · split
      · exact (h.of_eq (hbring.see hfits) rfl).once
      · exact (h.of_eq hbring rfl).once
      · exact h.once

/-! ## One step -/

theorem mem_pullTasks {t : Task} (h : t ∈ pullTasks) :
    t = .runtime ∨ ∃ c, t = .markers c ∨ t = .files c := by
  rcases List.mem_cons.1 h with h | h
  · exact .inl h
  · obtain ⟨c, -, hc⟩ := List.mem_flatMap.1 h
    exact .inr ⟨c, by simpa using hc⟩

theorem once_step (h : Once w) {move : Move} (ht : Tidy w move) : Once (w.step move) := by
  cases move with
  | relay call =>
    show Once (w.work call)
    unfold Mirror.work
    split
    · -- A new process: it has seen nothing, but all that was introduced is there.
      rename_i hstop
      have hwhole := ht hstop
      exact ⟨⟨h.nodup, h.whole, fun p hp => .inl (hwhole p hp), nofun, nofun⟩, nofun⟩
    · split
      · refine Calm.once ⟨⟨h.nodup, h.whole, h.settled, h.seen, fun t ht => ?_⟩, fun t ht => ?_⟩
        · rcases mem_pullTasks ht with rfl | ⟨c, rfl | rfl⟩ <;> trivial
        · rcases mem_pullTasks ht with rfl | ⟨c, rfl | rfl⟩ <;> rfl
      · rename_i task rest htodo
        obtain ⟨hinner, hcalm⟩ := h.inner task rest htodo
        have hfits := h.fits
        rw [htodo] at hfits
        refine once_perform (w := { w with todo := rest }) ⟨⟨h.nodup, h.whole, h.settled, h.seen,
          fun t ht => ?_⟩, hcalm⟩ call (fits_congr rfl (hfits task List.mem_cons_self)) hinner
        exact fits_congr rfl (hfits t (List.mem_cons_of_mem _ ht))
  | take c name =>
    have hmem {e : Channel × PyText} : e ∈ (w.step (.take c name)).here ↔
        e ∈ w.here ∧ e ≠ (c, name) := by
      rw [show (w.step (.take c name)).here = w.here.filter (· != (c, name)) from rfl,
        List.mem_filter, bne_iff_ne]
    refine ⟨⟨h.nodup, fun p hp => h.whole p ?_, fun p hp => ?_, h.seen, fun t ht => ?_⟩, h.inner⟩
    · obtain ⟨hjson, hready⟩ := whole_iff.1 hp
      exact whole_iff.2 ⟨(hmem.1 hjson).1, (hmem.1 hready).1⟩
    · by_cases hhalf : p.1 = c ∧ (name = Half.json.name p.2 ∨ name = Half.ready.name p.2)
      · exact .inr (ht p hp hhalf.1 hhalf.2)
      · refine (h.settled p hp).imp (fun hwhole => ?_) id
        -- The file is no half of this message.
        obtain ⟨hjson, hready⟩ := whole_iff.1 hwhole
        refine whole_iff.2 ⟨hmem.2 ⟨hjson, fun heq => hhalf ?_⟩, hmem.2 ⟨hready, fun heq => hhalf ?_⟩⟩
        · exact ⟨congrArg Prod.fst heq, .inl (congrArg Prod.snd heq).symm⟩
        · exact ⟨congrArg Prod.fst heq, .inr (congrArg Prod.snd heq).symm⟩
    · exact fits_congr rfl (h.fits t ht)
  | write c name =>
    show Once (if List.elem (c, name) w.remote then w
      else { w with remote := (c, name) :: w.remote })
    split
    · exact h
    · have hmarked : ∀ p, w.marked p = true →
          Mirror.marked { w with remote := (c, name) :: w.remote } p = true := by
        intro p hp
        obtain ⟨e, he, hcond⟩ := List.any_eq_true.1 hp
        exact List.any_eq_true.2 ⟨e, List.mem_cons_of_mem _ he, hcond⟩
      refine ⟨⟨h.nodup, h.whole, fun p hp => ?_, h.seen, fun t ht => ?_⟩, h.inner⟩
      · by_cases hnew : p.1 = c ∧ PyText.strip name = Half.ready.name p.2
        · exact .inl (ht p hp hnew.1 hnew.2)
        · refine (h.settled p hp).imp id fun hs => ⟨hs.1, ?_⟩
          rw [Mirror.marked, List.any_cons, Bool.or_eq_false_iff]
          refine ⟨?_, hs.2⟩
          by_contra hcond
          rw [Bool.not_eq_false, Bool.and_eq_true, decide_eq_true_eq, beq_iff_eq] at hcond
          exact hnew ⟨hcond.1.symm, hcond.2⟩
      · have hfits := h.fits t ht
        cases t with
        | json p | marker p => exact hmarked p hfits
        | _ => exact hfits

/-! ## Runs -/

/-- A relay that has just started, over any folders: the messages that are
ready were made so once. -/
structure Begun (w : Mirror) : Prop where
  todo : w.todo = []
  seen : w.seen = []
  nodup : w.introduced.Nodup
  introduced : ∀ p, p ∈ w.introduced ↔ w.whole p = true

theorem Begun.once (h : Begun w) : Once w := by
  refine ⟨⟨h.nodup, fun p hp => (h.introduced p).2 hp, fun p hp => .inl ((h.introduced p).1 hp),
    ?_, ?_⟩, ?_⟩
  · rw [h.seen]
    exact nofun
  · rw [h.todo]
    exact nofun
  · rw [h.todo]
    exact nofun

/-- **No message is introduced twice** in a run whose steps are tidy. -/
theorem introduced_nodup (h : Begun w) {moves : List Move}
    (htidy : Machine.Meets Mirror.step Tidy w moves) :
    (Machine.run Mirror.step w moves).introduced.Nodup := by
  have hstep : ∀ (w : Mirror) (move : Move), Once w → Tidy w move → Once (w.step move) :=
    fun _ _ ho ht => once_step ho ht
  exact (Machine.invariant_of_meets hstep h.once htidy).nodup

/-- A call that works, with a listing as it stands. -/
def calls : Move := .relay ⟨.ok, id, fun l => .refl l⟩

/-- The game host has these files of the events channel, and nothing is
local. -/
def hosting (names : List PyText) : Mirror where
  remote := names.map fun name => (.events, name)
  here := []
  kind := fun _ => some (PyText.lit "event.chat")
  todo := []
  seen := []
  copied := []
  introduced := []

theorem hosting_begun (names : List PyText) : Begun (hosting names) := by
  refine ⟨rfl, rfl, List.nodup_nil, fun p => ?_⟩
  rw [whole_iff]
  exact ⟨nofun, nofun⟩

/-- What a consumer does with the event `a`. -/
def consumed : List Move := [.take .events (jsonName (PyText.lit "a")),
  .take .events (readyName (PyText.lit "a"))]

/-- An event without a marker: the relay brings it, a consumer takes it, and
a second pass goes by. -/
theorem introduced_nodup_event :
    (Machine.run Mirror.step (hosting [jsonName (PyText.lit "a")])
      (List.replicate 16 calls ++ consumed ++ List.replicate 16 calls)).introduced.Nodup :=
  introduced_nodup (hosting_begun _) (by decide +kernel)

/-- With a marker on the game host the event comes back after the consumer
took it. -/
theorem marked_event_returns :
    (Machine.run Mirror.step (hosting [jsonName (PyText.lit "a"), readyName (PyText.lit "a")])
      (List.replicate 20 calls ++ consumed ++ List.replicate 20 calls)).introduced =
        [(.events, PyText.lit "a"), (.events, PyText.lit "a")] := by
  decide +kernel

end Relay

end GoblinZomboid
