import GoblinZomboid.Relay.Once
/-!
# Pull progress

A pass reads the first names of a listing only, seen or not. So a file is
pulled just when some listing has it among those names, in whatever order
the listings come.
-/

namespace GoblinZomboid

namespace Relay

/-- The relay is about to read a listing that has the message among its
first names. -/
def Mirror.Lists (w : Mirror) (move : Move) (p : Letter) : Prop :=
  match w.todo, move with
  | .markers c :: _, .relay call => c = p.1 ∧ p.2 ∈ remoteStems w c .ready call
  | .files c :: _, .relay call =>
      c = p.1 ∧ isFallback c = true ∧ p.2 ∈ remoteStems w c .json call
  | .runtime :: _, .relay call => p.1 = .runtime ∧ p.2 ∈ remoteStems w .runtime .json call
  | _, _ => False

/-- A task that copies the message's `.json`. -/
def Task.Copies (p : Letter) : Task → Prop
  | .json q | .fetch q => q = p
  | .snapshot s => (Channel.runtime, s) = p
  | _ => False

/-- A task that was put on the list by a listing. -/
def Task.IsItem : Task → Prop
  | .runtime | .markers _ | .files _ => False
  | _ => True

/-- The steps a task can take, its follow-ups included. -/
def Task.weight : Task → ℕ
  | .fetch _ => 3
  | .decode _ | .json _ => 2
  | _ => 1

/-- What the relay has, or is in the middle of, was copied. -/
structure Copied (w : Mirror) : Prop where
  here : ∀ p : Letter, (p.1, Half.json.name p.2) ∈ w.here → p ∈ w.copied
  seen : ∀ p ∈ w.seen, p ∈ w.copied
  inner : ∀ task ∈ w.todo, ∀ p, task.inner? = some p → p ∈ w.copied

variable {w w' : Mirror} {p : Letter}

/-! ## What a step does -/

/-- What any step leaves: nothing is uncopied and no remote file goes. -/
structure Grows (w w' : Mirror) : Prop where
  copied : ∀ p ∈ w.copied, p ∈ w'.copied
  remote : ∀ e ∈ w.remote, e ∈ w'.remote

theorem Grows.refl (w : Mirror) : Grows w w := ⟨fun _ h => h, fun _ h => h⟩

theorem Grows.trans {w'' : Mirror} (h : Grows w w') (h' : Grows w' w'') : Grows w w'' :=
  ⟨fun p hp => h'.copied p (h.copied p hp), fun e he => h'.remote e (h.remote e he)⟩

theorem grows_bring (w : Mirror) (p : Letter) (half : Half) : Grows w (w.bring p half) := by
  refine ⟨fun q hq => ?_, fun _ h => h⟩
  show q ∈ if half = .json then p :: w.copied else w.copied
  split
  · exact List.mem_cons_of_mem _ hq
  · exact hq

theorem copied_bring (h : Copied w) (p : Letter) (half : Half) : Copied (w.bring p half) := by
  refine ⟨fun q hq => ?_, fun q hq => (grows_bring w p half).copied q (h.seen q hq),
    fun t ht q hq => (grows_bring w p half).copied q (h.inner t ht q hq)⟩
  rcases List.mem_cons.1 hq with heq | hq
  · -- The file itself: it is a `.json`, and the message's.
    obtain ⟨hc, hname⟩ := Prod.mk.inj heq
    obtain ⟨rfl, hs⟩ := name_injective hname
    show q ∈ if Half.json = .json then p :: w.copied else w.copied
    rw [if_pos rfl, Prod.ext hc hs]
    exact List.mem_cons_self
  · exact (grows_bring w p half).copied q (h.here q hq)

/-- What copying does, when it gives a copy. -/
theorem pullFile_spec {half : Half} {call : Call} (h : Copied w)
    (hpull : pullFile w p half call = some w') :
    Copied w' ∧ Grows w w' ∧ w'.todo = w.todo ∧ (half = .json → p ∈ w'.copied) := by
  unfold pullFile at hpull
  split at hpull
  · rename_i hhere
    obtain rfl := Option.some_inj.1 hpull
    refine ⟨h, .refl w, rfl, fun hj => h.here p ?_⟩
    rw [hj] at hhere
    exact List.elem_iff.1 hhere
  · split at hpull
    · split at hpull
      · obtain rfl := Option.some_inj.1 hpull
        refine ⟨copied_bring h p half, grows_bring w p half, rfl, fun hj => ?_⟩
        show p ∈ if half = .json then p :: w.copied else w.copied
        rw [if_pos hj]
        exact List.mem_cons_self
      · cases hpull
    · cases hpull

/-- A call that works copies a file the game host has. -/
theorem pullFile_isSome {half : Half} {call : Call} (hok : call.outcome = .ok)
    (hremote : (p.1, half.name p.2) ∈ w.remote) : (pullFile w p half call).isSome = true := by
  unfold pullFile
  split
  · rfl
  · rw [hok, if_pos (List.elem_iff.2 hremote)]
    rfl

/-- What a task does to the list: it puts its own tasks first, and a task
that was on it leaves lighter ones. -/
structure Performed (w : Mirror) (call : Call) (task : Task) (w' : Mirror) : Prop where
  copied : Copied w'
  grows : Grows w w'
  remote : w'.remote = w.remote
  todo : ∃ tasks, w'.todo = tasks ++ w.todo ∧
    (task.IsItem → (∀ t ∈ tasks, t.IsItem) ∧ (tasks.map Task.weight).sum < task.weight)

theorem Performed.same (h : Copied w) {call : Call} {task : Task} : Performed w call task w := by
  refine ⟨h, .refl w, rfl, [], rfl, fun hitem => ⟨nofun, ?_⟩⟩
  cases task <;> first | trivial | exact Nat.zero_lt_succ _

/-- New tasks that are in the middle of nothing, or of what was copied. -/
theorem Copied.first (h : Copied w) {tasks : List Task}
    (hinner : ∀ t ∈ tasks, ∀ p, t.inner? = some p → p ∈ w.copied) : Copied (w.first tasks) := by
  refine ⟨h.here, h.seen, fun t ht => ?_⟩
  rcases List.mem_append.1 ht with ht | ht
  · exact hinner t ht
  · exact h.inner t ht

theorem performed_listing (h : Copied w) {call : Call} {task : Task} (hitem : ¬ task.IsItem)
    {tasks : List Task} (hinner : ∀ t ∈ tasks, t.inner? = none) :
    Performed w call task (w.first tasks) := by
  refine ⟨h.first fun t ht p hp => ?_, ⟨fun _ h => h, fun _ h => h⟩, rfl, tasks, rfl,
    fun hi => absurd hi hitem⟩
  rw [hinner t ht] at hp
  cases hp

theorem pullFile_remote {half : Half} {call : Call} (h : pullFile w p half call = some w') :
    w'.remote = w.remote := by
  rcases pullFile_eq_some h with rfl | rfl
  · rfl
  · rfl

/-- A copy, with at most one task after it. -/
theorem performed_pull (h : Copied w) {call : Call} {task : Task} {half : Half}
    (hpull : pullFile w p half call = some w') (tasks : List Task)
    (hinner : ∀ t ∈ tasks, ∀ q, t.inner? = some q → half = .json ∧ p = q)
    (hweight : (∀ t ∈ tasks, t.IsItem) ∧ (tasks.map Task.weight).sum < task.weight) :
    Performed w call task (w'.first tasks) := by
  obtain ⟨hcopied, hgrows, htodo, hjson⟩ := pullFile_spec h hpull
  have hremote := pullFile_remote hpull
  refine ⟨hcopied.first fun t ht q hq => ?_, ⟨hgrows.copied, hgrows.remote⟩, hremote, tasks, ?_,
    fun _ => hweight⟩
  · obtain ⟨hhalf, rfl⟩ := hinner t ht q hq
    exact hjson hhalf
  · show tasks ++ w'.todo = tasks ++ w.todo
    rw [htodo]

theorem performed (h : Copied w) (call : Call) {task : Task}
    (hinner : ∀ p, task.inner? = some p → p ∈ w.copied) :
    Performed w call task (perform w call task) := by
  have hsame : Performed w call task w := .same h
  cases task with
  | runtime =>
    refine performed_listing h id fun t ht => ?_
    obtain ⟨s, -, rfl⟩ := List.mem_map.1 ht
    rfl
  | snapshot s =>
    rw [perform]
    cases hpull : pullFile w (.runtime, s) .json call with
    | none => exact hsame
    | some w' => exact performed_pull h hpull [] (by simp) (by simp [Task.weight])
  | markers c =>
    refine performed_listing h id fun t ht => ?_
    obtain ⟨s, -, rfl⟩ := List.mem_map.1 ht
    rfl
  | json p =>
    rw [perform]
    cases hpull : pullFile w p .json call with
    | none => exact hsame
    | some w' =>
      exact performed_pull h hpull [.marker p] (by simp [Task.inner?])
        (by simp [Task.IsItem, Task.weight])
  | marker p =>
    rw [perform]
    cases hpull : pullFile w p .ready call with
    | none => exact hsame
    | some w' => exact performed_pull h hpull [] (by simp) (by simp [Task.weight])
  | files c =>
    rw [perform]
    split
    · refine performed_listing h id fun t ht => ?_
      obtain ⟨s, -, rfl⟩ := List.mem_map.1 ht
      rfl
    · exact hsame
  | fetch p =>
    rw [perform]
    split
    · exact hsame
    · cases hpull : pullFile w p .json call with
      | none => exact hsame
      | some w' =>
        exact performed_pull h hpull [.decode p] (by simp [Task.inner?])
          (by simp [Task.IsItem, Task.weight])
  | decode p =>
    have hnext : Performed w call (.decode p) (w.first [.gate p]) := by
      refine ⟨h.first fun t ht q hq => ?_, ⟨fun _ h => h, fun _ h => h⟩, rfl, [.gate p], rfl,
        fun _ => by simp [Task.IsItem, Task.weight]⟩
      rw [List.mem_singleton.1 ht] at hq
      exact hinner q hq
    rw [perform]
    split
    · split
      · split
        · split
          · exact hnext
          · exact hsame
        · exact hsame
      · exact hsame
    · exact hsame
  | gate p =>
    have hp : p ∈ w.copied := hinner p rfl
    have hweight : (∀ t ∈ ([] : List Task), t.IsItem) ∧
        (([] : List Task).map Task.weight).sum < (Task.gate p).weight := ⟨(fun _ h => by cases h), Nat.one_pos⟩
    have hsee (v : Mirror) (hv : Copied v) (hpv : p ∈ v.copied) :
        Copied { v with seen := p :: v.seen } := by
      refine ⟨hv.here, fun q hq => ?_, hv.inner⟩
      rcases List.mem_cons.1 hq with rfl | hq
      · exact hpv
      · exact hv.seen q hq
    have hbring := copied_bring h p .ready
    have hgrows := grows_bring w p .ready
    rw [perform]
    split
    · exact ⟨hsee w h hp, ⟨fun _ h => h, fun _ h => h⟩, rfl, [], rfl, fun _ => hweight⟩
    · split
      · exact ⟨hsee _ hbring (hgrows.copied p hp), ⟨hgrows.copied, hgrows.remote⟩, rfl, [], rfl,
          fun _ => hweight⟩
      · exact ⟨hbring, hgrows, rfl, [], rfl, fun _ => hweight⟩
      · exact hsame

theorem Copied.behind (h : Copied w) {task : Task} {rest : List Task}
    (htodo : w.todo = task :: rest) : Copied { w with todo := rest } :=
  ⟨h.here, h.seen, fun t ht => h.inner t (by rw [htodo]; exact List.mem_cons_of_mem _ ht)⟩

/-- The relay's own step. -/
theorem work_cases (h : Copied w) {call : Call} (hrun : call.outcome ≠ .stopped) :
    (w.todo = [] ∧ w.work call = { w with todo := pullTasks }) ∨
      ∃ task rest, w.todo = task :: rest ∧
        w.work call = perform { w with todo := rest } call task ∧
        Performed { w with todo := rest } call task (w.work call) := by
  unfold Mirror.work
  split
  · rename_i hstop
    exact absurd hstop hrun
  · split
    · rename_i htodo
      exact .inl ⟨htodo, rfl⟩
    · rename_i task rest htodo
      refine .inr ⟨task, rest, htodo, rfl, performed (h.behind htodo) call fun p hp => ?_⟩
      exact h.inner task (by rw [htodo]; exact List.mem_cons_self) p hp

theorem inner_pullTasks {t : Task} (ht : t ∈ pullTasks) : t.inner? = none := by
  rcases mem_pullTasks ht with rfl | ⟨c, rfl | rfl⟩ <;> rfl

theorem copied_step (h : Copied w) (move : Move) :
    Copied (w.step move) ∧ Grows w (w.step move) := by
  cases move with
  | relay call =>
    show Copied (w.work call) ∧ Grows w (w.work call)
    by_cases hstop : call.outcome = .stopped
    · have hwork : w.work call = { w with todo := [], seen := [] } := by
        unfold Mirror.work
        rw [hstop]
      rw [hwork]
      exact ⟨⟨h.here, nofun, nofun⟩, ⟨fun _ h => h, fun _ h => h⟩⟩
    · rcases work_cases h hstop with ⟨-, hwork⟩ | ⟨task, rest, -, -, hdone⟩
      · rw [hwork]
        refine ⟨⟨h.here, h.seen, fun t ht p hp => ?_⟩, ⟨fun _ h => h, fun _ h => h⟩⟩
        rw [inner_pullTasks ht] at hp
        cases hp
      · exact ⟨hdone.copied, hdone.grows.copied, hdone.grows.remote⟩
  | take c name =>
    exact ⟨⟨fun p hp => h.here p (List.mem_of_mem_filter hp), h.seen, h.inner⟩,
      fun _ h => h, fun _ h => h⟩
  | write c name =>
    show Copied (if List.elem (c, name) w.remote then w
      else { w with remote := (c, name) :: w.remote }) ∧ Grows w (if List.elem (c, name) w.remote
      then w else { w with remote := (c, name) :: w.remote })
    split
    · exact ⟨h, .refl w⟩
    · exact ⟨⟨h.here, h.seen, h.inner⟩, fun _ h => h, fun _ h => List.mem_cons_of_mem _ h⟩

/-! ## From a listing to a copy -/

/-- The message's copy is on the list, behind tasks of this weight. -/
structure Waits (p : Letter) (m : ℕ) (w : Mirror) : Prop where
  copied : Copied w
  remote : (p.1, Half.json.name p.2) ∈ w.remote
  todo : ∃ before task behind, w.todo = before ++ task :: behind ∧ task.Copies p ∧
    (∀ t ∈ before, t.IsItem) ∧ (before.map Task.weight).sum = m

/-- The copy's turn. -/
theorem copied_of_copies (h : Copied w) {call : Call} (hok : call.outcome = .ok)
    (hremote : (p.1, Half.json.name p.2) ∈ w.remote) {task : Task} (htask : task.Copies p) :
    p ∈ (perform w call task).copied := by
  have hpulled : ∃ w', pullFile w p .json call = some w' ∧ p ∈ w'.copied := by
    obtain ⟨w', hw'⟩ := Option.isSome_iff_exists.1 (pullFile_isSome hok hremote)
    obtain ⟨-, -, -, hjson⟩ := pullFile_spec h hw'
    exact ⟨w', hw', hjson rfl⟩
  obtain ⟨w', hpull, hp⟩ := hpulled
  cases task with
  | snapshot s =>
    obtain rfl : (Channel.runtime, s) = p := htask
    rw [perform, hpull]
    exact hp
  | json q =>
    obtain rfl : q = p := htask
    rw [perform, hpull]
    exact hp
  | fetch q =>
    obtain rfl : q = p := htask
    rw [perform]
    split
    · rename_i hseen
      exact h.seen q (List.elem_iff.1 hseen)
    · rw [hpull]
      exact hp
  | _ => cases htask

/-- A call brings the copy about or lightens what is before it. -/
theorem waits_work {m : ℕ} (h : Waits p m w) {call : Call} (hok : call.outcome = .ok) :
    p ∈ (w.step (.relay call)).copied ∨ ∃ k, k < m ∧ Waits p k (w.step (.relay call)) := by
  obtain ⟨before, task, behind, htodo, hcopies, hitems, hm⟩ := h.todo
  have hstop : call.outcome ≠ .stopped := by
    rw [hok]
    exact nofun
  obtain ⟨hcopied, hgrows⟩ := copied_step h.copied (.relay call)
  rcases work_cases h.copied hstop with ⟨hnil, -⟩ | ⟨head, rest, hcons, hwork, hdone⟩
  · rw [hnil] at htodo
    exact absurd htodo (by simp)
  rw [hcons] at htodo
  cases before with
  | nil =>
    obtain ⟨rfl, rfl⟩ := List.cons.inj htodo
    refine .inl ?_
    show p ∈ (w.work call).copied
    rw [hwork]
    exact copied_of_copies (h.copied.behind hcons) hok h.remote hcopies
  | cons b before =>
    obtain ⟨rfl, rfl⟩ := List.cons.inj htodo
    obtain ⟨tasks, hnew, hlight⟩ := hdone.todo
    obtain ⟨htasks, hweight⟩ := hlight (hitems head List.mem_cons_self)
    refine .inr ⟨(tasks.map Task.weight).sum + (before.map Task.weight).sum, ?_, hcopied,
      hgrows.remote _ h.remote, tasks ++ before, task, behind, ?_, hcopies, fun t ht => ?_, ?_⟩
    · rw [← hm, List.map_cons, List.sum_cons]
      omega
    · rw [List.append_assoc]
      exact hnew
    · rcases List.mem_append.1 ht with ht | ht
      · exact htasks t ht
      · exact hitems t (List.mem_cons_of_mem _ ht)
    · rw [List.map_append, List.sum_append]

theorem work_eq {call : Call} (hok : call.outcome = .ok) {task : Task} {rest : List Task}
    (htodo : w.todo = task :: rest) :
    (w.work call).todo = (perform { w with todo := rest } call task).todo := by
  unfold Mirror.work
  rw [hok, htodo]

/-- Reading a listing puts the copies on the list, before everything else. -/
theorem waits_of_lists (h : Copied w) (hremote : (p.1, Half.json.name p.2) ∈ w.remote)
    {move : Move} (hok : ∀ call, move = .relay call → call.outcome = .ok)
    (hlists : w.Lists move p) : ∃ m, Waits p m (w.step move) := by
  obtain ⟨hcopied, hgrows⟩ := copied_step h move
  have hput (tasks : List Task) (htodo : ∃ rest, (w.step move).todo = tasks ++ rest)
      (hitems : ∀ t ∈ tasks, t.IsItem) (hmem : ∃ t ∈ tasks, t.Copies p) :
      ∃ m, Waits p m (w.step move) := by
    obtain ⟨rest, htodo⟩ := htodo
    obtain ⟨t, ht, hcopies⟩ := hmem
    obtain ⟨before, behind, rfl⟩ := List.append_of_mem ht
    refine ⟨_, hcopied, hgrows.remote _ hremote, before, t, behind ++ rest, ?_, hcopies,
      fun t ht => hitems t (List.mem_append_left _ ht), rfl⟩
    rw [htodo, List.append_assoc, List.cons_append]
  unfold Mirror.Lists at hlists
  split at hlists
  · rename_i c rest call htodo
    obtain ⟨rfl, hmem⟩ := hlists
    refine hput ((remoteStems w p.1 .ready call).map fun s => .json (p.1, s)) ⟨rest, work_eq (hok call rfl) htodo⟩ (fun t ht => ?_)
      ⟨.json p, List.mem_map.2 ⟨p.2, hmem, rfl⟩, rfl⟩
    obtain ⟨s, -, rfl⟩ := List.mem_map.1 ht
    trivial
  · rename_i c rest call htodo
    obtain ⟨rfl, hc, hmem⟩ := hlists
    refine hput ((remoteStems w p.1 .json call).map fun s => .fetch (p.1, s)) ⟨rest, (work_eq (hok call rfl) htodo).trans ?_⟩ (fun t ht => ?_)
      ⟨.fetch p, List.mem_map.2 ⟨p.2, hmem, rfl⟩, rfl⟩
    · rw [perform, if_pos hc]
      rfl
    · obtain ⟨s, -, rfl⟩ := List.mem_map.1 ht
      trivial
  · rename_i rest call htodo
    obtain ⟨hc, hmem⟩ := hlists
    refine hput ((remoteStems w .runtime .json call).map .snapshot) ⟨rest, work_eq (hok call rfl) htodo⟩ (fun t ht => ?_)
      ⟨.snapshot p.2, List.mem_map.2 ⟨p.2, hmem, rfl⟩, Prod.ext hc.symm rfl⟩
    obtain ⟨s, -, rfl⟩ := List.mem_map.1 ht
    trivial
  · cases hlists

/-! ## From a copy back to a listing -/

theorem pullFile_copied {q : Letter} {half : Half} {call : Call}
    (hpull : pullFile w q half call = some w') (hp : p ∈ w'.copied) :
    p ∈ w.copied ∨ half = .json ∧ q = p := by
  rcases pullFile_eq_some hpull with rfl | rfl
  · exact .inl hp
  · have hp' : p ∈ if half = .json then q :: w.copied else w.copied := hp
    split at hp'
    · rename_i hhalf
      rcases List.mem_cons.1 hp' with heq | hp'
      · exact .inr ⟨hhalf, heq.symm⟩
      · exact .inl hp'
    · exact .inl hp'

/-- Only a task that copies the message copies it. -/
theorem copies_of_perform {call : Call} {task : Task} (hp : p ∈ (perform w call task).copied) :
    p ∈ w.copied ∨ task.Copies p := by
  cases task with
  | runtime => exact .inl hp
  | markers c => exact .inl hp
  | snapshot s =>
    rw [perform] at hp
    cases hpull : pullFile w (.runtime, s) .json call with
    | none =>
      rw [hpull] at hp
      exact .inl hp
    | some w' =>
      rw [hpull] at hp
      exact (pullFile_copied hpull hp).imp id fun h => h.2
  | json q =>
    rw [perform] at hp
    cases hpull : pullFile w q .json call with
    | none =>
      rw [hpull] at hp
      exact .inl hp
    | some w' =>
      rw [hpull] at hp
      exact (pullFile_copied hpull hp).imp id fun h => h.2
  | marker q =>
    rw [perform] at hp
    cases hpull : pullFile w q .ready call with
    | none =>
      rw [hpull] at hp
      exact .inl hp
    | some w' =>
      rw [hpull] at hp
      refine (pullFile_copied hpull hp).imp id fun h => ?_
      cases h.1
  | files c =>
    rw [perform] at hp
    split at hp
    · exact .inl hp
    · exact .inl hp
  | fetch q =>
    rw [perform] at hp
    split at hp
    · exact .inl hp
    · cases hpull : pullFile w q .json call with
      | none =>
        rw [hpull] at hp
        exact .inl hp
      | some w' =>
        rw [hpull] at hp
        exact (pullFile_copied hpull hp).imp id fun h => h.2
  | decode q =>
    refine .inl ?_
    rw [perform] at hp
    repeat' split at hp
    all_goals exact hp
  | gate q =>
    refine .inl ?_
    rw [perform] at hp
    repeat' split at hp
    all_goals exact hp

/-- Only a listing that has the message puts a copy of it on the list. -/
theorem listed_of_perform {call : Call} {task t : Task} (ht : t ∈ (perform w call task).todo)
    (hcopies : t.Copies p) :
    t ∈ w.todo ∨ ∀ v : Mirror, v.remote = w.remote → (∃ rest, v.todo = task :: rest) →
      v.Lists (.relay call) p := by
  have hstems {v : Mirror} (h : v.remote = w.remote) (c : Channel) (half : Half) :
      remoteStems v c half call = remoteStems w c half call := by
    unfold remoteStems Mirror.lines
    rw [h]
  have hpulled {q : Letter} {half : Half} {w' : Mirror} (h : pullFile w q half call = some w') :
      w'.todo = w.todo := by
    rcases pullFile_eq_some h with rfl | rfl
    · rfl
    · rfl
  cases task with
  | runtime =>
    refine (List.mem_append.1 ht).symm.imp id fun ht v hv hrest => ?_
    obtain ⟨rest, htodo⟩ := hrest
    obtain ⟨s, hs, rfl⟩ := List.mem_map.1 ht
    obtain rfl : (Channel.runtime, s) = p := hcopies
    unfold Mirror.Lists
    rw [htodo]
    exact ⟨rfl, by rwa [hstems hv]⟩
  | markers c =>
    refine (List.mem_append.1 ht).symm.imp id fun ht v hv hrest => ?_
    obtain ⟨rest, htodo⟩ := hrest
    obtain ⟨s, hs, rfl⟩ := List.mem_map.1 ht
    obtain rfl : (c, s) = p := hcopies
    unfold Mirror.Lists
    rw [htodo]
    exact ⟨rfl, by rwa [hstems hv]⟩
  | files c =>
    rw [perform] at ht
    split at ht
    · rename_i hc
      refine (List.mem_append.1 ht).symm.imp id fun ht v hv hrest => ?_
      obtain ⟨rest, htodo⟩ := hrest
      obtain ⟨s, hs, rfl⟩ := List.mem_map.1 ht
      obtain rfl : (c, s) = p := hcopies
      unfold Mirror.Lists
      rw [htodo]
      exact ⟨rfl, hc, by rwa [hstems hv]⟩
    · exact .inl ht
  | snapshot s =>
    refine .inl ?_
    rw [perform] at ht
    cases hpull : pullFile w (.runtime, s) .json call with
    | none => rwa [hpull] at ht
    | some w' =>
      rw [hpull] at ht
      rwa [← hpulled hpull]
  | json q =>
    refine .inl ?_
    rw [perform] at ht
    cases hpull : pullFile w q .json call with
    | none => rwa [hpull] at ht
    | some w' =>
      rw [hpull] at ht
      rcases List.mem_cons.1 ht with rfl | ht
      · cases hcopies
      · rwa [← hpulled hpull]
  | marker q =>
    refine .inl ?_
    rw [perform] at ht
    cases hpull : pullFile w q .ready call with
    | none => rwa [hpull] at ht
    | some w' =>
      rw [hpull] at ht
      rwa [← hpulled hpull]
  | fetch q =>
    refine .inl ?_
    rw [perform] at ht
    split at ht
    · exact ht
    · cases hpull : pullFile w q .json call with
      | none => rwa [hpull] at ht
      | some w' =>
        rw [hpull] at ht
        rcases List.mem_cons.1 ht with rfl | ht
        · cases hcopies
        · rwa [← hpulled hpull]
  | decode q =>
    refine .inl ?_
    rw [perform] at ht
    repeat' split at ht
    all_goals first
      | exact ht
      | (rcases List.mem_cons.1 ht with rfl | ht
         · cases hcopies
         · exact ht)
  | gate q =>
    refine .inl ?_
    rw [perform] at ht
    repeat' split at ht
    all_goals exact ht

/-- A message that is newly copied was on the list. -/
theorem exists_copies_of_step {move : Move} (hold : p ∉ w.copied)
    (hp : p ∈ (w.step move).copied) : ∃ t ∈ w.todo, t.Copies p := by
  cases move with
  | relay call =>
    have hwork : p ∈ (w.work call).copied := hp
    unfold Mirror.work at hwork
    split at hwork
    · exact absurd hwork hold
    · split at hwork
      · exact absurd hwork hold
      · rename_i task rest htodo
        refine ⟨task, by rw [htodo]; exact List.mem_cons_self, ?_⟩
        exact (copies_of_perform hwork).resolve_left hold
  | take c name => exact absurd hp hold
  | write c name =>
    refine absurd ?_ hold
    have hwrite : p ∈ (if List.elem (c, name) w.remote then w
      else { w with remote := (c, name) :: w.remote }).copied := hp
    split at hwrite
    · exact hwrite
    · exact hwrite

/-- A copy that is newly on the list comes from a listing. -/
theorem lists_of_step {move : Move} (hold : ¬ ∃ t ∈ w.todo, t.Copies p)
    (hnew : ∃ t ∈ (w.step move).todo, t.Copies p) : w.Lists move p := by
  obtain ⟨t, ht, hcopies⟩ := hnew
  cases move with
  | relay call =>
    have hwork : t ∈ (w.work call).todo := ht
    unfold Mirror.work at hwork
    split at hwork
    · cases hwork
    · split at hwork
      · rcases mem_pullTasks hwork with rfl | ⟨c, rfl | rfl⟩ <;> cases hcopies
      · rename_i task rest htodo
        rcases listed_of_perform hwork hcopies with hrest | hlists
        · exact absurd ⟨t, by rw [htodo]; exact List.mem_cons_of_mem _ hrest, hcopies⟩ hold
        · exact hlists w rfl ⟨rest, htodo⟩
  | take c name => exact absurd ⟨t, ht, hcopies⟩ hold
  | write c name =>
    refine absurd ⟨t, ?_, hcopies⟩ hold
    have hwrite : t ∈ (if List.elem (c, name) w.remote then w
      else { w with remote := (c, name) :: w.remote }).todo := ht
    split at hwrite
    · exact hwrite
    · exact hwrite

/-! ## All passes -/

variable {moves : ℕ → Move}

/-- Between the relay's calls the list stays. -/
theorem Waits.other {m : ℕ} (h : Waits p m w) {move : Move}
    (hmove : ¬ ∃ call, move = .relay call) : Waits p m (w.step move) := by
  obtain ⟨hcopied, hgrows⟩ := copied_step h.copied move
  refine ⟨hcopied, hgrows.remote _ h.remote, ?_⟩
  cases move with
  | relay call => exact absurd ⟨call, rfl⟩ hmove
  | take c name => exact h.todo
  | write c name =>
    have htodo : (w.step (.write c name)).todo = w.todo := by
      show (if List.elem (c, name) w.remote then w
        else { w with remote := (c, name) :: w.remote }).todo = w.todo
      split
      · rfl
      · rfl
    rw [htodo]
    exact h.todo

/-- **A listed file is copied**, when every call works. -/
theorem exists_copied_of_lists (h : Copied w) (hremote : (p.1, Half.json.name p.2) ∈ w.remote)
    (hworks : ∀ n call, moves n = .relay call → call.outcome = .ok)
    (hpasses : ∀ n, ∃ k, n ≤ k ∧ ∃ call, moves k = .relay call) {n : ℕ}
    (hlists : (Machine.trace Mirror.step w moves n).Lists (moves n) p) :
    ∃ k, p ∈ (Machine.trace Mirror.step w moves k).copied := by
  have hstep : ∀ (v : Mirror) (k : ℕ), Copied v ∧ (p.1, Half.json.name p.2) ∈ v.remote →
      Copied (v.step (moves k)) ∧ (p.1, Half.json.name p.2) ∈ (v.step (moves k)).remote := by
    intro v k hv
    obtain ⟨hcopied, hgrows⟩ := copied_step hv.1 (moves k)
    exact ⟨hcopied, hgrows.remote _ hv.2⟩
  obtain ⟨hn, hnremote⟩ := Machine.trace_invariant hstep ⟨h, hremote⟩ n
  obtain ⟨m, hwaits⟩ := waits_of_lists hn hnremote (hworks n) hlists
  have hkeep : ∀ m (v : Mirror) k, Waits p m v → ¬ (∃ call, moves k = .relay call) →
      Waits p m (v.step (moves k)) := fun _ _ _ hv hmove => hv.other hmove
  have hlower : ∀ m (v : Mirror) k, Waits p m v → (∃ call, moves k = .relay call) →
      p ∈ (v.step (moves k)).copied ∨ ∃ j, j < m ∧ Waits p j (v.step (moves k)) := by
    rintro m v k hv ⟨call, hcall⟩
    rw [hcall]
    exact waits_work hv (hworks k call hcall)
  exact Machine.exists_goal_of_rank (P := Waits p) (Q := fun v : Mirror => p ∈ v.copied)
    (H := fun move => ∃ call, move = Move.relay call) hkeep hlower hpasses (n := n + 1) hwaits

/-- **A copied file was listed.** -/
theorem exists_lists_of_copied (htodo : w.todo = []) {n : ℕ}
    (hp : p ∈ (Machine.trace Mirror.step w moves n).copied) :
    p ∈ w.copied ∨ ∃ k, (Machine.trace Mirror.step w moves k).Lists (moves k) p := by
  refine (Machine.exists_step_of_trace (P := fun v : Mirror => p ∈ v.copied) hp).imp id ?_
  rintro ⟨k, hold, hnew⟩
  have hlist := exists_copies_of_step hold hnew
  rcases Machine.exists_step_of_trace (P := fun v : Mirror => ∃ t ∈ v.todo, t.Copies p) hlist with
    hbefore | ⟨j, hold', hnew'⟩
  · rw [htodo] at hbefore
    obtain ⟨t, ht, -⟩ := hbefore
    cases ht
  · exact ⟨j, lists_of_step hold' hnew'⟩

/-- A relay that has just started. -/
structure Opened (w : Mirror) : Prop where
  todo : w.todo = []
  seen : w.seen = []
  copied : ∀ p : Letter, (p.1, Half.json.name p.2) ∈ w.here → p ∈ w.copied

theorem Opened.copied_run (h : Opened w) (history : List Move) :
    Copied (Machine.run Mirror.step w history) := by
  have hstep : ∀ (v : Mirror) (move : Move), Copied v → Copied (v.step move) :=
    fun _ move hv => (copied_step hv move).1
  refine Machine.invariant hstep ⟨h.copied, ?_, ?_⟩ history
  · rw [h.seen]
    exact nofun
  · rw [h.todo]
    exact nofun

/-- **Which files are pulled.** After any history, between two passes, and
from there on with calls that work and passes that go on for ever: all of a
set of files of the game host are copied in the end just when each was
copied before or some listing has it among its first names. -/
theorem all_pulled_iff {w₀ w : Mirror} (h : Opened w₀) {history : List Move}
    (hw : Machine.run Mirror.step w₀ history = w) (hidle : w.todo = [])
    (hworks : ∀ n call, moves n = .relay call → call.outcome = .ok)
    (hpasses : ∀ n, ∃ k, n ≤ k ∧ ∃ call, moves k = .relay call)
    (letters : List Letter) (hremote : ∀ p ∈ letters, (p.1, Half.json.name p.2) ∈ w.remote) :
    (∀ p ∈ letters, ∃ n, p ∈ (Machine.trace Mirror.step w moves n).copied) ↔
      ∀ p ∈ letters, p ∈ w.copied ∨
        ∃ n, (Machine.trace Mirror.step w moves n).Lists (moves n) p := by
  have hcopied : Copied w := hw ▸ h.copied_run history
  refine forall_congr' fun p => imp_congr_right fun hp => ⟨?_, ?_⟩
  · rintro ⟨n, hn⟩
    exact exists_lists_of_copied hidle hn
  · rintro (hold | ⟨n, hlists⟩)
    · exact ⟨0, hold⟩
    · exact exists_copied_of_lists hcopied (hremote p hp) hworks hpasses hlists

theorem hosting_opened (names : List PyText) : Opened (hosting names) := ⟨rfl, rfl, nofun⟩

/-- One event, and passes for ever. -/
theorem all_pulled_iff_event :
    (∀ p ∈ [(Channel.events, PyText.lit "a")], ∃ n, p ∈ (Machine.trace Mirror.step
      (hosting [jsonName (PyText.lit "a")]) (fun _ => calls) n).copied) ↔
      ∀ p ∈ [(Channel.events, PyText.lit "a")], p ∈ (hosting [jsonName (PyText.lit "a")]).copied ∨
        ∃ n, (Machine.trace Mirror.step (hosting [jsonName (PyText.lit "a")])
          (fun _ => calls) n).Lists calls p := by
  have hrun : Machine.run Mirror.step (hosting [jsonName (PyText.lit "a")]) [] =
      hosting [jsonName (PyText.lit "a")] := rfl
  have hremote : ∀ p ∈ [(Channel.events, PyText.lit "a")],
      (p.1, Half.json.name p.2) ∈ (hosting [jsonName (PyText.lit "a")]).remote := by
    decide
  refine all_pulled_iff (hosting_opened _) hrun rfl (fun n call hcall => ?_)
    (fun n => ⟨n, le_rfl, _, rfl⟩) _ hremote
  rw [← Move.relay.inj hcall]

/-- The names of one event more than a listing is read for. -/
def manyEvents : List PyText := (List.range 257).map fun n => jsonName (Nat.toDigits 10 n)

/-- The relay's own steps leave the game host's files. -/
theorem remote_work (h : Copied w) {call : Call} (hrun : call.outcome ≠ .stopped) :
    (w.work call).remote = w.remote := by
  rcases work_cases h hrun with ⟨-, hwork⟩ | ⟨task, rest, -, -, hdone⟩
  · rw [hwork]
  · exact hdone.remote

/-- The game host lists the events in the same order in every pass: the last
one is never copied. -/
theorem last_event_never_pulled :
    ¬ ∃ n, (Channel.events, PyText.lit "256") ∈
      (Machine.trace Mirror.step (hosting manyEvents) (fun _ => calls) n).copied := by
  rintro ⟨n, hcopied⟩
  have hstep : ∀ (v : Mirror) (_ : ℕ), Copied v ∧ v.remote = (hosting manyEvents).remote →
      Copied (v.step calls) ∧ (v.step calls).remote = (hosting manyEvents).remote := by
    intro v _ hv
    have hruns : Outcome.ok ≠ .stopped := nofun
    exact ⟨(copied_step hv.1 calls).1, (remote_work hv.1 hruns).trans hv.2⟩
  rcases exists_lists_of_copied rfl hcopied with hold | ⟨k, hlists⟩
  · cases hold
  have hfirst : Copied (hosting manyEvents) := (hosting_opened manyEvents).copied_run []
  obtain ⟨-, hremote⟩ := Machine.trace_invariant hstep ⟨hfirst, rfl⟩ k
  generalize Machine.trace Mirror.step (hosting manyEvents) (fun _ => calls) k = v at hlists hremote
  unfold Mirror.Lists at hlists
  split at hlists
  · -- No event has a marker.
    obtain ⟨rfl, hmem⟩ := hlists
    obtain ⟨name, hname, hstrip⟩ := exists_of_mem_remoteStems hmem
    rw [hremote] at hname
    have hnone : ∀ e ∈ (hosting manyEvents).remote,
        PyText.strip e.2 ≠ Half.ready.name (PyText.lit "256") := by decide +kernel
    exact hnone _ hname hstrip
  · rename_i call hcall
    obtain ⟨rfl, -, hmem⟩ := hlists
    obtain rfl := Move.relay.inj hcall
    have hwindow := name_mem_window hmem
    unfold Mirror.lines at hwindow
    rw [hremote] at hwindow
    have hnone : Half.json.name (PyText.lit "256") ∉ window Half.json.suffix
        (((hosting manyEvents).remote.filter fun e =>
          e.1 = .events && Half.json.suffix.isSuffixOf e.2).map Prod.snd) := by decide
    exact hnone hwindow
  · cases hlists.1
  · cases hlists

end Relay

end GoblinZomboid
