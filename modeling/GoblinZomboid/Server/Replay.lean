import GoblinZomboid.Server.Ticks
import GoblinZomboid.Server.Grants
/-!
# A request is executed once

A command is kept from a second execution by its markers or by the memory
of the bridge. An execution that ends in an error leaves the markers for a
later tick to write, so until then the memory alone stands for it.
-/

namespace GoblinZomboid

namespace Bridge

open IPC (Folder File Archived)

namespace Host

/-- Every command file names its stem. -/
def Named (stem : Bytes) (file : File) : Prop :=
  ∀ id, file.decoded.field "request_id" = .str id → id = stem

/-- The deliveries of a run: a file names its stem. -/
def Faithful (_ : Host) : Move → Prop
  | .write stem (some file) => Named stem file
  | _ => True

/-- The request the next call of `process` is for. -/
def incoming (w : Host) : Option Bytes :=
  match w.queue with
  | [] => none
  | stem :: _ =>
    match IPC.readReady w.folder stem with
    | some message =>
      if Authority.fieldIs message "type" (Bytes.lit "command.npc_action") then
        (message.field "request_id").str?
      else none
    | none => none

/-- The requests the memory of the bridge loses in a step: all of them, or
the oldest when a new one comes and there is no room. -/
def forgets (w : Host) : Move → List Bytes
  | .restart => w.seen
  | .next _ =>
    match w.incoming with
    | some id => if w.seen.contains id || w.seen.length < maxSeen then [] else w.seen.take 1
    | none => []
  | _ => []

/-- **The proviso.** No request is forgotten before its file has a marker. -/
def Settled (w : Host) (move : Move) : Prop := ∀ id ∈ w.forgets move, w.folder.marked id = true

instance (w : Host) (move : Move) : Decidable (Settled w move) :=
  inferInstanceAs (Decidable (∀ id ∈ w.forgets move, w.folder.marked id = true))

/-- **The invariant.** No request was executed twice; one that was has a
marker or is remembered. One that is still to be processed is remembered,
and if it has a marker it is the next: it is in the list a second time. -/
structure Inv (w : Host) : Prop where
  nodup : w.executed.Nodup
  known : ∀ id ∈ w.executed, w.folder.marked id = true ∨ id ∈ w.seen
  queued : ∀ id ∈ w.queue, id ∈ w.executed → id ∈ w.seen ∧
    (w.folder.marked id = true → w.queue.head? = some id)
  sorted : w.queue.Pairwise (· ≤ ·)
  named : ∀ stem file, w.folder.json stem = some file → Named stem file

variable {w : Host} {scene : Scene} {stem : Bytes} {rest : List Bytes}

/-! ## Processing a command -/

theorem fieldIs_eq {v : LuaValue} {name : String} {s : Bytes} :
    Authority.fieldIs v name s = true ↔ (v.field name).str? = some s := by
  unfold Authority.fieldIs
  simp

/-- **What the check of a command does to the memory**: nothing to it, when
it is no command or was seen; otherwise the request is remembered. -/
theorem process_seen (scene : Scene) (message : LuaValue) (seen : Seen) (grants : Authority.Store) :
    let r := Bridge.process scene.env scene.findByNpcId scene.findForOwner scene.foodBusy message
      seen grants
    let id := (message.field "request_id").str?.getD []
    (r.2.1 = seen ∧ (∀ route, r.1 ≠ .routed route)) ∨
      Authority.fieldIs message "type" (Bytes.lit "command.npc_action") = true ∧
        remember seen id = some r.2.1 := by
  unfold Bridge.process
  dsimp only
  split
  · exact .inl ⟨rfl, nofun⟩
  · rename_i htype
    rw [Bool.not_eq_true', Bool.not_eq_false] at htype
    split
    · exact .inl ⟨rfl, nofun⟩
    · rename_i seen' hseen
      refine .inr ⟨htype, ?_⟩
      rw [hseen]
      split
      · rfl
      · split
        · rfl
        · split <;> rfl

/-- **What remembering a request does**: only the oldest one is lost, when
there is no room. -/
theorem remember_spec {seen seen' : Seen} {id : Bytes} (h : remember seen id = some seen') :
    id ∉ seen ∧ id ∈ seen' ∧
      ∀ x ∈ seen, x ∈ seen' ∨ maxSeen ≤ seen.length ∧ x ∈ seen.take 1 := by
  unfold remember at h
  split at h
  · cases h
  · rename_i hnew
    rw [List.contains_iff_mem] at hnew
    have h := Option.some_inj.1 h
    split at h
    · rename_i hfull
      rw [List.length_append, List.length_singleton] at hfull
      cases seen with
      | nil => exact absurd hfull (by decide)
      | cons x seen =>
        rw [List.cons_append, List.tail_cons] at h
        subst h
        refine ⟨hnew, List.mem_append_right _ List.mem_cons_self, fun y hy => ?_⟩
        rcases List.mem_cons.1 hy with rfl | hy
        · exact .inr ⟨by omega, List.mem_cons_self⟩
        · exact .inl (List.mem_append_left _ hy)
    · subst h
      exact ⟨hnew, List.mem_append_right _ List.mem_cons_self,
        fun y hy => .inl (List.mem_append_left _ hy)⟩

/-- The file of the stem is a command for the request of that name. -/
def Commands (f : Folder) (stem : Bytes) : Prop :=
  ∃ message, IPC.readReady f stem = some message ∧
    Authority.fieldIs message "type" (Bytes.lit "command.npc_action") = true ∧
    message.field "request_id" = .str stem

/-- What processing a command leaves behind. -/
structure Processed (w : Host) (stem : Bytes) (w' : Host) : Prop where
  folder : Archived w.folder stem w'.folder
  queue : w'.queue = w.queue ∨ w'.queue = []
  effect : (w'.seen = w.seen ∧ w'.executed = w.executed) ∨
    Commands w.folder stem ∧ remember w.seen stem = some w'.seen ∧
      (w'.executed = w.executed ∨ w'.executed = stem :: w.executed)

theorem archived_execute (w : Host) (scene : Scene) (stem requestId : Bytes) :
    Archived w.folder stem (w.execute scene stem requestId).folder := by
  unfold execute
  split
  · exact IPC.archived_archiveReady ..
  · exact IPC.archived_archiveReady ..
  · exact .refl ..

/-- **Processing a command**, whatever the world answers. -/
theorem processed_process (hnamed : ∀ file, w.folder.json stem = some file → Named stem file) :
    Processed w stem (w.process scene stem) := by
  unfold process
  split
  · exact ⟨IPC.archived_archiveReady .., .inl rfl, .inl ⟨rfl, rfl⟩⟩
  · rename_i message hmessage
    obtain ⟨-, ⟨file, hfile, rfl⟩, id, hid⟩ := IPC.readReady_spec hmessage
    obtain rfl := hnamed file hfile id hid
    have hseen := process_seen scene file.decoded w.seen scene.grants
    dsimp only at hseen ⊢
    generalize Bridge.process scene.env scene.findByNpcId scene.findForOwner scene.foodBusy
      file.decoded w.seen scene.grants = r at hseen ⊢
    obtain ⟨outcome, seen, grants⟩ := r
    rw [hid] at hseen ⊢
    dsimp only [LuaValue.str?, Option.getD_some] at hseen ⊢
    have heffect : (seen = w.seen ∧ w.executed = w.executed) ∨ Commands w.folder id ∧
        remember w.seen id = some seen ∧ (w.executed = w.executed ∨ w.executed = id :: w.executed) :=
      hseen.imp (fun h => ⟨h.1, rfl⟩) fun h => ⟨⟨file.decoded, hmessage, h.1, hid⟩, h.2, .inl rfl⟩
    have hcall : (∃ route, outcome = .routed route) → Commands w.folder id ∧
        remember w.seen id = some seen := by
      rintro ⟨route, rfl⟩
      rcases hseen with ⟨-, hnot⟩ | ⟨htype, hremember⟩
      · exact absurd rfl (hnot route)
      · exact ⟨⟨file.decoded, hmessage, htype, hid⟩, hremember⟩
    split
    · exact ⟨IPC.archived_archiveReady .., .inl rfl, heffect⟩
    · exact ⟨IPC.archived_archiveReady .., .inl rfl, heffect⟩
    · exact ⟨IPC.archived_archiveReady .., .inl rfl, heffect⟩
    · exact ⟨IPC.archived_archiveReady .., .inl rfl, heffect⟩
    · exact ⟨IPC.archived_archiveReady .., .inl rfl, heffect⟩
    · rename_i route _
      obtain ⟨hcommand, hremember⟩ := hcall ⟨_, rfl⟩
      refine ⟨archived_execute { w with seen := seen } scene id id, ?_, .inr ⟨hcommand, ?_, .inr ?_⟩⟩
      · unfold execute
        split
        · exact .inl rfl
        · exact .inl rfl
        · exact .inr rfl
      · unfold execute
        split <;> exact hremember
      · unfold execute
        split <;> rfl

/-! ## Steps -/

/-- In a list in order, an element that comes again comes next. -/
theorem head?_of_mem (hsorted : (stem :: rest).Pairwise (· ≤ ·)) (hmem : stem ∈ rest) :
    rest.head? = some stem := by
  obtain ⟨hle, hrest⟩ := List.pairwise_cons.1 hsorted
  cases rest with
  | nil => cases hmem
  | cons b rest =>
    rcases List.mem_cons.1 hmem with rfl | hmem
    · rfl
    · have hb := (List.pairwise_cons.1 hrest).1 stem hmem
      rw [List.head?_cons, List.le_antisymm hb (hle b List.mem_cons_self)]

theorem inv_list {ready enabled : Bool} (h : w.Inv) : (w.step (.list ready enabled)).Inv := by
  rw [step]
  split
  · refine ⟨h.nodup, h.known, fun id hid hexecuted => ?_, ?_, h.named⟩
    · have hunmarked := IPC.not_marked_of_mem_listReady (List.mem_of_mem_take hid)
      rcases h.known id hexecuted with hmarked | hseen
      · rw [hunmarked] at hmarked
        exact absurd hmarked Bool.false_ne_true
      · refine ⟨hseen, fun hmarked => ?_⟩
        rw [hunmarked] at hmarked
        exact absurd hmarked Bool.false_ne_true
    · exact (IPC.pairwise_listReady w.folder).sublist (List.take_sublist _ _)
  · exact h

theorem inv_restart (h : w.Inv) (hsettled : w.Settled .restart) : (w.step .restart).Inv := by
  refine ⟨h.nodup, fun id hid => .inl ?_, nofun, List.Pairwise.nil, h.named⟩
  exact (h.known id hid).elim (fun h => h) (hsettled id)

/-- What is remembered stays so, or has its marker. -/
theorem remembered_or_marked {w' : Host} (hsettled : w.Settled (.next scene))
    (hqueue : w.queue = stem :: rest) (hp : Processed { w with queue := rest } stem w')
    {id : Bytes} (hid : id ∈ w.seen) : id ∈ w'.seen ∨ w.folder.marked id = true := by
  rcases hp.effect with ⟨hseen, -⟩ | ⟨⟨message, hmessage, htype, hrequest⟩, hremember, -⟩
  · rw [hseen]
    exact .inl hid
  · obtain ⟨hnew, -, hkept⟩ := remember_spec hremember
    rcases hkept id hid with hkept | ⟨hfull, holdest⟩
    · exact .inl hkept
    · -- The request that comes takes the place of the oldest one.
      refine .inr (hsettled id ?_)
      have hincoming : w.incoming = some stem := by
        have hmessage : IPC.readReady w.folder stem = some message := hmessage
        unfold incoming
        rw [hqueue]
        dsimp only
        rw [hmessage]
        dsimp only
        rw [if_pos htype, hrequest, LuaValue.str?]
      have hroom : ¬ (w.seen.contains stem || decide (w.seen.length < maxSeen)) = true := by
        rw [Bool.or_eq_true, List.contains_iff_mem, decide_eq_true_eq, not_or, Nat.not_lt]
        exact ⟨hnew, hfull⟩
      unfold forgets
      dsimp only
      rw [hincoming]
      dsimp only
      rw [if_neg hroom]
      exact holdest

/-- **The next command** keeps the invariant, if the bridge forgets no
request without a marker. -/
theorem inv_next (h : w.Inv) (hsettled : w.Settled (.next scene)) : (w.step (.next scene)).Inv := by
  rw [step]
  split
  · exact h
  · rename_i stem rest hqueue
    have hp : Processed { w with queue := rest } stem ({ w with queue := rest }.process scene stem) :=
      processed_process (h.named stem)
    generalize { w with queue := rest }.process scene stem = w' at hp ⊢
    have hold : stem ∈ w.executed → stem ∈ w.seen := fun hexecuted =>
      (h.queued stem (hqueue ▸ List.mem_cons_self) hexecuted).1
    -- A new call of the brain is for a request that was not executed.
    have hexecuted : w'.executed = w.executed ∨
        w'.executed = stem :: w.executed ∧ stem ∉ w.executed ∧ stem ∈ w'.seen := by
      rcases hp.effect with ⟨-, hsame⟩ | ⟨-, hremember, hsame | hcall⟩
      · exact .inl hsame
      · exact .inl hsame
      · obtain ⟨hnew, hseen, -⟩ := remember_spec hremember
        exact .inr ⟨hcall, fun hmem => hnew (hold hmem), hseen⟩
    have hmem {id : Bytes} (hid : id ∈ w'.executed) :
        id ∈ w.executed ∨ id = stem ∧ stem ∈ w'.seen := by
      rcases hexecuted with hsame | ⟨hcall, -, hseen⟩
      · exact .inl (hsame ▸ hid)
      · rw [hcall] at hid
        exact (List.mem_cons.1 hid).elim (fun heq => .inr ⟨heq, hseen⟩) .inl
    have hstays {id : Bytes} (hid : id ∈ w.seen) := remembered_or_marked hsettled hqueue hp hid
    have hsorted := h.sorted
    rw [hqueue] at hsorted
    refine ⟨?_, fun id hid => ?_, fun id hid hdone => ?_, ?_, fun s file hfile => ?_⟩
    · rcases hexecuted with hsame | ⟨hcall, hnew, -⟩
      · rw [hsame]
        exact h.nodup
      · rw [hcall]
        exact List.nodup_cons.2 ⟨hnew, h.nodup⟩
    · rcases hmem hid with hid | ⟨rfl, hseen⟩
      · rcases h.known id hid with hmarked | hseen
        · exact .inl (hp.folder.kept id hmarked)
        · exact (hstays hseen).symm.imp (hp.folder.kept id) fun h => h
      · exact .inr hseen
    · have hqueue' : w'.queue = rest := by
        rcases hp.queue with hrest | hnone
        · exact hrest
        · rw [hnone] at hid
          cases hid
      rw [hqueue'] at hid ⊢
      by_cases heq : id = stem
      · subst heq
        refine ⟨?_, fun _ => head?_of_mem hsorted hid⟩
        rcases hmem hdone with hdone | ⟨-, hseen⟩
        · rcases hp.effect with ⟨hsame, -⟩ | ⟨-, hremember, -⟩
          · rw [hsame]
            exact hold hdone
          · exact absurd (hold hdone) (remember_spec hremember).1
        · exact hseen
      · have hdone : id ∈ w.executed := (hmem hdone).resolve_right fun h => heq h.1
        obtain ⟨hseen, hnext⟩ := h.queued id (hqueue ▸ List.mem_cons_of_mem _ hid) hdone
        have hunmarked : ¬ w.folder.marked id = true := by
          intro hmarked
          have hhead := hnext hmarked
          rw [hqueue, List.head?_cons, Option.some_inj] at hhead
          exact heq hhead.symm
        refine ⟨(hstays hseen).resolve_right hunmarked, fun hmarked => ?_⟩
        rw [hp.folder.others id heq] at hmarked
        exact absurd hmarked hunmarked
    · rcases hp.queue with hrest | hnone
      · rw [hrest]
        exact (List.pairwise_cons.1 hsorted).2
      · rw [hnone]
        exact List.Pairwise.nil
    · rw [hp.folder.json] at hfile
      exact h.named s file hfile

theorem inv_write {stem : Bytes} {file : Option File} (h : w.Inv)
    (hfaithful : w.Faithful (.write stem file)) : (w.step (.write stem file)).Inv := by
  refine ⟨h.nodup, h.known, h.queued, h.sorted, fun s file' hfile => ?_⟩
  by_cases heq : s = stem
  · subst heq
    have hfile : Function.update w.folder.json s file s = some file' := hfile
    rw [Function.update_self] at hfile
    subst hfile
    exact hfaithful
  · have hfile : Function.update w.folder.json stem file s = some file' := hfile
    rw [Function.update_of_ne heq] at hfile
    exact h.named s file' hfile

/-- **A step** keeps the invariant. -/
theorem inv_step {move : Move} (h : w.Inv) (hmove : w.Faithful move ∧ w.Settled move) :
    (w.step move).Inv := by
  cases move with
  | list ready enabled => exact inv_list h
  | next scene => exact inv_next h hmove.2
  | write stem file => exact inv_write h hmove.1
  | index entries => exact ⟨h.nodup, h.known, h.queued, h.sorted, h.named⟩
  | restart => exact inv_restart h hmove.2

/-! ## Runs -/

theorem inv_start {f : Folder} (hnamed : ∀ stem file, f.json stem = some file → Named stem file) :
    (start f).Inv := ⟨List.nodup_nil, nofun, nofun, List.Pairwise.nil, hnamed⟩

/-- **A request is executed once.** Over every run of ticks, deliveries and
restarts in which no request is forgotten before its file has a marker,
`Brain.execute` is called at most once for each request. -/
theorem executed_nodup {f : Folder}
    (hnamed : ∀ stem file, f.json stem = some file → Named stem file) {moves : List Move}
    (hmoves : Machine.Meets step (fun w move => w.Faithful move ∧ w.Settled move) (start f) moves) :
    (Machine.run step (start f) moves).executed.Nodup := by
  have hstep : ∀ (w : Host) (move : Move), w.Inv → w.Faithful move ∧ w.Settled move →
      (w.step move).Inv := fun _ _ hinv hmove => inv_step hinv hmove
  exact (Machine.invariant_of_meets hstep (inv_start hnamed) hmoves).nodup

/-! ## An execution that ends in an error -/

/-- A command to wait. -/
def waitCommand : LuaValue :=
  .ofFields [("protocol", .num (.finite 2)), ("request_id", .str (Bytes.lit "r1")),
    ("timestamp_ms", .num (.finite 1)), ("type", .str (Bytes.lit "command.npc_action")),
    ("npc_id", .str (Bytes.lit "goblin.primary")), ("owner", .str (Bytes.lit "alice")),
    ("action", .str (Bytes.lit "WAIT"))]

/-- Alice's companion is there, and the brain answers as given. -/
def aliceScene (execution : Execution) : Scene where
  env := ⟨1000, 7, Config.default, []⟩
  grants := Authority.Store.empty
  findByNpcId := fun _ => none
  findForOwner := fun _ => some (Authority.World.aliceBody .follow 3)
  foodBusy := false
  execution := execution
  doneWritten := true

/-- The command is delivered; a tick processes it, the server starts anew,
and another tick begins. -/
def deliveredThen (execution : Execution) : List Move :=
  [.write (Bytes.lit "r1") (some ⟨200, waitCommand⟩), .index [.str (Bytes.lit "r1")],
    .list true true, .next (aliceScene execution), .restart, .list true true,
    .next (aliceScene execution)]

def emptyFolder : Folder := ⟨[], fun _ => none, [], [], []⟩

theorem named_emptyFolder (stem : Bytes) (file : File) (h : emptyFolder.json stem = some file) :
    Named stem file := by
  cases h

theorem named_waitCommand : Named (Bytes.lit "r1") ⟨200, waitCommand⟩ := by
  intro id hid
  have hrequest : (waitCommand.field "request_id").str? = some (Bytes.lit "r1") := by decide
  rw [show waitCommand.field "request_id" = .str id from hid, LuaValue.str?] at hrequest
  exact Option.some_inj.1 hrequest

/-- An accepted execution has its marker before the server starts anew. -/
theorem executed_nodup_accepted :
    (Machine.run step (start emptyFolder) (deliveredThen (.accepted []))).executed.Nodup := by
  refine executed_nodup named_emptyFolder ⟨⟨named_waitCommand, nofun⟩, ⟨trivial, nofun⟩,
    ⟨trivial, nofun⟩, ⟨trivial, ?_⟩, ⟨trivial, ?_⟩, ⟨trivial, nofun⟩, ⟨trivial, ?_⟩, trivial⟩
  · decide +kernel
  · decide +kernel
  · decide +kernel

/-- **An error and a restart** have the request executed again. -/
theorem executed_twice :
    ¬ ∀ (f : Folder) (moves : List Move),
      (∀ stem file, f.json stem = some file → Named stem file) →
      Machine.Meets step Faithful (start f) moves →
      (Machine.run step (start f) moves).executed.Nodup := by
  intro h
  have hagain := h emptyFolder (deliveredThen .error) named_emptyFolder
    ⟨named_waitCommand, trivial, trivial, trivial, trivial, trivial, trivial, trivial⟩
  exact absurd hagain (by decide +kernel)

end Host

end Bridge

end GoblinZomboid
