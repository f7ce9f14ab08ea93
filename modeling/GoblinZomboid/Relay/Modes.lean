import GoblinZomboid.Relay.Push
import Mathlib.Data.List.Chain
/-!
# `relay.py`: who may read a command

A copied file is the relay's own until `chmod` opens it to the group of
the game server. The copy takes its name before that, and a later pass
goes by the name alone.
-/

namespace GoblinZomboid

namespace Relay

/-- What becomes of a command's files, one after the other. -/
inductive Mark
  /-- A copy takes the name of a command's file. -/
  | placed (name : Name)
  /-- The group may read the file. -/
  | opened (name : Name)
  /-- The stem comes into the remote index; whether its files can be read. -/
  | listed (s : Stem) (readable : Bool)
  /-- A local file of the command is archived; whether the remote ones can
  be read. -/
  | archived (s : Stem) (readable : Bool)
  deriving DecidableEq

/-- The two folders with the modes of the remote files. -/
structure Shelf where
  world : World
  /-- The remote names that are open to the group. -/
  opened : List Name
  /-- The latest first. -/
  log : List Mark

/-- A script that knows the modes. -/
abbrev Shelving := Script Shelf Turn

namespace Shelf

/-- The game server can read the file. -/
def readable (f : Shelf) (name : Name) : Bool :=
  (f.world.remote name).isSome && f.opened.contains name

/-- It can read both files of a command. -/
def served (f : Shelf) (s : Stem) : Bool := f.readable (.json s) && f.readable (.ready s)

/-- A remote file is there with this content and mode. -/
def store (f : Shelf) (name : Name) (x : Option Stored) (mode : Bool) : Shelf :=
  { f with
    world := f.world.put name x
    opened := if mode then name :: f.opened else f.opened.filter (· ≠ name) }

def note (f : Shelf) (mark : Mark) : Shelf := { f with log := mark :: f.log }

/-- A script to which modes do not matter. -/
def within {α : Type} (m : Push α) : Shelving α := fun f ts =>
  ((m f.world ts).1, { f with world := (m f.world ts).2 })

/-- `run`, of commands that know the modes. -/
def perform (command broken : Shelf → Option Shelf) : Shelving Bool :=
  Script.call fun turn f =>
    let f := { f with world := f.world.arrive turn.arrivals }
    match turn.outcome with
    | .stopped => (none, f)
    | .failed => (some false, (broken f).getD f)
    | .unheard => (some false, (command f).getD f)
    | .ok =>
      match command f with
      | some f => (some true, f)
      | none => (some false, f)

/-- `_scp`: a copy is not open to the group. -/
def scp (n : ℕ) (x : Stored) : Shelving Bool :=
  perform (fun f => some (f.store (.temp n) (some x) false))
    fun f => some (f.store (.temp n) (some .part) false)

/-- `mv -- remote_tmp target`, which moves the mode along. -/
def rename (n : ℕ) (target : Name) (mark : Shelf → Mark) : Shelving Bool :=
  perform (fun f => (f.world.remote (.temp n)).map fun x =>
    let f := (f.store target (some x) (f.opened.contains (.temp n))).store (.temp n) none false
    f.note (mark f)) some

/-- `chmod g+r`. -/
def chmod (name : Name) : Shelving Bool :=
  perform (fun f => some ({ f with opened := name :: f.opened }.note (.opened name))) some

/-- `_write_remote_command_index`, for a new stem. -/
def writeRemoteCommandIndex (s : Stem) : Shelving Bool := do
  let w ← within Script.get
  match w.stems with
  | none => pure false
  | some l =>
    let ready ← within remoteBridgeReady
    if !ready then pure false
    else if 256 * 1024 < encodedSize l then pure false
    else
      let n ← within freshName
      let uploaded ← scp n (.stems l)
      if !uploaded then pure false
      else
        let moved ← rename n .index fun f => .listed s (f.served s)
        if !moved then pure false else chmod .index

/-- One half of `_publish_remote`. -/
def place (target : Name) : Shelving Bool := do
  let there ← within (remoteExists target)
  if there then pure true
  else
    let n ← within freshName
    let uploaded ← scp n .file
    if !uploaded then pure false
    else
      let moved ← rename n target fun _ => .placed target
      if !moved then pure false else chmod target

/-- `_publish_remote`. -/
def publishRemote (s : Stem) : Shelving Bool := do
  let ready ← within remoteBridgeReady
  if !ready then pure false
  else
    let w ← within Script.get
    if !(List.elem (jsonName s) w.folder && List.elem (readyName s) w.folder) then pure false
    else
      let json ← place (.json s)
      if !json then pure false
      else
        let marker ← place (.ready s)
        if !marker then pure false
        else
          let there ← within (remoteExists (.json s))
          if !there then pure false else within (remoteExists (.ready s))

/-- `os.replace` of one file of the command. -/
def archiveFile (s : Stem) (name : PyText) : Shelving Bool :=
  perform (fun f => some ({ f with
    world := { f.world with
      folder := f.world.folder.filter (· != name), archived := s :: f.world.archived } }.note
        (.archived s (f.served s)))) some

/-- `_archive_local_command`. -/
def archiveLocalCommand (s : Stem) : Shelving Unit := do
  let moved ← archiveFile s (jsonName s)
  if moved then
    let _ ← archiveFile s (readyName s)
    pure ()
  else pure ()

/-- The end of the loop of `push`. -/
def recordOne (s : Stem) : Shelving Bool := do
  let w ← within Script.get
  match w.stems with
  | none => pure false
  | some l =>
    if List.elem s l then
      archiveLocalCommand s
      pure true
    else if maxRemoteIndexEntries ≤ l.length then pure false
    else
      within (Script.modify fun w => { w with stems := some (l ++ [s]) })
      let written ← writeRemoteCommandIndex s
      if !written then
        within (Script.modify fun w => { w with stems := w.stems.map List.dropLast })
        pure false
      else
        archiveLocalCommand s
        pure true

/-- The body of the loop of `push`. -/
def pushOne (name : PyText) : Shelving Bool := do
  let s := stemOf name
  if !safeStem s then pure false
  else
    let there ← publishRemote s
    if !there then pure false else recordOne s

/-- The loop of `push`. -/
def pushAll : List PyText → Shelving ℕ
  | [] => pure 0
  | name :: rest => do
    let sent ← pushOne name
    let count ← pushAll rest
    pure (if sent then count + 1 else count)

/-- `push`. -/
def push : Shelving ℕ := do
  let loaded ← within loadRemoteCommandIndex
  if !loaded then pure 0
  else
    let w ← within Script.get
    pushAll ((readyNames w.folder).take maxFilesPerPass)

/-- The game host takes away the files of a command, and their modes. -/
def consume (f : Shelf) (s : Stem) : Shelf :=
  { f with
    world := f.world.consume s
    opened := f.opened.filter fun name => name ≠ .json s && name ≠ .ready s }

/-- After a pass: a relay that was stopped starts anew. -/
def afterPass : Option (ℕ × Turns Turn) × Shelf → Shelf
  | (some _, f) => f
  | (none, f) => { f with world := f.world.restart }

/-- The next state. -/
def step (f : Shelf) : Op → Shelf
  | .pass turns => afterPass (push f turns)
  | .arrive names => { f with world := f.world.arrive names }
  | .consume s => if List.elem s f.world.listed then f.consume s else f

/-! ## The same pass without modes -/

/-- Without modes the script is another one. -/
def Projects {α : Type} (m : Shelving α) (m₀ : Push α) : Prop :=
  ∀ f ts, (m f ts).1 = (m₀ f.world ts).1 ∧ (m f ts).2.world = (m₀ f.world ts).2

section projections

variable {α β : Type}

theorem Projects.pure (a : α) : Projects (Pure.pure a) (Pure.pure a) := fun _ _ => ⟨rfl, rfl⟩

theorem Projects.within (m : Push α) : Projects (within m) m := fun _ _ => ⟨rfl, rfl⟩

theorem Projects.bind {m : Shelving α} {m₀ : Push α} {k : α → Shelving β} {k₀ : α → Push β}
    (hm : Projects m m₀) (hk : ∀ a, Projects (k a) (k₀ a)) : Projects (m >>= k) (m₀ >>= k₀) := by
  intro f ts
  obtain ⟨hresult, hworld⟩ := hm f ts
  cases hrun : m f ts with
  | mk result f' =>
    cases hrun₀ : m₀ f.world ts with
    | mk result₀ w' =>
      rw [hrun, hrun₀] at hresult
      rw [hrun, hrun₀] at hworld
      dsimp only at hresult hworld
      subst hresult hworld
      cases result with
      | none =>
        rw [Script.bind_of_none hrun, Script.bind_of_none hrun₀]
        exact ⟨rfl, rfl⟩
      | some r =>
        rw [Script.bind_of_some hrun, Script.bind_of_some hrun₀]
        exact hk r.1 f' r.2

theorem Projects.ite {c : Prop} [Decidable c] {m m' : Shelving α} {m₀ m₀' : Push α}
    (hm : Projects m m₀) (hm' : Projects m' m₀') :
    Projects (if c then m else m') (if c then m₀ else m₀') := by
  split
  · exact hm
  · exact hm'

/-- A call whose command is another one without modes. -/
theorem Projects.perform {command broken : Shelf → Option Shelf}
    {command₀ broken₀ : World → Option World}
    (hcommand : ∀ f, (command f).map Shelf.world = command₀ f.world)
    (hbroken : ∀ f, (broken f).map Shelf.world = broken₀ f.world) :
    Projects (perform command broken) (run command₀ broken₀) := by
  intro f ts
  have hdefault : ∀ (g : Shelf → Option Shelf) (g₀ : World → Option World),
      (∀ f, (g f).map Shelf.world = g₀ f.world) → ∀ f, ((g f).getD f).world =
        (g₀ f.world).getD f.world := by
    intro g g₀ hg f
    rw [← hg f]
    cases g f <;> rfl
  unfold Shelf.perform Relay.run
  rw [Script.call_eq, Script.call_eq]
  cases (ts 0).outcome with
  | stopped => exact ⟨rfl, rfl⟩
  | failed => exact ⟨rfl, hdefault broken broken₀ hbroken _⟩
  | unheard => exact ⟨rfl, hdefault command command₀ hcommand _⟩
  | ok =>
    have h := hcommand { f with world := f.world.arrive (ts 0).arrivals }
    dsimp only at h ⊢
    rw [← h]
    cases command { f with world := f.world.arrive (ts 0).arrivals } <;> exact ⟨rfl, rfl⟩

end projections

theorem projects_scp (n : ℕ) (x : Stored) : Projects (scp n x) (Relay.scp n x) :=
  .perform (fun _ => rfl) fun _ => rfl

theorem projects_rename (n : ℕ) (target : Name) (mark : Shelf → Mark) :
    Projects (rename n target mark) (Relay.rename n target) := by
  refine .perform (fun f => ?_) fun _ => rfl
  rw [Option.map_map]
  rfl

theorem projects_chmod (name : Name) : Projects (chmod name) Relay.chmod :=
  .perform (fun _ => rfl) fun _ => rfl

theorem projects_writeRemoteCommandIndex (s : Stem) :
    Projects (writeRemoteCommandIndex s) Relay.writeRemoteCommandIndex := by
  refine .bind (.within _) fun w => ?_
  cases w.stems with
  | none => exact .pure _
  | some l =>
    refine .bind (.within _) fun ready => .ite (.pure _) (.ite (.pure _) ?_)
    refine .bind (.within _) fun n => .bind (projects_scp _ _) fun uploaded => .ite (.pure _) ?_
    exact .bind (projects_rename _ _ _) fun moved => .ite (.pure _) (projects_chmod _)

theorem projects_place (target : Name) : Projects (place target) (Relay.place target) := by
  refine .bind (.within _) fun there => .ite (.pure _) ?_
  refine .bind (.within _) fun n => .bind (projects_scp _ _) fun uploaded => .ite (.pure _) ?_
  exact .bind (projects_rename _ _ _) fun moved => .ite (.pure _) (projects_chmod _)

theorem projects_publishRemote (s : Stem) :
    Projects (publishRemote s) (Relay.publishRemote s) := by
  refine .bind (.within _) fun ready => .ite (.pure _) (.bind (.within _) fun w =>
    .ite (.pure _) (.bind (projects_place _) fun json => .ite (.pure _) ?_))
  refine .bind (projects_place _) fun marker => .ite (.pure _) ?_
  exact .bind (.within _) fun there => .ite (.pure _) (.within _)

theorem projects_archiveLocalCommand (s : Stem) :
    Projects (archiveLocalCommand s) (Relay.archiveLocalCommand s) := by
  have hfile (name : PyText) : Projects (archiveFile s name) (Relay.archiveFile s name) :=
    .perform (fun _ => rfl) fun _ => rfl
  exact .bind (hfile _) fun moved => .ite (.bind (hfile _) fun _ => .pure _) (.pure _)

theorem projects_recordOne (s : Stem) : Projects (recordOne s) (Relay.recordOne s) := by
  have harchive : Projects (do archiveLocalCommand s; Pure.pure true)
      (do Relay.archiveLocalCommand s; Pure.pure true) :=
    .bind (projects_archiveLocalCommand s) fun _ => .pure _
  refine .bind (.within _) fun w => ?_
  cases w.stems with
  | none => exact .pure _
  | some l =>
    refine .ite harchive (.ite (.pure _) (.bind (.within _) fun _ =>
      .bind (projects_writeRemoteCommandIndex s) fun written => .ite ?_ harchive))
    exact .bind (.within _) fun _ => .pure _

theorem projects_pushAll (names : List PyText) : Projects (pushAll names) (Relay.pushAll names) := by
  induction names with
  | nil => exact .pure _
  | cons name rest ih =>
    have hone : Projects (pushOne name) (Relay.pushOne name) :=
      .ite (.pure _) (.bind (projects_publishRemote _) fun there =>
        .ite (.pure _) (projects_recordOne _))
    exact .bind hone fun sent => .bind ih fun count => .pure _

/-- **A pass without modes** is the pass of `push`. -/
theorem projects_push : Projects push Relay.push :=
  .bind (.within _) fun _ => .ite (.pure _) (.bind (.within _) fun _ => projects_pushAll _)

theorem world_step (f : Shelf) (op : Op) : (f.step op).world = Relay.step f.world op := by
  cases op with
  | pass turns =>
    obtain ⟨hresult, hworld⟩ := projects_push f turns
    show (afterPass (push f turns)).world = Relay.afterPass (Relay.push f.world turns)
    cases hrun : push f turns with
    | mk result f' =>
      cases hrun₀ : Relay.push f.world turns with
      | mk result₀ w' =>
        rw [hrun, hrun₀] at hresult
        rw [hrun, hrun₀] at hworld
        dsimp only at hresult hworld
        subst hresult hworld
        cases result <;> rfl
  | arrive names => rfl
  | consume s =>
    unfold step Relay.step
    dsimp only
    split <;> rfl

/-- **The modes change no run**: without them it is the run of the relay. -/
theorem world_run (f : Shelf) (ops : List Op) :
    (Machine.run step f ops).world = Machine.run Relay.step f.world ops := by
  induction ops generalizing f with
  | nil => rfl
  | cons op ops ih =>
    rw [Machine.run_cons, Machine.run_cons, ih, world_step]

/-! ## What can be read -/

/-- What may come after a mark: a copy that was placed is opened. -/
def Follows (later : Mark) : Mark → Prop
  | .placed name => later = .opened name
  | .opened _ | .listed .. | .archived .. => True

instance (later earlier : Mark) : Decidable (Follows later earlier) :=
  match earlier with
  | .placed name => inferInstanceAs (Decidable (later = .opened name))
  | .opened _ | .listed .. | .archived .. => .isTrue trivial

/-- **The proviso**: a copy that has taken the name of a command's file is
opened before anything else is placed, listed or archived. -/
def Opens (log : List Mark) : Prop := log.IsChain Follows

instance (log : List Mark) : Decidable (Opens log) :=
  inferInstanceAs (Decidable (log.IsChain Follows))

/-- A stem is listed and archived only with files that can be read. -/
def Fair : Mark → Prop
  | .listed _ readable | .archived _ readable => readable = true
  | .placed _ | .opened _ => True

/-- The name of a command's file. -/
def IsCommand (name : Name) : Prop := ∃ s, name = .json s ∨ name = .ready s

/-- The file is there. -/
def present (f : Shelf) (name : Name) : Prop := (f.world.remote name).isSome = true

variable {f f' : Shelf} {s : Stem} {name : Name} {mark : Mark}

/-- **The invariant.** While the proviso holds, a command's file is open or
about to be, and everything that was filed could be read. -/
structure Orderly (f : Shelf) : Prop where
  files : Opens f.log → ∀ name, IsCommand name → f.present name →
    name ∈ f.opened ∨ f.log.head? = some (.placed name)
  fair : Opens f.log → ∀ mark ∈ f.log, Fair mark

/-- Both files of the command are there. -/
structure There (s : Stem) (f : Shelf) : Prop where
  orderly : Orderly f
  json : f.present (.json s)
  ready : f.present (.ready s)

theorem Opens.tail {log : List Mark} (h : Opens (mark :: log)) : Opens log := List.IsChain.tail h

/-- What is placed is opened next. -/
theorem Opens.head {log : List Mark} (h : Opens (mark :: log))
    (hplaced : log.head? = some (.placed name)) : mark = .opened name := by
  obtain ⟨rest, rfl⟩ := List.head?_eq_some_iff.1 hplaced
  exact (List.isChain_cons_cons.1 h).1

/-- A change that closes no command's file and brings none. -/
theorem Orderly.of_same (h : Orderly f) (hlog : f'.log = f.log)
    (hopened : ∀ name, IsCommand name → name ∈ f.opened → name ∈ f'.opened)
    (hpresent : ∀ name, IsCommand name → f'.present name → f.present name) : Orderly f' := by
  refine ⟨fun hopens name hname hthere => ?_, fun hopens => ?_⟩
  · rw [hlog] at hopens ⊢
    exact (h.files hopens name hname (hpresent name hname hthere)).imp (hopened name hname) id
  · rw [hlog] at hopens ⊢
    exact h.fair hopens

/-- The same, with a mark. -/
theorem Orderly.noted (h : Orderly f) (hlog : f'.log = mark :: f.log)
    (hopened : ∀ name, IsCommand name → name ∈ f.opened → name ∈ f'.opened ∨ mark = .placed name)
    (hpresent : ∀ name, IsCommand name → f'.present name → f.present name ∨ mark = .placed name)
    (hmark : ∀ name, mark = .opened name → name ∈ f'.opened)
    (hfair : Opens (mark :: f.log) → Fair mark) : Orderly f' := by
  refine ⟨fun hopens name hname hthere => ?_, fun hopens m hm => ?_⟩
  · rw [hlog] at hopens ⊢
    have hplaced : mark = .placed name → (mark :: f.log).head? = some (.placed name) :=
      fun heq => congrArg some heq
    rcases hpresent name hname hthere with hthere | hnew
    · rcases h.files hopens.tail name hname hthere with hopen | hhead
      · exact (hopened name hname hopen).imp id hplaced
      · exact Or.inl (hmark name (hopens.head hhead))
    · exact Or.inr (hplaced hnew)
  · rw [hlog] at hopens hm
    rcases List.mem_cons.1 hm with rfl | hm
    · exact hfair hopens
    · exact h.fair hopens.tail m hm

/-- **What is filed next can be read**: nothing is left to be opened. -/
theorem There.served (h : There s f) (hopens : Opens (mark :: f.log))
    (hmark : ∀ name, mark ≠ .opened name) : f.served s = true := by
  have hopen (name : Name) (hname : IsCommand name) (hthere : f.present name) :
      f.readable name = true := by
    rcases h.orderly.files hopens.tail name hname hthere with hopen | hhead
    · unfold readable
      rw [hthere, List.contains_iff_mem.2 hopen]
      rfl
    · exact absurd (hopens.head hhead) (hmark name)
  unfold Shelf.served
  rw [hopen _ ⟨s, Or.inl rfl⟩ h.json, hopen _ ⟨s, Or.inr rfl⟩ h.ready]
  rfl

/-! ## The calls -/

open Script (Holds Keeps)

/-- The rule of a call. -/
theorem holds_perform {P : Shelf → Prop} {Q : Bool → Shelf → Prop}
    {command broken : Shelf → Option Shelf}
    (harrive : ∀ f names, P f → P { f with world := f.world.arrive names })
    (hstop : ∀ f, P f → Orderly f)
    (hok : ∀ f f', P f → command f = some f' → Q true f' ∧ Q false f')
    (herr : ∀ f, P f → Q false f) (hbroken : ∀ f f', P f → broken f = some f' → Q false f') :
    Holds P (perform command broken) Q Orderly := by
  refine Holds.call fun turn f hf => ?_
  have hf' := harrive f turn.arrivals hf
  have hdefault : ∀ (g : Shelf → Option Shelf) (f : Shelf), P f →
      (∀ f', g f = some f' → Q false f') → Q false ((g f).getD f) := by
    intro g f hf hg
    cases hc : g f with
    | none => exact herr f hf
    | some f' => exact hg f' hc
  obtain ⟨arrivals, outcome⟩ := turn
  cases outcome with
  | stopped => exact ⟨nofun, fun _ => hstop _ hf'⟩
  | failed =>
    refine ⟨fun a ha => ?_, nofun⟩
    obtain rfl := Option.some_inj.1 ha
    exact hdefault broken _ hf' fun f' => hbroken _ f' hf'
  | unheard =>
    refine ⟨fun a ha => ?_, nofun⟩
    obtain rfl := Option.some_inj.1 ha
    exact hdefault command _ hf' fun f' hc => (hok _ f' hf' hc).2
  | ok =>
    dsimp only at hf' ⊢
    cases hc : command { f with world := f.world.arrive arrivals } with
    | none =>
      refine ⟨fun a ha => ?_, nofun⟩
      obtain rfl := Option.some_inj.1 ha
      exact herr _ hf'
    | some f' =>
      refine ⟨fun a ha => ?_, nofun⟩
      obtain rfl := Option.some_inj.1 ha
      exact (hok _ f' hf' hc).1

/-- A script that leaves the remote files alone. -/
theorem holds_within {α : Type} {m : Push α} {R : α → (Name → Option Stored) → Prop}
    {P : Shelf → Prop}
    (hm : ∀ r, Holds (fun w => w.remote = r) m (fun a w => w.remote = r ∧ R a r)
      fun w => w.remote = r)
    (hP : ∀ f w, P f → w.remote = f.world.remote → P { f with world := w })
    (hstop : ∀ f, P f → Orderly f) :
    Holds P (within m) (fun a f => P f ∧ R a f.world.remote) Orderly := by
  intro f ts hf
  have hrun := hm f.world.remote f.world ts rfl
  unfold within
  dsimp only
  cases hm' : m f.world ts with
  | mk result w =>
    rw [hm'] at hrun
    cases result with
    | none => exact hstop _ (hP f w hf hrun)
    | some r =>
      obtain ⟨hremote, hr⟩ := hrun
      refine ⟨hP f w hf hremote, ?_⟩
      dsimp only
      rw [hremote]
      exact hr

/-- A script that keeps the remote files keeps what is said of them. -/
theorem holds_keeping {α : Type} {m : Push α} {P : Shelf → Prop}
    (hm : ∀ r, Keeps (fun w => w.remote = r) m)
    (hP : ∀ f w, P f → w.remote = f.world.remote → P { f with world := w })
    (hstop : ∀ f, P f → Orderly f) : Holds P (within m) (fun _ f => P f) Orderly :=
  (holds_within (R := fun _ _ => True)
    (fun r => (hm r).mono (fun _ h => h) fun _ _ h => ⟨h, trivial⟩) hP hstop).mono
      (fun _ h => h) fun _ _ h => h.1

/-- What a call without effect on remote files keeps. -/
theorem keeps_ssh {command : World → Option World} {r : Name → Option Stored}
    (h : ∀ w w', command w = some w' → w'.remote = w.remote) :
    Keeps (fun w => w.remote = r) (ssh command) := by
  unfold ssh run
  refine Keeps.call fun turn w hw => ?_
  have hdefault : ((command (w.arrive turn.arrivals)).getD (w.arrive turn.arrivals)).remote = r := by
    cases hc : command (w.arrive turn.arrivals) with
    | none => exact hw
    | some w' => exact (h _ w' hc).trans hw
  obtain ⟨arrivals, outcome⟩ := turn
  cases outcome with
  | stopped => exact hw
  | failed => exact hw
  | unheard => exact hdefault
  | ok =>
    dsimp only at hdefault ⊢
    cases hc : command (w.arrive arrivals) with
    | none => exact hw
    | some w' => exact (h _ w' hc).trans hw

theorem keeps_remoteBridgeReady (r : Name → Option Stored) :
    Keeps (fun w => w.remote = r) remoteBridgeReady := by
  refine Keeps.bind Keeps.get fun w => Keeps.ite (Keeps.pure _) ?_
  refine Keeps.bind (keeps_ssh fun w w' h => ?_) fun ready => Keeps.ite ?_ (Keeps.pure _)
  · rw [Option.some_inj.1 h]
  · exact Keeps.bind (Keeps.modify fun w hw => hw) fun _ => Keeps.pure _

theorem keeps_loadRemoteCommandIndex (r : Name → Option Stored) :
    Keeps (fun w => w.remote = r) loadRemoteCommandIndex := by
  refine Keeps.bind Keeps.get fun w => Keeps.ite (Keeps.pure _) ?_
  refine Keeps.bind (keeps_remoteBridgeReady r) fun ready => Keeps.ite (Keeps.pure _) ?_
  refine Keeps.bind (Keeps.call fun turn w hw => ?_) fun content => ?_
  · obtain ⟨arrivals, outcome⟩ := turn
    cases outcome <;> exact hw
  · split
    · exact Keeps.ite (Keeps.bind (Keeps.modify fun w hw => hw) fun _ => Keeps.pure _)
        (Keeps.pure _)
    · exact Keeps.pure _

theorem keeps_freshName (r : Name → Option Stored) :
    Keeps (fun w => w.remote = r) freshName :=
  Keeps.bind Keeps.get fun _ => Keeps.bind (Keeps.modify fun _ hw => hw) fun _ => Keeps.pure _

theorem Orderly.world (h : Orderly f) {w : World} (hw : w.remote = f.world.remote) :
    Orderly { f with world := w } :=
  h.of_same rfl (fun _ _ h => h) fun name _ hthere => by
    unfold present at hthere ⊢
    rwa [← hw]

theorem There.world (h : There s f) {w : World} (hw : w.remote = f.world.remote) :
    There s { f with world := w } := by
  refine ⟨h.orderly.world hw, ?_, ?_⟩
  · show (w.remote (.json s)).isSome = true
    rw [hw]
    exact h.json
  · show (w.remote (.ready s)).isSome = true
    rw [hw]
    exact h.ready

theorem not_command_temp (n : ℕ) : ¬ IsCommand (.temp n) := by
  rintro ⟨s, h | h⟩ <;> cases h

theorem not_command_index : ¬ IsCommand .index := by
  rintro ⟨s, h | h⟩ <;> cases h

/-- The mode of a file under another name. -/
theorem mem_opened_store (x : Option Stored) (mode : Bool) {target : Name} (hne : name ≠ target) :
    name ∈ (f.store target x mode).opened ↔ name ∈ f.opened := by
  unfold store
  cases mode with
  | true => exact List.mem_cons.trans (or_iff_right hne)
  | false =>
    rw [if_neg Bool.false_ne_true, List.mem_filter]
    exact and_iff_left (decide_eq_true hne)

theorem present_store (x : Option Stored) (mode : Bool) {target : Name} (hne : name ≠ target) :
    (f.store target x mode).present name ↔ f.present name := by
  unfold present store
  dsimp only
  rw [World.remote_put_of_ne _ _ _ hne]

theorem Orderly.store (h : Orderly f) {target : Name} (htarget : ¬ IsCommand target)
    (x : Option Stored) (mode : Bool) : Orderly (f.store target x mode) := by
  have hne (name : Name) (hname : IsCommand name) : name ≠ target := by
    rintro rfl
    exact htarget hname
  exact h.of_same rfl (fun name hname => (mem_opened_store x mode (hne name hname)).2)
    fun name hname => (present_store x mode (hne name hname)).1

theorem There.store (h : There s f) {target : Name} (htarget : ¬ IsCommand target)
    (x : Option Stored) (mode : Bool) : There s (f.store target x mode) := by
  have hne (name : Name) (hname : IsCommand name) : name ≠ target := by
    rintro rfl
    exact htarget hname
  exact ⟨h.orderly.store htarget x mode, (present_store x mode (hne _ ⟨s, Or.inl rfl⟩)).2 h.json,
    (present_store x mode (hne _ ⟨s, Or.inr rfl⟩)).2 h.ready⟩

/-- A copy under a temporary name. -/
theorem holds_scp {P : Shelf → Prop} (n : ℕ) (x : Stored)
    (hworld : ∀ f w, P f → w.remote = f.world.remote → P { f with world := w })
    (hstop : ∀ f, P f → Orderly f)
    (hstore : ∀ f x mode, P f → P (f.store (.temp n) x mode)) :
    Holds P (scp n x) (fun _ f => P f) Orderly := by
  refine holds_perform (Q := fun _ f => P f) (fun f names hf => hworld f _ hf rfl) hstop ?_
    (fun f hf => hf) ?_
  · intro f f' hf hc
    rw [← Option.some_inj.1 hc]
    exact ⟨hstore f _ _ hf, hstore f _ _ hf⟩
  · intro f f' hf hc
    rw [← Option.some_inj.1 hc]
    exact hstore f _ _ hf

/-- A copy takes the name of a command's file. -/
theorem holds_rename_command {n : ℕ} {target : Name} :
    Holds Orderly (rename n target fun _ => .placed target) (fun _ f => Orderly f) Orderly := by
  refine holds_perform (Q := fun _ f => Orderly f) (fun f names hf => hf.world rfl) (fun f hf => hf) ?_
    (fun f hf => hf) fun f f' hf hc => Option.some_inj.1 hc ▸ hf
  intro f f' hf hc
  obtain ⟨x, -, rfl⟩ := Option.map_eq_some_iff.1 hc
  have hplaced : Orderly ((((f.store target (some x) (f.opened.contains (.temp n))).store (.temp n)
      none false)).note (.placed target)) := by
    refine hf.noted rfl (fun name hname hopen => ?_) (fun name hname hthere => ?_) nofun
      fun _ => trivial
    · have hne : name ≠ .temp n := fun h => not_command_temp n (h ▸ hname)
      by_cases heq : name = target
      · exact Or.inr (congrArg _ heq.symm)
      · have hmoved := (mem_opened_store (some x) (f.opened.contains (.temp n)) heq).2 hopen
        exact Or.inl ((mem_opened_store none false hne).2 hmoved)
    · have hne : name ≠ .temp n := fun h => not_command_temp n (h ▸ hname)
      by_cases heq : name = target
      · exact Or.inr (congrArg _ heq.symm)
      · have hmoved := (present_store none false hne).1 hthere
        exact Or.inl ((present_store _ _ heq).1 hmoved)
  exact ⟨hplaced, hplaced⟩

theorem Orderly.chmod (h : Orderly f) (name : Name) :
    Orderly ({ f with opened := name :: f.opened }.note (.opened name)) := by
  refine h.noted rfl (fun x _ hx => Or.inl (List.mem_cons_of_mem _ hx)) (fun x _ hx => Or.inl hx) ?_
    fun _ => trivial
  intro x hx
  rw [Mark.opened.inj hx]
  exact List.mem_cons_self

theorem There.chmod (h : There s f) (name : Name) :
    There s ({ f with opened := name :: f.opened }.note (.opened name)) :=
  ⟨h.orderly.chmod name, h.json, h.ready⟩

theorem holds_chmod {P : Shelf → Prop} (name : Name)
    (hworld : ∀ f w, P f → w.remote = f.world.remote → P { f with world := w })
    (hstop : ∀ f, P f → Orderly f)
    (hopen : ∀ f, P f → P ({ f with opened := name :: f.opened }.note (.opened name))) :
    Holds P (chmod name) (fun _ f => P f) Orderly := by
  refine holds_perform (Q := fun _ f => P f) (fun f names hf => hworld f _ hf rfl) hstop ?_
    (fun f hf => hf) fun f f' hf hc => Option.some_inj.1 hc ▸ hf
  intro f f' hf hc
  rw [← Option.some_inj.1 hc]
  exact ⟨hopen f hf, hopen f hf⟩

/-- **Placing a file** keeps the invariant. -/
theorem holds_place (target : Name) :
    Holds Orderly (place target) (fun _ f => Orderly f) Orderly := by
  have hworld (f : Shelf) (w : World) (hf : Orderly f) (hw : w.remote = f.world.remote) :
      Orderly { f with world := w } := hf.world hw
  have hdone (b : Bool) : Holds Orderly (Pure.pure b : Shelving Bool) (fun _ f => Orderly f)
      Orderly := Holds.pure fun f hf => hf
  refine Holds.bind (holds_keeping (fun r => keeps_ssh fun w w' h => ?_) hworld fun f hf => hf)
    fun there => ?_
  · split at h
    · rw [Option.some_inj.1 h]
    · cases h
  refine Holds.ite (fun _ => hdone _) fun _ => ?_
  refine Holds.bind (holds_keeping keeps_freshName hworld fun f hf => hf) fun n => ?_
  refine Holds.bind (holds_scp n .file hworld (fun f hf => hf) fun f x mode hf =>
    hf.store (not_command_temp n) x mode) fun uploaded => ?_
  refine Holds.ite (fun _ => hdone _) fun _ => ?_
  refine Holds.bind holds_rename_command fun moved => ?_
  exact Holds.ite (fun _ => hdone _) fun _ =>
    holds_chmod target hworld (fun f hf => hf) fun f hf => hf.chmod target

/-- A test that answers yes has seen the file. -/
theorem holds_remoteExists {P : Shelf → Prop} (name : Name)
    (hworld : ∀ f w, P f → w.remote = f.world.remote → P { f with world := w })
    (hstop : ∀ f, P f → Orderly f) :
    Holds P (within (remoteExists name)) (fun b f => P f ∧ (b = true → f.present name)) Orderly := by
  refine (holds_within (R := fun b r => b = true → (r name).isSome = true) (fun r => ?_) hworld
    hstop).mono (fun _ h => h) fun _ _ h => h
  unfold remoteExists ssh run
  refine Holds.call fun turn w hw => ?_
  obtain ⟨arrivals, outcome⟩ := turn
  have hsame : ((if ((w.arrive arrivals).remote name).isSome then some (w.arrive arrivals) else
      none).getD (w.arrive arrivals)).remote = r := by
    split <;> exact hw
  cases outcome with
  | stopped => exact ⟨nofun, fun _ => hw⟩
  | failed => exact ⟨fun a ha => ⟨hw, fun h => by cases ha; cases h⟩, nofun⟩
  | unheard => exact ⟨fun a ha => ⟨hsame, fun h => by cases ha; cases h⟩, nofun⟩
  | ok =>
    dsimp only
    by_cases hthere : ((w.arrive arrivals).remote name).isSome = true
    · rw [if_pos hthere]
      refine ⟨fun a ha => ⟨hw, fun _ => ?_⟩, nofun⟩
      rw [← hw]
      exact hthere
    · rw [if_neg hthere]
      exact ⟨fun a ha => ⟨hw, fun h => by cases ha; cases h⟩, nofun⟩

/-- **Publishing** answers true only when both files are there. -/
theorem holds_publishRemote (s : Stem) :
    Holds Orderly (publishRemote s) (fun b f => Orderly f ∧ (b = true → There s f)) Orderly := by
  have hworld (f : Shelf) (w : World) (hf : Orderly f) (hw : w.remote = f.world.remote) :
      Orderly { f with world := w } := hf.world hw
  have hdone : Holds Orderly (Pure.pure false : Shelving Bool)
      (fun b f => Orderly f ∧ (b = true → There s f)) Orderly := Holds.pure fun f hf => ⟨hf, nofun⟩
  refine Holds.bind (holds_keeping keeps_remoteBridgeReady hworld fun f hf => hf) fun ready => ?_
  refine Holds.ite (fun _ => hdone) fun _ => ?_
  refine Holds.bind (holds_keeping (fun r => Keeps.get) hworld fun f hf => hf) fun w => ?_
  refine Holds.ite (fun _ => hdone) fun _ => ?_
  refine Holds.bind (holds_place _) fun json => Holds.ite (fun _ => hdone) fun _ => ?_
  refine Holds.bind (holds_place _) fun marker => Holds.ite (fun _ => hdone) fun _ => ?_
  -- the last two tests see the two files
  refine Holds.bind (holds_remoteExists _ hworld fun f hf => hf) fun there => ?_
  refine Holds.ite (fun _ => Holds.pure fun f hf => ⟨hf.1, nofun⟩) fun hthere => ?_
  rw [Bool.not_eq_true', Bool.not_eq_false] at hthere
  refine (holds_remoteExists (P := fun f => Orderly f ∧ f.present (.json s)) (.ready s)
    (fun f w hf hw => ⟨hf.1.world hw, ?_⟩) fun f hf => hf.1).mono (fun f hf => ⟨hf.1, hf.2 hthere⟩)
      fun b f hf => ⟨hf.1.1, fun hb => ⟨hf.1.1, hf.1.2, hf.2 hb⟩⟩
  show (w.remote (.json s)).isSome = true
  rw [hw]
  exact hf.2

/-- **Writing the index** for a command whose files are there. -/
theorem holds_writeRemoteCommandIndex (s : Stem) :
    Holds (There s) (writeRemoteCommandIndex s) (fun _ f => There s f) Orderly := by
  have hworld (f : Shelf) (w : World) (hf : There s f) (hw : w.remote = f.world.remote) :
      There s { f with world := w } := hf.world hw
  have hdone (b : Bool) : Holds (There s) (Pure.pure b : Shelving Bool) (fun _ f => There s f)
      Orderly := Holds.pure fun f hf => hf
  refine Holds.bind (holds_keeping (fun r => Keeps.get) hworld fun f hf => hf.orderly) fun w => ?_
  cases w.stems with
  | none => exact hdone _
  | some l =>
    refine Holds.bind (holds_keeping keeps_remoteBridgeReady hworld fun f hf => hf.orderly)
      fun ready => ?_
    refine Holds.ite (fun _ => hdone _) fun _ => Holds.ite (fun _ => hdone _) fun _ => ?_
    refine Holds.bind (holds_keeping keeps_freshName hworld fun f hf => hf.orderly) fun n => ?_
    refine Holds.bind (holds_scp n _ hworld (fun f hf => hf.orderly) fun f x mode hf =>
      hf.store (not_command_temp n) x mode) fun uploaded => ?_
    refine Holds.ite (fun _ => hdone _) fun _ => ?_
    refine Holds.bind (Q := fun _ f => There s f) ?_ fun moved => Holds.ite (fun _ => hdone _)
      fun _ => holds_chmod _ hworld (fun f hf => hf.orderly) fun f hf => hf.chmod _
    refine holds_perform (Q := fun _ f => There s f) (fun f names hf => hworld f _ hf rfl)
      (fun f hf => hf.orderly) ?_ (fun f hf => hf) fun f f' hf hc => Option.some_inj.1 hc ▸ hf
    intro f f' hf hc
    obtain ⟨x, -, rfl⟩ := Option.map_eq_some_iff.1 hc
    have hmoved := (hf.store not_command_index (some x) (f.opened.contains (.temp n))).store
      (not_command_temp n) none false
    have hlisted : There s (note _ (.listed s (Shelf.served _ s))) :=
      ⟨hmoved.orderly.noted rfl (fun _ _ h => Or.inl h) (fun _ _ h => Or.inl h) nofun
        fun hopens => hmoved.served hopens nofun, hmoved.json, hmoved.ready⟩
    exact ⟨hlisted, hlisted⟩

theorem holds_archiveLocalCommand (s : Stem) :
    Holds (There s) (archiveLocalCommand s) (fun _ f => There s f) Orderly := by
  have hfile (name : PyText) : Holds (There s) (archiveFile s name) (fun _ f => There s f)
      Orderly := by
    refine holds_perform (Q := fun _ f => There s f) (fun f names hf => hf.world rfl)
      (fun f hf => hf.orderly) ?_ (fun f hf => hf) fun f f' hf hc => Option.some_inj.1 hc ▸ hf
    intro f f' hf hc
    rw [← Option.some_inj.1 hc]
    have harchived : There s ({ f with world := { f.world with
        folder := f.world.folder.filter (· != name), archived := s :: f.world.archived } }.note
          (.archived s (f.served s))) :=
      ⟨hf.orderly.noted rfl (fun _ _ h => Or.inl h) (fun _ _ h => Or.inl h) nofun
        fun hopens => hf.served hopens nofun, hf.json, hf.ready⟩
    exact ⟨harchived, harchived⟩
  refine Holds.bind (hfile _) fun moved => Holds.ite (fun _ => ?_) fun _ =>
    Holds.pure fun f hf => hf
  exact Holds.bind (hfile _) fun _ => Holds.pure fun f hf => hf

theorem holds_recordOne (s : Stem) :
    Holds (There s) (recordOne s) (fun _ f => Orderly f) Orderly := by
  have hworld (f : Shelf) (w : World) (hf : There s f) (hw : w.remote = f.world.remote) :
      There s { f with world := w } := hf.world hw
  have harchive : Holds (There s) (do archiveLocalCommand s; Pure.pure true)
      (fun _ f => Orderly f) Orderly :=
    Holds.bind (holds_archiveLocalCommand s) fun _ => Holds.pure fun f hf => hf.orderly
  refine Holds.bind (holds_keeping (fun r => Keeps.get) hworld fun f hf => hf.orderly) fun w => ?_
  cases w.stems with
  | none => exact Holds.pure fun f hf => hf.orderly
  | some l =>
    refine Holds.ite (fun _ => harchive) fun _ => Holds.ite
      (fun _ => Holds.pure fun f hf => hf.orderly) fun _ => ?_
    refine Holds.bind (holds_keeping (fun r => Keeps.modify fun w hw => hw) hworld
      fun f hf => hf.orderly) fun _ => ?_
    refine Holds.bind (holds_writeRemoteCommandIndex s) fun written => ?_
    refine Holds.ite (fun _ => ?_) fun _ => harchive
    exact Holds.bind (holds_keeping (fun r => Keeps.modify fun w hw => hw) hworld
      fun f hf => hf.orderly) fun _ => Holds.pure fun f hf => hf.orderly

theorem holds_pushAll (names : List PyText) :
    Holds Orderly (pushAll names) (fun _ f => Orderly f) Orderly := by
  induction names with
  | nil => exact Holds.pure fun f hf => hf
  | cons name rest ih =>
    have hone : Holds Orderly (pushOne name) (fun _ f => Orderly f) Orderly := by
      refine Holds.ite (fun _ => Holds.pure fun f hf => hf) fun _ => ?_
      refine Holds.bind (holds_publishRemote (stemOf name)) fun there => ?_
      refine Holds.ite (fun _ => Holds.pure fun f hf => hf.1) fun hthere => ?_
      rw [Bool.not_eq_true', Bool.not_eq_false] at hthere
      exact (holds_recordOne _).mono (fun f hf => hf.2 hthere) fun _ _ h => h
    exact Holds.bind hone fun sent => Holds.bind ih fun count => Holds.pure fun f hf => hf

/-- **A pass keeps the invariant**, whatever fails and wherever it is
stopped. -/
theorem holds_push : Holds Orderly push (fun _ f => Orderly f) Orderly := by
  have hworld (f : Shelf) (w : World) (hf : Orderly f) (hw : w.remote = f.world.remote) :
      Orderly { f with world := w } := hf.world hw
  refine Holds.bind (holds_keeping keeps_loadRemoteCommandIndex hworld fun f hf => hf)
    fun loaded => Holds.ite (fun _ => Holds.pure fun f hf => hf) fun _ => ?_
  exact Holds.bind (holds_keeping (fun r => Keeps.get) hworld fun f hf => hf) fun w =>
    holds_pushAll _

/-! ## Runs -/

theorem Orderly.consume (h : Orderly f) (s : Stem) : Orderly (f.consume s) := by
  have hgone := remote_consume_self f.world s
  -- what is there still is neither of the two files
  have hother (name : Name) (hthere : (f.consume s).present name) :
      name ≠ .json s ∧ name ≠ .ready s := by
    unfold present Shelf.consume at hthere
    dsimp only at hthere
    constructor
    · rintro rfl
      rw [hgone.1] at hthere
      cases hthere
    · rintro rfl
      rw [hgone.2] at hthere
      cases hthere
  refine ⟨fun hopens name hname hthere => ?_, h.fair⟩
  obtain ⟨hjson, hready⟩ := hother name hthere
  have hbefore : f.present name := by
    unfold present Shelf.consume at hthere
    unfold present
    dsimp only at hthere
    rwa [remote_consume_of_ne f.world hjson hready] at hthere
  refine (h.files hopens name hname hbefore).imp (fun hopen => ?_) fun hhead => hhead
  refine List.mem_filter.2 ⟨hopen, ?_⟩
  rw [decide_eq_true hjson, decide_eq_true hready]
  rfl

theorem orderly_step (h : Orderly f) (op : Op) : Orderly (f.step op) := by
  cases op with
  | pass turns =>
    have hpass := holds_push f turns h
    show Orderly (afterPass (push f turns))
    generalize push f turns = r at hpass ⊢
    obtain ⟨_ | _, f'⟩ := r
    · exact hpass.world rfl
    · exact hpass
  | arrive names => exact h.world rfl
  | consume s =>
    unfold step
    dsimp only
    split
    · exact h.consume s
    · exact h

/-- A relay over files that can be read, with nothing noted. -/
structure Fresh (f : Shelf) : Prop where
  opened : ∀ name, IsCommand name → f.present name → name ∈ f.opened
  log : f.log = []

/-- **Published commands can be read.** In every run in which each copy that
takes a command's name is opened before anything else is placed, listed or
archived, a stem comes into the index and its command into the archive only
while the game server can read both files. -/
theorem published_readable (f : Shelf) (hf : Fresh f) (ops : List Op)
    (hopens : Opens (Machine.run step f ops).log) :
    ∀ s readable, .listed s readable ∈ (Machine.run step f ops).log ∨
      .archived s readable ∈ (Machine.run step f ops).log → readable = true := by
  have hstart : Orderly f := by
    refine ⟨fun _ name hname hthere => Or.inl (hf.opened name hname hthere), fun _ mark hmark => ?_⟩
    rw [hf.log] at hmark
    cases hmark
  have hstep : ∀ (f : Shelf) (op : Op), Orderly f → Orderly (f.step op) := fun f op h =>
    orderly_step h op
  have hend := Machine.invariant hstep hstart ops
  rintro s readable (h | h)
  · exact hend.fair hopens _ h
  · exact hend.fair hopens _ h

/-! ## A mode that is not set -/

/-- One command, and an empty index on the game host. -/
def oneCommand : Shelf where
  world :=
    { folder := [jsonName (PyText.lit "a"), readyName (PyText.lit "a")]
      archived := []
      published := [jsonName (PyText.lit "a"), readyName (PyText.lit "a")]
      remote := fun name => if name = .index then some (.stems []) else none
      consumed := []
      remoteReady := false
      stems := none
      serial := 0 }
  opened := []
  log := []

theorem fresh_oneCommand : Fresh oneCommand := by
  refine ⟨fun name hname hthere => ?_, rfl⟩
  have hne : name ≠ .index := fun h => not_command_index (h ▸ hname)
  have hnone : oneCommand.world.remote name = none := if_neg hne
  unfold present at hthere
  rw [hnone] at hthere
  cases hthere

/-- A pass in which one call goes wrong. -/
def passBut (n : ℕ) (outcome : Outcome) : Op :=
  .pass fun i => ⟨[], if i = n then outcome else .ok⟩

/-- A pass in which all calls work. -/
def passWell : Op := .pass fun _ => ⟨[], .ok⟩

/-- Without a failure the command is listed with files that can be read. -/
theorem published_readable_well :
    Mark.listed (PyText.lit "a") true ∈ (Machine.run step oneCommand [passWell]).log ∧
      ∀ s readable, .listed s readable ∈ (Machine.run step oneCommand [passWell]).log ∨
        .archived s readable ∈ (Machine.run step oneCommand [passWell]).log → readable = true :=
  ⟨by decide +kernel, published_readable oneCommand fresh_oneCommand [passWell] (by decide +kernel)⟩

/-- **A failed `chmod` is not made up for**: the next pass finds the file by
its name, lists the command and archives it. -/
theorem unreadable_listed : Fresh oneCommand ∧
    Mark.listed (PyText.lit "a") false ∈
      (Machine.run step oneCommand [passBut 5 .failed, passWell]).log ∧
    Mark.archived (PyText.lit "a") false ∈
      (Machine.run step oneCommand [passBut 5 .failed, passWell]).log :=
  ⟨fresh_oneCommand, by decide +kernel, by decide +kernel⟩

end Shelf

end Relay

end GoblinZomboid
