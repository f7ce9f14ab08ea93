import GoblinZomboid.Relay.Push
/-!
# Push safety

Whatever calls fail and wherever the relay is stopped, a stem in the
remote index has both its files on the game host, whole, and a local
command is archived only under a listed stem. Both are read off one
invariant, which every call keeps.
-/

namespace GoblinZomboid

namespace Relay

open Script (Holds)

/-- Both files of a command are on the game host, whole. -/
structure Complete (w : World) (s : Stem) : Prop where
  json : w.remote (.json s) = some .file
  ready : w.remote (.ready s) = some .file

/-- A command's files are complete, unless the game host took them away. -/
def Served (w : World) (s : Stem) : Prop := s ∈ w.consumed ∨ Complete w s

/-- **The invariant.** What has a command's name is whole; what is listed or
remembered is served; what is archived is listed, and remembered by a relay
that remembers anything; and no command is lost on the way. -/
structure Sound (w : World) : Prop where
  json : ∀ s x, w.remote (.json s) = some x → x = .file
  ready : ∀ s x, w.remote (.ready s) = some x → x = .file
  index : ∃ l, w.remote .index = some (.stems l) ∧ wellFormed l = true
  listed : ∀ s ∈ w.listed, Served w s
  memory : ∀ m, w.stems = some m →
    wellFormed m = true ∧ (∀ s ∈ m, Served w s) ∧ ∀ s ∈ w.archived, s ∈ m
  archived : ∀ s ∈ w.archived, s ∈ w.listed
  kept : ∀ s, jsonName s ∈ w.published → jsonName s ∈ w.folder ∨ s ∈ w.archived

/-- The relay remembers only what is listed. -/
def Settled (w : World) : Prop := ∀ m, w.stems = some m → ∀ s ∈ m, s ∈ w.listed

/-! ## What a call leaves alone -/

/-- The index, the memory and the archive are those of `w₀`, and what was
served there is served. -/
structure Same (w₀ w : World) : Prop where
  index : w.remote .index = w₀.remote .index
  stems : w.stems = w₀.stems
  archived : w.archived = w₀.archived
  served : ∀ s, Served w₀ s → Served w s

variable {w₀ w : World}

theorem Same.refl (w : World) : Same w w := ⟨rfl, rfl, rfl, fun _ h => h⟩

theorem Same.listed (h : Same w₀ w) : w.listed = w₀.listed := by
  unfold World.listed
  rw [h.index]

theorem Same.settled (h : Same w₀ w) (hs : Settled w₀) : Settled w := by
  intro m hm s hmem
  rw [h.stems] at hm
  rw [h.listed]
  exact hs m hm s hmem

/-- Sound and the same as `w₀`. -/
structure Unmoved (w₀ w : World) : Prop where
  sound : Sound w
  same : Same w₀ w

theorem jsonName_injective : Function.Injective jsonName := fun _ _ h => List.append_cancel_right h

theorem jsonName_ne_readyName (s s' : Stem) : jsonName s ≠ readyName s' := by
  intro h
  have hlast := congrArg List.getLast? h
  simp [jsonName, readyName, PyText.lit] at hlast

theorem Served.congr {w' : World} {s : Stem} (h : Served w s) (hremote : w'.remote = w.remote)
    (hconsumed : w'.consumed = w.consumed) : Served w' s := by
  unfold Served
  rw [hconsumed]
  refine h.imp id fun c => ⟨?_, ?_⟩
  · rw [hremote]
    exact c.json
  · rw [hremote]
    exact c.ready

/-- What the invariant does not look at may change, and local files may
appear. -/
theorem Sound.congr {w' : World} (h : Sound w) (hremote : w'.remote = w.remote)
    (hconsumed : w'.consumed = w.consumed) (hstems : w'.stems = w.stems)
    (harchived : w'.archived = w.archived)
    (hkept : ∀ s, jsonName s ∈ w'.published → jsonName s ∈ w'.folder ∨ s ∈ w'.archived) :
    Sound w' := by
  have hlisted : w'.listed = w.listed := by
    unfold World.listed
    rw [hremote]
  refine ⟨?_, ?_, ?_, ?_, ?_, ?_, hkept⟩
  · rw [hremote]
    exact h.json
  · rw [hremote]
    exact h.ready
  · rw [hremote]
    exact h.index
  · rw [hlisted]
    exact fun s hs => (h.listed s hs).congr hremote hconsumed
  · rw [hstems, harchived]
    intro m hm
    obtain ⟨hwell, hserved, hall⟩ := h.memory m hm
    exact ⟨hwell, fun s hs => (hserved s hs).congr hremote hconsumed, hall⟩
  · rw [hlisted, harchived]
    exact h.archived

theorem Unmoved.congr {w' : World} (h : Unmoved w₀ w) (hremote : w'.remote = w.remote)
    (hconsumed : w'.consumed = w.consumed) (hstems : w'.stems = w.stems)
    (harchived : w'.archived = w.archived)
    (hkept : ∀ s, jsonName s ∈ w'.published → jsonName s ∈ w'.folder ∨ s ∈ w'.archived) :
    Unmoved w₀ w' := by
  refine ⟨h.sound.congr hremote hconsumed hstems harchived hkept, ?_, ?_, ?_, ?_⟩
  · rw [hremote]
    exact h.same.index
  · rw [hstems]
    exact h.same.stems
  · rw [harchived]
    exact h.same.archived
  · exact fun s hs => (h.same.served s hs).congr hremote hconsumed

theorem kept_arrive (h : Sound w) (names : List PyText) (s : Stem)
    (hs : jsonName s ∈ (w.arrive names).published) :
    jsonName s ∈ (w.arrive names).folder ∨ s ∈ w.archived := by
  rw [World.arrive, List.mem_append] at hs
  rcases hs with hs | hs
  · exact (h.kept s hs).imp (fun hf => List.mem_append_left _ hf) id
  · by_cases hf : jsonName s ∈ w.folder
    · exact .inl (List.mem_append_left _ hf)
    · refine .inl (List.mem_append_right _ (List.mem_dedup.2 (List.mem_filter.2 ⟨hs, ?_⟩)))
      simpa using hf

theorem Sound.arrive (h : Sound w) (names : List PyText) : Sound (w.arrive names) :=
  h.congr rfl rfl rfl rfl (kept_arrive h names)

theorem Unmoved.arrive (h : Unmoved w₀ w) (names : List PyText) : Unmoved w₀ (w.arrive names) :=
  h.congr rfl rfl rfl rfl (kept_arrive h.sound names)

/-- A change of remote files that gives commands whole files only. -/
theorem Served.put {s : Stem} (h : Served w s) {name : Name} {x : Option Stored}
    (hfile : ∀ s, name = .json s ∨ name = .ready s → x = some .file) :
    Served (w.put name x) s := by
  refine h.imp id fun c => ⟨?_, ?_⟩
  · by_cases hne : Name.json s = name
    · rw [hne, World.remote_put_self]
      exact hfile s (.inl hne.symm)
    · rw [World.remote_put_of_ne _ _ _ hne]
      exact c.json
  · by_cases hne : Name.ready s = name
    · rw [hne, World.remote_put_self]
      exact hfile s (.inr hne.symm)
    · rw [World.remote_put_of_ne _ _ _ hne]
      exact c.ready

/-- Such a change, outside the index. -/
theorem Sound.put (h : Sound w) {name : Name} {x : Option Stored} (hindex : name ≠ .index)
    (hfile : ∀ s, name = .json s ∨ name = .ready s → x = some .file) : Sound (w.put name x) := by
  have hlisted : (w.put name x).listed = w.listed := by
    unfold World.listed
    rw [World.remote_put_of_ne _ _ _ hindex.symm]
  refine ⟨?_, ?_, ?_, ?_, ?_, ?_, h.kept⟩
  · intro s y hy
    by_cases hne : Name.json s = name
    · rw [hne, World.remote_put_self, hfile s (.inl hne.symm)] at hy
      exact (Option.some_inj.1 hy).symm
    · rw [World.remote_put_of_ne _ _ _ hne] at hy
      exact h.json s y hy
  · intro s y hy
    by_cases hne : Name.ready s = name
    · rw [hne, World.remote_put_self, hfile s (.inr hne.symm)] at hy
      exact (Option.some_inj.1 hy).symm
    · rw [World.remote_put_of_ne _ _ _ hne] at hy
      exact h.ready s y hy
  · rw [World.remote_put_of_ne _ _ _ hindex.symm]
    exact h.index
  · intro s hs
    rw [hlisted] at hs
    exact (h.listed s hs).put hfile
  · intro m hm
    obtain ⟨hwell, hall, harchived⟩ := h.memory m hm
    exact ⟨hwell, fun s hs => (hall s hs).put hfile, harchived⟩
  · intro s hs
    rw [hlisted]
    exact h.archived s hs

theorem Unmoved.put (h : Unmoved w₀ w) {name : Name} {x : Option Stored} (hindex : name ≠ .index)
    (hfile : ∀ s, name = .json s ∨ name = .ready s → x = some .file) :
    Unmoved w₀ (w.put name x) := by
  refine ⟨h.sound.put hindex hfile, ?_, h.same.stems, h.same.archived, fun s hs => ?_⟩
  · rw [World.remote_put_of_ne _ _ _ hindex.symm]
    exact h.same.index
  · exact (h.same.served s hs).put hfile

theorem Sound.restart (h : Sound w) : Sound w.restart where
  json := h.json
  ready := h.ready
  index := h.index
  listed := fun s hs => (h.listed s hs).imp id fun c => ⟨c.json, c.ready⟩
  memory := fun _ hm => nomatch hm
  archived := h.archived
  kept := h.kept

theorem settled_restart (w : World) : Settled w.restart := fun _ hm => nomatch hm

/-! ## The calls -/

/-- The rule of a call: what it needs and gives survives local arrivals,
and each way it can go is looked at once. -/
theorem holds_run {P : World → Prop} {Q : Bool → World → Prop}
    {command broken : World → Option World} (harrive : ∀ w names, P w → P (w.arrive names))
    (hstop : ∀ w, P w → Sound w) (hok : ∀ w w', P w → command w = some w' → Q true w' ∧ Q false w')
    (herr : ∀ w, P w → Q false w) (hbroken : ∀ w w', P w → broken w = some w' → Q false w') :
    Holds P (run command broken) Q Sound := by
  refine Holds.call fun turn w hw => ?_
  have hw' := harrive w turn.arrivals hw
  obtain ⟨arrivals, outcome⟩ := turn
  cases outcome with
  | stopped => exact ⟨nofun, fun _ => hstop _ hw'⟩
  | failed =>
    refine ⟨fun a ha => ?_, nofun⟩
    obtain rfl := Option.some_inj.1 ha
    cases hb : broken (w.arrive arrivals) with
    | none => simpa [hb] using herr _ hw'
    | some w' => simpa [hb] using hbroken _ w' hw' hb
  | unheard =>
    refine ⟨fun a ha => ?_, nofun⟩
    obtain rfl := Option.some_inj.1 ha
    cases hc : command (w.arrive arrivals) with
    | none => simpa [hc] using herr _ hw'
    | some w' => simpa [hc] using (hok _ w' hw' hc).2
  | ok =>
    cases hc : command (w.arrive arrivals) with
    | none =>
      refine ⟨fun a ha => ?_, ?_⟩
      · simp only [hc] at ha ⊢
        obtain rfl := Option.some_inj.1 ha
        exact herr _ hw'
      · simp [hc]
    | some w' =>
      refine ⟨fun a ha => ?_, ?_⟩
      · simp only [hc] at ha ⊢
        obtain rfl := Option.some_inj.1 ha
        exact (hok _ w' hw' hc).1
      · simp [hc]

/-- A call that changes nothing. -/
theorem holds_query {P : World → Prop} {command : World → Option World} {Q : World → Prop}
    (harrive : ∀ w names, P w → P (w.arrive names)) (hstop : ∀ w, P w → Sound w)
    (hsame : ∀ w w', command w = some w' → w' = w)
    (hok : ∀ w, P w → command w = some w → Q w) :
    Holds P (ssh command) (fun r w => P w ∧ (r = true → Q w)) Sound := by
  refine holds_run harrive hstop ?_ (fun w hw => ⟨hw, nofun⟩) ?_
  · intro w w' hw hc
    obtain rfl := hsame w w' hc
    exact ⟨⟨hw, fun _ => hok _ hw hc⟩, hw, nofun⟩
  · intro w w' hw hb
    obtain rfl := Option.some_inj.1 hb
    exact ⟨hw, nofun⟩

theorem holds_remoteExists {P : World → Prop} {name : Name}
    (harrive : ∀ w names, P w → P (w.arrive names)) (hstop : ∀ w, P w → Sound w) :
    Holds P (remoteExists name) (fun r w => P w ∧ (r = true → (w.remote name).isSome = true))
      Sound := by
  refine holds_query harrive hstop ?_ ?_
  · intro w w' h
    split at h
    · exact (Option.some_inj.1 h).symm
    · cases h
  · intro w _ h
    split at h
    · assumption
    · cases h

theorem holds_chmod {P : World → Prop} (harrive : ∀ w names, P w → P (w.arrive names))
    (hstop : ∀ w, P w → Sound w) : Holds P chmod (fun _ w => P w) Sound := by
  refine (holds_query (Q := fun _ => True) harrive hstop ?_ fun _ _ _ => trivial).mono
    (fun _ h => h) fun _ _ h => h.1
  intro w w' h
  exact (Option.some_inj.1 h).symm

/-- A copy under a temporary name. -/
theorem holds_scp {x : Stored} {n : ℕ} :
    Holds (Unmoved w₀) (scp n x)
      (fun r w => Unmoved w₀ w ∧ (r = true → w.remote (.temp n) = some x)) Sound := by
  have hput (w : World) (hw : Unmoved w₀ w) (y : Stored) : Unmoved w₀ (w.put (.temp n) (some y)) :=
    hw.put nofun (fun s hs => by rcases hs with hs | hs <;> cases hs)
  refine holds_run (fun w names hw => hw.arrive names) (fun w hw => hw.sound) ?_
    (fun w hw => ⟨hw, nofun⟩) ?_
  · intro w w' hw hc
    obtain rfl := Option.some_inj.1 hc
    exact ⟨⟨hput w hw x, fun _ => World.remote_put_self _ _ _⟩, hput w hw x, nofun⟩
  · intro w w' hw hb
    obtain rfl := Option.some_inj.1 hb
    exact ⟨hput w hw .part, nofun⟩

/-- Renaming a whole copy to a command's file. -/
theorem holds_rename {n : ℕ} {target : Name} (hindex : target ≠ .index) :
    Holds (fun w => Unmoved w₀ w ∧ w.remote (.temp n) = some .file) (rename n target)
      (fun _ w => Unmoved w₀ w) Sound := by
  unfold rename ssh
  refine holds_run (P := fun w => Unmoved w₀ w ∧ w.remote (.temp n) = some .file)
    (Q := fun _ w => Unmoved w₀ w) (fun w names hw => ⟨hw.1.arrive names, hw.2⟩)
    (fun w hw => hw.1.sound) ?_ (fun w hw => hw.1) ?_
  · rintro w w' ⟨hw, htemp⟩ hc
    rw [htemp, Option.map_some, Option.some_inj] at hc
    have hmoved : Unmoved w₀ w' := by
      rw [← hc]
      refine (hw.put hindex fun _ _ => rfl).put nofun fun s hs => ?_
      rcases hs with hs | hs <;> cases hs
    exact ⟨hmoved, hmoved⟩
  · rintro w w' ⟨hw, -⟩ hb
    obtain rfl := Option.some_inj.1 hb
    exact hw

theorem holds_freshName : Holds (Unmoved w₀) freshName (fun _ w => Unmoved w₀ w) Sound := by
  refine Holds.bind (Q := fun _ w => Unmoved w₀ w) (Holds.get fun w hw => hw) fun v => ?_
  refine Holds.bind (Q := fun _ w => Unmoved w₀ w) (Holds.modify fun w hw => ?_) fun _ =>
    Holds.pure fun w hw => hw
  exact hw.congr rfl rfl rfl rfl hw.sound.kept

theorem holds_remoteBridgeReady :
    Holds (Unmoved w₀) remoteBridgeReady (fun _ w => Unmoved w₀ w) Sound := by
  refine Holds.bind (Q := fun _ w => Unmoved w₀ w) (Holds.get fun w hw => hw) fun v => ?_
  refine Holds.ite (fun _ => Holds.pure fun w hw => hw) fun _ => ?_
  refine Holds.bind (Q := fun _ w => Unmoved w₀ w)
    (holds_chmod (fun w names hw => hw.arrive names) fun w hw => hw.sound) fun ready => ?_
  refine Holds.ite (fun _ => ?_) fun _ => Holds.pure fun w hw => hw
  refine Holds.bind (Q := fun _ w => Unmoved w₀ w) (Holds.modify fun w hw => ?_) fun _ =>
    Holds.pure fun w hw => hw
  exact hw.congr rfl rfl rfl rfl hw.sound.kept

/-- **Placing a file** changes nothing that is there. -/
theorem holds_place {target : Name} (hindex : target ≠ .index) :
    Holds (Unmoved w₀) (place target) (fun _ w => Unmoved w₀ w) Sound := by
  have hdone : Holds (Unmoved w₀) (Pure.pure false : Push Bool) (fun _ w => Unmoved w₀ w) Sound :=
    Holds.pure fun w hw => hw
  refine Holds.bind (Q := fun _ w => Unmoved w₀ w)
    ((holds_remoteExists (fun w names hw => hw.arrive names) fun w hw => hw.sound).mono
      (fun _ h => h) fun _ _ h => h.1) fun there => ?_
  refine Holds.ite (fun _ => Holds.pure fun w hw => hw) fun _ => ?_
  refine Holds.bind holds_freshName fun n => ?_
  refine Holds.bind holds_scp fun uploaded => ?_
  refine Holds.ite (fun _ => Holds.pure fun w hw => hw.1) fun huploaded => ?_
  rw [Bool.not_eq_true', Bool.not_eq_false] at huploaded
  refine Holds.bind ((holds_rename hindex).mono (fun w hw => ⟨hw.1, hw.2 huploaded⟩)
    fun _ _ h => h) fun moved => ?_
  refine Holds.ite (fun _ => hdone) fun _ => ?_
  exact holds_chmod (fun w names hw => hw.arrive names) fun w hw => hw.sound

/-- **Publishing** answers true only when both files are there. -/
theorem holds_publishRemote {s : Stem} :
    Holds (Unmoved w₀) (publishRemote s)
      (fun r w => Unmoved w₀ w ∧ (r = true → Complete w s)) Sound := by
  have hdone : Holds (Unmoved w₀) (Pure.pure false : Push Bool)
      (fun r w => Unmoved w₀ w ∧ (r = true → Complete w s)) Sound :=
    Holds.pure fun w hw => ⟨hw, nofun⟩
  refine Holds.bind holds_remoteBridgeReady fun ready => ?_
  refine Holds.ite (fun _ => hdone) fun _ => ?_
  refine Holds.bind (Q := fun _ w => Unmoved w₀ w) (Holds.get fun w hw => hw) fun v => ?_
  refine Holds.ite (fun _ => hdone) fun _ => ?_
  refine Holds.bind (holds_place nofun) fun json => ?_
  refine Holds.ite (fun _ => hdone) fun _ => ?_
  refine Holds.bind (holds_place nofun) fun marker => ?_
  refine Holds.ite (fun _ => hdone) fun _ => ?_
  -- The last two tests see the two files.
  refine Holds.bind (holds_remoteExists (fun w names hw => hw.arrive names) fun w hw => hw.sound)
    fun there => ?_
  refine Holds.ite (fun _ => Holds.pure fun w hw => ⟨hw.1, nofun⟩) fun hthere => ?_
  rw [Bool.not_eq_true', Bool.not_eq_false] at hthere
  refine (holds_remoteExists (P := fun w => Unmoved w₀ w ∧ (w.remote (.json s)).isSome = true)
    (fun w names hw => ⟨hw.1.arrive names, hw.2⟩) fun w hw => hw.1.sound).mono
      (fun w hw => ⟨hw.1, hw.2 hthere⟩) ?_
  rintro r w ⟨⟨hw, hjson⟩, hready⟩
  refine ⟨hw, fun hr => ?_⟩
  obtain ⟨x, hx⟩ := Option.isSome_iff_exists.1 hjson
  obtain ⟨y, hy⟩ := Option.isSome_iff_exists.1 (hready hr)
  refine ⟨?_, ?_⟩
  · rw [hx, hw.sound.json s x hx]
  · rw [hy, hw.sound.ready s y hy]

/-! ## The index -/

/-- While the index is written: it is that of `w₀`, or the new one. -/
structure Writing (w₀ : World) (l : List Stem) (w : World) : Prop where
  sound : Sound w
  stems : w.stems = some l
  archived : w.archived = w₀.archived
  index : w.remote .index = w₀.remote .index ∨ w.remote .index = some (.stems l)

theorem Writing.arrive {l : List Stem} (h : Writing w₀ l w) (names : List PyText) :
    Writing w₀ l (w.arrive names) := ⟨h.sound.arrive names, h.stems, h.archived, h.index⟩

theorem listed_of_index {l : List Stem} (h : w.remote .index = some (.stems l)) : w.listed = l := by
  unfold World.listed
  rw [h]

/-- The index is replaced by what the relay remembers. -/
theorem Sound.putIndex {l : List Stem} (h : Sound w) (hl : w.stems = some l) :
    Sound (w.put .index (some (.stems l))) := by
  obtain ⟨hwell, hserved, harchived⟩ := h.memory l hl
  have hlisted : (w.put .index (some (.stems l))).listed = l :=
    listed_of_index (World.remote_put_self _ _ _)
  have hfile : ∀ s, Name.index = .json s ∨ Name.index = .ready s →
      some (Stored.stems l) = some .file := by
    intro s hs
    rcases hs with hs | hs <;> cases hs
  refine ⟨h.json, h.ready, ⟨l, World.remote_put_self _ _ _, hwell⟩, ?_, ?_, ?_, h.kept⟩
  · intro s hs
    rw [hlisted] at hs
    exact (hserved s hs).put hfile
  · intro m hm
    obtain ⟨hwell', hserved', harchived'⟩ := h.memory m hm
    exact ⟨hwell', fun s hs => (hserved' s hs).put hfile, harchived'⟩
  · intro s hs
    rw [hlisted]
    exact harchived s hs

/-- **Writing the index** answers true only when it is written. -/
theorem holds_writeRemoteCommandIndex {l : List Stem} (hl : w₀.stems = some l) :
    Holds (Unmoved w₀) writeRemoteCommandIndex
      (fun r w => Writing w₀ l w ∧ (r = true → w.remote .index = some (.stems l))) Sound := by
  have hwriting (w : World) (hw : Unmoved w₀ w) : Writing w₀ l w :=
    ⟨hw.sound, hw.same.stems.trans hl, hw.same.archived, .inl hw.same.index⟩
  have hdone : Holds (Unmoved w₀) (Pure.pure false : Push Bool)
      (fun r w => Writing w₀ l w ∧ (r = true → w.remote .index = some (.stems l))) Sound :=
    Holds.pure fun w hw => ⟨hwriting w hw, nofun⟩
  refine Holds.bind (Q := fun v w => v.stems = some l ∧ Unmoved w₀ w)
    (Holds.get fun w hw => ⟨hw.same.stems.trans hl, hw⟩) fun v => ?_
  refine Holds.start fun w₁ hw₁ => ?_
  obtain ⟨hv, hw₁⟩ := hw₁
  rw [hv]
  refine Holds.mono (P := Unmoved w₀) ?_ (fun w hw => hw ▸ hw₁) fun _ _ h => h
  refine Holds.bind holds_remoteBridgeReady fun ready => ?_
  refine Holds.ite (fun _ => hdone) fun _ => ?_
  refine Holds.ite (fun _ => hdone) fun _ => ?_
  refine Holds.bind holds_freshName fun n => ?_
  refine Holds.bind holds_scp fun uploaded => ?_
  refine Holds.ite (fun _ => Holds.pure fun w hw => ⟨hwriting w hw.1, nofun⟩) fun huploaded => ?_
  rw [Bool.not_eq_true', Bool.not_eq_false] at huploaded
  have hrename : Holds (fun w => Unmoved w₀ w ∧ w.remote (.temp n) = some (.stems l))
      (rename n .index)
      (fun r w => Writing w₀ l w ∧ (r = true → w.remote .index = some (.stems l))) Sound := by
    unfold rename ssh
    refine holds_run (P := fun w => Unmoved w₀ w ∧ w.remote (.temp n) = some (.stems l))
      (Q := fun r w => Writing w₀ l w ∧ (r = true → w.remote .index = some (.stems l)))
      (fun w names hw => ⟨hw.1.arrive names, hw.2⟩) (fun w hw => hw.1.sound) ?_
      (fun w hw => ⟨hwriting w hw.1, nofun⟩) ?_
    · rintro w w' ⟨hw, htemp⟩ hc
      rw [htemp, Option.map_some, Option.some_inj] at hc
      have hindex : w'.remote .index = some (.stems l) := by
        have hne : Name.index ≠ .temp n := nofun
        rw [← hc, World.remote_put_of_ne _ _ _ hne, World.remote_put_self]
      have hw' : Writing w₀ l w' := by
        refine ⟨?_, ?_, ?_, .inr hindex⟩
        · rw [← hc]
          refine (hw.sound.putIndex (hw.same.stems.trans hl)).put nofun fun s hs => ?_
          rcases hs with hs | hs <;> cases hs
        · rw [← hc]
          exact hw.same.stems.trans hl
        · rw [← hc]
          exact hw.same.archived
      exact ⟨⟨hw', fun _ => hindex⟩, hw', nofun⟩
    · rintro w w' ⟨hw, -⟩ hb
      obtain rfl := Option.some_inj.1 hb
      exact ⟨hwriting w hw, nofun⟩
  refine Holds.bind (hrename.mono (fun w hw => ⟨hw.1, hw.2 huploaded⟩) fun _ _ h => h)
    fun moved => ?_
  refine Holds.ite (fun _ => Holds.pure fun w hw => ⟨hw.1, nofun⟩) fun hmoved => ?_
  rw [Bool.not_eq_true', Bool.not_eq_false] at hmoved
  refine (holds_chmod (P := fun w => Writing w₀ l w ∧ w.remote .index = some (.stems l))
    (fun w names hw => ⟨hw.1.arrive names, hw.2⟩) fun w hw => hw.1.sound).mono
      (fun w hw => ⟨hw.1, hw.2 hmoved⟩) fun _ w hw => ⟨hw.1, fun _ => hw.2⟩

/-! ## The archive -/

/-- The command may be archived: it is listed, and remembered. -/
structure Archivable (s : Stem) (w : World) : Prop where
  sound : Sound w
  settled : Settled w
  listed : s ∈ w.listed
  memory : ∀ m, w.stems = some m → s ∈ m

theorem holds_archiveFile {s : Stem} {name : PyText}
    (hname : ∀ s', jsonName s' = name → s' = s) :
    Holds (Archivable s) (archiveFile s name) (fun _ w => Archivable s w) Sound := by
  have harchive : ∀ w : World, Archivable s w → Archivable s
      { w with folder := w.folder.filter (· != name), archived := s :: w.archived } := by
    intro w hw
    refine ⟨⟨hw.sound.json, hw.sound.ready, hw.sound.index, ?_, ?_, ?_, ?_⟩, hw.settled,
      hw.listed, hw.memory⟩
    · exact fun s hs => (hw.sound.listed s hs).congr rfl rfl
    · intro m hm
      obtain ⟨hwell, hserved, hall⟩ := hw.sound.memory m hm
      refine ⟨hwell, fun s hs => (hserved s hs).congr rfl rfl, fun s' hs' => ?_⟩
      rcases List.mem_cons.1 hs' with rfl | hs'
      · exact hw.memory m hm
      · exact hall s' hs'
    · intro s' hs'
      rcases List.mem_cons.1 hs' with rfl | hs'
      · exact hw.listed
      · exact hw.sound.archived s' hs'
    · intro s' hs'
      rcases hw.sound.kept s' hs' with hf | ha
      · by_cases heq : jsonName s' = name
        · exact .inr (List.mem_cons.2 (.inl (hname s' heq)))
        · exact .inl (List.mem_filter.2 ⟨hf, bne_iff_ne.2 heq⟩)
      · exact .inr (List.mem_cons_of_mem _ ha)
  refine holds_run
    (fun w names hw => ⟨hw.sound.arrive names, hw.settled, hw.listed, hw.memory⟩)
    (fun w hw => hw.sound) ?_ (fun w hw => hw) ?_
  · intro w w' hw hc
    obtain rfl := Option.some_inj.1 hc
    exact ⟨harchive w hw, harchive w hw⟩
  · intro w w' hw hb
    obtain rfl := Option.some_inj.1 hb
    exact hw

theorem holds_archiveLocalCommand {s : Stem} :
    Holds (Archivable s) (archiveLocalCommand s) (fun _ w => Archivable s w) Sound := by
  refine Holds.bind (holds_archiveFile fun s' h => jsonName_injective h) fun moved => ?_
  refine Holds.ite (fun _ => ?_) fun _ => Holds.pure fun w hw => hw
  refine Holds.bind (holds_archiveFile fun s' h => absurd h (jsonName_ne_readyName s' s)) fun _ => ?_
  exact Holds.pure fun w hw => hw

/-! ## A pass -/

/-- The state between two commands. -/
structure Ready (w : World) : Prop where
  sound : Sound w
  settled : Settled w

theorem Unmoved.ready (h : Unmoved w₀ w) (hs : Settled w₀) : Ready w := ⟨h.sound, h.same.settled hs⟩

theorem Ready.unmoved (h : Ready w) : Unmoved w w := ⟨h.sound, .refl w⟩

theorem wellFormed_iff_forall {l : List Stem} :
    wellFormed l = true ↔
      l.length ≤ maxRemoteIndexEntries ∧ (∀ s ∈ l, safeStem s = true) ∧ l.Nodup := by
  simp [wellFormed, and_assoc]

/-- A new stem is remembered. -/
theorem Sound.remember {l : List Stem} {s : Stem} (h : Sound w) (hl : w.stems = some l)
    (hsafe : safeStem s = true) (hnew : s ∉ l) (hroom : l.length < maxRemoteIndexEntries)
    (hs : Complete w s) : Sound { w with stems := some (l ++ [s]) } := by
  obtain ⟨hwell, hserved, harchived⟩ := h.memory l hl
  obtain ⟨-, hall, hnodup⟩ := wellFormed_iff_forall.1 hwell
  refine ⟨h.json, h.ready, h.index, fun s hs => (h.listed s hs).congr rfl rfl, ?_, h.archived, h.kept⟩
  intro m hm
  obtain rfl := Option.some_inj.1 hm
  refine ⟨wellFormed_iff_forall.2 ⟨?_, ?_, ?_⟩, ?_, fun s' hs' => List.mem_append_left _ (harchived s' hs')⟩
  · rw [List.length_append, List.length_singleton]
    omega
  · intro s' hs'
    rcases List.mem_append.1 hs' with hs' | hs'
    · exact hall s' hs'
    · rw [List.mem_singleton.1 hs']
      exact hsafe
  · refine List.Nodup.append hnodup (List.nodup_singleton s) ?_
    rw [List.disjoint_singleton]
    exact hnew
  · intro s' hs'
    rcases List.mem_append.1 hs' with hs' | hs'
    · exact (hserved s' hs').congr rfl rfl
    · rw [List.mem_singleton.1 hs']
      exact .inr ⟨hs.json, hs.ready⟩

/-- The last stem is forgotten, after an index that was not written. -/
theorem Writing.forget {l : List Stem} {s : Stem} (h : Writing w₀ (l ++ [s]) w)
    (hl : ∀ s ∈ l, s ∈ w₀.listed) (harchived : ∀ s ∈ w₀.archived, s ∈ l) :
    Ready { w with stems := w.stems.map List.dropLast } := by
  have hstems : w.stems.map List.dropLast = some l := by
    rw [h.stems, Option.map_some, List.dropLast_concat]
  obtain ⟨hwell, hserved, -⟩ := h.sound.memory _ h.stems
  obtain ⟨hlen, hall, hnodup⟩ := wellFormed_iff_forall.1 hwell
  refine ⟨⟨h.sound.json, h.sound.ready, h.sound.index,
    fun s hs => (h.sound.listed s hs).congr rfl rfl, ?_, h.sound.archived, h.sound.kept⟩, ?_⟩
  · intro m hm
    obtain rfl : l = m := Option.some_inj.1 (hstems.symm.trans hm)
    refine ⟨wellFormed_iff_forall.2 ⟨?_, ?_, ?_⟩, ?_, ?_⟩
    · rw [List.length_append] at hlen
      omega
    · exact fun s' hs' => hall s' (List.mem_append_left _ hs')
    · exact (List.nodup_append.1 hnodup).1
    · exact fun s' hs' => (hserved s' (List.mem_append_left _ hs')).congr rfl rfl
    · rw [show w.archived = w₀.archived from h.archived]
      exact harchived
  · intro m hm s' hs'
    obtain rfl : l = m := Option.some_inj.1 (hstems.symm.trans hm)
    -- Either the old index is still there, or the new one, which has all of the old.
    rcases h.index with hindex | hindex
    · show s' ∈ World.listed w
      unfold World.listed
      rw [hindex]
      exact hl s' hs'
    · show s' ∈ World.listed w
      rw [listed_of_index hindex]
      exact List.mem_append_left _ hs'

/-- **One command** leaves the relay as it may be found between two. -/
theorem holds_pushOne {name : PyText} :
    Holds Ready (pushOne name) (fun _ w => Ready w) Sound := by
  refine Holds.start fun w₀ hw₀ => ?_
  refine Holds.mono (P := Unmoved w₀) ?_ (fun w hw => hw ▸ hw₀.unmoved) fun _ _ h => h
  have hsettled := hw₀.settled
  have hdone : Holds (Unmoved w₀) (Pure.pure false : Push Bool) (fun _ w => Ready w) Sound :=
    Holds.pure fun w hw => hw.ready hsettled
  refine Holds.ite (fun _ => hdone) fun hsafe => ?_
  rw [Bool.not_eq_true', Bool.not_eq_false] at hsafe
  refine Holds.bind holds_publishRemote fun there => ?_
  refine Holds.ite (fun _ => Holds.pure fun w hw => hw.1.ready hsettled) fun hthere => ?_
  rw [Bool.not_eq_true', Bool.not_eq_false] at hthere
  refine Holds.bind (Q := fun v w => w = v ∧ Unmoved w₀ w ∧ Complete w (stemOf name))
    (Holds.get fun w hw => ⟨rfl, hw.1, hw.2 hthere⟩) fun v => ?_
  refine Holds.start fun w₁ hw₁ => ?_
  obtain ⟨rfl, hw₁, hcomplete⟩ := hw₁
  have hready := hw₁.ready hsettled
  cases hl : w₁.stems with
  | none => exact Holds.pure fun w hw => hw ▸ hready
  | some l =>
    obtain ⟨-, -, harchived⟩ := hready.sound.memory l hl
    dsimp only
    refine Holds.ite (fun hmem => ?_) fun hnew => ?_
    · -- The stem is listed already: only the archive is left to do.
      rw [List.elem_eq_mem, decide_eq_true_eq] at hmem
      refine Holds.bind (holds_archiveLocalCommand.mono (fun w hw => ?_) fun _ _ h => h) fun _ =>
        Holds.pure fun w hw => ⟨hw.sound, hw.settled⟩
      rw [hw]
      refine ⟨hready.sound, hready.settled, hready.settled l hl _ hmem, fun m hm => ?_⟩
      rwa [← Option.some_inj.1 (hl.symm.trans hm)]
    refine Holds.ite (fun _ => Holds.pure fun w hw => hw ▸ hready) fun hroom => ?_
    rw [List.elem_eq_mem, decide_eq_true_eq] at hnew
    rw [not_le] at hroom
    have hremember := hready.sound.remember hl hsafe hnew hroom hcomplete
    refine Holds.bind (Q := fun _ w => w = { w₁ with stems := some (l ++ [stemOf name]) })
      (Holds.modify fun w hw => by rw [hw]) fun _ => ?_
    generalize hw₂ : { w₁ with stems := some (l ++ [stemOf name]) } = w₂ at hremember ⊢
    have hstems : w₂.stems = some (l ++ [stemOf name]) := by
      rw [← hw₂]
    refine Holds.bind ((holds_writeRemoteCommandIndex hstems).mono
      (fun w hw => ?_) fun _ _ h => h) fun written => ?_
    · rw [hw]
      exact ⟨hremember, .refl w₂⟩
    refine Holds.ite (fun _ => ?_) fun hwritten => ?_
    · refine Holds.bind (Q := fun _ w => Ready w) (Holds.modify fun w hw => ?_) fun _ =>
        Holds.pure fun w hw => hw
      refine hw.1.forget ?_ ?_
      · rw [← hw₂]
        exact hready.settled l hl
      · rw [← hw₂]
        exact harchived
    · rw [Bool.not_eq_true', Bool.not_eq_false] at hwritten
      refine Holds.bind (holds_archiveLocalCommand.mono (fun w hw => ?_) fun _ _ h => h) fun _ =>
        Holds.pure fun w hw => ⟨hw.sound, hw.settled⟩
      have hlisted := listed_of_index (hw.2 hwritten)
      refine ⟨hw.1.sound, fun m hm s hs => ?_, ?_, fun m hm => ?_⟩
      · rw [hlisted, Option.some_inj.1 (hw.1.stems.symm.trans hm)]
        exact hs
      · rw [hlisted]
        exact List.mem_append_right _ List.mem_cons_self
      · rw [← Option.some_inj.1 (hw.1.stems.symm.trans hm)]
        exact List.mem_append_right _ List.mem_cons_self

theorem holds_pushAll (names : List PyText) :
    Holds Ready (pushAll names) (fun _ w => Ready w) Sound := by
  induction names with
  | nil => exact Holds.pure fun w hw => hw
  | cons name rest ih =>
    refine Holds.bind holds_pushOne fun sent => ?_
    exact Holds.bind ih fun count => Holds.pure fun w hw => hw

theorem holds_loadRemoteCommandIndex :
    Holds Ready loadRemoteCommandIndex (fun _ w => Ready w) Sound := by
  refine Holds.start fun w₀ hw₀ => ?_
  refine Holds.mono (P := Unmoved w₀) ?_ (fun w hw => hw ▸ hw₀.unmoved) fun _ _ h => h
  have hsettled := hw₀.settled
  have hdone (r : Bool) : Holds (Unmoved w₀) (Pure.pure r : Push Bool) (fun _ w => Ready w) Sound :=
    Holds.pure fun w hw => hw.ready hsettled
  refine Holds.bind (Q := fun _ w => Unmoved w₀ w) (Holds.get fun w hw => hw) fun v => ?_
  refine Holds.ite (fun _ => hdone true) fun _ => ?_
  refine Holds.bind holds_remoteBridgeReady fun ready => ?_
  refine Holds.ite (fun _ => hdone false) fun _ => ?_
  have hcat : Holds (Unmoved w₀) (cat .index)
      (fun x w => Unmoved w₀ w ∧ ∀ y, x = some y → w.remote .index = some y) Sound := by
    refine Holds.call fun turn w hw => ?_
    obtain ⟨arrivals, outcome⟩ := turn
    cases outcome with
    | stopped => exact ⟨nofun, fun _ => hw.sound.arrive arrivals⟩
    | ok =>
      refine ⟨fun x hx => ⟨hw.arrive arrivals, fun y hy => ?_⟩, nofun⟩
      rw [← Option.some_inj.1 hx] at hy
      exact hy
    | failed =>
      refine ⟨fun x hx => ⟨hw.arrive arrivals, fun y hy => ?_⟩, nofun⟩
      rw [← Option.some_inj.1 hx] at hy
      cases hy
    | unheard =>
      refine ⟨fun x hx => ⟨hw.arrive arrivals, fun y hy => ?_⟩, nofun⟩
      rw [← Option.some_inj.1 hx] at hy
      cases hy
  refine Holds.bind hcat fun content => ?_
  have hfailed : Holds (fun w => Unmoved w₀ w ∧ ∀ y, content = some y → w.remote .index = some y)
      (Pure.pure false : Push Bool) (fun _ w => Ready w) Sound :=
    Holds.pure fun w hw => hw.1.ready hsettled
  cases content with
  | none => exact hfailed
  | some y =>
    cases y with
    | part => exact hfailed
    | file => exact hfailed
    | stems l =>
      refine Holds.ite (fun hwell => ?_) fun _ => hfailed
      refine Holds.bind (Q := fun _ w => Ready w) (Holds.modify fun w hw => ?_) fun _ =>
        Holds.pure fun w hw => hw
      have hlisted := listed_of_index (hw.2 _ rfl)
      have hsound := hw.1.sound
      refine ⟨⟨hsound.json, hsound.ready, hsound.index,
        fun s hs => (hsound.listed s hs).congr rfl rfl, ?_, hsound.archived, hsound.kept⟩, ?_⟩
      · intro m hm
        obtain rfl := Option.some_inj.1 hm
        refine ⟨hwell, fun s hs => ?_, fun s hs => ?_⟩
        · rw [← hlisted] at hs
          exact (hsound.listed s hs).congr rfl rfl
        · rw [← hlisted]
          exact hsound.archived s hs
      · intro m hm s hs
        obtain rfl := Option.some_inj.1 hm
        show s ∈ World.listed w
        rwa [hlisted]

/-- **A pass** keeps the invariant wherever it is stopped. -/
theorem holds_push : Holds Ready push (fun _ w => Ready w) Sound := by
  refine Holds.bind holds_loadRemoteCommandIndex fun loaded => ?_
  refine Holds.ite (fun _ => Holds.pure fun w hw => hw) fun _ => ?_
  refine Holds.bind (Q := fun _ w => Ready w) (Holds.get fun w hw => hw) fun v => ?_
  exact holds_pushAll _

/-! ## Nothing is taken away by the relay -/

open Script (Keeps)

/-- What the game host took away so far. -/
def Taken (c : List Stem) (w : World) : Prop := w.consumed = c

variable {c : List Stem}

theorem keeps_run {command broken : World → Option World}
    (hc : ∀ w w', command w = some w' → w'.consumed = w.consumed)
    (hb : ∀ w w', broken w = some w' → w'.consumed = w.consumed) :
    Keeps (Taken c) (run command broken) := by
  have hgetD {f : World → Option World} (hf : ∀ w w', f w = some w' → w'.consumed = w.consumed)
      (w : World) : ((f w).getD w).consumed = w.consumed := by
    cases h : f w with
    | none => rfl
    | some w' => exact hf w w' h
  refine Keeps.call fun turn w hw => ?_
  unfold Taken at hw ⊢
  obtain ⟨arrivals, outcome⟩ := turn
  cases outcome with
  | stopped => exact hw
  | failed => exact (hgetD hb _).trans hw
  | unheard => exact (hgetD hc _).trans hw
  | ok =>
    have hcommand := hgetD hc (w.arrive arrivals)
    cases h : command (w.arrive arrivals) with
    | none =>
      simp only [h]
      exact hw
    | some w' =>
      rw [h] at hcommand
      simp only [h]
      exact hcommand.trans hw

theorem keeps_ssh {command : World → Option World}
    (hc : ∀ w w', command w = some w' → w'.consumed = w.consumed) :
    Keeps (Taken c) (ssh command) :=
  keeps_run hc fun w w' h => by rw [← Option.some_inj.1 h]

theorem keeps_chmod : Keeps (Taken c) chmod :=
  keeps_ssh fun w w' h => by rw [← Option.some_inj.1 h]

theorem keeps_remoteExists (name : Name) : Keeps (Taken c) (remoteExists name) := by
  refine keeps_ssh fun w w' h => ?_
  split at h
  · rw [← Option.some_inj.1 h]
  · cases h

theorem keeps_scp (n : ℕ) (x : Stored) : Keeps (Taken c) (scp n x) := by
  refine keeps_run (fun w w' h => ?_) fun w w' h => ?_
  · rw [← Option.some_inj.1 h]
    rfl
  · rw [← Option.some_inj.1 h]
    rfl

theorem keeps_rename (n : ℕ) (target : Name) : Keeps (Taken c) (rename n target) := by
  refine keeps_ssh fun w w' h => ?_
  obtain ⟨x, -, rfl⟩ := Option.map_eq_some_iff.1 h
  rfl

/-- A step of the relay's own, and an answer. -/
theorem keeps_modify {α : Type} {f : World → World} (hf : ∀ w, (f w).consumed = w.consumed) (a : α) :
    Keeps (Taken c) (do Script.modify f; pure a : Push α) :=
  Keeps.bind (Keeps.modify fun w hw => (hf w).trans hw) fun _ => Keeps.pure a

theorem keeps_freshName : Keeps (Taken c) freshName :=
  Keeps.bind Keeps.get fun w => keeps_modify (fun _ => rfl) w.serial

theorem keeps_remoteBridgeReady : Keeps (Taken c) remoteBridgeReady := by
  refine Keeps.bind Keeps.get fun _ => Keeps.ite (Keeps.pure true) ?_
  refine Keeps.bind keeps_chmod fun _ => Keeps.ite ?_ (Keeps.pure false)
  exact keeps_modify (fun _ => rfl) true

theorem keeps_place (target : Name) : Keeps (Taken c) (place target) := by
  refine Keeps.bind (keeps_remoteExists target) fun _ => Keeps.ite (Keeps.pure true) ?_
  refine Keeps.bind keeps_freshName fun n => ?_
  refine Keeps.bind (keeps_scp n .file) fun _ => Keeps.ite (Keeps.pure false) ?_
  exact Keeps.bind (keeps_rename n target) fun _ => Keeps.ite (Keeps.pure false) keeps_chmod

theorem keeps_publishRemote (s : Stem) : Keeps (Taken c) (publishRemote s) := by
  refine Keeps.bind keeps_remoteBridgeReady fun _ => Keeps.ite (Keeps.pure false) ?_
  refine Keeps.bind Keeps.get fun _ => Keeps.ite (Keeps.pure false) ?_
  refine Keeps.bind (keeps_place (.json s)) fun _ => Keeps.ite (Keeps.pure false) ?_
  refine Keeps.bind (keeps_place (.ready s)) fun _ => Keeps.ite (Keeps.pure false) ?_
  exact Keeps.bind (keeps_remoteExists (.json s)) fun _ =>
    Keeps.ite (Keeps.pure false) (keeps_remoteExists (.ready s))

theorem keeps_writeRemoteCommandIndex : Keeps (Taken c) writeRemoteCommandIndex := by
  refine Keeps.bind Keeps.get fun w => ?_
  cases w.stems with
  | none => exact Keeps.pure false
  | some l =>
    refine Keeps.bind keeps_remoteBridgeReady fun _ => Keeps.ite (Keeps.pure false) ?_
    refine Keeps.ite (Keeps.pure false) (Keeps.bind keeps_freshName fun n => ?_)
    refine Keeps.bind (keeps_scp n (.stems l)) fun _ => Keeps.ite (Keeps.pure false) ?_
    exact Keeps.bind (keeps_rename n .index) fun _ => Keeps.ite (Keeps.pure false) keeps_chmod

theorem keeps_archiveLocalCommand (s : Stem) : Keeps (Taken c) (archiveLocalCommand s) := by
  have hfile (name : PyText) : Keeps (Taken c) (archiveFile s name) := by
    refine keeps_run (fun w w' h => ?_) fun w w' h => ?_
    · rw [← Option.some_inj.1 h]
    · rw [← Option.some_inj.1 h]
  refine Keeps.bind (hfile _) fun _ => Keeps.ite ?_ (Keeps.pure ())
  exact Keeps.bind (hfile _) fun _ => Keeps.pure ()

theorem keeps_pushOne (name : PyText) : Keeps (Taken c) (pushOne name) := by
  refine Keeps.ite (Keeps.pure false) (Keeps.bind (keeps_publishRemote _) fun _ => ?_)
  refine Keeps.ite (Keeps.pure false) (Keeps.bind Keeps.get fun w => ?_)
  cases w.stems with
  | none => exact Keeps.pure false
  | some l =>
    have hdone : Keeps (Taken c) (do archiveLocalCommand (stemOf name); pure true : Push Bool) :=
      Keeps.bind (keeps_archiveLocalCommand _) fun _ => Keeps.pure true
    refine Keeps.ite hdone (Keeps.ite (Keeps.pure false) ?_)
    refine Keeps.bind (Keeps.modify fun _ hw => hw) fun _ => ?_
    exact Keeps.bind keeps_writeRemoteCommandIndex fun _ =>
      Keeps.ite (keeps_modify (fun _ => rfl) false) hdone

theorem keeps_push : Keeps (Taken c) push := by
  have hall (names : List PyText) : Keeps (Taken c) (pushAll names) := by
    induction names with
    | nil => exact Keeps.pure 0
    | cons name rest ih =>
      exact Keeps.bind (keeps_pushOne name) fun _ => Keeps.bind ih fun _ => Keeps.pure _
  have hcat : Keeps (Taken c) (cat .index) := by
    refine Keeps.call fun turn w hw => ?_
    obtain ⟨arrivals, outcome⟩ := turn
    cases outcome <;> exact hw
  have hload : Keeps (Taken c) loadRemoteCommandIndex := by
    refine Keeps.bind Keeps.get fun w => Keeps.ite (Keeps.pure true) ?_
    refine Keeps.bind keeps_remoteBridgeReady fun _ => Keeps.ite (Keeps.pure false) ?_
    refine Keeps.bind hcat fun content => ?_
    rcases content with _ | _ | _ | l
    · exact Keeps.pure false
    · exact Keeps.pure false
    · exact Keeps.pure false
    · exact Keeps.ite (keeps_modify (fun _ => rfl) true) (Keeps.pure false)
  refine Keeps.bind hload fun _ => Keeps.ite (Keeps.pure 0) ?_
  exact Keeps.bind Keeps.get fun w => hall _

/-! ## Runs -/

/-- The files of a listed command go; the command counts as served. -/
theorem Served.consume {s s' : Stem} (h : Served w s') : Served (w.consume s) s' := by
  by_cases heq : s' = s
  · exact .inl (List.mem_cons.2 (.inl heq))
  · have hjson : Name.json s' ≠ .json s := fun h => heq (Name.json.inj h)
    have hready : Name.ready s' ≠ .ready s := fun h => heq (Name.ready.inj h)
    have hne : Name.json s' ≠ .ready s := nofun
    have hne' : Name.ready s' ≠ .json s := nofun
    refine h.imp (List.mem_cons_of_mem _) fun c => ⟨?_, ?_⟩
    · exact (remote_consume_of_ne w hjson hne).trans c.json
    · exact (remote_consume_of_ne w hne' hready).trans c.ready

theorem index_consume (w : World) (s : Stem) :
    (w.consume s).remote .index = w.remote .index := by
  have hne : Name.index ≠ .json s := nofun
  have hne' : Name.index ≠ .ready s := nofun
  exact remote_consume_of_ne w hne hne'

theorem listed_consume (w : World) (s : Stem) : (w.consume s).listed = w.listed := by
  unfold World.listed
  rw [index_consume]

theorem Ready.consume (h : Ready w) (s : Stem) : Ready (w.consume s) := by
  have hindex := index_consume w s
  have hlisted := listed_consume w s
  refine ⟨⟨?_, ?_, ?_, ?_, ?_, ?_, h.sound.kept⟩, ?_⟩
  · intro s' x hx
    by_cases heq : s' = s
    · rw [heq, (remote_consume_self w s).1] at hx
      cases hx
    · have hjson : Name.json s' ≠ .json s := fun h => heq (Name.json.inj h)
      have hne : Name.json s' ≠ .ready s := nofun
      rw [remote_consume_of_ne w hjson hne] at hx
      exact h.sound.json s' x hx
  · intro s' x hx
    by_cases heq : s' = s
    · rw [heq, (remote_consume_self w s).2] at hx
      cases hx
    · have hready : Name.ready s' ≠ .ready s := fun h => heq (Name.ready.inj h)
      have hne : Name.ready s' ≠ .json s := nofun
      rw [remote_consume_of_ne w hne hready] at hx
      exact h.sound.ready s' x hx
  · rw [hindex]
    exact h.sound.index
  · rw [hlisted]
    exact fun s' hs' => (h.sound.listed s' hs').consume
  · intro m hm
    obtain ⟨hwell, hall, harchived⟩ := h.sound.memory m hm
    exact ⟨hwell, fun s' hs' => (hall s' hs').consume, harchived⟩
  · rw [hlisted]
    exact h.sound.archived
  · intro m hm
    rw [hlisted]
    exact h.settled m hm

theorem Ready.step (h : Ready w) (op : Op) : Ready (step w op) := by
  cases op with
  | pass turns =>
    have hpass := holds_push w turns h
    show Ready (afterPass (push w turns))
    generalize push w turns = r at hpass ⊢
    obtain ⟨_ | _, w'⟩ := r
    · exact ⟨hpass.restart, settled_restart w'⟩
    · exact hpass
  | arrive names => exact ⟨h.sound.arrive names, h.settled⟩
  | consume s =>
    show Ready (if List.elem s w.listed then w.consume s else w)
    split
    · exact h.consume s
    · exact h

/-- **How a bridge is found**: the relay has just started, the index is well
formed and lists complete pairs only, and no command's file is half there. -/
structure Start (w : World) : Prop where
  json : ∀ s x, w.remote (.json s) = some x → x = .file
  ready : ∀ s x, w.remote (.ready s) = some x → x = .file
  index : ∃ l, w.remote .index = some (.stems l) ∧ wellFormed l = true ∧ ∀ s ∈ l, Complete w s
  stems : w.stems = none
  archived : w.archived = []
  published : w.published = w.folder
  consumed : w.consumed = []

/-- A bridge with this index, whose commands are all there, and these local
files. -/
def found (index : List Stem) (folder : List PyText) : World where
  folder := folder
  archived := []
  published := folder
  remote := fun
    | .index => some (.stems index)
    | .json s | .ready s => if List.elem s index then some .file else none
    | .temp _ => none
  consumed := []
  remoteReady := false
  stems := none
  serial := 0

theorem found_start {index : List Stem} (hwell : wellFormed index = true)
    (folder : List PyText) : Start (found index folder) := by
  have hfile : ∀ (s : Stem) (x : Stored),
      (if List.elem s index then some Stored.file else none) = some x → x = .file := by
    intro s x hx
    split at hx
    · exact (Option.some.inj hx).symm
    · cases hx
  refine ⟨hfile, hfile, ⟨index, rfl, hwell, fun s hs => ?_⟩, rfl, rfl, rfl, rfl⟩
  have helem : List.elem s index = true := List.elem_iff.2 hs
  exact ⟨if_pos helem, if_pos helem⟩

theorem Start.ready₀ (h : Start w) : Ready w := by
  obtain ⟨l, hl, hwell, hcomplete⟩ := h.index
  refine ⟨⟨h.json, h.ready, ⟨l, hl, hwell⟩, ?_, ?_, ?_, ?_⟩, ?_⟩
  · intro s hs
    rw [listed_of_index hl] at hs
    exact .inr (hcomplete s hs)
  · rw [h.stems]
    exact nofun
  · rw [h.archived]
    exact nofun
  · rw [h.published]
    exact fun s hs => .inl hs
  · intro m hm
    rw [h.stems] at hm
    cases hm

/-- Every state of a run is sound. -/
theorem Ready.run (h : Ready w) (ops : List Op) : Ready (Machine.run Relay.step w ops) :=
  have hstep : ∀ (w : World) (op : Op), Ready w → Ready (Relay.step w op) :=
    fun _ op hw => hw.step op
  Machine.invariant hstep h ops

theorem consumed_run {ops : List Op} (hkeep : ∀ op ∈ ops, ∀ s, op ≠ .consume s) :
    (Machine.run step w ops).consumed = w.consumed := by
  induction ops generalizing w with
  | nil => rfl
  | cons op ops ih =>
    rw [Machine.run_cons, ih fun op hop => hkeep op (List.mem_cons_of_mem _ hop)]
    cases op with
    | pass turns =>
      have hpass : (push w turns).2.consumed = w.consumed :=
        keeps_push.after (I := Taken w.consumed) rfl turns
      show (afterPass (push w turns)).consumed = w.consumed
      generalize push w turns = r at hpass ⊢
      obtain ⟨_ | _, w'⟩ := r
      · exact hpass
      · exact hpass
    | arrive names => rfl
    | consume s => exact absurd rfl (hkeep _ List.mem_cons_self s)

/-- **Push safety.** Over every run of passes that fail or are stopped
anywhere, what the index lists is complete, what is archived is listed, and
every command there ever was is still local or listed. -/
theorem push_safe (h : Start w) {ops : List Op} (hkeep : ∀ op ∈ ops, ∀ s, op ≠ .consume s) :
    (∀ s ∈ (Machine.run step w ops).listed, Complete (Machine.run step w ops) s) ∧
      (∀ s ∈ (Machine.run step w ops).archived, s ∈ (Machine.run step w ops).listed) ∧
      ∀ s, jsonName s ∈ (Machine.run step w ops).published →
        jsonName s ∈ (Machine.run step w ops).folder ∨ s ∈ (Machine.run step w ops).listed := by
  have hsound := (h.ready₀.run ops).sound
  have hconsumed := (consumed_run hkeep).trans h.consumed
  refine ⟨fun s hs => ?_, hsound.archived, fun s hs => ?_⟩
  · rcases hsound.listed s hs with htaken | hcomplete
    · rw [hconsumed] at htaken
      cases htaken
    · exact hcomplete
  · exact (hsound.kept s hs).imp id (hsound.archived s)

/-- One command, and a pass that is stopped at its first call. -/
theorem push_safe_stopped :
    let w := found [PyText.lit "a"] [jsonName (PyText.lit "b"), readyName (PyText.lit "b")]
    let ops := [Op.pass fun _ => ⟨[], .stopped⟩]
    (∀ s ∈ (Machine.run step w ops).listed, Complete (Machine.run step w ops) s) ∧
      (∀ s ∈ (Machine.run step w ops).archived, s ∈ (Machine.run step w ops).listed) ∧
      ∀ s, jsonName s ∈ (Machine.run step w ops).published →
        jsonName s ∈ (Machine.run step w ops).folder ∨ s ∈ (Machine.run step w ops).listed := by
  refine push_safe (found_start (by decide) _) ?_
  intro op hop s
  obtain rfl := List.mem_singleton.1 hop
  exact nofun

end Relay

end GoblinZomboid
