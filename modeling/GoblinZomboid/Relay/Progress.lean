import GoblinZomboid.Relay.Safety
/-!
# Push progress

When every call works, a pass does to the local folder and the remembered
index what a small queue does: it serves the first names of the sorted
folder, as long as the index has room. So the commands that are ever
delivered are read off the queue: entries that are never served hold their
places before a command for ever, and stems are never taken off the index.
-/

namespace GoblinZomboid

namespace Relay

/-! ## The window of a pass -/

/-- An entry is among the first of a sorted list if few entries are smaller. -/
theorem mem_take_iff_of_sorted {α : Type} [LE α] [LT α] [DecidableLT α] [Std.IsLinearOrder α]
    [Std.LawfulOrderLT α] {l : List α} (hl : l.Pairwise (· ≤ ·)) (a : α) (k : ℕ) :
    a ∈ l.take k ↔ a ∈ l ∧ l.countP (· < a) < k := by
  induction l generalizing k with
  | nil => simp
  | cons b l ih =>
    obtain ⟨hb, hl⟩ := List.pairwise_cons.1 hl
    cases k with
    | zero => simp
    | succ k =>
      rw [List.take_succ_cons, List.mem_cons, List.mem_cons, ih hl, List.countP_cons]
      by_cases hlt : b < a
      · rw [if_pos (decide_eq_true hlt)]
        have hne : a ≠ b := (Std.ne_of_lt hlt).symm
        simp only [hne, false_or, Nat.add_lt_add_iff_right]
      · -- Nothing in the list is smaller than its head, which is not smaller than `a`.
        have hle : a ≤ b := Std.not_lt.1 hlt
        have hnone : l.countP (· < a) = 0 := by
          refine List.countP_eq_zero.2 fun c hc => ?_
          simpa using Std.not_lt.2 (Std.le_trans hle (hb c hc))
        rw [if_neg (by simpa using hlt), hnone]
        refine ⟨fun h => ⟨h.imp id fun h => h.1, by omega⟩, fun h => ?_⟩
        rcases h.1 with h | h
        · exact .inl h
        · exact .inl (Std.le_antisymm hle (hb a h))

theorem sorted_readyNames (folder : List PyText) : (readyNames folder).Pairwise (· ≤ ·) := by
  have htrans (a b c : PyText) (hab : decide (a ≤ b) = true) (hbc : decide (b ≤ c) = true) :
      decide (a ≤ c) = true :=
    decide_eq_true (Std.le_trans (of_decide_eq_true hab) (of_decide_eq_true hbc))
  have htotal (a b : PyText) : (decide (a ≤ b) || decide (b ≤ a)) = true := by
    rw [Bool.or_eq_true, decide_eq_true_eq, decide_eq_true_eq]
    exact Std.le_total
  exact (List.pairwise_mergeSort htrans htotal _).imp of_decide_eq_true

theorem mem_window_iff {folder : List PyText} {name : PyText} :
    name ∈ (readyNames folder).take maxFilesPerPass ↔
      name ∈ readyNames folder ∧ (readyNames folder).countP (· < name) < maxFilesPerPass :=
  mem_take_iff_of_sorted (sorted_readyNames folder) name _

theorem mem_readyNames {folder : List PyText} {name : PyText} :
    name ∈ readyNames folder ↔ name ∈ folder ∧ (PyText.lit ".ready").isSuffixOf name = true := by
  rw [readyNames, List.mem_mergeSort, List.mem_filter]

theorem stemOf_readyName (s : Stem) : stemOf (readyName s) = s := by
  have hlen : (PyText.lit ".ready").length = 6 := by decide
  rw [stemOf, readyName, List.length_append, hlen, Nat.add_sub_cancel, List.take_left]

theorem readyName_mem_readyNames {folder : List PyText} {s : Stem} :
    readyName s ∈ readyNames folder ↔ readyName s ∈ folder := by
  have hsuffix : (PyText.lit ".ready").isSuffixOf (readyName s) = true :=
    List.isSuffixOf_iff_suffix.2 (List.suffix_append s _)
  rw [mem_readyNames, and_iff_left hsuffix]

/-- A name that ends in `.ready` is the one of its stem. -/
theorem readyName_stemOf {name : PyText} (h : (PyText.lit ".ready").isSuffixOf name = true) :
    readyName (stemOf name) = name := by
  obtain ⟨s, rfl⟩ := List.isSuffixOf_iff_suffix.1 h
  show readyName (stemOf (readyName s)) = readyName s
  rw [stemOf_readyName]

/-! ## The queue -/

/-- What a pass goes by: the names in the local folder, and the stems the
relay counts as listed. -/
structure Queue where
  folder : List PyText
  known : List Stem

namespace Queue

/-- A valid command: its stem is safe and both its files are there. -/
def whole (q : Queue) (s : Stem) : Bool :=
  safeStem s && List.elem (jsonName s) q.folder && List.elem (readyName s) q.folder

/-- The index lists the stem, or has room for it. -/
def room (q : Queue) (s : Stem) : Bool :=
  List.elem s q.known || decide (q.known.length < maxRemoteIndexEntries)

/-- The command is listed and its files are archived. -/
def clear (q : Queue) (s : Stem) : Queue where
  folder := (q.folder.filter (· != jsonName s)).filter (· != readyName s)
  known := if List.elem s q.known then q.known else q.known ++ [s]

/-- One entry of a pass. -/
def deliver (q : Queue) (name : PyText) : Queue :=
  if q.whole (stemOf name) && q.room (stemOf name) then q.clear (stemOf name) else q

/-- A pass. -/
def pass (q : Queue) : Queue :=
  ((readyNames q.folder).take maxFilesPerPass).foldl deliver q

/-- The valid commands that are left. -/
def left (q : Queue) : List Stem := ((readyNames q.folder).map stemOf).filter q.whole

/-- The broken entries before a command: names of the folder that end in
`.ready` and belong to no valid command. -/
def stuck (q : Queue) (s : Stem) : ℕ :=
  q.folder.countP fun name =>
    (PyText.lit ".ready").isSuffixOf name && !q.whole (stemOf name) && decide (name < readyName s)

/-- The stems the index has to hold in the end. -/
def demand (q : Queue) : ℕ := (q.known ++ q.left).dedup.length

/-- The command is gone from the folder. -/
def Gone (q : Queue) (s : Stem) : Prop := jsonName s ∉ q.folder ∧ readyName s ∉ q.folder

/-- The index is one the relay may hold. -/
structure Fit (q : Queue) : Prop where
  nodup : q.known.Nodup
  length : q.known.length ≤ maxRemoteIndexEntries

variable {q q' q'' : Queue} {s : Stem}

theorem whole_iff : q.whole s = true ↔
    safeStem s = true ∧ jsonName s ∈ q.folder ∧ readyName s ∈ q.folder := by
  rw [whole, Bool.and_eq_true, Bool.and_eq_true, List.elem_iff, List.elem_iff, and_assoc]

theorem mem_left : s ∈ q.left ↔ q.whole s = true := by
  rw [left, List.mem_filter, List.mem_map]
  refine ⟨fun h => h.2, fun h => ⟨⟨readyName s, ?_, stemOf_readyName s⟩, h⟩⟩
  exact readyName_mem_readyNames.2 (whole_iff.1 h).2.2

/-! ## What a pass can do -/

/-- **What any part of a pass does**: it takes away files of valid commands
only, both of them, and such a command is known then; nothing else becomes
known. -/
structure After (q q' : Queue) : Prop where
  names : ∃ keep : PyText → Bool, q'.folder = q.folder.filter keep ∧
    ∀ name, keep name = false →
      ∃ s, q.whole s = true ∧ (name = jsonName s ∨ name = readyName s)
  whole : ∀ s, q.whole s = true → q'.whole s = true ∨ q'.Gone s ∧ s ∈ q'.known
  known : ∀ s ∈ q.known, s ∈ q'.known
  fresh : ∀ s ∈ q'.known, s ∈ q.known ∨ q.whole s = true
  fit : q'.Fit

theorem After.subset (h : After q q') {name : PyText} (hname : name ∈ q'.folder) :
    name ∈ q.folder := by
  obtain ⟨keep, hkeep, -⟩ := h.names
  rw [hkeep] at hname
  exact List.mem_of_mem_filter hname

theorem After.whole_of (h : After q q') (hs : q'.whole s = true) : q.whole s = true := by
  obtain ⟨hsafe, hjson, hready⟩ := whole_iff.1 hs
  exact whole_iff.2 ⟨hsafe, h.subset hjson, h.subset hready⟩

theorem After.gone (h : After q q') (hs : q.Gone s) : q'.Gone s :=
  ⟨fun hjson => hs.1 (h.subset hjson), fun hready => hs.2 (h.subset hready)⟩

theorem After.refl (h : q.Fit) : After q q where
  names := ⟨fun _ => true, (List.filter_true _).symm, nofun⟩
  whole := fun _ hs => .inl hs
  known := fun _ hs => hs
  fresh := fun _ hs => .inl hs
  fit := h

theorem After.trans (h : After q q') (h' : After q' q'') : After q q'' := by
  refine ⟨?_, fun s hs => ?_, fun s hs => h'.known s (h.known s hs), fun s hs => ?_, h'.fit⟩
  · obtain ⟨keep, hkeep, hlost⟩ := h.names
    obtain ⟨keep', hkeep', hlost'⟩ := h'.names
    refine ⟨fun name => keep' name && keep name, ?_, fun name hname => ?_⟩
    · rw [hkeep', hkeep, List.filter_filter]
    · rcases Bool.and_eq_false_iff.1 hname with hname | hname
      · obtain ⟨s, hs, heq⟩ := hlost' name hname
        exact ⟨s, h.whole_of hs, heq⟩
      · exact hlost name hname
  · rcases h.whole s hs with hs | ⟨hgone, hknown⟩
    · exact h'.whole s hs
    · exact .inr ⟨h'.gone hgone, h'.known s hknown⟩
  · rcases h'.fresh s hs with hs | hs
    · exact h.fresh s hs
    · exact .inr (h.whole_of hs)

theorem mem_clear_folder {name : PyText} : name ∈ (q.clear s).folder ↔
    name ∈ q.folder ∧ name ≠ jsonName s ∧ name ≠ readyName s := by
  rw [clear, List.mem_filter, List.mem_filter, bne_iff_ne, bne_iff_ne, and_assoc]

theorem gone_clear (q : Queue) (s : Stem) : (q.clear s).Gone s :=
  ⟨fun h => (mem_clear_folder.1 h).2.1 rfl, fun h => (mem_clear_folder.1 h).2.2 rfl⟩

theorem mem_clear_known {s' : Stem} : s' ∈ (q.clear s).known ↔ s' ∈ q.known ∨ s' = s := by
  unfold clear
  by_cases h : s ∈ q.known
  · rw [if_pos (List.elem_iff.2 h)]
    refine ⟨.inl, fun hs => ?_⟩
    rcases hs with hs | rfl
    · exact hs
    · exact h
  · rw [if_neg (by simpa using h), List.mem_append, List.mem_singleton]

theorem readyName_injective : Function.Injective readyName := fun _ _ h =>
  List.append_cancel_right h

/-- Clearing one command leaves the others alone. -/
theorem whole_clear_of_ne {s' : Stem} (h : q.whole s' = true) (hne : s' ≠ s) :
    (q.clear s).whole s' = true := by
  obtain ⟨hsafe, hjson, hready⟩ := whole_iff.1 h
  refine whole_iff.2 ⟨hsafe, mem_clear_folder.2 ⟨hjson, ?_, ?_⟩, mem_clear_folder.2 ⟨hready, ?_, ?_⟩⟩
  · exact fun heq => hne (jsonName_injective heq)
  · exact jsonName_ne_readyName s' s
  · exact (jsonName_ne_readyName s s').symm
  · exact fun heq => hne (readyName_injective heq)

theorem Fit.clear (h : q.Fit) (hroom : q.room s = true) : (q.clear s).Fit := by
  unfold Queue.clear
  by_cases hs : List.elem s q.known = true
  · rw [if_pos hs]
    exact ⟨h.nodup, h.length⟩
  · rw [room, Bool.or_eq_true, decide_eq_true_eq] at hroom
    have hlen := hroom.resolve_left hs
    rw [if_neg hs]
    refine ⟨List.Nodup.append h.nodup (List.nodup_singleton s) ?_, ?_⟩
    · rw [List.disjoint_singleton]
      exact fun hmem => hs (List.elem_iff.2 hmem)
    · show (q.known ++ [s]).length ≤ maxRemoteIndexEntries
      rw [List.length_append, List.length_singleton]
      exact hlen

theorem after_clear (h : q.Fit) (hwhole : q.whole s = true) (hroom : q.room s = true) :
    After q (q.clear s) := by
  refine ⟨?_, fun s' hs' => ?_, fun s' hs' => mem_clear_known.2 (.inl hs'), fun s' hs' => ?_,
    h.clear hroom⟩
  · refine ⟨fun name => name != readyName s && name != jsonName s, ?_, fun name hname => ?_⟩
    · rw [clear, List.filter_filter]
    · rcases Bool.and_eq_false_iff.1 hname with hname | hname
      · exact ⟨s, hwhole, .inr (by simpa using hname)⟩
      · exact ⟨s, hwhole, .inl (by simpa using hname)⟩
  · by_cases heq : s' = s
    · rw [heq]
      exact .inr ⟨gone_clear q s, mem_clear_known.2 (.inr rfl)⟩
    · exact .inl (whole_clear_of_ne hs' heq)
  · refine (mem_clear_known.1 hs').imp id fun heq => ?_
    rwa [heq]

theorem after_deliver (h : q.Fit) (name : PyText) : After q (q.deliver name) := by
  unfold deliver
  split
  · rename_i hcond
    rw [Bool.and_eq_true] at hcond
    exact after_clear h hcond.1 hcond.2
  · exact .refl h

theorem after_foldl (h : q.Fit) (names : List PyText) : After q (names.foldl deliver q) := by
  induction names generalizing q with
  | nil => exact .refl h
  | cons name names ih =>
    have hfirst := after_deliver h name
    exact hfirst.trans (ih hfirst.fit)

theorem after_pass (h : q.Fit) : After q q.pass := after_foldl h _

/-! ## The index -/

/-- What is known at any later time counts in the demand. -/
theorem After.known_le (h : After q q') : q'.known.length ≤ q.demand := by
  refine (List.subperm_of_subset h.fit.nodup fun s hs => ?_).length_le
  rw [List.mem_dedup, List.mem_append]
  exact (h.fresh s hs).imp id mem_left.2

/-- **While the demand fits there is room.** -/
theorem After.room (h : After q q') (hdemand : q.demand ≤ maxRemoteIndexEntries)
    (hs : q'.whole s = true) : q'.room s = true := by
  rw [Queue.room, Bool.or_eq_true, decide_eq_true_eq]
  by_cases hmem : s ∈ q'.known
  · exact .inl (List.elem_iff.2 hmem)
  · refine .inr ?_
    have hnodup : (s :: q'.known).Nodup := List.nodup_cons.2 ⟨hmem, h.fit.nodup⟩
    have hle : (s :: q'.known).length ≤ q.demand := by
      refine (List.subperm_of_subset hnodup fun s' hs' => ?_).length_le
      rw [List.mem_dedup, List.mem_append, mem_left]
      rcases List.mem_cons.1 hs' with rfl | hs'
      · exact .inr (h.whole_of hs)
      · exact h.fresh s' hs'
    exact hle.trans hdemand

theorem After.demand_le (h : After q q') : q'.demand ≤ q.demand := by
  refine (List.subperm_of_subset (List.nodup_dedup _) fun s hs => ?_).length_le
  rw [List.mem_dedup, List.mem_append, mem_left] at hs ⊢
  rcases hs with hs | hs
  · exact h.fresh s hs
  · exact .inr (h.whole_of hs)

/-- A pass clears every valid command it looks at. -/
theorem gone_foldl (h : q.Fit) (hdemand : q.demand ≤ maxRemoteIndexEntries)
    (hwhole : q.whole s = true) {names : List PyText} (hmem : readyName s ∈ names) :
    (names.foldl deliver q).Gone s := by
  induction names generalizing q with
  | nil => cases hmem
  | cons name names ih =>
    have hfirst := after_deliver h name
    rw [List.foldl_cons]
    rcases hfirst.whole s hwhole with hstill | ⟨hgone, -⟩
    · refine ih hfirst.fit (hfirst.demand_le.trans hdemand) hstill ?_
      rcases List.mem_cons.1 hmem with rfl | hmem
      · -- The command itself: it is cleared here.
        exfalso
        have hroom := (After.refl h).room hdemand hwhole
        rw [deliver, stemOf_readyName, if_pos (by rw [hwhole, hroom]; rfl)] at hstill
        exact (gone_clear q s).1 (whole_iff.1 hstill).2.1
      · exact hmem
    · exact (after_foldl hfirst.fit names).gone hgone

/-! ## Broken entries -/

/-- No entry becomes broken in a pass. -/
theorem After.stuck_le (h : After q q') (s : Stem) : q'.stuck s ≤ q.stuck s := by
  obtain ⟨keep, hkeep, -⟩ := h.names
  unfold stuck
  rw [hkeep, List.countP_filter]
  refine List.countP_mono_left fun name hname hbroken => ?_
  simp only [Bool.and_eq_true, Bool.not_eq_true'] at hbroken ⊢
  obtain ⟨⟨⟨hsuffix, hbroken⟩, hlt⟩, hkept⟩ := hbroken
  refine ⟨⟨hsuffix, ?_⟩, hlt⟩
  by_contra hwhole
  rw [Bool.not_eq_false] at hwhole
  rcases h.whole _ hwhole with hwhole' | ⟨hgone, -⟩
  · rw [hwhole'] at hbroken
    cases hbroken
  · refine hgone.2 ?_
    rw [readyName_stemOf hsuffix, hkeep]
    exact List.mem_filter.2 ⟨hname, hkept⟩

theorem countP_readyNames (folder : List PyText) (p : PyText → Bool) :
    (readyNames folder).countP p =
      folder.countP fun name => p name && (PyText.lit ".ready").isSuffixOf name := by
  rw [readyNames, (List.mergeSort_perm _ _).countP_eq, List.countP_filter]

/-- **Broken entries stay**, and are looked at before the commands behind
them. -/
theorem After.stuck_le_window (h : After q q') (s : Stem) :
    q.stuck s ≤ (readyNames q'.folder).countP (· < readyName s) := by
  obtain ⟨keep, hkeep, hlost⟩ := h.names
  rw [countP_readyNames, hkeep, List.countP_filter]
  refine List.countP_mono_left fun name _ hbroken => ?_
  simp only [Bool.and_eq_true, Bool.not_eq_true'] at hbroken ⊢
  obtain ⟨⟨hsuffix, hbroken⟩, hlt⟩ := hbroken
  refine ⟨⟨hlt, hsuffix⟩, ?_⟩
  by_contra hnot
  rw [Bool.not_eq_true] at hnot
  obtain ⟨s', hs', rfl | rfl⟩ := hlost name hnot
  · exact jsonName_ne_readyName s' _ (readyName_stemOf hsuffix).symm
  · rw [stemOf_readyName, hs'] at hbroken
    cases hbroken

/-- The first valid command has only broken entries before it. -/
theorem exists_first (hs : q.whole s = true) :
    ∃ s', q.whole s' = true ∧
      (readyNames q.folder).countP (· < readyName s') ≤ q.stuck s' := by
  have hfind : ((readyNames q.folder).find? fun name => q.whole (stemOf name)).isSome = true := by
    rw [List.find?_isSome]
    refine ⟨readyName s, readyName_mem_readyNames.2 (whole_iff.1 hs).2.2, ?_⟩
    rw [stemOf_readyName, hs]
  obtain ⟨name, hname⟩ := Option.isSome_iff_exists.1 hfind
  obtain ⟨hwhole, before, behind, hsplit, hbefore⟩ := List.find?_eq_some_iff_append.1 hname
  have hmem : name ∈ readyNames q.folder := by
    rw [hsplit]
    exact List.mem_append_right _ List.mem_cons_self
  have hself := readyName_stemOf (mem_readyNames.1 hmem).2
  refine ⟨stemOf name, hwhole, ?_⟩
  rw [countP_readyNames, stuck, hself]
  refine List.countP_mono_left fun other hother hcond => ?_
  simp only [Bool.and_eq_true, Bool.not_eq_true', decide_eq_true_eq] at hcond ⊢
  refine ⟨⟨hcond.2, ?_⟩, hcond.1⟩
  have hin : other ∈ before ++ name :: behind := by
    rw [← hsplit]
    exact mem_readyNames.2 ⟨hother, hcond.2⟩
  have hsorted := sorted_readyNames q.folder
  rw [hsplit, List.pairwise_append, List.pairwise_cons] at hsorted
  rcases List.mem_append.1 hin with hin | hin
  · simpa using hbefore other hin
  rcases List.mem_cons.1 hin with rfl | hin
  · exact absurd hcond.1 Std.lt_irrefl
  · exact absurd hcond.1 (Std.not_lt.2 (hsorted.2.1.1 other hin))

/-! ## All passes -/

theorem after_iterate (h : q.Fit) (n : ℕ) : After q (pass^[n] q) := by
  induction n generalizing q with
  | zero => exact .refl h
  | succ n ih =>
    have hfirst := after_pass h
    exact hfirst.trans (ih hfirst.fit)

/-- A pass leaves the commands alone it does not look at. -/
theorem whole_foldl {names : List PyText} (hmem : readyName s ∉ names)
    (hsuffix : ∀ name ∈ names, (PyText.lit ".ready").isSuffixOf name = true)
    (hwhole : q.whole s = true) : (names.foldl deliver q).whole s = true := by
  induction names generalizing q with
  | nil => exact hwhole
  | cons name names ih =>
    rw [List.mem_cons, not_or] at hmem
    refine ih hmem.2 (fun name hname => hsuffix name (List.mem_cons_of_mem _ hname)) ?_
    unfold deliver
    split
    · refine whole_clear_of_ne hwhole fun heq => hmem.1 ?_
      rw [heq, readyName_stemOf (hsuffix name List.mem_cons_self)]
    · exact hwhole

/-- A command that is cleared some time has few broken entries before it. -/
theorem stuck_lt_of_gone (h : After q q') (hwhole : q'.whole s = true) {n : ℕ}
    (hgone : (pass^[n] q').Gone s) : q.stuck s < maxFilesPerPass := by
  induction n generalizing q' with
  | zero => exact absurd (whole_iff.1 hwhole).2.1 hgone.1
  | succ n ih =>
    by_cases hwindow : readyName s ∈ (readyNames q'.folder).take maxFilesPerPass
    · exact (h.stuck_le_window s).trans_lt (mem_window_iff.1 hwindow).2
    · refine ih (h.trans (after_pass h.fit)) (whole_foldl hwindow (fun name hname => ?_) hwhole) hgone
      exact (mem_readyNames.1 (List.mem_of_mem_take hname)).2

/-- When all are cleared, the index holds the demand. -/
theorem demand_le_of_gone (h : After q q') (hgone : ∀ s, q.whole s = true → q'.Gone s) :
    q.demand ≤ maxRemoteIndexEntries := by
  refine le_trans ?_ h.fit.length
  refine (List.subperm_of_subset (List.nodup_dedup _) fun s hs => ?_).length_le
  rw [List.mem_dedup, List.mem_append, mem_left] at hs
  rcases hs with hs | hs
  · exact h.known s hs
  · rcases h.whole s hs with hstill | ⟨-, hknown⟩
    · exact absurd (whole_iff.1 hstill).2.1 (hgone s hs).1
    · exact hknown

/-- **The queue drains**: each pass clears the first valid command that is
left. -/
theorem exists_gone (h : q.Fit) (hdemand : q.demand ≤ maxRemoteIndexEntries)
    (hstuck : ∀ s, q.whole s = true → q.stuck s < maxFilesPerPass) :
    ∃ n, ∀ s, q.whole s = true → (pass^[n] q).Gone s := by
  -- The folder gets smaller while there is a valid command in it.
  induction hk : q.folder.length using Nat.strong_induction_on generalizing q with
  | _ k ih =>
  by_cases hleft : ∃ s, q.whole s = true
  · obtain ⟨s, hs⟩ := hleft
    obtain ⟨s, hs, hcount⟩ := exists_first hs
    have hafter := after_pass h
    have hgone : q.pass.Gone s := by
      refine gone_foldl h hdemand hs (mem_window_iff.2 ⟨?_, hcount.trans_lt (hstuck s hs)⟩)
      exact readyName_mem_readyNames.2 (whole_iff.1 hs).2.2
    have hless : q.pass.folder.length < k := by
      obtain ⟨keep, hkeep, -⟩ := hafter.names
      rw [← hk, hkeep, List.length_filter_lt_length_iff_exists]
      refine ⟨jsonName s, (whole_iff.1 hs).2.1, fun hkept => hgone.1 ?_⟩
      rw [hkeep]
      exact List.mem_filter.2 ⟨(whole_iff.1 hs).2.1, hkept⟩
    obtain ⟨n, hn⟩ := ih _ hless hafter.fit (hafter.demand_le.trans hdemand)
      (fun s hs => (hafter.stuck_le s).trans_lt (hstuck s (hafter.whole_of hs))) rfl
    refine ⟨n + 1, fun s hs => ?_⟩
    rw [Function.iterate_succ_apply]
    rcases hafter.whole s hs with hs | ⟨hs, -⟩
    · exact hn s hs
    · exact (after_iterate hafter.fit n).gone hs
  · exact ⟨0, fun s hs => absurd ⟨s, hs⟩ hleft⟩

/-- **When the queue drains.** -/
theorem exists_gone_iff (h : q.Fit) :
    (∃ n, ∀ s, q.whole s = true → (pass^[n] q).Gone s) ↔
      (∀ s, q.whole s = true → q.stuck s < maxFilesPerPass) ∧
        q.demand ≤ maxRemoteIndexEntries := by
  refine ⟨fun ⟨n, hn⟩ => ⟨fun s hs => ?_, ?_⟩, fun ⟨hstuck, hdemand⟩ => exists_gone h hdemand hstuck⟩
  · exact stuck_lt_of_gone (.refl h) hs (hn s hs)
  · exact demand_le_of_gone (after_iterate h n) hn

end Queue

/-! ## The relay when every call works -/

open Script (Steady)

/-- The call works, and no local file appears. -/
def works : Turn := ⟨[], .ok⟩

/-- What the relay counts as listed: its memory, or the index it will read. -/
def World.queue (w : World) : Queue := ⟨w.folder, w.stems.getD w.listed⟩

/-- What remote calls on a command's files leave alone. -/
structure Quiet (w w' : World) : Prop where
  folder : w'.folder = w.folder
  archived : w'.archived = w.archived
  stems : w'.stems = w.stems
  index : w'.remote .index = w.remote .index
  json : ∀ s, (w.remote (.json s)).isSome = true → (w'.remote (.json s)).isSome = true

variable {w w' w'' : World}

theorem Quiet.refl (w : World) : Quiet w w := ⟨rfl, rfl, rfl, rfl, fun _ h => h⟩

theorem Quiet.trans (h : Quiet w w') (h' : Quiet w' w'') : Quiet w w'' :=
  ⟨h'.folder.trans h.folder, h'.archived.trans h.archived, h'.stems.trans h.stems,
    h'.index.trans h.index, fun s hs => h'.json s (h.json s hs)⟩

theorem quiet_put {name : Name} {x : Option Stored} (hindex : name ≠ .index)
    (hjson : ∀ s, name = .json s → x.isSome = true) : Quiet w (w.put name x) := by
  refine ⟨rfl, rfl, rfl, World.remote_put_of_ne _ _ _ hindex.symm, fun s hs => ?_⟩
  by_cases hne : Name.json s = name
  · rw [hne, World.remote_put_self]
    exact hjson s hne.symm
  · rwa [World.remote_put_of_ne _ _ _ hne]

theorem arrive_nil (w : World) : w.arrive [] = w := by
  unfold World.arrive
  rw [List.append_nil, List.filter_nil, List.dedup_nil, List.append_nil]

theorem steady_run {command broken : World → Option World} (h : command w = some w') :
    Steady works (run command broken) w true w' := by
  refine Steady.call ?_
  simp only [works, arrive_nil, h]

theorem steady_run_none {command broken : World → Option World} (h : command w = none) :
    Steady works (run command broken) w false w := by
  refine Steady.call ?_
  simp only [works, arrive_nil, h]

theorem steady_remoteExists (w : World) (name : Name) :
    Steady works (remoteExists name) w (w.remote name).isSome w := by
  unfold remoteExists ssh
  cases h : (w.remote name).isSome with
  | true => exact steady_run (by rw [h]; rfl)
  | false => exact steady_run_none (by rw [h]; rfl)

theorem steady_scp (w : World) (n : ℕ) (x : Stored) :
    Steady works (scp n x) w true (w.put (.temp n) (some x)) := by
  unfold scp
  exact steady_run rfl

theorem steady_rename {n : ℕ} {x : Stored} (h : w.remote (.temp n) = some x) (target : Name) :
    Steady works (rename n target) w true ((w.put target (some x)).put (.temp n) none) := by
  unfold rename ssh
  refine steady_run ?_
  rw [h, Option.map_some]

theorem steady_chmod (w : World) : Steady works chmod w true w := by
  unfold chmod ssh
  exact steady_run rfl

theorem steady_freshName (w : World) :
    Steady works freshName w w.serial { w with serial := w.serial + 1 } :=
  Steady.get.bind ((Steady.modify _).bind (Steady.pure _))

theorem steady_remoteBridgeReady (w : World) :
    ∃ w', Steady works remoteBridgeReady w true w' ∧ Quiet w w' ∧ w'.remote = w.remote := by
  by_cases h : w.remoteReady = true
  · refine ⟨w, Steady.get.bind ?_, .refl w, rfl⟩
    exact Steady.ite (fun _ => Steady.pure true) fun hn => absurd h hn
  · refine ⟨{ w with remoteReady := true }, Steady.get.bind ?_, ⟨rfl, rfl, rfl, rfl, fun _ h => h⟩,
      rfl⟩
    refine Steady.ite (fun hn => absurd hn h) fun _ => ?_
    exact (steady_run rfl).bind ((Steady.modify _).bind (Steady.pure true))

/-- A file is there after it was placed. -/
theorem steady_place (w : World) {target : Name} (hindex : target ≠ .index)
    (htemp : ∀ n, target ≠ .temp n) :
    ∃ w', Steady works (place target) w true w' ∧ Quiet w w' ∧
      (w'.remote target).isSome = true := by
  have hexists := steady_remoteExists w target
  cases hthere : (w.remote target).isSome with
  | true =>
    rw [hthere] at hexists
    exact ⟨w, hexists.bind (Steady.pure true), .refl w, hthere⟩
  | false =>
    rw [hthere] at hexists
    let n := w.serial
    let w₁ : World := { w with serial := n + 1 }
    let w₂ := w₁.put (.temp n) (some .file)
    let w₃ := (w₂.put target (some .file)).put (.temp n) none
    have hquiet : Quiet w w₃ := by
      have hserial : Quiet w w₁ := ⟨rfl, rfl, rfl, rfl, fun _ h => h⟩
      have htemp (v : World) (x : Option Stored) : Quiet v (v.put (.temp n) x) :=
        quiet_put (by intro h; cases h) (by intro s h; cases h)
      exact ((hserial.trans (htemp _ _)).trans (quiet_put hindex fun _ _ => rfl)).trans (htemp _ _)
    refine ⟨w₃, ?_, hquiet, ?_⟩
    · refine hexists.bind ((steady_freshName w).bind ((steady_scp w₁ n .file).bind ?_))
      exact (steady_rename (World.remote_put_self _ _ _) target).bind (steady_chmod w₃)
    · rw [World.remote_put_of_ne _ _ _ (htemp n), World.remote_put_self]
      rfl

theorem steady_publishRemote (w : World) (s : Stem) :
    ∃ w', Quiet w w' ∧ Steady works (publishRemote s) w
      (List.elem (jsonName s) w.folder && List.elem (readyName s) w.folder) w' := by
  obtain ⟨w₁, hready, hquiet₁, -⟩ := steady_remoteBridgeReady w
  cases hlocal : List.elem (jsonName s) w.folder && List.elem (readyName s) w.folder with
  | false =>
    refine ⟨w₁, hquiet₁, hready.bind (Steady.get.bind ?_)⟩
    refine Steady.ite (fun _ => Steady.pure false) fun hn => absurd ?_ hn
    rw [hquiet₁.folder, hlocal]
    rfl
  | true =>
    have htemp (n : ℕ) : Name.json s ≠ .temp n ∧ Name.ready s ≠ .temp n := ⟨nofun, nofun⟩
    have hindex : Name.json s ≠ .index ∧ Name.ready s ≠ .index := ⟨nofun, nofun⟩
    obtain ⟨w₂, hjson, hquiet₂, hjson₂⟩ := steady_place w₁ hindex.1 fun n => (htemp n).1
    obtain ⟨w₃, hmarker, hquiet₃, hready₃⟩ := steady_place w₂ hindex.2 fun n => (htemp n).2
    refine ⟨w₃, (hquiet₁.trans hquiet₂).trans hquiet₃, hready.bind (Steady.get.bind ?_)⟩
    refine Steady.ite (fun hn => absurd hn ?_) fun _ => ?_
    · rw [hquiet₁.folder, hlocal]
      exact Bool.false_ne_true
    · have hjson₃ := steady_remoteExists w₃ (.json s)
      have hmarker₃ := steady_remoteExists w₃ (.ready s)
      rw [hquiet₃.json s hjson₂] at hjson₃
      rw [hready₃] at hmarker₃
      exact hjson.bind (hmarker.bind (hjson₃.bind hmarker₃))

/-- An index the relay may hold is short enough to be written. -/
theorem encodedSize_le {l : List Stem} (h : wellFormed l = true) :
    encodedSize l ≤ 256 * 1024 := by
  obtain ⟨hlen, hsafe, -⟩ := wellFormed_iff_forall.1 h
  have hsum : (l.map fun s => s.length + 3).sum ≤ l.length * 131 := by
    clear h hlen
    induction l with
    | nil => simp
    | cons s l ih =>
      have hs := hsafe s List.mem_cons_self
      rw [safeStem, Bool.and_eq_true, decide_eq_true_eq] at hs
      have htail := ih fun s hs => hsafe s (List.mem_cons_of_mem _ hs)
      rw [List.map_cons, List.sum_cons, List.length_cons]
      omega
  unfold encodedSize
  unfold maxRemoteIndexEntries at hlen
  omega

theorem steady_writeRemoteCommandIndex {l : List Stem} (hl : w.stems = some l)
    (hwell : wellFormed l = true) :
    ∃ w', Steady works writeRemoteCommandIndex w true w' ∧ w'.folder = w.folder ∧
      w'.archived = w.archived ∧ w'.stems = w.stems := by
  obtain ⟨w₁, hready, hquiet, -⟩ := steady_remoteBridgeReady w
  let n := w₁.serial
  let w₂ : World := { w₁ with serial := n + 1 }
  let w₃ := w₂.put (.temp n) (some (.stems l))
  let w₄ := (w₃.put .index (some (.stems l))).put (.temp n) none
  refine ⟨w₄, ?_, hquiet.folder, hquiet.archived, hquiet.stems⟩
  refine Steady.get.bind ?_
  rw [hl]
  refine hready.bind (Steady.ite (fun hn => absurd hn Bool.false_ne_true) fun _ => ?_)
  refine Steady.ite (fun hn => absurd (encodedSize_le hwell) (by omega)) fun _ => ?_
  refine (steady_freshName w₁).bind ((steady_scp w₂ n (.stems l)).bind ?_)
  exact (steady_rename (World.remote_put_self _ _ _) .index).bind (steady_chmod w₄)

/-- What a pass may do to the local files: a command leaves the folder for
the archive only. -/
structure Shelved (w w' : World) : Prop where
  archived : ∀ s ∈ w.archived, s ∈ w'.archived
  kept : ∀ s, jsonName s ∈ w.folder → jsonName s ∈ w'.folder ∨ s ∈ w'.archived

theorem Shelved.trans (h : Shelved w w') (h' : Shelved w' w'') : Shelved w w'' := by
  refine ⟨fun s hs => h'.archived s (h.archived s hs), fun s hs => ?_⟩
  rcases h.kept s hs with hs | hs
  · exact h'.kept s hs
  · exact .inr (h'.archived s hs)

theorem shelved_of_eq (hfolder : w'.folder = w.folder) (harchived : w'.archived = w.archived) :
    Shelved w w' := by
  refine ⟨fun s hs => ?_, fun s hs => .inl ?_⟩
  · rwa [harchived]
  · rwa [hfolder]

theorem steady_archiveLocalCommand (w : World) (s : Stem) :
    ∃ w', Steady works (archiveLocalCommand s) w () w' ∧ Shelved w w' ∧
      w'.folder = (w.folder.filter (· != jsonName s)).filter (· != readyName s) ∧
      w'.stems = w.stems := by
  let w₁ : World :=
    { w with folder := w.folder.filter (· != jsonName s), archived := s :: w.archived }
  let w₂ : World :=
    { w₁ with folder := w₁.folder.filter (· != readyName s), archived := s :: w₁.archived }
  have hjson : Steady works (archiveFile s (jsonName s)) w true w₁ := steady_run rfl
  have hready : Steady works (archiveFile s (readyName s)) w₁ true w₂ := steady_run rfl
  refine ⟨w₂, hjson.bind (hready.bind (Steady.pure ())), ⟨fun s' hs' => ?_, fun s' hs' => ?_⟩, rfl,
    rfl⟩
  · exact List.mem_cons_of_mem _ (List.mem_cons_of_mem _ hs')
  · by_cases heq : s' = s
    · exact .inr (List.mem_cons.2 (.inl heq))
    · refine .inl (List.mem_filter.2 ⟨List.mem_filter.2 ⟨hs', ?_⟩, ?_⟩)
      · exact bne_iff_ne.2 fun h => heq (jsonName_injective h)
      · exact bne_iff_ne.2 (jsonName_ne_readyName s' s)

theorem queue_of_stems {m : List Stem} (h : w.stems = some m) : w.queue = ⟨w.folder, m⟩ := by
  unfold World.queue
  rw [h, Option.getD_some]

/-- A command that is on the game host is listed and archived if there is
room. -/
theorem steady_recordOne {m : List Stem} {s : Stem} (hm : w.stems = some m)
    (hwell : (w.queue.clear s).Fit → w.queue.room s = true →
      wellFormed (w.queue.clear s).known = true) (hfit : w.queue.Fit) :
    ∃ b w', Steady works (recordOne s) w b w' ∧ Shelved w w' ∧
      if w.queue.room s then
        w'.folder = (w.queue.clear s).folder ∧ w'.stems = some (w.queue.clear s).known
      else w' = w := by
  have hqueue := queue_of_stems hm
  by_cases hmem : List.elem s m = true
  · -- The stem is listed already.
    obtain ⟨w₁, harchive, hshelved, hfolder, hstems⟩ := steady_archiveLocalCommand w s
    refine ⟨true, w₁, Steady.get.bind ?_, hshelved, ?_⟩
    · rw [hm]
      exact Steady.ite (fun _ => harchive.bind (Steady.pure true)) fun hn => absurd hmem hn
    · rw [hqueue, if_pos (by rw [Queue.room, hmem]; rfl), hfolder, hstems, hm, Queue.clear,
        if_pos hmem]
      exact ⟨rfl, rfl⟩
  by_cases hfull : maxRemoteIndexEntries ≤ m.length
  · have hroom : w.queue.room s = false := by
      rw [hqueue, Queue.room, Bool.or_eq_false_iff]
      exact ⟨by simpa using hmem, decide_eq_false (not_lt.2 hfull)⟩
    refine ⟨false, w, Steady.get.bind ?_, shelved_of_eq rfl rfl, ?_⟩
    · rw [hm]
      refine Steady.ite (fun hn => absurd hn hmem) fun _ => ?_
      exact Steady.ite (fun _ => Steady.pure false) fun hn => absurd hfull hn
    · rw [hroom, if_neg Bool.false_ne_true]
  · have hroom : w.queue.room s = true := by
      rw [hqueue, Queue.room, Bool.or_eq_true]
      exact .inr (decide_eq_true (not_le.1 hfull))
    have hknown : (w.queue.clear s).known = m ++ [s] := by
      rw [hqueue, Queue.clear, if_neg hmem]
    let w₁ : World := { w with stems := some (m ++ [s]) }
    have hwell' := hwell (hfit.clear hroom) hroom
    rw [hknown] at hwell'
    obtain ⟨w₂, hwrite, hfolder₂, harchived₂, hstems₂⟩ :=
      steady_writeRemoteCommandIndex (w := w₁) rfl hwell'
    obtain ⟨w₃, harchive, hshelved, hfolder, hstems⟩ := steady_archiveLocalCommand w₂ s
    have hlisted : Shelved w w₂ := shelved_of_eq hfolder₂ harchived₂
    refine ⟨true, w₃, Steady.get.bind ?_, hlisted.trans hshelved, ?_⟩
    · rw [hm]
      refine Steady.ite (fun hn => absurd hn hmem) fun _ => ?_
      refine Steady.ite (fun hn => absurd hn hfull) fun _ => ?_
      refine (Steady.modify _).bind (hwrite.bind ?_)
      refine Steady.ite (fun hn => absurd hn Bool.false_ne_true) fun _ => ?_
      exact harchive.bind (Steady.pure true)
    · rw [if_pos hroom, hfolder, hstems, hfolder₂, hstems₂, hknown, hqueue]
      exact ⟨rfl, rfl⟩

/-- The relay's index, remembered or to be read, is well formed. -/
theorem Ready.wellFormed_known (h : Ready w) : wellFormed w.queue.known = true := by
  unfold World.queue
  cases hm : w.stems with
  | none =>
    obtain ⟨l, hl, hwell⟩ := h.sound.index
    rw [Option.getD_none, listed_of_index hl]
    exact hwell
  | some m => exact (h.sound.memory m hm).1

theorem Ready.fit (h : Ready w) : w.queue.Fit := by
  obtain ⟨hlen, -, hnodup⟩ := wellFormed_iff_forall.1 h.wellFormed_known
  exact ⟨hnodup, hlen⟩

theorem wellFormed_clear {q : Queue} {s : Stem} (h : wellFormed q.known = true)
    (hsafe : safeStem s = true) (hfit : (q.clear s).Fit) : wellFormed (q.clear s).known = true := by
  obtain ⟨-, hall, -⟩ := wellFormed_iff_forall.1 h
  refine wellFormed_iff_forall.2 ⟨hfit.length, fun s' hs' => ?_, hfit.nodup⟩
  rcases Queue.mem_clear_known.1 hs' with hs' | rfl
  · exact hall s' hs'
  · exact hsafe

/-- **One entry** of the folder is handled as in the queue. -/
theorem steady_pushOne (hw : Ready w) (hm : w.stems.isSome = true) (name : PyText) :
    ∃ b w', Steady works (pushOne name) w b w' ∧ Shelved w w' ∧ w'.stems.isSome = true ∧
      w'.queue = w.queue.deliver name := by
  obtain ⟨m, hm⟩ := Option.isSome_iff_exists.1 hm
  obtain ⟨s, hs⟩ : ∃ s, s = stemOf name := ⟨_, rfl⟩
  -- Entries that are passed over leave the queue as it is.
  have hskip {w' : World} (hquiet : Quiet w w')
      (hcond : (w.queue.whole s && w.queue.room s) = false) :
      Shelved w w' ∧ w'.stems.isSome = true ∧ w'.queue = w.queue.deliver name := by
    refine ⟨shelved_of_eq hquiet.folder hquiet.archived, ?_, ?_⟩
    · rw [hquiet.stems, hm]
      rfl
    · rw [Queue.deliver, ← hs, if_neg (by rw [hcond]; exact Bool.false_ne_true), queue_of_stems hm,
        queue_of_stems (hquiet.stems.trans hm), hquiet.folder]
  unfold pushOne
  rw [← hs]
  by_cases hsafe : safeStem s = true
  swap
  · refine ⟨false, w, Steady.ite (fun _ => Steady.pure false) fun hn => absurd ?_ hn,
      hskip (.refl w) ?_⟩
    · rw [Bool.not_eq_true] at hsafe
      rw [hsafe]
      rfl
    · rw [Queue.whole, Bool.eq_false_of_not_eq_true hsafe]
      rfl
  obtain ⟨w₁, hquiet, hpublish⟩ := steady_publishRemote w s
  have hwhole : w.queue.whole s =
      (List.elem (jsonName s) w.folder && List.elem (readyName s) w.folder) := by
    rw [Queue.whole, hsafe, Bool.true_and]
    rfl
  rw [← hwhole] at hpublish
  have hpublished {b : Bool} {w' : World}
      (h : Steady works (if (!w.queue.whole s) = true then pure false else recordOne s) w₁ b w') :
      Steady works (if (!safeStem s) = true then pure false else do
        let there ← publishRemote s
        if !there then pure false else recordOne s) w b w' :=
    Steady.ite (fun hn => absurd hn (by rw [hsafe]; exact Bool.false_ne_true)) fun _ =>
      hpublish.bind h
  by_cases hlocal : w.queue.whole s = true
  swap
  · rw [Bool.not_eq_true] at hlocal
    refine ⟨false, w₁, hpublished ?_, hskip hquiet ?_⟩
    · rw [hlocal]
      exact Steady.pure false
    · rw [hlocal]
      rfl
  have hm₁ : w₁.stems = some m := hquiet.stems.trans hm
  have hqueue₁ : w₁.queue = w.queue := by
    rw [queue_of_stems hm, queue_of_stems hm₁, hquiet.folder]
  obtain ⟨b, w₂, hrecord, hshelved, hresult⟩ := steady_recordOne (s := s) hm₁
    (fun hfit _ => wellFormed_clear (by rw [hqueue₁]; exact hw.wellFormed_known) hsafe hfit)
    (by rw [hqueue₁]; exact hw.fit)
  have hrun : Steady works (if (!w.queue.whole s) = true then pure false else recordOne s) w₁ b w₂ := by
    rw [hlocal]
    exact hrecord
  rw [hqueue₁] at hresult
  cases hroom : w.queue.room s with
  | false =>
    rw [hroom, if_neg Bool.false_ne_true] at hresult
    rw [hresult] at hrun
    exact ⟨b, w₁, hpublished hrun, hskip hquiet (by rw [hroom, Bool.and_false])⟩
  | true =>
    rw [hroom, if_pos rfl] at hresult
    refine ⟨b, w₂, hpublished hrun, (shelved_of_eq hquiet.folder hquiet.archived).trans hshelved,
      ?_, ?_⟩
    · rw [hresult.2]
      rfl
    · rw [queue_of_stems hresult.2, hresult.1, Queue.deliver, ← hs,
        if_pos (by rw [hlocal, hroom]; rfl)]

theorem steady_pushAll (hw : Ready w) (hm : w.stems.isSome = true) (names : List PyText) :
    ∃ n w', Steady works (pushAll names) w n w' ∧ Shelved w w' ∧
      w'.queue = names.foldl Queue.deliver w.queue := by
  induction names generalizing w with
  | nil => exact ⟨0, w, Steady.pure 0, shelved_of_eq rfl rfl, rfl⟩
  | cons name names ih =>
    obtain ⟨b, w₁, hone, hshelved, hm₁, hqueue⟩ := steady_pushOne hw hm name
    obtain ⟨n, w₂, hrest, hshelved', hqueue'⟩ := ih (holds_pushOne.steady hw hone) hm₁
    refine ⟨_, w₂, hone.bind (hrest.bind (Steady.pure _)), hshelved.trans hshelved', ?_⟩
    rw [hqueue', hqueue, List.foldl_cons]

theorem steady_loadRemoteCommandIndex (hw : Ready w) :
    ∃ w', Steady works loadRemoteCommandIndex w true w' ∧ w'.folder = w.folder ∧
      w'.archived = w.archived ∧ w'.stems = some w.queue.known := by
  unfold World.queue
  cases hm : w.stems with
  | some m =>
    refine ⟨w, Steady.get.bind (Steady.ite (fun _ => Steady.pure true) fun hn => absurd ?_ hn), rfl,
      rfl, hm⟩
    rw [hm]
    rfl
  | none =>
    obtain ⟨l, hl, hwell⟩ := hw.sound.index
    obtain ⟨w₁, hready, hquiet, hremote⟩ := steady_remoteBridgeReady w
    have hcat : Steady works (cat .index) w₁ (some (.stems l)) w₁ := by
      refine Steady.call ?_
      simp only [works, arrive_nil, hremote, hl]
    refine ⟨{ w₁ with stems := some l }, Steady.get.bind ?_, hquiet.folder, hquiet.archived, ?_⟩
    · refine Steady.ite (fun hn => absurd hn ?_) fun _ => hready.bind ?_
      · rw [hm]
        exact Bool.false_ne_true
      refine Steady.ite (fun hn => absurd hn Bool.false_ne_true) fun _ => hcat.bind ?_
      exact Steady.ite (fun _ => (Steady.modify _).bind (Steady.pure true)) fun hn => absurd hwell hn
    · rw [Option.getD_none, listed_of_index hl]

/-- **A pass does what the queue does**, when every call works. -/
theorem steady_push (hw : Ready w) :
    ∃ n w', Steady works push w n w' ∧ Shelved w w' ∧ w'.queue = w.queue.pass := by
  obtain ⟨w₁, hload, hfolder, harchived, hstems⟩ := steady_loadRemoteCommandIndex hw
  have hqueue₁ : w₁.queue = w.queue := by
    rw [queue_of_stems hstems, hfolder]
    rfl
  have hw₁ := holds_loadRemoteCommandIndex.steady hw hload
  obtain ⟨n, w₂, hall, hshelved, hqueue⟩ := steady_pushAll hw₁ (by rw [hstems]; rfl)
    ((readyNames w₁.folder).take maxFilesPerPass)
  refine ⟨n, w₂, hload.bind ?_, (shelved_of_eq hfolder harchived).trans hshelved, ?_⟩
  · exact Steady.ite (fun hn => absurd hn Bool.false_ne_true) fun _ => Steady.get.bind hall
  · rw [hqueue, hqueue₁, hfolder]
    rfl

/-! ## Rounds -/

/-- Some commands are taken away by the game host, then a pass goes well. -/
def round (w : World) (taken : List Stem) : World :=
  step (Machine.run step w (taken.map .consume)) (.pass fun _ => works)

/-- A number of rounds; what is taken before each is given. -/
def rounds (w : World) (taken : ℕ → List Stem) : ℕ → World
  | 0 => w
  | n + 1 => round (rounds w taken n) (taken n)

/-- The command is listed, and its files are in the archive and no longer in
the folder. -/
structure Delivered (w : World) (s : Stem) : Prop where
  listed : s ∈ w.listed
  archived : s ∈ w.archived
  gone : w.queue.Gone s

theorem step_consume (w : World) (s : Stem) :
    (step w (.consume s)).queue = w.queue ∧ Shelved w (step w (.consume s)) := by
  show (if List.elem s w.listed then w.consume s else w).queue = w.queue ∧
    Shelved w (if List.elem s w.listed then w.consume s else w)
  split
  · refine ⟨?_, shelved_of_eq rfl rfl⟩
    unfold World.queue
    rw [listed_consume]
    rfl
  · exact ⟨rfl, shelved_of_eq rfl rfl⟩

theorem run_consume (w : World) (taken : List Stem) :
    (Machine.run step w (taken.map .consume)).queue = w.queue ∧
      Shelved w (Machine.run step w (taken.map .consume)) := by
  induction taken generalizing w with
  | nil => exact ⟨rfl, shelved_of_eq rfl rfl⟩
  | cons s taken ih =>
    obtain ⟨hqueue, hshelved⟩ := step_consume w s
    obtain ⟨hqueue', hshelved'⟩ := ih (step w (.consume s))
    exact ⟨hqueue'.trans hqueue, hshelved.trans hshelved'⟩

theorem round_spec (h : Ready w) (taken : List Stem) :
    Ready (round w taken) ∧ (round w taken).queue = w.queue.pass ∧ Shelved w (round w taken) := by
  obtain ⟨hqueue, hshelved⟩ := run_consume w taken
  have hready := h.run (taken.map .consume)
  obtain ⟨n, w', hpush, hshelved', hpass⟩ := steady_push hready
  have hround : round w taken = w' := by
    show afterPass (push _ fun _ => works) = w'
    rw [show push (Machine.run step w (taken.map .consume)) (fun _ => works) = _ from hpush]
    rfl
  refine ⟨hready.step _, ?_, ?_⟩
  · rw [hround, hpass, hqueue]
  · rw [hround]
    exact hshelved.trans hshelved'

theorem rounds_spec (h : Ready w) (taken : ℕ → List Stem) (n : ℕ) :
    Ready (rounds w taken n) ∧ (rounds w taken n).queue = Queue.pass^[n] w.queue ∧
      Shelved w (rounds w taken n) := by
  induction n with
  | zero => exact ⟨h, rfl, shelved_of_eq rfl rfl⟩
  | succ n ih =>
    obtain ⟨hready, hqueue, hshelved⟩ := ih
    obtain ⟨hready', hqueue', hshelved'⟩ := round_spec hready (taken n)
    refine ⟨hready', ?_, hshelved.trans hshelved'⟩
    rw [Function.iterate_succ_apply', ← hqueue]
    exact hqueue'

/-- A valid command is delivered when its files are gone. -/
theorem delivered_iff_gone (h : Ready w) (taken : ℕ → List Stem) (n : ℕ) {s : Stem}
    (hs : w.queue.whole s = true) :
    Delivered (rounds w taken n) s ↔ (Queue.pass^[n] w.queue).Gone s := by
  obtain ⟨hready, hqueue, hshelved⟩ := rounds_spec h taken n
  refine ⟨fun hd => hqueue ▸ hd.gone, fun hgone => ?_⟩
  rw [← hqueue] at hgone
  have harchived : s ∈ (rounds w taken n).archived :=
    (hshelved.kept s (Queue.whole_iff.1 hs).2.1).resolve_left hgone.1
  exact ⟨hready.sound.archived s harchived, harchived, hgone⟩

theorem all_delivered_iff (h : Ready w) (taken : ℕ → List Stem) :
    (∃ n, ∀ s, w.queue.whole s = true → Delivered (rounds w taken n) s) ↔
      (∀ s, w.queue.whole s = true → w.queue.stuck s < maxFilesPerPass) ∧
        w.queue.demand ≤ maxRemoteIndexEntries := by
  rw [← Queue.exists_gone_iff h.fit]
  refine exists_congr fun n => forall_congr' fun s => ?_
  exact imp_congr_right fun hs => delivered_iff_gone h taken n hs

variable {w₀ : World}

/-- **When every command is delivered.** After any history, and whatever
the game host takes away between the passes, every valid command of the
folder is delivered in the end just when fewer broken entries than a pass
looks at stand before each, and the index holds what it lists and them. -/
theorem eventually_delivered_iff (h : Start w₀) (history : List Op) (taken : ℕ → List Stem) :
    (∃ n, ∀ s, (Machine.run step w₀ history).queue.whole s = true →
        Delivered (rounds (Machine.run step w₀ history) taken n) s) ↔
      (∀ s, (Machine.run step w₀ history).queue.whole s = true →
        (Machine.run step w₀ history).queue.stuck s < maxFilesPerPass) ∧
        (Machine.run step w₀ history).queue.demand ≤ maxRemoteIndexEntries :=
  all_delivered_iff (h.ready₀.run history) taken

/-- A command after an earlier one, which the game host took away, and one
more pass. -/
theorem eventually_delivered_iff_found :
    let w := Machine.run step
      (found [] [jsonName (PyText.lit "b"), readyName (PyText.lit "b")]) [.pass fun _ => works]
    (∃ n, ∀ s, w.queue.whole s = true → Delivered (rounds w (fun _ => [PyText.lit "b"]) n) s) ↔
      (∀ s, w.queue.whole s = true → w.queue.stuck s < maxFilesPerPass) ∧
        w.queue.demand ≤ maxRemoteIndexEntries :=
  eventually_delivered_iff (found_start (by decide) _) _ _

/-- A command behind 256 entries without a safe stem. -/
def crowded : List PyText :=
  (List.range 256).map (fun n => List.replicate (n + 1) '!' ++ PyText.lit ".ready") ++
    [jsonName (PyText.lit "b"), readyName (PyText.lit "b")]

/-- The command is valid, and no number of passes delivers it. -/
theorem crowded_never_delivered :
    Start (found [] crowded) ∧ (found [] crowded).queue.whole (PyText.lit "b") = true ∧
      ∀ n, ¬ Delivered (rounds (found [] crowded) (fun _ => []) n) (PyText.lit "b") := by
  have hstart : Start (found [] crowded) := found_start (by decide) _
  have hwhole : (found [] crowded).queue.whole (PyText.lit "b") = true := by decide
  refine ⟨hstart, hwhole, fun n hdelivered => ?_⟩
  have hgone := (delivered_iff_gone hstart.ready₀ _ n hwhole).1 hdelivered
  have hstuck := Queue.stuck_lt_of_gone (.refl hstart.ready₀.fit) hwhole hgone
  have hcount : (found [] crowded).queue.stuck (PyText.lit "b") = 256 := by decide +kernel
  rw [hcount] at hstuck
  exact absurd hstuck (lt_irrefl 256)

end Relay

end GoblinZomboid
