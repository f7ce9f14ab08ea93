import GoblinZomboid.Agent.Ipc
import Mathlib.Data.List.Dedup
/-!
# At most once

The ledger forgets an id only when it is full of ids at least as new. If it
has room for all ids that are not too old yet, the id it forgets is too old
to be taken again, now and at every later poll.
-/

namespace GoblinZomboid

namespace Ipc

open Protocol (Message Age)

/-- The ids of a ledger. -/
def ids (entries : Entries) : List PyText := entries.map Prod.fst

/-- The ids the ledger was given that are not too old at this time. -/
def Desk.recent (b : Bounds) (now : ℤ) (d : Desk) : List PyText :=
  (ids (d.remembered.filter fun e => now - b.maxAgeMs ≤ e.2)).dedup

/-- **The proviso.** The clock does not go back, and after the poll the
ledger has room for every id that is not too old. -/
def Roomy (c : Consumer) (b : Bounds) (d : Desk) : Step → Prop
  | .poll now limit items => d.clock ≤ now ∧
      ((step c b d (.poll now limit items)).recent b now).length ≤ b.maxEntries
  | .reload => True

/-- The pair is in the ledger, in memory and on disk, or too old. -/
def Guarded (b : Bounds) (d : Desk) (e : PyText × ℤ) : Prop :=
  (e ∈ d.entries ∧ ∃ entries, d.file = some entries ∧ e ∈ entries) ∨ e.2 < d.clock - b.maxAgeMs

/-- **The invariant** of the ledger, for these pairs. -/
structure Inv (b : Bounds) (d : Desk) (pairs : List (PyText × ℤ)) : Prop where
  nodup : (ids d.entries).Nodup
  given : ∀ e ∈ d.entries, e ∈ d.remembered
  file : ∀ entries, d.file = some entries →
    (ids entries).Nodup ∧ entries.length ≤ b.maxEntries ∧ ∀ e ∈ entries, e ∈ d.remembered
  once : pairs.Nodup
  valid : ∀ e ∈ pairs, Protocol.validRequestId e.1 = true
  guarded : ∀ e ∈ pairs, Guarded b d e

variable {b : Bounds} {c : Consumer} {d : Desk} {pairs : List (PyText × ℤ)}

/-! ## Forgetting -/

theorem length_trim_le (k : ℕ) (entries : Entries) : (trim k entries).length ≤ k := by
  unfold trim
  split
  · assumption
  · exact List.length_take_le _ _

theorem trim_subset {k : ℕ} {entries : Entries} {e : PyText × ℤ} (h : e ∈ trim k entries) :
    e ∈ entries := by
  unfold trim at h
  split at h
  · exact h
  · exact List.mem_mergeSort.1 (List.mem_of_mem_take h)

theorem nodup_trim {k : ℕ} {entries : Entries} (h : (ids entries).Nodup) :
    (ids (trim k entries)).Nodup := by
  unfold trim
  split
  · exact h
  · have hperm : (ids (entries.mergeSort fun a b => b.2 ≤ a.2)).Perm (ids entries) :=
      (List.mergeSort_perm _ _).map Prod.fst
    have hsub : (ids ((entries.mergeSort fun a b => b.2 ≤ a.2).take k)).Sublist
        (ids (entries.mergeSort fun a b => b.2 ≤ a.2)) := (List.take_sublist _ _).map Prod.fst
    exact hsub.nodup (hperm.nodup_iff.2 h)

/-- **What is forgotten** is no newer than anything that is kept, and as many
are kept as there is room for. -/
theorem forgotten_spec {k : ℕ} {entries : Entries} {e : PyText × ℤ} (he : e ∈ entries)
    (hgone : e ∉ trim k entries) :
    (trim k entries).length = k ∧ ∀ e' ∈ trim k entries, e.2 ≤ e'.2 := by
  unfold trim at hgone ⊢
  split at hgone
  · exact absurd he hgone
  · rename_i hlong
    rw [if_neg hlong]
    generalize hs : (entries.mergeSort fun a b => decide (b.2 ≤ a.2)) = sorted at hgone ⊢
    have hlen : sorted.length = entries.length := by
      rw [← hs, List.length_mergeSort]
    have htrans (x y z : PyText × ℤ) (hxy : decide (y.2 ≤ x.2) = true)
        (hyz : decide (z.2 ≤ y.2) = true) : decide (z.2 ≤ x.2) = true :=
      decide_eq_true ((of_decide_eq_true hyz).trans (of_decide_eq_true hxy))
    have htotal (x y : PyText × ℤ) : (decide (y.2 ≤ x.2) || decide (x.2 ≤ y.2)) = true := by
      rw [Bool.or_eq_true, decide_eq_true_eq, decide_eq_true_eq]
      exact le_total _ _
    have hsorted := List.pairwise_mergeSort htrans htotal entries
    rw [hs, ← List.take_append_drop k sorted, List.pairwise_append] at hsorted
    have hmem : e ∈ sorted := by
      rw [← hs]
      exact List.mem_mergeSort.2 he
    rw [← List.take_append_drop k sorted, List.mem_append] at hmem
    have hdrop := hmem.resolve_left hgone
    refine ⟨?_, fun e' he' => of_decide_eq_true (hsorted.2.2 e' he' e hdrop)⟩
    rw [List.length_take]
    omega

/-- With room for all ids that are not too old, what is forgotten is too
old. -/
theorem old_of_forgotten {entries : Entries} {now : ℤ} (hnodup : (ids entries).Nodup)
    (hgiven : ∀ e ∈ entries, e ∈ d.remembered)
    (hroom : (d.recent b now).length ≤ b.maxEntries) {e : PyText × ℤ} (he : e ∈ entries)
    (hgone : e ∉ trim b.maxEntries entries) : e.2 < now - b.maxAgeMs := by
  obtain ⟨hlen, hnewer⟩ := forgotten_spec he hgone
  by_contra hrecent
  rw [not_lt] at hrecent
  -- The kept ids and the forgotten one are all recent, and one too many.
  have hall : ∀ e' ∈ e :: trim b.maxEntries entries, e' ∈ entries ∧ now - b.maxAgeMs ≤ e'.2 := by
    intro e' he'
    rcases List.mem_cons.1 he' with rfl | he'
    · exact ⟨he, hrecent⟩
    · exact ⟨trim_subset he', hrecent.trans (hnewer e' he')⟩
  have hdistinct : (ids (e :: trim b.maxEntries entries)).Nodup := by
    refine List.nodup_cons.2 ⟨fun hid => ?_, nodup_trim hnodup⟩
    obtain ⟨e', he', hid⟩ := List.mem_map.1 hid
    have heq : e' = e := List.inj_on_of_nodup_map hnodup (trim_subset he') he hid
    exact hgone (heq ▸ he')
  have hsubset : ids (e :: trim b.maxEntries entries) ⊆ d.recent b now := by
    intro id hid
    obtain ⟨e', he', rfl⟩ := List.mem_map.1 hid
    obtain ⟨hmem, htime⟩ := hall e' he'
    exact List.mem_dedup.2 (List.mem_map_of_mem
      (List.mem_filter.2 ⟨hgiven e' hmem, decide_eq_true htime⟩))
  have hle := (List.subperm_of_subset hdistinct hsubset).length_le
  rw [ids, List.length_map, List.length_cons, hlen] at hle
  omega

/-! ## Remembering -/

theorem seen_eq_false {entries : Entries} {id : PyText} :
    seen entries id = false ↔ id ∉ ids entries := by
  rw [seen, List.any_eq_false, ids, List.mem_map]
  refine ⟨fun h ⟨e, he, hid⟩ => h e he (decide_eq_true hid), fun h e he hid => h ⟨e, he, ?_⟩⟩
  exact of_decide_eq_true hid

/-- What a step leaves: the pairs given, and the time. -/
structure Grows (d d' : Desk) : Prop where
  remembered : ∀ e ∈ d.remembered, e ∈ d'.remembered
  clock : d'.clock = d.clock
  returned : d'.returned = d.returned

theorem Grows.refl (d : Desk) : Grows d d := ⟨fun _ h => h, rfl, rfl⟩

theorem Grows.trans {d' d'' : Desk} (h : Grows d d') (h' : Grows d' d'') : Grows d d'' :=
  ⟨fun e he => h'.remembered e (h.remembered e he), h'.clock.trans h.clock,
    h'.returned.trans h.returned⟩

theorem recent_mono {d' : Desk} (h : ∀ e ∈ d.remembered, e ∈ d'.remembered) (now : ℤ) :
    (d.recent b now).length ≤ (d'.recent b now).length := by
  refine (List.subperm_of_subset (List.nodup_dedup _) fun id hid => ?_).length_le
  obtain ⟨e, he, rfl⟩ := List.mem_map.1 (List.mem_dedup.1 hid)
  obtain ⟨hmem, htime⟩ := List.mem_filter.1 he
  exact List.mem_dedup.2 (List.mem_map_of_mem (List.mem_filter.2 ⟨h e hmem, htime⟩))

theorem grows_remember (d : Desk) (id : PyText) (time : ℤ) (write : Write) :
    Grows d (remember b d id time write) := ⟨fun _ he => List.mem_cons_of_mem _ he, rfl, rfl⟩

/-- **Remembering an id** keeps the pairs guarded, and guards the new one
once the ledger is written. -/
theorem Inv.remember (h : Inv b d pairs) {id : PyText} {time : ℤ} {write : Write}
    (hnew : seen d.entries id = false)
    (hroom : ((remember b d id time write).recent b d.clock).length ≤ b.maxEntries) :
    Inv b (remember b d id time write) pairs ∧
      (write = .ok → Guarded b (remember b d id time write) (id, time)) := by
  have hassign : assign d.entries id time = d.entries ++ [(id, time)] := by
    unfold assign
    rw [if_neg (by rw [hnew]; exact Bool.false_ne_true)]
  have hnodup : (ids (d.entries ++ [(id, time)])).Nodup := by
    rw [ids, List.map_append]
    refine List.Nodup.append h.nodup (List.nodup_singleton _) ?_
    rw [List.map_singleton, List.disjoint_singleton]
    exact seen_eq_false.1 hnew
  have hgiven : ∀ e ∈ d.entries ++ [(id, time)], e ∈ (id, time) :: d.remembered := by
    intro e he
    rcases List.mem_append.1 he with he | he
    · exact List.mem_cons_of_mem _ (h.given e he)
    · exact List.mem_cons.2 (.inl (List.mem_singleton.1 he))
  -- What does not stay is too old.
  have hstays : ∀ e ∈ d.entries ++ [(id, time)],
      e ∈ trim b.maxEntries (d.entries ++ [(id, time)]) ∨ e.2 < d.clock - b.maxAgeMs := by
    intro e he
    by_cases hkept : e ∈ trim b.maxEntries (d.entries ++ [(id, time)])
    · exact .inl hkept
    · exact .inr (old_of_forgotten (d := Ipc.remember b d id time write) hnodup hgiven hroom he hkept)
  have hentries : (Ipc.remember b d id time write).entries =
      trim b.maxEntries (d.entries ++ [(id, time)]) := by
    rw [Ipc.remember, hassign]
  have hfile : (Ipc.remember b d id time write).file =
      if write = .failed then d.file else some (trim b.maxEntries (d.entries ++ [(id, time)])) := by
    rw [Ipc.remember, hassign]
  refine ⟨⟨?_, fun e he => ?_, fun entries hentries' => ?_, h.once, h.valid, fun e he => ?_⟩,
    fun hok => ?_⟩
  · rw [hentries]
    exact nodup_trim hnodup
  · rw [hentries] at he
    exact hgiven e (trim_subset he)
  · rw [hfile] at hentries'
    split at hentries'
    · obtain ⟨hn, hl, hg⟩ := h.file entries hentries'
      exact ⟨hn, hl, fun e he => List.mem_cons_of_mem _ (hg e he)⟩
    · obtain rfl := Option.some_inj.1 hentries'
      exact ⟨nodup_trim hnodup, length_trim_le _ _, fun e he => hgiven e (trim_subset he)⟩
  · rcases h.guarded e he with ⟨hmem, entries, hold, hin⟩ | hstale
    · rcases hstays e (List.mem_append_left _ hmem) with hkept | hstale
      · refine .inl ⟨by rwa [hentries], ?_⟩
        rw [hfile]
        split
        · exact ⟨entries, hold, hin⟩
        · exact ⟨_, rfl, hkept⟩
      · exact .inr hstale
    · exact .inr hstale
  · rcases hstays (id, time) (List.mem_append_right _ List.mem_cons_self) with hkept | hstale
    · refine .inl ⟨by rwa [hentries], _, ?_, hkept⟩
      rw [hfile, if_neg (by rw [hok]; exact nofun)]
    · exact .inr hstale

/-! ## Polling -/

/-- What becomes of an item. -/
theorem handle_cases (c : Consumer) (b : Bounds) (d : Desk) (item : Item) :
    ((handle c b d.clock d item).2 = d ∧ ∀ m, (handle c b d.clock d item).1 ≠ .taken m) ∨
      ∃ m : Message, Protocol.validRequestId m.requestId = true ∧
        d.clock - m.timestampMs ≤ b.maxAgeMs ∧ seen d.entries m.requestId = false ∧
        (handle c b d.clock d item).2 = remember b d m.requestId m.timestampMs item.write ∧
        ∀ m', (handle c b d.clock d item).1 = .taken m' → m' = m ∧ item.write = .ok := by
  unfold handle
  split
  · exact .inl ⟨rfl, fun _ h => by cases h⟩
  · exact .inl ⟨rfl, fun _ h => by cases h⟩
  · exact .inl ⟨rfl, fun _ h => by cases h⟩
  · rename_i v _
    split
    · exact .inl ⟨rfl, fun _ h => by cases h⟩
    · rename_i m hm
      split
      · exact .inl ⟨rfl, fun _ h => by cases h⟩
      · exact .inl ⟨rfl, fun _ h => by cases h⟩
      · split
        · exact .inl ⟨rfl, fun _ h => by cases h⟩
        · rename_i hseen
          rw [Bool.not_eq_true] at hseen
          -- The message passed the check of its age.
          obtain ⟨raw, haccepts⟩ : ∃ raw, Protocol.Accepts (some ⟨b.maxAgeMs, d.clock⟩) raw m := by
            cases v with
            | dict raw => exact ⟨raw, Protocol.fromMappingAt_eq_ok.1 hm⟩
            | _ => cases hm
          have hage := haccepts.admits _ rfl
          rw [Age.admits, Bool.and_eq_true, decide_eq_true_eq, decide_eq_true_eq] at hage
          refine .inr ⟨m, haccepts.validId, hage.2, hseen, ?_⟩
          dsimp only
          split
          · rename_i hok
            exact ⟨rfl, fun m' h => ⟨(Outcome.taken.inj h).symm, hok⟩⟩
          · exact ⟨rfl, fun _ h => by cases h⟩

theorem grows_handle (c : Consumer) (b : Bounds) (d : Desk) (item : Item) :
    Grows d (handle c b d.clock d item).2 := by
  rcases handle_cases c b d item with ⟨hd, -⟩ | ⟨m, -, -, -, hd, -⟩
  · rw [hd]
    exact .refl d
  · rw [hd]
    exact grows_remember d _ _ _

theorem grows_pollItems (c : Consumer) (b : Bounds) (limit : ℕ) (items : List Item) (d : Desk)
    (taken : List Message) : Grows d (pollItems c b d.clock limit d taken items).2 := by
  induction items generalizing d taken with
  | nil => exact .refl d
  | cons item items ih =>
    have hfirst := grows_handle c b d item
    unfold pollItems
    split
    · exact .refl d
    · generalize handle c b d.clock d item = r at hfirst ⊢
      obtain ⟨outcome, d'⟩ := r
      have hrest (taken : List Message) : Grows d (pollItems c b d.clock limit d' taken items).2 := by
        have htail := ih d' taken
        rw [hfirst.clock] at htail
        exact hfirst.trans htail
      cases outcome with
      | dropped => exact hrest taken
      | taken message => exact hrest _
      | raised => exact hfirst

/-- **An item** keeps the invariant, of the pairs with the one it gives. -/
theorem Inv.handle (h : Inv b d pairs) (item : Item)
    (hroom : ((handle c b d.clock d item).2.recent b d.clock).length ≤ b.maxEntries) :
    Inv b (handle c b d.clock d item).2 pairs ∧
      ∀ m, (handle c b d.clock d item).1 = .taken m →
        Inv b (handle c b d.clock d item).2 (pairs ++ [key m]) := by
  rcases handle_cases c b d item with ⟨hd, hnone⟩ | ⟨m, hvalid, hage, hseen, hd, htaken⟩
  · rw [hd]
    exact ⟨h, fun m hm => absurd hm (hnone m)⟩
  · rw [hd] at hroom ⊢
    obtain ⟨hinv, hguard⟩ := h.remember hseen hroom
    refine ⟨hinv, fun m' hm' => ?_⟩
    obtain ⟨rfl, hok⟩ := htaken m' hm'
    -- The pair is new: a guarded one would be seen, or too old to be accepted.
    have hfresh : key m' ∉ pairs := by
      intro hold
      rcases h.guarded _ hold with ⟨hmem, -⟩ | hstale
      · exact seen_eq_false.1 hseen (List.mem_map_of_mem hmem)
      · have hstale' : m'.timestampMs < d.clock - b.maxAgeMs := hstale
        omega
    refine ⟨hinv.nodup, hinv.given, hinv.file, ?_, fun e he => ?_, fun e he => ?_⟩
    · refine List.Nodup.append h.once (List.nodup_singleton _) ?_
      rw [List.disjoint_singleton]
      exact hfresh
    · rcases List.mem_append.1 he with he | he
      · exact h.valid e he
      · rw [List.mem_singleton.1 he]
        exact hvalid
    · rcases List.mem_append.1 he with he | he
      · exact hinv.guarded e he
      · rw [List.mem_singleton.1 he]
        exact hguard hok

/-- **A poll** keeps the invariant, of the pairs with those it returns. -/
theorem Inv.pollItems (limit : ℕ) (items : List Item) {taken : List Message}
    (h : Inv b d (pairs ++ taken.map key))
    (hroom : ((pollItems c b d.clock limit d taken items).2.recent b d.clock).length ≤
      b.maxEntries) :
    Inv b (pollItems c b d.clock limit d taken items).2
      (pairs ++ (((pollItems c b d.clock limit d taken items).1).getD []).map key) := by
  have hdrop {d : Desk} {taken : List Message} (h : Inv b d (pairs ++ taken.map key)) :
      Inv b d (pairs ++ ([] : List Message).map key) := by
    rw [List.map_nil, List.append_nil]
    exact ⟨h.nodup, h.given, h.file, (List.nodup_append.1 h.once).1,
      fun e he => h.valid e (List.mem_append_left _ he),
      fun e he => h.guarded e (List.mem_append_left _ he)⟩
  induction items generalizing d taken with
  | nil => exact h
  | cons item items ih =>
    have hgrows := grows_handle c b d item
    have hall := grows_pollItems c b limit items
    unfold Ipc.pollItems at hroom ⊢
    split
    · exact h
    · rename_i hlimit
      rw [if_neg hlimit] at hroom
      have hitem := h.handle (c := c) item
      generalize Ipc.handle c b d.clock d item = r at hgrows hroom hitem ⊢
      obtain ⟨outcome, d'⟩ := r
      have hclock : d'.clock = d.clock := hgrows.clock
      have hroom' {taken : List Message}
          (hr : ((Ipc.pollItems c b d.clock limit d' taken items).2.recent b d.clock).length ≤
            b.maxEntries) : (d'.recent b d.clock).length ≤ b.maxEntries := by
        refine le_trans (recent_mono ?_ _) hr
        have hmono := (hall d' taken).remembered
        rwa [hclock] at hmono
      cases outcome with
      | dropped =>
        have hinv := (hitem (hroom' hroom)).1
        rw [← hclock] at hroom ⊢
        exact ih hinv hroom
      | taken message =>
        have hinv := (hitem (hroom' hroom)).2 message rfl
        rw [List.append_assoc, ← List.map_singleton, ← List.map_append] at hinv
        rw [← hclock] at hroom ⊢
        exact ih hinv hroom
      | raised => exact hdrop (hitem hroom).1

/-! ## Runs -/

/-- A consumer over a ledger file of its own, with nothing returned yet. -/
structure Opened (b : Bounds) (d : Desk) : Prop where
  returned : d.returned = []
  entries : d.entries = load b.maxEntries d.file
  file : ∀ entries, d.file = some entries →
    (ids entries).Nodup ∧ entries.length ≤ b.maxEntries ∧ ∀ e ∈ entries, e ∈ d.remembered

theorem mem_load_of_mem {entries : Entries} (hlen : entries.length ≤ b.maxEntries)
    {e : PyText × ℤ} (he : e ∈ entries) (hvalid : Protocol.validRequestId e.1 = true) :
    e ∈ load b.maxEntries (some entries) := by
  have hmem : e ∈ (entries.mergeSort fun a b => a.1 ≤ b.1).filter fun e =>
      Protocol.validRequestId e.1 := List.mem_filter.2 ⟨List.mem_mergeSort.2 he, hvalid⟩
  have hshort : ((entries.mergeSort fun a b => a.1 ≤ b.1).filter fun e =>
      Protocol.validRequestId e.1).length ≤ b.maxEntries := by
    refine (List.length_filter_le _ _).trans ?_
    rwa [List.length_mergeSort]
  unfold load trim
  dsimp only
  rwa [if_pos hshort]

theorem load_spec {file : Option Entries}
    (h : ∀ entries, file = some entries → (ids entries).Nodup) :
    (ids (load b.maxEntries file)).Nodup ∧
      ∀ e ∈ load b.maxEntries file, ∃ entries, file = some entries ∧ e ∈ entries := by
  cases file with
  | none => exact ⟨List.nodup_nil, nofun⟩
  | some entries =>
    have hperm : (ids (entries.mergeSort fun a b => a.1 ≤ b.1)).Perm (ids entries) :=
      (List.mergeSort_perm _ _).map Prod.fst
    have hsub : (ids ((entries.mergeSort fun a b => a.1 ≤ b.1).filter fun e =>
        Protocol.validRequestId e.1)).Sublist (ids (entries.mergeSort fun a b => a.1 ≤ b.1)) :=
      List.filter_sublist.map Prod.fst
    refine ⟨nodup_trim (hsub.nodup (hperm.nodup_iff.2 (h entries rfl))), fun e he => ?_⟩
    exact ⟨entries, rfl, List.mem_mergeSort.1 (List.mem_of_mem_filter (trim_subset he))⟩

theorem Opened.inv (h : Opened b d) : Inv b d d.returned := by
  obtain ⟨hnodup, hfrom⟩ := load_spec (b := b) fun entries he => (h.file entries he).1
  rw [← h.entries] at hnodup hfrom
  rw [h.returned]
  refine ⟨hnodup, fun e he => ?_, h.file, List.nodup_nil, nofun, nofun⟩
  obtain ⟨entries, hentries, hmem⟩ := hfrom e he
  exact (h.file entries hentries).2.2 e hmem

/-- Starting anew loses no pair that is not too old. -/
theorem Inv.reload (h : Inv b d pairs) :
    Inv b { d with entries := load b.maxEntries d.file } pairs := by
  obtain ⟨hnodup, hfrom⟩ := load_spec (b := b) fun entries he => (h.file entries he).1
  refine ⟨hnodup, fun e he => ?_, h.file, h.once, h.valid, fun e he => ?_⟩
  · obtain ⟨entries, hentries, hmem⟩ := hfrom e he
    exact (h.file entries hentries).2.2 e hmem
  · refine (h.guarded e he).imp (fun ⟨_, entries, hentries, hmem⟩ => ⟨?_, entries, hentries, hmem⟩) id
    show e ∈ load b.maxEntries d.file
    rw [hentries]
    exact mem_load_of_mem (h.file entries hentries).2.1 hmem (h.valid e he)

/-- **A step** that leaves room keeps the invariant. -/
theorem inv_step {move : Step} (h : Inv b d d.returned) (hroomy : Roomy c b d move) :
    Inv b (step c b d move) (step c b d move).returned := by
  cases move with
  | reload => exact h.reload
  | poll now limit items =>
    obtain ⟨hclock, hroom⟩ := hroomy
    have hlater : Inv b { d with clock := now } (d.returned ++ ([] : List Message).map key) := by
      rw [List.map_nil, List.append_nil]
      refine ⟨h.nodup, h.given, h.file, h.once, h.valid, fun e he => ?_⟩
      refine (h.guarded e he).imp id fun hstale => ?_
      show e.2 < now - b.maxAgeMs
      omega
    have hgrows := grows_pollItems c b limit items { d with clock := now } []
    have hpoll := hlater.pollItems (c := c) limit items
    unfold step poll at hroom ⊢
    dsimp only at hroom hgrows hpoll ⊢
    generalize Ipc.pollItems c b now limit { d with clock := now } [] items = r
      at hroom hgrows hpoll ⊢
    obtain ⟨_ | taken, d'⟩ := r
    · have hinv := hpoll hroom
      rw [show d'.returned = d.returned from hgrows.returned]
      rwa [Option.getD_none, List.map_nil, List.append_nil] at hinv
    · have hinv := hpoll hroom
      show Inv b { d' with returned := d'.returned ++ taken.map key } (d'.returned ++ taken.map key)
      rw [show d'.returned = d.returned from hgrows.returned]
      exact ⟨hinv.nodup, hinv.given, hinv.file, hinv.once, hinv.valid, hinv.guarded⟩

/-- **At most once.** Over every run of polls and fresh starts in which the
ledger has room for the ids that are not too old, no id is returned twice
with the same time. -/
theorem returned_nodup (h : Opened b d) {moves : List Step}
    (hroomy : Machine.Meets (step c b) (Roomy c b) d moves) :
    (Machine.run (step c b) d moves).returned.Nodup := by
  have hstep : ∀ (d : Desk) (move : Step), Inv b d d.returned → Roomy c b d move →
      Inv b (step c b d move) (step c b d move).returned := fun _ _ hi hr => inv_step hi hr
  exact (Machine.invariant_of_meets hstep h.inv hroomy).once

/-- A chat event of this time. -/
def chatItem (time : ℤ) : Item where
  reading := .value (.dict [(PyText.lit "protocol", .int 2), (PyText.lit "request_id",
    .str (PyText.lit "a")), (PyText.lit "timestamp_ms", .int time), (PyText.lit "type",
    .str (PyText.lit "event.chat"))])
  write := .ok

/-- A ledger of one entry; the event comes twice, and once more after the
consumer started anew. -/
theorem returned_nodup_again :
    let moves := [Step.poll 5 32 [chatItem 1, chatItem 1], .reload, .poll 6 32 [chatItem 1]]
    (Machine.run (step (.event []) ⟨1, 120000⟩) ⟨[], none, 0, [], []⟩ moves).returned.Nodup := by
  refine returned_nodup ⟨rfl, rfl, fun entries hfile => ?_⟩ ?_
  · cases hfile
  refine ⟨⟨by decide, ?_⟩, trivial, ⟨by decide +kernel, ?_⟩, trivial⟩
  · decide +kernel
  · decide +kernel

end Ipc

end GoblinZomboid
