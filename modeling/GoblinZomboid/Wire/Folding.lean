import GoblinZomboid.Agent.Mind
import GoblinZomboid.Lib.Run
import Mathlib.Data.Prod.Lex
/-!
# Folding game events

The server numbers the events of a companion and publishes its last
sixteen; the agent folds those above the highest number it has seen. The
counter starts again with the server, the highest number with the agent,
and neither side knows of the other's restart.
-/

namespace GoblinZomboid

namespace Folding

open Situation (Log Note)

/-! ## The two sides -/

/-- Which event it is: the server's run it was noted in, and its number. -/
abbrev Stamp := ℕ ×ₗ ℕ

/-- A published situation report: the log it was built from. The server's
run is not part of what is sent. -/
structure Snapshot where
  epoch : ℕ
  log : Log

/-- The last event of a snapshot. -/
def Snapshot.stamp (s : Snapshot) : Stamp := toLex (s.epoch, s.log.seq)

/-- The server, the state file between the two, and the agent. `episodes`,
`trust` and `perceived` are what folding has written, with the stamp of the
event beside each entry. `observed` holds the stamps of all events in the
snapshots `observe` was given, and `seenEpoch` the server's run that wrote
the last of those that had an event; no code reads either. -/
structure World where
  epoch : ℕ
  log : Log
  file : Option Snapshot
  mark : ℕ
  episodes : List (Stamp × PyEvent)
  trust : List (Stamp × ℤ)
  perceived : List (Stamp × PyEvent)
  observed : List Stamp
  seenEpoch : ℕ

/-- A fresh server and an agent with an empty database. -/
def World.start : World := ⟨0, Log.empty, none, 0, [], [], [], [], 0⟩

/-- `GoblinMind.observe` and `Sentience.perceive` on a decoded snapshot: each
new event is recorded, adjusts trust and is perceived. -/
def World.fold (w : World) (epoch : ℕ) (events : List PyEvent) : World :=
  let fresh := (Mind.newEvents w.mark events).map fun e => (toLex (epoch, e.seq), e)
  { w with
    mark := Mind.newMark w.mark events
    episodes := w.episodes ++ fresh.filter fun x => Mind.recorded x.2
    trust := w.trust ++ fresh.filterMap fun x => (Mind.trustDelta x.2).map (x.1, ·)
    perceived := w.perceived ++ fresh
    observed := w.observed ++ events.map fun e => toLex (epoch, e.seq)
    seenEpoch := if events.isEmpty then w.seenEpoch else epoch }

/-- What the agent finds in the state file: the server's run that wrote it
and the events, when they decode. -/
def World.incoming (w : World) : Option (Snapshot × List PyEvent) :=
  w.file.bind fun s => (decodeEvents s.log.report).map (s, ·)

inductive Op
  | note (n : Note)
  | publish
  | observe
  | serverRestart
  | agentRestart

/-- What happens on either side. -/
def step (w : World) : Op → World
  | .note n => { w with log := n.apply w.log }
  | .publish => { w with file := some ⟨w.epoch, w.log⟩ }
  | .observe =>
    match w.incoming with
    | some (s, events) => w.fold s.epoch events
    | none => w
  | .serverRestart => { w with epoch := w.epoch + 1, log := Log.empty }
  | .agentRestart => { w with mark := 0 }

/-- The event was perceived once, and with it recorded once and applied to
trust once, if it is of a kind that is. -/
def FoldedOnce (w : World) (t : Stamp) : Prop :=
  ∃ e, w.perceived.filter (·.1 = t) = [(t, e)] ∧ w.episodes.filter (·.1 = t) = [(t, e)] ∧
    w.trust.filter (·.1 = t) = ((Mind.trustDelta e).map (t, ·)).toList

/-- **Exactly once.** Every event contained in a snapshot the agent has seen
was folded once. -/
def ExactlyOnce (w : World) : Prop := ∀ t ∈ w.observed, FoldedOnce w t

/-- **The marks mean the same.** When the agent reads a snapshot: a text
that is new is not blank; an agent that has seen no event since it started
finds none its predecessor has seen; and one that has, after a restart of
the server, finds the counter below its mark or a whole window above. -/
def InStep (w : World) : Op → Prop
  | .observe =>
    match w.incoming with
    | some (s, events) =>
      (∀ e ∈ events, toLex (s.epoch, e.seq) ∉ w.observed → Mind.recorded e = true) ∧
        if w.mark = 0 then ∀ e ∈ events, toLex (s.epoch, e.seq) ∉ w.observed
        else w.seenEpoch ≠ s.epoch →
          s.log.seq < w.mark ∨ w.mark + Situation.maxEvents ≤ s.log.seq
    | none => True
  | _ => True

/-! ## The window -/

variable {w : World} {s : Snapshot} {events : List PyEvent}

theorem map_seq_events (hd : decodeEvents s.log.report = some events) :
    events.map PyEvent.seq = s.log.events.map Situation.Event.seq := by
  have h : s.log.events.map (fun x => decodeEvent x.report) = events.map some := by
    rw [← decodeEvents_eq_some.1 hd, Log.report, List.map_map]
    rfl
  have hseq : ∀ x ∈ s.log.events,
      (decodeEvent x.report).map PyEvent.seq = some x.seq := by
    intro x hx
    have hmem : decodeEvent x.report ∈ events.map some := h ▸ List.mem_map_of_mem hx
    obtain ⟨e, -, he⟩ := List.mem_map.1 hmem
    rw [← he, Option.map_some, (decodeEvent_report he.symm).1]
  have hall := congrArg (List.map (Option.map PyEvent.seq)) h
  rw [List.map_map, List.map_map] at hall
  refine List.map_injective_iff.2 (fun _ _ => Option.some.inj) ?_
  rw [List.map_map, List.map_map]
  exact hall.symm.trans (List.map_congr_left hseq)

/-- The numbers in a decoded snapshot are the last sixteen. -/
theorem exists_seq_iff (hd : decodeEvents s.log.report = some events) (k : ℕ) :
    (∃ e ∈ events, e.seq = k) ↔
      0 < k ∧ k ≤ s.log.seq ∧ s.log.seq < k + Situation.maxEvents := by
  rw [← List.mem_map, map_seq_events hd, s.log.seq_events, List.mem_range'_1, s.log.length_events]
  simp only [Situation.maxEvents]
  omega

theorem isEmpty_iff (hd : decodeEvents s.log.report = some events) :
    events = [] ↔ s.log.seq = 0 := by
  have hlen := congrArg List.length (map_seq_events hd)
  rw [List.length_map, List.length_map, s.log.length_events] at hlen
  rw [← List.length_eq_zero_iff, hlen]
  simp only [Situation.maxEvents]
  omega

/-- The number the events are compared with. -/
theorem threshold_eq (hd : decodeEvents s.log.report = some events) (mark : ℕ)
    (hpos : s.log.seq ≠ 0) :
    Mind.threshold mark events = if s.log.seq < mark then 0 else mark := by
  have hne : events ≠ [] := fun h => hpos ((isEmpty_iff hd).1 h)
  have hall : (∀ e ∈ events, e.seq < mark) ↔ s.log.seq < mark := by
    constructor
    · intro h
      obtain ⟨e, he, hseq⟩ := (exists_seq_iff hd s.log.seq).2
        ⟨Nat.pos_of_ne_zero hpos, le_rfl, by simp [Situation.maxEvents]⟩
      exact hseq ▸ h e he
    · intro h e he
      have := ((exists_seq_iff hd e.seq).1 ⟨e, he, rfl⟩).2.1
      omega
  have hcond : (!events.isEmpty && events.all fun e => e.seq < mark) = decide (s.log.seq < mark) := by
    rw [Bool.eq_iff_iff]
    simp [hne, hall]
  rw [Mind.threshold, hcond]
  simp

/-- A maximum, taken step by step. -/
theorem foldl_max_eq {b : ℕ} : ∀ {l : List PyEvent} {m : ℕ}, m ≤ b → (∀ e ∈ l, e.seq ≤ b) →
    (m = b ∨ ∃ e ∈ l, e.seq = b) → l.foldl (fun m e => max m e.seq) m = b
  | [], m, _, _, h => by simpa using h
  | e :: l, m, hm, hle, h => by
    have he := hle e List.mem_cons_self
    refine foldl_max_eq (l := l) (max_le hm he) (fun d hd => hle d (List.mem_cons_of_mem _ hd)) ?_
    rcases h with rfl | ⟨d, hd, hdb⟩
    · exact Or.inl (max_eq_left he)
    · rcases List.mem_cons.1 hd with rfl | hd
      · left
        show max m d.seq = b
        rw [hdb, max_eq_right hm]
      · exact Or.inr ⟨d, hd, hdb⟩

/-- **The mark `observe` leaves** is the last number of the snapshot. -/
theorem newMark_eq (hd : decodeEvents s.log.report = some events) (mark : ℕ)
    (hpos : s.log.seq ≠ 0) : Mind.newMark mark events = s.log.seq := by
  have hthr := threshold_eq hd mark hpos
  have hle : Mind.threshold mark events ≤ s.log.seq := by
    rw [hthr]
    split <;> omega
  refine foldl_max_eq hle ?_ ?_
  · intro e he
    exact ((exists_seq_iff hd e.seq).1 ⟨e, List.mem_of_mem_filter he, rfl⟩).2.1
  · by_cases heq : Mind.threshold mark events = s.log.seq
    · exact Or.inl heq
    · obtain ⟨e, he, hseq⟩ := (exists_seq_iff hd s.log.seq).2
        ⟨Nat.pos_of_ne_zero hpos, le_rfl, by simp [Situation.maxEvents]⟩
      refine Or.inr ⟨e, List.mem_filter.2 ⟨he, ?_⟩, hseq⟩
      exact decide_eq_true (by omega)

/-! ## What every run keeps -/

/-- The server's clock. -/
def World.stamp (w : World) : Stamp := toLex (w.epoch, w.log.seq)

/-- **The invariant.** The file lags behind the server and the agent behind
the file; each fold wrote what belongs to it; and an agent with a mark has
observed the window that ends at it, and nothing later. -/
structure Inv (w : World) : Prop where
  file_le : ∀ s, w.file = some s → s.stamp ≤ w.stamp
  observed_le : ∀ t ∈ w.observed, ∃ s, w.file = some s ∧ t ≤ s.stamp
  perceived_observed : ∀ x ∈ w.perceived, x.1 ∈ w.observed
  episodes_eq : w.episodes = w.perceived.filter fun x => Mind.recorded x.2
  trust_eq : w.trust = w.perceived.filterMap fun x => (Mind.trustDelta x.2).map (x.1, ·)
  mark_le : w.mark ≠ 0 → ∃ s, w.file = some s ∧ toLex (w.seenEpoch, w.mark) ≤ s.stamp
  le_mark : w.mark ≠ 0 → ∀ t ∈ w.observed, t ≤ toLex (w.seenEpoch, w.mark)
  window : w.mark ≠ 0 → ∀ k, 0 < k → k ≤ w.mark → w.mark < k + Situation.maxEvents →
    toLex (w.seenEpoch, k) ∈ w.observed

theorem inv_start : Inv World.start where
  file_le := fun s h => by cases h
  observed_le := fun t h => by cases h
  perceived_observed := fun x h => by cases h
  episodes_eq := rfl
  trust_eq := rfl
  mark_le := fun h => absurd rfl h
  le_mark := fun h => absurd rfl h
  window := fun h => absurd rfl h

theorem incoming_eq_some {x : Snapshot × List PyEvent} :
    w.incoming = some x ↔ w.file = some x.1 ∧ decodeEvents x.1.log.report = some x.2 := by
  obtain ⟨s, events⟩ := x
  simp only [World.incoming, Option.bind_eq_some_iff, Option.map_eq_some_iff, Prod.mk.injEq]
  constructor
  · rintro ⟨s', hs, es, hes, rfl, rfl⟩
    exact ⟨hs, hes⟩
  · rintro ⟨hs, hes⟩
    exact ⟨s, hs, events, hes, rfl, rfl⟩

theorem fold_of_empty (epoch : ℕ) : w.fold epoch [] = w := by
  simp [World.fold, Mind.newEvents, Mind.newMark, Mind.threshold]

/-- Reading a snapshot keeps the invariant. -/
theorem inv_fold (hinv : Inv w) (hfile : w.file = some s)
    (hd : decodeEvents s.log.report = some events) : Inv (w.fold s.epoch events) := by
  by_cases hpos : s.log.seq = 0
  · rw [(isEmpty_iff hd).2 hpos, fold_of_empty]
    exact hinv
  have hne : events ≠ [] := fun h => hpos ((isEmpty_iff hd).1 h)
  have hmark : (w.fold s.epoch events).mark = s.log.seq := newMark_eq hd w.mark hpos
  have hepoch : (w.fold s.epoch events).seenEpoch = s.epoch := by
    simp [World.fold, hne]
  have hlast : toLex ((w.fold s.epoch events).seenEpoch, (w.fold s.epoch events).mark) =
      s.stamp := by rw [hmark, hepoch]; rfl
  have hobs : ∀ t, t ∈ (w.fold s.epoch events).observed ↔
      t ∈ w.observed ∨ ∃ e ∈ events, toLex (s.epoch, e.seq) = t := by
    intro t
    simp [World.fold]
  have hle : ∀ t ∈ (w.fold s.epoch events).observed, t ≤ s.stamp := by
    intro t ht
    rcases (hobs t).1 ht with ht | ⟨e, he, rfl⟩
    · obtain ⟨s', hs', hle⟩ := hinv.observed_le t ht
      rw [hfile, Option.some_inj] at hs'
      exact hs' ▸ hle
    · have := ((exists_seq_iff hd e.seq).1 ⟨e, he, rfl⟩).2.1
      exact Prod.Lex.toLex_le_toLex.2 (Or.inr ⟨rfl, this⟩)
  refine ⟨hinv.file_le, fun t ht => ⟨s, hfile, hle t ht⟩, ?_, ?_, ?_, fun _ => ⟨s, hfile, ?_⟩, ?_, ?_⟩
  · intro x hx
    rcases List.mem_append.1 hx with hx | hx
    · exact (hobs _).2 (Or.inl (hinv.perceived_observed x hx))
    · obtain ⟨e, he, rfl⟩ := List.mem_map.1 hx
      exact (hobs _).2 (Or.inr ⟨e, List.mem_of_mem_filter he, rfl⟩)
  · simp only [World.fold, List.filter_append, ← hinv.episodes_eq]
  · simp only [World.fold, List.filterMap_append, ← hinv.trust_eq]
  · exact hlast.le
  · intro _ t ht
    exact hlast ▸ hle t ht
  · intro _ k hk hkm hwin
    rw [hmark] at hkm hwin
    obtain ⟨e, he, rfl⟩ := (exists_seq_iff hd k).2 ⟨hk, hkm, hwin⟩
    exact (hobs _).2 (Or.inr ⟨e, he, by rw [hepoch]⟩)

/-- The file is replaced by a later one only. -/
theorem inv_publish (hinv : Inv w) : Inv (step w .publish) := by
  have hlater : ∀ t, (∃ s, w.file = some s ∧ t ≤ s.stamp) → t ≤ w.stamp := by
    rintro t ⟨s, hs, hle⟩
    exact hle.trans (hinv.file_le s hs)
  refine ⟨?_, fun t ht => ⟨_, rfl, hlater t (hinv.observed_le t ht)⟩, hinv.perceived_observed,
    hinv.episodes_eq, hinv.trust_eq, fun hm => ⟨_, rfl, hlater _ (hinv.mark_le hm)⟩, hinv.le_mark,
    hinv.window⟩
  intro s hs
  cases hs
  exact le_rfl

/-- A step of the server alone moves its clock forward. -/
theorem inv_of_stamp_le (hinv : Inv w) {epoch : ℕ} {log : Log}
    (hle : w.stamp ≤ toLex (epoch, log.seq)) : Inv { w with epoch := epoch, log := log } :=
  ⟨fun s hs => (hinv.file_le s hs).trans hle, hinv.observed_le, hinv.perceived_observed,
    hinv.episodes_eq, hinv.trust_eq, hinv.mark_le, hinv.le_mark, hinv.window⟩

theorem inv_step (w : World) (op : Op) (hinv : Inv w) : Inv (step w op) := by
  cases op with
  | note n => exact inv_of_stamp_le hinv (Prod.Lex.toLex_le_toLex.2 (Or.inr ⟨rfl, Nat.le_succ _⟩))
  | publish => exact inv_publish hinv
  | observe =>
    simp only [step]
    split
    · rename_i s events hin
      obtain ⟨hfile, hd⟩ := incoming_eq_some.1 hin
      exact inv_fold hinv hfile hd
    · exact hinv
  | serverRestart => exact inv_of_stamp_le hinv (Prod.Lex.toLex_le_toLex.2 (Or.inl (Nat.lt_succ_self _)))
  | agentRestart =>
    exact ⟨hinv.file_le, hinv.observed_le, hinv.perceived_observed, hinv.episodes_eq,
      hinv.trust_eq, fun h => absurd rfl h, fun h => absurd rfl h, fun h => absurd rfl h⟩

/-! ## One more snapshot -/

/-- The ledgers agree, so one look at what was perceived settles it. -/
theorem foldedOnce_iff (hinv : Inv w) (t : Stamp) :
    FoldedOnce w t ↔
      ∃ e, w.perceived.filter (·.1 = t) = [(t, e)] ∧ Mind.recorded e = true := by
  have hepisodes : w.episodes.filter (·.1 = t) =
      (w.perceived.filter (·.1 = t)).filter fun x => Mind.recorded x.2 := by
    rw [hinv.episodes_eq, List.filter_filter, List.filter_filter]
    exact List.filter_congr fun x _ => Bool.and_comm _ _
  have htrust : w.trust.filter (·.1 = t) =
      (w.perceived.filter (·.1 = t)).filterMap fun x => (Mind.trustDelta x.2).map (x.1, ·) := by
    rw [hinv.trust_eq, List.filter_filterMap, List.filterMap_filter]
    refine List.filterMap_congr fun x _ => ?_
    cases Mind.trustDelta x.2 <;> by_cases hx : x.1 = t <;> simp [hx]
  constructor
  · rintro ⟨e, hp, he, -⟩
    refine ⟨e, hp, ?_⟩
    rw [hepisodes, hp] at he
    by_contra hrec
    simp [hrec] at he
  · rintro ⟨e, hp, hrec⟩
    refine ⟨e, hp, ?_, ?_⟩
    · rw [hepisodes, hp]
      simp [hrec]
    · rw [htrust, hp]
      cases htd : Mind.trustDelta e <;> simp [htd]

/-- A list whose keys differ has one entry for each of them. -/
theorem filter_seq_eq {l : List PyEvent} (hnd : (l.map PyEvent.seq).Nodup) {e : PyEvent}
    (he : e ∈ l) : (l.filter fun d => d.seq = e.seq) = [e] := by
  induction l with
  | nil => cases he
  | cons d l ih =>
    rw [List.map_cons, List.nodup_cons] at hnd
    obtain ⟨hd, hnd⟩ := hnd
    rcases List.mem_cons.1 he with rfl | he
    · have hrest : (l.filter fun d => d.seq = e.seq) = [] := by
        refine List.filter_eq_nil_iff.2 fun x hx hxe => hd ?_
        exact List.mem_map.2 ⟨x, hx, of_decide_eq_true hxe⟩
      simp [hrest]
    · have hne : d.seq ≠ e.seq := fun h => hd (h ▸ List.mem_map_of_mem he)
      simp [hne, ih hnd he]

theorem nodup_seq (hd : decodeEvents s.log.report = some events) :
    (events.map PyEvent.seq).Nodup := by
  rw [map_seq_events hd, s.log.seq_events]
  exact List.nodup_range'

/-- What a snapshot adds under one stamp. -/
theorem perceived_fold (epoch : ℕ) (t : Stamp) :
    (w.fold epoch events).perceived.filter (·.1 = t) =
      w.perceived.filter (·.1 = t) ++
        ((Mind.newEvents w.mark events).filter fun e => toLex (epoch, e.seq) = t).map
          fun e => (toLex (epoch, e.seq), e) := by
  simp only [World.fold, List.filter_append, List.filter_map]
  rfl

/-- The new events with the number of one of them. -/
theorem newEvents_filter (hd : decodeEvents s.log.report = some events) {e : PyEvent}
    (he : e ∈ events) (epoch : ℕ) :
    ((Mind.newEvents w.mark events).filter fun d => toLex (epoch, d.seq) = toLex (epoch, e.seq)) =
      if Mind.threshold w.mark events < e.seq then [e] else [] := by
  have hkey : (events.filter fun d => toLex (epoch, d.seq) = toLex (epoch, e.seq)) = [e] := by
    rw [← filter_seq_eq (nodup_seq hd) he]
    exact List.filter_congr fun d _ => by simp
  have hswap : ((Mind.newEvents w.mark events).filter
      fun d => toLex (epoch, d.seq) = toLex (epoch, e.seq)) =
      [e].filter fun d => Mind.threshold w.mark events < d.seq := by
    rw [← hkey, Mind.newEvents, List.filter_filter, List.filter_filter]
    exact List.filter_congr fun d _ => Bool.and_comm _ _
  rw [hswap]
  by_cases h : Mind.threshold w.mark events < e.seq <;> simp [h]

/-- **Folding once means folding what is new.** A snapshot keeps the law
exactly when the events above the mark are those not observed before. -/
theorem exactlyOnce_fold_iff (hinv : Inv w) (hfile : w.file = some s)
    (hd : decodeEvents s.log.report = some events) (hex : ExactlyOnce w) :
    ExactlyOnce (w.fold s.epoch events) ↔
      ∀ e ∈ events,
        (Mind.threshold w.mark events < e.seq ↔ toLex (s.epoch, e.seq) ∉ w.observed) ∧
          (toLex (s.epoch, e.seq) ∉ w.observed → Mind.recorded e = true) := by
  have hinv' := inv_fold hinv hfile hd
  have hold : ∀ t ∉ w.observed, w.perceived.filter (·.1 = t) = [] := by
    intro t ht
    refine List.filter_eq_nil_iff.2 fun x hx hxt => ht ?_
    exact of_decide_eq_true hxt ▸ hinv.perceived_observed x hx
  have hobs : ∀ t, t ∈ (w.fold s.epoch events).observed ↔
      t ∈ w.observed ∨ ∃ e ∈ events, toLex (s.epoch, e.seq) = t := by
    intro t
    simp [World.fold]
  constructor
  · intro hex' e he
    obtain ⟨d, hp, hrec⟩ := (foldedOnce_iff hinv' _).1
      (hex' (toLex (s.epoch, e.seq)) ((hobs _).2 (Or.inr ⟨e, he, rfl⟩)))
    rw [perceived_fold, newEvents_filter hd he] at hp
    by_cases hmem : toLex (s.epoch, e.seq) ∈ w.observed
    · obtain ⟨d', hp', -⟩ := (foldedOnce_iff hinv _).1 (hex _ hmem)
      rw [hp'] at hp
      refine ⟨iff_of_false (fun hlt => ?_) (fun h => h hmem), fun h => absurd hmem h⟩
      simp [hlt] at hp
    · rw [hold _ hmem, List.nil_append] at hp
      by_cases hlt : Mind.threshold w.mark events < e.seq
      · simp only [hlt, if_true, List.map_cons, List.map_nil, List.cons.injEq, Prod.mk.injEq,
          and_true, true_and] at hp
        exact ⟨iff_of_true hlt hmem, fun _ => hp ▸ hrec⟩
      · simp [hlt] at hp
  · intro hall t ht
    rw [foldedOnce_iff hinv', perceived_fold]
    by_cases hmem : t ∈ w.observed
    · -- Observed before: nothing new has this stamp.
      have hnone : ((Mind.newEvents w.mark events).filter
          fun e => toLex (s.epoch, e.seq) = t) = [] := by
        refine List.filter_eq_nil_iff.2 fun e he het => ?_
        obtain ⟨he, hlt⟩ := List.mem_filter.1 he
        refine ((hall e he).1.1 (of_decide_eq_true hlt)) ?_
        exact of_decide_eq_true het ▸ hmem
      rw [hnone, List.map_nil, List.append_nil]
      exact (foldedOnce_iff hinv t).1 (hex t hmem)
    · obtain ht | ⟨e, he, rfl⟩ := (hobs t).1 ht
      · exact absurd ht hmem
      · obtain ⟨hlt, hrec⟩ := hall e he
        rw [hold _ hmem, newEvents_filter hd he, if_pos (hlt.2 hmem)]
        exact ⟨e, rfl, hrec hmem⟩

/-- **What is above the mark is new**, exactly when the marks mean the same. -/
theorem fresh_iff_inStep (hinv : Inv w) (hfile : w.file = some s)
    (hd : decodeEvents s.log.report = some events) :
    (∀ e ∈ events,
        (Mind.threshold w.mark events < e.seq ↔ toLex (s.epoch, e.seq) ∉ w.observed)) ↔
      if w.mark = 0 then ∀ e ∈ events, toLex (s.epoch, e.seq) ∉ w.observed
      else w.seenEpoch ≠ s.epoch →
        s.log.seq < w.mark ∨ w.mark + Situation.maxEvents ≤ s.log.seq := by
  by_cases hpos : s.log.seq = 0
  · have hempty := (isEmpty_iff hd).2 hpos
    subst hempty
    split
    · simp
    · simp only [List.not_mem_nil, false_imp_iff, implies_true, true_iff]
      intro _
      left
      omega
  have hthr := threshold_eq hd w.mark hpos
  have hrange := exists_seq_iff hd
  by_cases hm : w.mark = 0
  · -- No mark: everything is folded.
    rw [if_pos hm]
    refine forall₂_congr fun e he => ?_
    have hlt : Mind.threshold w.mark events < e.seq := by
      have := ((hrange e.seq).1 ⟨e, he, rfl⟩).1
      rw [hthr, hm]
      simpa using this
    simp only [hlt, true_iff]
  rw [if_neg hm]
  obtain ⟨s', hs', hle⟩ := hinv.mark_le hm
  rw [hfile, Option.some_inj] at hs'
  subst hs'
  rcases Prod.Lex.toLex_le_toLex.1 hle with hepoch | ⟨hepoch, hseq⟩
  · -- A later run of the server: none of its events was observed.
    have hnew : ∀ k, toLex (s.epoch, k) ∉ w.observed := by
      intro k hk
      rcases Prod.Lex.toLex_le_toLex.1 (hinv.le_mark hm _ hk) with h | ⟨h, -⟩
      · exact absurd h hepoch.asymm
      · exact absurd h hepoch.ne'
    simp only [hnew, not_false_eq_true, iff_true]
    have hne : w.seenEpoch ≠ s.epoch := hepoch.ne
    simp only [ne_eq, hne, not_false_eq_true, true_imp_iff]
    constructor
    · intro hall
      -- The first event of the window decides.
      obtain ⟨e, he, hfirst⟩ := (hrange (s.log.seq + 1 - min s.log.seq Situation.maxEvents)).2
        (by simp only [Situation.maxEvents]; omega)
      have := hall e he
      rw [hthr, hfirst] at this
      simp only [Situation.maxEvents] at this ⊢
      split at this <;> omega
    · intro hor e he
      have := (hrange e.seq).1 ⟨e, he, rfl⟩
      rw [hthr]
      split <;> omega
  · -- The same run: the window at the mark covers what is below it.
    have hsame : w.seenEpoch = s.epoch := hepoch
    have hseq : w.mark ≤ s.log.seq := hseq
    simp only [hsame, ne_eq, not_true_eq_false, false_imp_iff, iff_true]
    intro e he
    obtain ⟨hk, hkle, hkwin⟩ := (hrange e.seq).1 ⟨e, he, rfl⟩
    rw [hthr, if_neg (by omega)]
    constructor
    · intro hlt hmem
      rcases Prod.Lex.toLex_le_toLex.1 (hinv.le_mark hm _ hmem) with h | ⟨-, h⟩
      · exact absurd h (by simp [hsame])
      · exact absurd h (by simpa using hlt)
    · intro hmem
      by_contra hlt
      refine hmem (hsame ▸ hinv.window hm e.seq hk (by omega) (by omega))

/-- **One step** keeps the law exactly when it is in step. -/
theorem exactlyOnce_step_iff (hinv : Inv w) (hex : ExactlyOnce w) (op : Op) :
    ExactlyOnce (step w op) ↔ InStep w op := by
  cases op with
  | observe =>
    simp only [step, InStep]
    split
    · rename_i s events hin
      obtain ⟨hfile, hd⟩ := incoming_eq_some.1 hin
      rw [exactlyOnce_fold_iff hinv hfile hd hex, ← fresh_iff_inStep hinv hfile hd]
      exact ⟨fun h => ⟨fun e he => (h e he).2, fun e he => (h e he).1⟩,
        fun h e he => ⟨h.2 e he, h.1 e he⟩⟩
    · exact iff_of_true hex trivial
  | note => exact iff_of_true hex trivial
  | publish => exact iff_of_true hex trivial
  | serverRestart => exact iff_of_true hex trivial
  | agentRestart => exact iff_of_true hex trivial

/-- **Exactly-once folding.** In every state a run reaches each observed
event was folded exactly once, if and only if every snapshot is read in
step. -/
theorem exactlyOnce_iff_inStep (ops : List Op) :
    (∀ ops', ops' <+: ops → ExactlyOnce (Machine.run step World.start ops')) ↔
      Machine.Meets step InStep World.start ops := by
  have hstart : ExactlyOnce World.start := fun t h => by cases h
  rw [Machine.forall_prefix_iff, and_iff_right hstart]
  have hiff : ∀ w op, (Inv w ∧ ExactlyOnce w) → (ExactlyOnce (step w op) ↔ InStep w op) :=
    fun w op h => exactlyOnce_step_iff h.1 h.2 op
  have hstep : ∀ w op, (Inv w ∧ ExactlyOnce w) → ExactlyOnce (step w op) →
      (Inv (step w op) ∧ ExactlyOnce (step w op)) :=
    fun w op h hex => ⟨inv_step w op h.1, hex⟩
  exact Machine.meets_congr hiff hstep ⟨inv_start, hstart⟩

/-! ## Two restarts -/

theorem not_exactlyOnce {t : Stamp} (ht : t ∈ w.observed)
    (hlen : (w.perceived.filter (·.1 = t)).length ≠ 1) : ¬ ExactlyOnce w := by
  intro hex
  obtain ⟨e, hp, -⟩ := hex t ht
  exact hlen (by rw [hp]; rfl)

/-- The note of a horde. -/
def horde : Note := ⟨Bytes.lit "horde", Bytes.lit "a horde closed in", none, 0⟩

/-- **An agent restart folds again** what the server still publishes. -/
theorem agent_restart_folds_twice :
    ¬ ExactlyOnce (Machine.run step World.start
      [.note horde, .publish, .observe, .agentRestart, .observe]) :=
  not_exactlyOnce (t := toLex (0, 1)) (by decide) (by decide)

/-- **A server restart hides** the events of the new run that do not get
past the mark. -/
theorem server_restart_skips :
    ¬ ExactlyOnce (Machine.run step World.start
      [.note horde, .publish, .observe, .serverRestart, .note horde, .publish, .observe]) :=
  not_exactlyOnce (t := toLex (1, 1)) (by decide) (by decide)

end Folding

end GoblinZomboid
