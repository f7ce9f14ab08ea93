import GoblinZomboid.Agent.Events
import GoblinZomboid.Lib.Run
/-!
# The duplicate window of the event gate

Of the events with one fingerprint the gate takes those that are a window
apart. It keeps one time for each fingerprint and drops it when a later event
is taken, so its answers are those of the window for events that come in
order, and may be others for events that do not.
-/

namespace GoblinZomboid

namespace Events

open Protocol (Dict)

/-- An event that passes every check. -/
structure Occasion (u : Unicode) where
  clock : ℤ
  kind : PyText
  fields : Dict
  now : ℤ
  requestId : PyText
  valid : (eventMessage u clock kind fields now requestId).toOption.isSome = true

/-- What two events have in common when they are the same. -/
def Occasion.print {u : Unicode} (e : Occasion u) : PyText := fingerprint u e.kind e.fields

/-- An event the gate has answered. -/
structure Answered where
  print : PyText
  time : ℤ
  accepted : Bool
  deriving DecidableEq

/-- The gate, and what it has answered. -/
structure Log where
  gate : Gate
  answered : List Answered

/-- A new gate. -/
def Log.start (window : ℤ) : Log := ⟨⟨window, []⟩, []⟩

/-- One more event. -/
def Log.step {u : Unicode} (l : Log) (e : Occasion u) : Log :=
  let result := make u l.gate e.clock e.kind e.fields e.now e.requestId
  ⟨result.2, l.answered ++ [⟨e.print, e.now, result.1.accepted⟩]⟩

/-! ## The law -/

/-- Two times inside one window. -/
def Near (window a b : ℤ) : Prop := a - b < window ∧ b - a < window

/-- The event is one of these in the window from `t` on. -/
def Answered.within (a : Answered) (window : ℤ) (print : PyText) (t : ℤ) : Bool :=
  a.print = print && t ≤ a.time && a.time < t + window

/-- **The law of the window**, whatever the order of the events. -/
structure Windowed (window : ℤ) (answered : List Answered) : Prop where
  /-- No two events inside a window are accepted. -/
  apart : answered.Pairwise fun a b =>
    a.accepted = true → b.accepted = true → a.print = b.print → ¬ Near window a.time b.time
  /-- One is refused for one that is accepted. -/
  covered : ∀ a ∈ answered, a.accepted = false →
    ∃ b ∈ answered, b.accepted = true ∧ b.print = a.print ∧ Near window a.time b.time
  /-- An event a window or more from all others of its kind is accepted. -/
  far : ∀ front a rest, answered = front ++ a :: rest →
    (∀ b ∈ front ++ rest, b.print = a.print → ¬ Near window a.time b.time) → a.accepted = true
  /-- Of a cluster, with no other event near, exactly one is accepted. -/
  cluster : ∀ print t, (∃ a ∈ answered, a.within window print t = true) →
    (∀ a ∈ answered, a.within window print t = true → ∀ b ∈ answered, b.print = print →
      b.within window print t = false → ¬ Near window a.time b.time) →
    (answered.filter fun a => a.within window print t && a.accepted).length = 1

section

variable {u : Unicode} {window : ℤ} {answered : List Answered} {l : Log} {e : Occasion u}

theorem Answered.within_iff {a : Answered} {print : PyText} {t : ℤ} :
    a.within window print t = true ↔ a.print = print ∧ t ≤ a.time ∧ a.time < t + window := by
  unfold Answered.within
  rw [Bool.and_eq_true, Bool.and_eq_true, decide_eq_true_eq, decide_eq_true_eq, decide_eq_true_eq,
    and_assoc]

/-- The first two say it all. -/
theorem Windowed.of_apart_covered
    (hapart : answered.Pairwise fun a b =>
      a.accepted = true → b.accepted = true → a.print = b.print → ¬ Near window a.time b.time)
    (hcovered : ∀ a ∈ answered, a.accepted = false →
      ∃ b ∈ answered, b.accepted = true ∧ b.print = a.print ∧ Near window a.time b.time) :
    Windowed window answered := by
  refine ⟨hapart, hcovered, ?_, ?_⟩
  · rintro front a rest rfl hfar
    by_contra hrefused
    rw [Bool.not_eq_true] at hrefused
    obtain ⟨b, hb, haccepted, hprint, hnear⟩ :=
      hcovered a (List.mem_append_right _ List.mem_cons_self) hrefused
    have hother : b ∈ front ++ rest := by
      rcases List.mem_append.mp hb with hb | hb
      · exact List.mem_append_left _ hb
      rcases List.mem_cons.mp hb with rfl | hb
      · rw [haccepted] at hrefused
        cases hrefused
      · exact List.mem_append_right _ hb
    exact hfar b hother hprint hnear
  · rintro print t ⟨a, ha, hin⟩ hclosed
    -- One at least: the event itself, or the one it was refused for.
    have hsome : ∃ b ∈ answered, (b.within window print t && b.accepted) = true := by
      cases haccepted : a.accepted with
      | true => exact ⟨a, ha, by rw [hin, haccepted]; rfl⟩
      | false =>
        obtain ⟨b, hb, hyes, hprint, hnear⟩ := hcovered a ha haccepted
        refine ⟨b, hb, ?_⟩
        have hprint : b.print = print := hprint.trans (Answered.within_iff.mp hin).1
        cases hbin : b.within window print t with
        | true => rw [hyes]; rfl
        | false => exact absurd hnear (hclosed a ha hin b hb hprint hbin)
    obtain ⟨b, hb, hyes⟩ := hsome
    have hpos : 0 < (answered.filter fun a => a.within window print t && a.accepted).length :=
      List.length_pos_of_mem (List.mem_filter.mpr ⟨hb, hyes⟩)
    -- And no two: inside the window any two are near.
    have hpairwise := hapart.sublist (List.filter_sublist
      (p := fun a => a.within window print t && a.accepted))
    have hall : ∀ c ∈ answered.filter (fun a => a.within window print t && a.accepted),
        (c.print = print ∧ t ≤ c.time ∧ c.time < t + window) ∧ c.accepted = true := by
      intro c hc
      have hin := (List.mem_filter.mp hc).2
      rw [Bool.and_eq_true] at hin
      exact ⟨Answered.within_iff.mp hin.1, hin.2⟩
    generalize answered.filter (fun a => a.within window print t && a.accepted) = chosen at *
    cases chosen with
    | nil => cases hpos
    | cons c chosen =>
      cases chosen with
      | nil => rfl
      | cons d chosen =>
        obtain ⟨⟨hc, hc', hc''⟩, hcyes⟩ := hall c List.mem_cons_self
        obtain ⟨⟨hd, hd', hd''⟩, hdyes⟩ := hall d (List.mem_cons_of_mem _ List.mem_cons_self)
        refine absurd ?_ ((List.pairwise_cons.mp hpairwise).1 d List.mem_cons_self hcyes hdyes
          (hc.trans hd.symm))
        exact ⟨by omega, by omega⟩

/-! ## The gate's answer -/

/-- The time the gate keeps for a fingerprint. -/
def Gate.kept (gate : Gate) (print : PyText) : Option ℤ :=
  (gate.recent.find? fun e => e.1 = print).map Prod.snd

theorem duplicate_iff {gate : Gate} {print : PyText} {now : ℤ} : gate.duplicate print now = true ↔
    ∃ last, gate.kept print = some last ∧ now - last < gate.window := by
  unfold Gate.duplicate Gate.kept
  cases gate.recent.find? fun e => e.1 = print with
  | none => simp
  | some e => simp

/-- **What the gate does** with an event that passes every check. -/
theorem step_valid (l : Log) (e : Occasion u) :
    l.step e = ⟨if l.gate.duplicate e.print e.now then l.gate else l.gate.remember e.print e.now,
      l.answered ++ [⟨e.print, e.now, !l.gate.duplicate e.print e.now⟩]⟩ := by
  have hvalid := e.valid
  unfold Log.step make Occasion.print
  cases hmessage : eventMessage u e.clock e.kind e.fields e.now e.requestId with
  | error detail =>
    rw [hmessage] at hvalid
    cases hvalid
  | ok message =>
    dsimp only
    cases l.gate.duplicate (fingerprint u e.kind e.fields) e.now <;> rfl

/-- An accepted event of this fingerprint is inside the window of `t`. -/
def AcceptedNear (l : Log) (print : PyText) (t : ℤ) : Prop :=
  ∃ b ∈ l.answered, b.accepted = true ∧ b.print = print ∧ Near l.gate.window t b.time

/-- The event is refused for one it is not near: the gate keeps a time that
is a window or more after it. -/
def Late (l : Log) (e : Occasion u) : Prop :=
  ¬ AcceptedNear l e.print e.now ∧ ∃ last, l.gate.kept e.print = some last ∧
    e.now - last < l.gate.window ∧ l.gate.window ≤ last - e.now

/-- The event is near one the gate has dropped, or has replaced. -/
def Forgotten (l : Log) (e : Occasion u) : Prop :=
  AcceptedNear l e.print e.now ∧ ∀ last, l.gate.kept e.print = some last →
    l.gate.window ≤ e.now - last

/-- The event comes early enough for the gate. -/
def OnTime (l : Log) (e : Occasion u) : Prop := ¬ Late l e ∧ ¬ Forgotten l e

/-- What the gate keeps it has accepted. -/
def Known (l : Log) : Prop :=
  ∀ entry ∈ l.gate.recent, ∃ b ∈ l.answered, b.accepted = true ∧ b.print = entry.1 ∧
    b.time = entry.2

theorem window_step (l : Log) (e : Occasion u) : (l.step e).gate.window = l.gate.window := by
  rw [step_valid]
  dsimp only
  split <;> rfl

theorem Known.step (h : Known l) (e : Occasion u) : Known (l.step e) := by
  rw [step_valid]
  intro entry hentry
  dsimp only at hentry ⊢
  have hold : entry ∈ l.gate.recent → ∃ b ∈ l.answered ++ [⟨e.print, e.now,
      !l.gate.duplicate e.print e.now⟩], b.accepted = true ∧ b.print = entry.1 ∧ b.time = entry.2 := by
    intro hin
    obtain ⟨b, hb, hspec⟩ := h entry hin
    exact ⟨b, List.mem_append_left _ hb, hspec⟩
  split at hentry
  · exact hold hentry
  · rename_i hnew
    rw [Bool.not_eq_true] at hnew
    unfold Gate.remember at hentry
    rcases List.mem_append.mp (List.mem_filter.mp hentry).1 with hin | hin
    · exact hold (List.mem_filter.mp hin).1
    · rw [List.mem_singleton.mp hin]
      exact ⟨_, List.mem_append_right _ List.mem_cons_self, by rw [hnew]; rfl, rfl, rfl⟩

/-- **When the gate answers as the window does.** -/
theorem onTime_iff (h : Known l) (e : Occasion u) : OnTime l e ↔
    (l.gate.duplicate e.print e.now = true ↔ AcceptedNear l e.print e.now) := by
  rw [duplicate_iff]
  constructor
  · rintro ⟨hlate, hforgotten⟩
    constructor
    · rintro ⟨last, hlast, hless⟩
      by_contra hno
      refine hlate ⟨hno, last, hlast, hless, ?_⟩
      -- The time it keeps is that of an accepted event, which is not near.
      obtain ⟨entry, hentry, rfl⟩ := Option.map_eq_some_iff.mp hlast
      obtain ⟨b, hb, hyes, hprint, htime⟩ := h entry (List.mem_of_find?_eq_some hentry)
      have hkey := List.find?_some hentry
      rw [decide_eq_true_eq] at hkey
      by_contra hclose
      exact hno ⟨b, hb, hyes, hprint.trans hkey, by rw [htime]; exact ⟨hless, by omega⟩⟩
    · intro hnear
      by_contra hno
      refine hforgotten ⟨hnear, fun last hlast => ?_⟩
      by_contra hless
      exact hno ⟨last, hlast, by omega⟩
  · rintro hiff
    constructor
    · rintro ⟨hno, last, hlast, hless, -⟩
      exact hno (hiff.mp ⟨last, hlast, hless⟩)
    · rintro ⟨hnear, hall⟩
      obtain ⟨last, hlast, hless⟩ := hiff.mpr hnear
      have hmore := hall last hlast
      omega

/-- One event: the law goes on exactly when the event is on time. -/
theorem windowed_step_iff (h : Known l) (hlaw : Windowed l.gate.window l.answered) (e : Occasion u) :
    Windowed l.gate.window (l.step e).answered ↔ OnTime l e := by
  rw [onTime_iff h, step_valid]
  dsimp only
  constructor
  · intro hnext
    cases hdup : l.gate.duplicate e.print e.now with
    | true =>
      refine ⟨fun _ => ?_, fun _ => rfl⟩
      rw [hdup] at hnext
      obtain ⟨b, hb, hyes, hprint, hnear⟩ :=
        hnext.covered _ (List.mem_append_right _ List.mem_cons_self) rfl
      rcases List.mem_append.mp hb with hb | hb
      · exact ⟨b, hb, hyes, hprint, hnear⟩
      · rw [List.mem_singleton.mp hb] at hyes
        cases hyes
    | false =>
      refine ⟨nofun, ?_⟩
      rintro ⟨b, hb, hyes, hprint, hnear⟩
      rw [hdup] at hnext
      exact absurd ⟨hnear.2, hnear.1⟩ ((List.pairwise_append.mp hnext.apart).2.2 b hb _
        List.mem_cons_self hyes rfl hprint)
  · intro hiff
    refine .of_apart_covered (List.pairwise_append.mpr ⟨hlaw.apart, List.pairwise_singleton _ _, ?_⟩) ?_
    · intro b hb c hc hyes hcyes hprint hnear
      rw [List.mem_singleton.mp hc] at hcyes hprint hnear
      rw [Bool.not_eq_true'] at hcyes
      rw [hiff.mpr ⟨b, hb, hyes, hprint, hnear.2, hnear.1⟩] at hcyes
      cases hcyes
    · intro a ha hno
      rcases List.mem_append.mp ha with ha | ha
      · obtain ⟨b, hb, hspec⟩ := hlaw.covered a ha hno
        exact ⟨b, List.mem_append_left _ hb, hspec⟩
      · rw [List.mem_singleton.mp ha] at hno ⊢
        rw [Bool.not_eq_false'] at hno
        obtain ⟨b, hb, hspec⟩ := hiff.mp hno
        exact ⟨b, List.mem_append_left _ hb, hspec⟩

/-! ## Runs -/

theorem known_run (window : ℤ) (events : List (Occasion u)) :
    Known (Machine.run Log.step (Log.start window) events) := by
  induction events using List.reverseRecOn with
  | nil =>
    intro entry hentry
    cases hentry
  | append_singleton events e ih =>
    rw [Machine.run_snoc]
    exact ih.step e

/-- The law at every moment of a run from here. -/
theorem windowed_run_iff (h : Known l) (hlaw : Windowed l.gate.window l.answered)
    (events : List (Occasion u)) :
    (∀ front rest, events = front ++ rest →
      Windowed l.gate.window (Machine.run Log.step l front).answered) ↔
        Machine.Meets Log.step OnTime l events := by
  induction events generalizing l with
  | nil =>
    refine ⟨fun _ => trivial, fun _ front rest hsplit => ?_⟩
    rw [(List.nil_eq_append_iff.mp hsplit).1]
    exact hlaw
  | cons e events ih =>
    have hwindow := window_step l e
    constructor
    · intro hall
      have hone := hall [e] events rfl
      rw [Machine.run_cons, Machine.run_nil] at hone
      refine ⟨(windowed_step_iff h hlaw e).mp hone, ?_⟩
      refine (ih (h.step e) (hwindow.symm ▸ hone)).mp fun front rest hsplit => ?_
      rw [hwindow]
      exact hall (e :: front) rest (by rw [hsplit, List.cons_append])
    · rintro ⟨hontime, hrest⟩ front rest hsplit
      have hone := (windowed_step_iff h hlaw e).mpr hontime
      cases front with
      | nil => exact hlaw
      | cons d front =>
        obtain ⟨rfl, htail⟩ := List.cons.inj hsplit
        have hnext := (ih (h.step e) (hwindow.symm ▸ hone)).mpr hrest front rest htail
        rw [hwindow] at hnext
        exact hnext

end

theorem windowed_nil (window : ℤ) : Windowed window [] :=
  .of_apart_covered .nil fun a ha => by cases ha

/-- **When the duplicate window does not depend on the order**: in a run of
events that pass every check the law of the window holds at every moment
exactly when every event is on time. -/
theorem windowed_iff (u : Unicode) (window : ℤ) (events : List (Occasion u)) :
    (∀ front rest, events = front ++ rest →
      Windowed window (Machine.run Log.step (Log.start window) front).answered) ↔
        Machine.Meets Log.step OnTime (Log.start window) events :=
  windowed_run_iff (l := Log.start window) (fun entry hentry => by cases hentry)
    (windowed_nil window) events

/-! ## Events in order -/

section

variable {u : Unicode} {window : ℤ} {l : Log} {e : Occasion u}

/-- What holds when the events have come in order: every time is kept once, and
an accepted event that is not covered by the time kept for it is a window old. -/
structure InOrder (l : Log) : Prop where
  known : Known l
  nodup : (l.gate.recent.map Prod.fst).Nodup
  kept : ∀ b ∈ l.answered, b.accepted = true →
    (∃ last, (b.print, last) ∈ l.gate.recent ∧ b.time ≤ last) ∨
      ∃ c ∈ l.answered, b.time + l.gate.window < c.time

theorem InOrder.kept_eq (h : InOrder l) {print : PyText} {last : ℤ}
    (hin : (print, last) ∈ l.gate.recent) : l.gate.kept print = some last := by
  unfold Gate.kept
  have hnodup := h.nodup
  generalize l.gate.recent = recent at hin hnodup
  induction recent with
  | nil => cases hin
  | cons entry recent ih =>
    rw [List.map_cons, List.nodup_cons] at hnodup
    rw [List.find?_cons]
    split
    · rename_i hfirst
      rw [decide_eq_true_eq] at hfirst
      rcases List.mem_cons.mp hin with rfl | hin
      · rfl
      · exact absurd (hfirst ▸ List.mem_map_of_mem (f := Prod.fst) hin) hnodup.1
    · rename_i hfirst
      rw [decide_eq_false_iff_not] at hfirst
      rcases List.mem_cons.mp hin with rfl | hin
      · exact absurd rfl hfirst
      · exact ih hin hnodup.2

/-- **In order, every event is on time.** -/
theorem InOrder.onTime (h : InOrder l) (hclock : ∀ b ∈ l.answered, b.time ≤ e.now) : OnTime l e := by
  constructor
  · rintro ⟨-, last, hlast, hless, hmore⟩
    obtain ⟨entry, hentry, rfl⟩ := Option.map_eq_some_iff.mp hlast
    obtain ⟨b, hb, -, -, htime⟩ := h.known entry (List.mem_of_find?_eq_some hentry)
    have hle := hclock b hb
    omega
  · rintro ⟨⟨b, hb, hyes, hprint, hnear⟩, hall⟩
    rcases h.kept b hb hyes with ⟨last, hin, hle⟩ | ⟨c, hc, hlt⟩
    · rw [hprint] at hin
      have hmore := hall last (h.kept_eq hin)
      have hclose := hnear.1
      omega
    · have hle := hclock c hc
      have hclose := hnear.1
      omega

theorem InOrder.step (h : InOrder l) (hclock : ∀ b ∈ l.answered, b.time ≤ e.now) :
    InOrder (l.step e) := by
  refine ⟨h.known.step e, ?_, ?_⟩
  · rw [step_valid]
    dsimp only
    split
    · exact h.nodup
    · unfold Gate.remember
      refine List.Nodup.sublist (List.filter_sublist.map _) ?_
      rw [List.map_append, List.map_singleton, List.nodup_append]
      refine ⟨h.nodup.sublist (List.filter_sublist.map _), List.nodup_singleton _, ?_⟩
      intro print hprint other hother heq
      obtain ⟨entry, hentry, rfl⟩ := List.mem_map.mp hprint
      rw [List.mem_singleton.mp hother] at heq
      have hne := (List.mem_filter.mp hentry).2
      rw [decide_eq_true_eq] at hne
      exact hne heq
  · rw [window_step]
    rw [step_valid]
    intro b hb hyes
    dsimp only at hb ⊢
    cases hdup : l.gate.duplicate e.print e.now with
    | true =>
      rw [if_pos rfl]
      rw [hdup] at hb
      rcases List.mem_append.mp hb with hb | hb
      · rcases h.kept b hb hyes with hkept | ⟨c, hc, hlt⟩
        · exact .inl hkept
        · exact .inr ⟨c, List.mem_append_left _ hc, hlt⟩
      · rw [List.mem_singleton.mp hb] at hyes
        cases hyes
    | false =>
      rw [if_neg (by simp)]
      -- The time of this event is kept, or no time is kept at all.
      have hself : (e.print, e.now) ∈ (l.gate.remember e.print e.now).recent ∨
          l.gate.window < 0 := by
        by_cases hneg : l.gate.window < 0
        · exact .inr hneg
        · refine .inl (List.mem_filter.mpr ⟨List.mem_append_right _ List.mem_cons_self, ?_⟩)
          rw [decide_eq_true_eq]
          dsimp only
          omega
      have hlast : (⟨e.print, e.now, !false⟩ : Answered) ∈ l.answered ++ [⟨e.print, e.now, !false⟩] :=
        List.mem_append_right _ List.mem_cons_self
      have hmine : ∀ b : Answered, b.print = e.print → b.time ≤ e.now →
          (∃ last, (b.print, last) ∈ (l.gate.remember e.print e.now).recent ∧ b.time ≤ last) ∨
            ∃ c ∈ l.answered ++ [⟨e.print, e.now, !false⟩], b.time + l.gate.window < c.time := by
        intro b hprint hle
        rcases hself with hin | hneg
        · exact .inl ⟨e.now, hprint ▸ hin, hle⟩
        · exact .inr ⟨_, hlast, by dsimp only; omega⟩
      rw [hdup] at hb
      rcases List.mem_append.mp hb with hb | hb
      · rcases h.kept b hb hyes with ⟨last, hin, hle⟩ | ⟨c, hc, hlt⟩
        · by_cases hprint : b.print = e.print
          · exact hmine b hprint (hclock b hb)
          · by_cases hold : e.now - last ≤ l.gate.window
            · refine .inl ⟨last, List.mem_filter.mpr ⟨List.mem_append_left _
                (List.mem_filter.mpr ⟨hin, by rw [decide_eq_true_eq]; exact hprint⟩), ?_⟩, hle⟩
              rw [decide_eq_true_eq]
              exact hold
            · exact .inr ⟨_, hlast, by dsimp only; omega⟩
        · exact .inr ⟨c, List.mem_append_left _ hc, hlt⟩
      · rw [List.mem_singleton.mp hb]
        exact hmine _ rfl le_rfl

/-- **So events that come in order** are answered by the window. -/
theorem meets_of_sorted (window : ℤ) (events : List (Occasion u))
    (hsorted : (events.map Occasion.now).Pairwise (· ≤ ·)) :
    Machine.Meets Log.step OnTime (Log.start window) events := by
  have htimes : ∀ front : List (Occasion u),
      (Machine.run Log.step (Log.start window) front).answered.map Answered.time =
        front.map Occasion.now := by
    intro front
    induction front using List.reverseRecOn with
    | nil => rfl
    | append_singleton front e ih =>
      rw [Machine.run_snoc, step_valid, List.map_append, ih, List.map_append]
      rfl
  suffices h : InOrder (Machine.run Log.step (Log.start window) events) ∧
      Machine.Meets Log.step OnTime (Log.start window) events from h.2
  induction events using List.reverseRecOn with
  | nil =>
    refine ⟨⟨known_run window [], List.nodup_nil, ?_⟩, trivial⟩
    intro b hb
    cases hb
  | append_singleton events e ih =>
    rw [List.map_append, List.pairwise_append] at hsorted
    obtain ⟨hinorder, hmeets⟩ := ih hsorted.1
    have hclock : ∀ b ∈ (Machine.run Log.step (Log.start window) events).answered,
        b.time ≤ e.now := by
      intro b hb
      have hmem := List.mem_map_of_mem (f := Answered.time) hb
      rw [htimes] at hmem
      exact hsorted.2.2 b.time hmem e.now List.mem_cons_self
    rw [Machine.run_snoc, Machine.meets_append]
    exact ⟨hinorder.step hclock, hmeets, hinorder.onTime hclock, trivial⟩

end

/-! ## Out of order -/

/-- A player left, at 100 s. -/
def leftLater : Occasion .ascii where
  clock := 100000
  kind := PyText.lit "player_left"
  fields := [(PyText.lit "player", .str (PyText.lit "Ann"))]
  now := 100
  requestId := PyText.lit "event-left-0001"
  valid := by decide +kernel

/-- The same player left, at 40 s. -/
def leftEarlier : Occasion .ascii where
  clock := 100000
  kind := PyText.lit "player_left"
  fields := [(PyText.lit "player", .str (PyText.lit "Ann"))]
  now := 40
  requestId := PyText.lit "event-left-0001"
  valid := by decide +kernel

/-- They are a minute apart, and the earlier one is refused when it comes
second. -/
theorem not_windowed_reversed : ¬ Windowed 10
    (Machine.run Log.step (Log.start 10) [leftLater, leftEarlier]).answered := by
  intro h
  have hanswered : (Machine.run Log.step (Log.start 10) [leftLater, leftEarlier]).answered =
      [⟨leftLater.print, 100, true⟩] ++ ⟨leftEarlier.print, 40, false⟩ :: [] := by decide +kernel
  have haccepted := h.far _ _ _ hanswered fun b hb _ hnear => ?_
  · cases haccepted
  · rw [List.append_nil, List.mem_singleton] at hb
    rw [hb] at hnear
    have hclose := hnear.2
    dsimp only at hclose
    omega

end Events

end GoblinZomboid
