import GoblinZomboid.Agent.Hunt
import GoblinZomboid.Lib.Run
import Mathlib.Order.Lattice
import Mathlib.Algebra.Order.Ring.Int
/-!
# The rules of the hunt

Apart from its hidden target a hunt moves by eight rules. The operations of
the manager follow them; a ledger of what they accepted shows that a hunt has
one winner at most and one second wind, and that nobody is back early.
-/

namespace GoblinZomboid

namespace Hunt

/-! ## The rules -/

/-- A hunt without its hidden target. -/
structure Core where
  state : Option HuntState
  alive : Bool
  deadUntil : Option ℤ
  memory : List LootClaim

def HuntManager.core (m : HuntManager) : Core := ⟨m.state, m.alive, m.deadUntil, m.memory⟩

/-- What happened in a hunt, and when if that was asked for. -/
structure Entry where
  runId : PyStr
  status : Status
  time : Option ℤ
  deriving DecidableEq

/-- **The rules**, under a cooldown and with at most so many relocations. -/
inductive Move (cooldown most : ℤ) : Core → Option Entry → Core → Prop
  | stay (c : Core) : Move cooldown most c none c
  | start (c : Core) (id tier : PyStr) (hstate : ∀ s, c.state = some s → s.phase = .completed) :
    Move cooldown most c (some ⟨id, .started, none⟩)
      { c with
        state := some ⟨id, tier, .active, 0, 0, false, none, 0⟩
        alive := true
        deadUntil := none }
  | hint (c : Core) (s : HuntState) (hstate : c.state = some s) (hphase : s.phase ≠ .completed) :
    Move cooldown most c (some ⟨s.runId, .hint, none⟩)
      { c with state := some { s with cluesIssued := s.cluesIssued + 1 } }
  | relocate (c : Core) (s : HuntState) (hstate : c.state = some s)
      (hphase : s.phase ≠ .completed) (hmost : (s.relocations : ℤ) < most) :
    Move cooldown most c (some ⟨s.runId, .relocated, none⟩)
      { c with state := some { s with relocations := s.relocations + 1, cluesIssued := 0 } }
  | claim (c : Core) (s : HuntState) (player : PyStr) (time : ℤ) (hstate : c.state = some s)
      (hphase : s.phase = .active) :
    Move cooldown most c (some ⟨s.runId, .claimed, none⟩)
      { c with
        memory := c.memory ++ [⟨s.runId, player, time⟩]
        state := some { s with winnerId := some player, phase := .completed } }
  | secondWind (c : Core) (s : HuntState) (now : ℤ) (hstate : c.state = some s)
      (hphase : s.phase ≠ .completed) (hwind : s.secondWindUsed = false) :
    Move cooldown most c (some ⟨s.runId, .secondWind, some now⟩)
      { c with state := some { s with secondWindUsed := true } }
  | fall (c : Core) (s : HuntState) (now : ℤ) (hstate : c.state = some s)
      (hphase : s.phase ≠ .completed) (halive : c.alive = true) :
    Move cooldown most c (some ⟨s.runId, .dead, some now⟩)
      { c with
        state := some { s with phase := .dead, deathCount := s.deathCount + 1 }
        alive := false
        deadUntil := some (now + cooldown) }
  | respawn (c : Core) (s : HuntState) (now deadUntil : ℤ) (hstate : c.state = some s)
      (hphase : s.phase = .dead) (htimer : c.deadUntil = some deadUntil) (hnow : deadUntil ≤ now) :
    Move cooldown most c (some ⟨s.runId, .respawned, some now⟩)
      { c with state := some { s with phase := .active }, alive := true, deadUntil := none }

/-! ## The operations follow them -/

/-- What an accepted call is entered as. -/
def entry (c : Call) (answer : Answer) : Option Entry :=
  match answer.1 with
  | .ok r => if r.accepted then answer.2.state.map fun s => ⟨s.runId, r.status, c.time⟩ else none
  | .error _ => none

section

variable {u : Unicode} {sha256 : PyText → PyText} {m : HuntManager} {s : HuntState}

/-- A call moves the hunt by a rule, and keeps the cooldown and the maximum. -/
structure Follows (m : HuntManager) (c : Call) (answer : Answer) : Prop where
  move : Move m.respawnCooldownSeconds m.maxRelocations m.core (entry c answer) answer.2.core
  cooldown_eq : answer.2.respawnCooldownSeconds = m.respawnCooldownSeconds
  most_eq : answer.2.maxRelocations = m.maxRelocations

theorem current_eq_some : m.current = some s ↔ m.state = some s ∧ s.phase ≠ .completed := by
  simp [HuntManager.current, Option.filter_eq_some_iff]

theorem current_eq_none (h : m.current = none) : ∀ s, m.state = some s → s.phase = .completed := by
  intro s hs
  by_contra hphase
  rw [current_eq_some.2 ⟨hs, hphase⟩] at h
  cases h

/-- What is refused, or raises, leaves the hunt as it was. -/
theorem follows_refuse (m : HuntManager) (c : Call) (status : Status) (reason : String) :
    Follows m c (m.refuse status reason) := ⟨.stay _, rfl, rfl⟩

theorem follows_error (m : HuntManager) (c : Call) (e : Error) : Follows m c (.error e, m) :=
  ⟨.stay _, rfl, rfl⟩

/-- Hiding a target changes nothing else. -/
theorem core_hide (u : Unicode) (sha256 : PyText → PyText) (m : HuntManager)
    (targetKind label : PyStr) :
    (hide u sha256 m targetKind label).2 =
      { m with privateTarget := some (targetKind, strip label) } := by
  unfold hide
  cases PyStr.encode (targetKind ++ PyStr.lit ":" ++ PyStr.casefold u (strip label)) <;> rfl

theorem follows_start (u : Unicode) (sha256 : PyText → PyText) (m : HuntManager)
    (targetKind targetLabel prizeTier : PyData) (token : PyStr) :
    Follows m (.start targetKind targetLabel prizeTier token)
      (start u sha256 m targetKind targetLabel prizeTier token) := by
  unfold start
  cases hcurrent : m.current with
  | some s => exact follows_refuse m _ _ _
  | none =>
    rw [if_neg (by decide)]
    cases isIn targetKind targetKinds with
    | error e => exact follows_error m _ e
    | ok kind =>
    cases kind with
    | none => exact follows_refuse m _ _ _
    | some kind =>
    cases safeLabel u targetLabel with
    | none => exact follows_refuse m _ _ _
    | some label =>
    cases isIn prizeTier ["common", "uncommon", "rare", "legendary"] with
    | error e => exact follows_error m _ e
    | ok tier =>
    cases tier with
    | none => exact follows_refuse m _ _ _
    | some tier =>
    dsimp only
    have hm := core_hide u sha256 m kind label
    generalize hide u sha256 m kind label = hidden at hm ⊢
    obtain ⟨digest, m'⟩ := hidden
    obtain rfl : m' = _ := hm
    cases digest with
    | error e => exact ⟨.stay _, rfl, rfl⟩
    | ok digest => exact ⟨.start _ _ _ (current_eq_none hcurrent), rfl, rfl⟩

theorem follows_hint (m : HuntManager) (temperature : PyData) :
    Follows m (.hint temperature) (hint m temperature) := by
  unfold hint
  cases hcurrent : m.current with
  | none => exact follows_refuse m _ _ _
  | some s =>
    obtain ⟨hstate, hphase⟩ := current_eq_some.1 hcurrent
    cases isIn temperature ["cold", "warm", "hot"] with
    | error e => exact follows_error m _ e
    | ok temperature =>
    cases temperature with
    | none => exact follows_refuse m _ _ _
    | some temperature => exact ⟨.hint _ _ hstate hphase, rfl, rfl⟩

theorem follows_relocate (u : Unicode) (sha256 : PyText → PyText) (m : HuntManager)
    (targetKind targetLabel : PyData) :
    Follows m (.relocate targetKind targetLabel)
      (relocate u sha256 m targetKind targetLabel) := by
  unfold relocate
  cases hcurrent : m.current with
  | none => exact follows_refuse m _ _ _
  | some s =>
    obtain ⟨hstate, hphase⟩ := current_eq_some.1 hcurrent
    dsimp only
    by_cases hmost : m.maxRelocations ≤ s.relocations
    · rw [if_pos hmost]
      exact follows_refuse m _ _ _
    rw [if_neg hmost]
    cases isIn targetKind targetKinds with
    | error e => exact follows_error m _ e
    | ok kind =>
    cases kind with
    | none => exact follows_refuse m _ _ _
    | some kind =>
    cases safeLabel u targetLabel with
    | none => exact follows_refuse m _ _ _
    | some label =>
    dsimp only
    have hm := core_hide u sha256 m kind label
    generalize hide u sha256 m kind label = hidden at hm ⊢
    obtain ⟨digest, m'⟩ := hidden
    obtain rfl : m' = _ := hm
    cases digest with
    | error e => exact ⟨.stay _, rfl, rfl⟩
    | ok digest => exact ⟨.relocate _ _ hstate hphase (by omega), rfl, rfl⟩

/-- What an insertion leaves: the rows, or one more of this run. -/
theorem claimLoot_eq_ok {rows rows' : List LootClaim} {runId playerId : PyStr}
    {claimedAt : Option ℤ} {clock : ℤ} {fails done : Bool}
    (h : claimLoot rows runId playerId claimedAt clock fails = .ok (done, rows')) :
    if done then ∃ time, rows' = rows ++ [⟨runId, playerId, time⟩] else rows' = rows := by
  unfold claimLoot at h
  generalize (if claimedAt.getD 0 = 0 then clock else claimedAt.getD 0) = time at h
  dsimp only at h
  split_ifs at h
  · cases h
    rfl
  · cases h
    exact ⟨time, rfl⟩

theorem follows_claim (m : HuntManager) (playerId nearTarget : PyData) (now : Option ℤ)
    (clock : ℤ) (fails : Bool) : Follows m (.claim playerId nearTarget now clock fails)
      (claim m playerId nearTarget now clock fails) := by
  unfold claim
  cases hstate : m.state.filter fun s => s.phase = .active with
  | none => exact follows_refuse m _ _ _
  | some s =>
    obtain ⟨hstate, hphase⟩ := Option.filter_eq_some_iff.1 hstate
    dsimp only
    cases claimant playerId with
    | none => exact follows_refuse m _ _ _
    | some player =>
    dsimp only
    split
    · cases hclaim : claimLoot m.memory s.runId player now clock fails with
      | error e => exact follows_error m _ e
      | ok answer =>
        obtain ⟨done, rows⟩ := answer
        have hrows := claimLoot_eq_ok hclaim
        cases done with
        | false =>
          cases hrows
          exact follows_refuse m _ _ _
        | true =>
          obtain ⟨time, rfl⟩ := hrows
          have hmove : Move m.respawnCooldownSeconds m.maxRelocations m.core _ _ :=
            .claim m.core s player time hstate (of_decide_eq_true hphase)
          exact ⟨hmove, rfl, rfl⟩
    · exact follows_refuse m _ _ _

theorem follows_damage (m : HuntManager) (now : Option ℤ) (clock : ℤ) :
    Follows m (.damage now clock) (damage m now clock) := by
  unfold damage
  cases hcurrent : m.current with
  | none => exact follows_refuse m _ _ _
  | some s =>
    obtain ⟨hstate, hphase⟩ := current_eq_some.1 hcurrent
    dsimp only
    by_cases halive : m.alive = true
    swap
    · rw [if_pos (by simpa using halive)]
      exact follows_refuse m _ _ _
    rw [if_neg (by simpa using halive)]
    by_cases hwind : s.secondWindUsed = true
    · rw [if_pos hwind]
      exact ⟨.fall _ _ _ hstate hphase halive, rfl, rfl⟩
    · rw [if_neg hwind]
      have hmove : Move m.respawnCooldownSeconds m.maxRelocations m.core _ _ :=
        .secondWind m.core s (now.getD clock) hstate hphase (Bool.eq_false_iff.2 hwind)
      exact ⟨hmove, rfl, rfl⟩

theorem follows_respawn (m : HuntManager) (now : Option ℤ) (clock : ℤ) :
    Follows m (.respawn now clock) (respawn m now clock) := by
  unfold respawn
  cases hstate : m.state.filter fun s => s.phase = .dead with
  | none => exact follows_refuse m _ _ _
  | some s =>
    obtain ⟨hstate, hphase⟩ := Option.filter_eq_some_iff.1 hstate
    dsimp only
    cases htimer : m.deadUntil with
    | none => exact follows_refuse m _ _ _
    | some deadUntil =>
      rw [Option.all_some]
      by_cases hnow : now.getD clock < deadUntil
      · rw [if_pos (decide_eq_true hnow)]
        exact follows_refuse m _ _ _
      · rw [if_neg (by simpa using hnow)]
        have hmove : Move m.respawnCooldownSeconds m.maxRelocations m.core _ _ :=
          .respawn m.core s (now.getD clock) deadUntil hstate (of_decide_eq_true hphase) htimer
            (not_lt.1 hnow)
        exact ⟨hmove, rfl, rfl⟩

/-- **Every operation follows the rules.** -/
theorem follows_perform (u : Unicode) (sha256 : PyText → PyText) (m : HuntManager) (c : Call) :
    Follows m c (perform u sha256 m c) := by
  cases c with
  | start targetKind targetLabel prizeTier token =>
    exact follows_start u sha256 m targetKind targetLabel prizeTier token
  | hint temperature => exact follows_hint m temperature
  | relocate targetKind targetLabel => exact follows_relocate u sha256 m targetKind targetLabel
  | claim playerId nearTarget now clock fails =>
    exact follows_claim m playerId nearTarget now clock fails
  | damage now clock => exact follows_damage m now clock
  | respawn now clock => exact follows_respawn m now clock

end

/-! ## The ledger -/

/-- How often something happened in a hunt. -/
def happened (entries : List Entry) (id : PyStr) (status : Status) : ℕ :=
  entries.countP fun e => e.runId = id ∧ e.status = status

/-- The claims of a hunt that are stored. -/
def stored (rows : List LootClaim) (id : PyStr) : ℕ := rows.countP fun row => row.runId = id

/-- Nobody fell or came back in these entries. -/
def Quiet (entries : List Entry) : Prop :=
  ∀ e ∈ entries, e.status ≠ .dead ∧ e.status ≠ .respawned

/-- The last fall before a return is a cooldown before it. -/
def Cooled (cooldown : ℤ) (front : List Entry) (e : Entry) : Prop :=
  ∃ early died late t, front = early ++ ⟨e.runId, .dead, some died⟩ :: late ∧ Quiet late ∧
    e.time = some t ∧ died + cooldown ≤ t

/-- **The law of the hunt**: one winner, the fallen goblin told by its phase
and by its timer, relocations within the maximum, no return before the
cooldown ends, one second wind. -/
structure Fair (cooldown most : ℤ) (c : Core) (entries : List Entry) : Prop where
  oneWinner : ∀ id, happened entries id .claimed ≤ 1
  oneRow : ∀ e ∈ entries, stored c.memory e.runId ≤ 1
  down_iff_phase : c.alive = false ↔ ∃ s, c.state = some s ∧ s.phase = .dead
  down_iff_timer : c.alive = false ↔ c.deadUntil.isSome = true
  relocations : ∀ s, c.state = some s → (s.relocations : ℤ) ≤ max 0 most
  cooled : ∀ front e rest, entries = front ++ e :: rest → e.status = .respawned →
    Cooled cooldown front e
  oneWind : ∀ id, happened entries id .secondWind ≤ 1

/-- What of the ledger the state of the hunt on tells. -/
structure Told (cooldown : ℤ) (c : Core) (entries : List Entry) : Prop where
  known : ∀ s, c.state = some s → ∃ e ∈ entries, e.runId = s.runId
  unclaimed : ∀ s, c.state = some s → s.phase ≠ .completed → happened entries s.runId .claimed = 0
  unspent : ∀ s, c.state = some s → s.secondWindUsed = false →
    happened entries s.runId .secondWind = 0
  rows : ∀ e ∈ entries, stored c.memory e.runId = happened entries e.runId .claimed
  waiting : ∀ deadUntil, c.deadUntil = some deadUntil → ∃ s early died late,
    c.state = some s ∧ entries = early ++ ⟨s.runId, .dead, some died⟩ :: late ∧ Quiet late ∧
      deadUntil = died + cooldown

/-- A hunt that starts has a run id of its own. -/
def Own (c : Core) (entries : List Entry) (e : Entry) : Prop :=
  e.status = .started → (∀ e' ∈ entries, e'.runId ≠ e.runId) ∧
    ∀ row ∈ c.memory, row.runId ≠ e.runId

section

variable {cooldown most : ℤ} {c c' : Core} {e : Entry} {entries : List Entry} {id : PyStr}
variable {status : Status}

theorem happened_snoc :
    happened (entries ++ [e]) id status =
      happened entries id status + if e.runId = id ∧ e.status = status then 1 else 0 := by
  unfold happened
  rw [List.countP_append, List.countP_singleton]
  simp only [decide_eq_true_eq]

theorem happened_snoc_of_ne (h : e.status ≠ status) :
    happened (entries ++ [e]) id status = happened entries id status := by
  rw [happened_snoc, if_neg fun hc => h hc.2, Nat.add_zero]

theorem happened_eq_zero (h : ∀ e ∈ entries, e.runId ≠ id) : happened entries id status = 0 := by
  refine List.countP_eq_zero.2 fun e he hcount => ?_
  exact h e he (of_decide_eq_true hcount).1

/-- What did not happen before in its hunt happened once. -/
theorem happened_snoc_le (h : happened entries id status ≤ 1)
    (hnone : e.status = status → happened entries e.runId status = 0) :
    happened (entries ++ [e]) id status ≤ 1 := by
  rw [happened_snoc]
  split
  · rename_i hnow
    obtain ⟨rfl, hstatus⟩ := hnow
    rw [hnone hstatus]
  · exact h

theorem Move.eq_of_none (h : Move cooldown most c none c') : c' = c := by
  cases h
  rfl

/-- How a hunt goes on by something that happens in it. -/
structure GoesOn (most : ℤ) (s s' : HuntState) (status : Status) : Prop where
  runId_eq : s'.runId = s.runId
  on : s.phase ≠ .completed
  ended_iff : s'.phase = .completed ↔ status = .claimed
  unspent : status = .secondWind → s.secondWindUsed = false
  unspent_after : s'.secondWindUsed = false → status ≠ .secondWind ∧ s.secondWindUsed = false
  relocations : (s'.relocations : ℤ) ≤ max (s.relocations : ℤ) most

/-- **What happens starts a hunt, or goes on with the one there is.** -/
theorem Move.cases_entry (h : Move cooldown most c (some e) c') :
    (e.status = .started ∧ ∃ s, c'.state = some s ∧ s.runId = e.runId ∧ s.relocations = 0) ∨
      e.status ≠ .started ∧ ∃ s s', c.state = some s ∧ c'.state = some s' ∧
        e.runId = s.runId ∧ GoesOn most s s' e.status := by
  cases h with
  | start id tier hstate => exact .inl ⟨rfl, _, rfl, rfl, rfl⟩
  | hint s hstate hphase =>
    refine .inr ⟨by simp, s, _, hstate, rfl, rfl, rfl, hphase, ?_, ?_, ?_, le_max_left _ _⟩
    all_goals simp [hphase]
  | relocate s hstate hphase hmost =>
    refine .inr ⟨by simp, s, _, hstate, rfl, rfl, rfl, hphase, ?_, ?_, ?_, ?_⟩
    rotate_right
    · exact le_max_of_le_right (by push_cast; omega)
    all_goals simp [hphase]
  | claim s player time hstate hphase =>
    refine .inr ⟨by simp, s, _, hstate, rfl, rfl, rfl, ?_, ?_, ?_, ?_, le_max_left _ _⟩
    all_goals simp [hphase]
  | secondWind s now hstate hphase hwind =>
    refine .inr ⟨by simp, s, _, hstate, rfl, rfl, rfl, hphase, ?_, ?_, ?_, le_max_left _ _⟩
    all_goals simp [hphase, hwind]
  | fall s now hstate hphase halive =>
    refine .inr ⟨by simp, s, _, hstate, rfl, rfl, rfl, hphase, ?_, ?_, ?_, le_max_left _ _⟩
    all_goals simp
  | respawn s now deadUntil hstate hphase =>
    refine .inr ⟨by simp, s, _, hstate, rfl, rfl, rfl, ?_, ?_, ?_, ?_, le_max_left _ _⟩
    all_goals simp [hphase]

/-- **What can happen once.** Where a hunt's state tells that something has
not happened in it, that is so after a move too, and it had not happened
when it does. -/
theorem unhappened_move (P : HuntState → Prop) (hstatus : status ≠ .started)
    (hgo : ∀ s s' now, GoesOn most s s' now →
      (now = status → P s) ∧ (P s' → now ≠ status ∧ P s))
    (hall : ∀ s, c.state = some s → P s → happened entries s.runId status = 0)
    (h : Move cooldown most c (some e) c') (hown : Own c entries e) :
    (e.status = status → happened entries e.runId status = 0) ∧
      ∀ s, c'.state = some s → P s → happened (entries ++ [e]) s.runId status = 0 := by
  obtain ⟨hstart, s', hs', hid, -⟩ | ⟨-, s, s', hs, hs', hid, hgoes⟩ := h.cases_entry
  · have hnone : happened entries e.runId status = 0 := happened_eq_zero (hown hstart).1
    refine ⟨fun _ => hnone, fun s hs _ => ?_⟩
    rw [hs'] at hs
    cases hs
    rw [happened_snoc_of_ne (by rw [hstart]; exact hstatus.symm), hid, hnone]
  · obtain ⟨hnow, hafter⟩ := hgo s s' _ hgoes
    refine ⟨fun h => ?_, fun s'' hs'' hopen => ?_⟩
    · rw [hid]
      exact hall s hs (hnow h)
    · rw [hs'] at hs''
      cases hs''
      obtain ⟨hne, hopen⟩ := hafter hopen
      rw [happened_snoc_of_ne hne, hgoes.runId_eq, hall s hs hopen]

/-- A claim is stored as it is entered. -/
theorem stored_move (h : Move cooldown most c (some e) c') (id : PyStr) :
    stored c'.memory id =
      stored c.memory id + if e.runId = id ∧ e.status = .claimed then 1 else 0 := by
  cases h with
  | claim s player time hstate hphase =>
    unfold stored
    rw [List.countP_append, List.countP_singleton]
    simp only [decide_eq_true_eq, and_true]
  | start | hint | relocate | secondWind | fall | respawn => simp

/-- **The rows of a hunt are its claims**, after a move too. -/
theorem Told.rows_move (ht : Told cooldown c entries) (h : Move cooldown most c (some e) c')
    (hown : Own c entries e) : ∀ e' ∈ entries ++ [e],
      stored c'.memory e'.runId = happened (entries ++ [e]) e'.runId .claimed := by
  have hold : ∀ e' ∈ entries,
      stored c'.memory e'.runId = happened (entries ++ [e]) e'.runId .claimed := by
    intro e' he'
    rw [stored_move h, happened_snoc, ht.rows e' he']
  intro e' he'
  rcases List.mem_append.1 he' with he' | he'
  · exact hold e' he'
  rw [List.mem_singleton.1 he']
  obtain ⟨hstart, -⟩ | ⟨-, s, s', hs, -, hid, -⟩ := h.cases_entry
  · obtain ⟨hentries, hrows⟩ := hown hstart
    have hnone : stored c.memory e.runId = 0 :=
      List.countP_eq_zero.2 fun row hrow h => hrows row hrow (of_decide_eq_true h)
    rw [stored_move h, happened_snoc, hnone, happened_eq_zero hentries]
  · obtain ⟨e'', he'', hid''⟩ := ht.known s hs
    rw [hid, ← hid'']
    exact hold e'' he''

/-- Down, as the phase says and as the timer says, after a move. -/
theorem down_move (hphase : c.alive = false ↔ ∃ s, c.state = some s ∧ s.phase = .dead)
    (htimer : c.alive = false ↔ c.deadUntil.isSome = true)
    (h : Move cooldown most c (some e) c') :
    (c'.alive = false ↔ ∃ s, c'.state = some s ∧ s.phase = .dead) ∧
      (c'.alive = false ↔ c'.deadUntil.isSome = true) := by
  cases h with
  | start id tier hstate => simp
  | hint s hstate | relocate s hstate | secondWind s now hstate =>
    refine ⟨?_, htimer⟩
    simpa [hstate] using hphase
  | claim s player time hstate hactive =>
    refine ⟨?_, htimer⟩
    simpa [hstate, hactive] using hphase
  | fall s now hstate => simp
  | respawn s now deadUntil hstate => simp

/-- A timer that runs was set by the last fall. -/
theorem Told.waiting_move (ht : Told cooldown c entries)
    (hphase : c.alive = false ↔ ∃ s, c.state = some s ∧ s.phase = .dead)
    (htimer : c.alive = false ↔ c.deadUntil.isSome = true)
    (h : Move cooldown most c (some e) c') :
    ∀ deadUntil, c'.deadUntil = some deadUntil → ∃ s early died late,
      c'.state = some s ∧ entries ++ [e] = early ++ ⟨s.runId, .dead, some died⟩ :: late ∧
        Quiet late ∧ deadUntil = died + cooldown := by
  -- While the goblin is down, what else happens in its hunt comes after the fall.
  have hlater : ∀ s s', c.state = some s → c'.state = some s' → s'.runId = s.runId →
      e.status ≠ .dead → e.status ≠ .respawned → ∀ deadUntil, c.deadUntil = some deadUntil →
      ∃ s early died late, c'.state = some s ∧
        entries ++ [e] = early ++ ⟨s.runId, .dead, some died⟩ :: late ∧ Quiet late ∧
          deadUntil = died + cooldown := by
    intro s s' hs hs' hid hdead hrespawned deadUntil htime
    obtain ⟨s'', early, died, late, hs'', hentries, hquiet, htime⟩ := ht.waiting deadUntil htime
    rw [hs] at hs''
    cases hs''
    refine ⟨s', early, died, late ++ [e], hs', ?_, ?_, htime⟩
    · rw [hentries, hid, List.append_assoc, List.cons_append]
    · intro a ha
      rcases List.mem_append.1 ha with ha | ha
      · exact hquiet a ha
      · rw [List.mem_singleton.1 ha]
        exact ⟨hdead, hrespawned⟩
  cases h with
  | start id tier hstate =>
    intro deadUntil htime
    cases htime
  | hint s hstate => exact hlater s _ hstate rfl rfl (by simp) (by simp)
  | relocate s hstate => exact hlater s _ hstate rfl rfl (by simp) (by simp)
  | claim s player time hstate hactive =>
    intro deadUntil htime
    have hdown := htimer.2 (by rw [show c.deadUntil = some deadUntil from htime]; rfl)
    obtain ⟨s', hs', hdead⟩ := hphase.1 hdown
    rw [hstate] at hs'
    cases hs'
    rw [hactive] at hdead
    cases hdead
  | secondWind s now hstate => exact hlater s _ hstate rfl rfl (by simp) (by simp)
  | fall s now hstate =>
    intro deadUntil htime
    cases htime
    exact ⟨_, entries, now, [], rfl, rfl, fun _ h => absurd h List.not_mem_nil, rfl⟩
  | respawn s now deadUntil hstate =>
    intro deadUntil htime
    cases htime

/-- A return comes when the timer has run out. -/
theorem Told.cooled_move (ht : Told cooldown c entries) (h : Move cooldown most c (some e) c')
    (hreturn : e.status = .respawned) : Cooled cooldown entries e := by
  cases h with
  | respawn s now deadUntil hstate hphase htimer hnow =>
    obtain ⟨s', early, died, late, hs', hentries, hquiet, htime⟩ := ht.waiting deadUntil htimer
    rw [hstate] at hs'
    cases hs'
    exact ⟨early, died, late, now, hentries, hquiet, rfl, htime ▸ hnow⟩
  | start | hint | relocate | claim | secondWind | fall => cases hreturn

/-- An entry of a ledger with one more is one of the old ones, or the new. -/
theorem eq_append_cons_of_snoc {front rest : List Entry} {e' : Entry}
    (h : entries ++ [e] = front ++ e' :: rest) :
    (front = entries ∧ e' = e) ∨ ∃ rest', entries = front ++ e' :: rest' := by
  rcases List.eq_nil_or_concat rest with rfl | ⟨rest', last, rfl⟩
  · obtain ⟨hfront, he⟩ := List.append_inj' h rfl
    cases he
    exact .inl ⟨hfront.symm, rfl⟩
  · rw [List.concat_eq_append, ← List.cons_append, ← List.append_assoc] at h
    exact .inr ⟨rest', (List.append_inj' h rfl).1⟩

/-- **What a move keeps.** -/
theorem fair_move (hf : Fair cooldown most c entries) (ht : Told cooldown c entries)
    (h : Move cooldown most c (some e) c') (hown : Own c entries e) :
    Fair cooldown most c' (entries ++ [e]) ∧ Told cooldown c' (entries ++ [e]) := by
  obtain ⟨hclaim, hunclaimed⟩ := unhappened_move (fun s => s.phase ≠ .completed)
    (by decide) (fun s s' now hgo => ⟨fun _ => hgo.on, fun hs' =>
      ⟨fun hnow => hs' (hgo.ended_iff.2 hnow), hgo.on⟩⟩) ht.unclaimed h hown
  obtain ⟨hwind, hunspent⟩ := unhappened_move (fun s => s.secondWindUsed = false)
    (by decide) (fun s s' now hgo => ⟨hgo.unspent, hgo.unspent_after⟩) ht.unspent h hown
  have hrows := ht.rows_move h hown
  have hwinner : ∀ id, happened (entries ++ [e]) id .claimed ≤ 1 :=
    fun id => happened_snoc_le (hf.oneWinner id) hclaim
  obtain ⟨hphase, htimer⟩ := down_move hf.down_iff_phase hf.down_iff_timer h
  refine ⟨⟨hwinner, ?_, hphase, htimer, ?_, ?_, ?_⟩, ?_, hunclaimed, hunspent, hrows,
    ht.waiting_move hf.down_iff_phase hf.down_iff_timer h⟩
  · intro e' he'
    rw [hrows e' he']
    exact hwinner e'.runId
  · intro s hs
    obtain ⟨-, s', hs', -, hzero⟩ | ⟨-, s₀, s', hs₀, hs', -, hgoes⟩ := h.cases_entry
    · rw [hs] at hs'
      cases hs'
      rw [hzero]
      exact le_max_left _ _
    · rw [hs] at hs'
      cases hs'
      exact hgoes.relocations.trans (max_le (hf.relocations s₀ hs₀) (le_max_right _ _))
  · intro front e' rest hentries hreturn
    obtain ⟨rfl, rfl⟩ | ⟨rest', hold⟩ := eq_append_cons_of_snoc hentries
    · exact ht.cooled_move h hreturn
    · exact hf.cooled front e' rest' hold hreturn
  · exact fun id => happened_snoc_le (hf.oneWind id) hwind
  · intro s hs
    refine ⟨e, List.mem_append_right _ (List.mem_singleton.2 rfl), ?_⟩
    obtain ⟨-, s', hs', hid, -⟩ | ⟨-, s₀, s', -, hs', hid, hgoes⟩ := h.cases_entry
    · rw [hs] at hs'
      cases hs'
      exact hid.symm
    · rw [hs] at hs'
      cases hs'
      rw [hid, hgoes.runId_eq]

end

/-! ## Runs -/

/-- A manager, and what has happened in its hunts. -/
structure Ledger where
  manager : HuntManager
  entries : List Entry

/-- A new manager over a store. -/
def Ledger.init (memory : List LootClaim) (respawnCooldownSeconds maxRelocations : ℤ) : Ledger :=
  ⟨.init memory respawnCooldownSeconds maxRelocations, []⟩

section

variable (u : Unicode) (sha256 : PyText → PyText)

/-- One call. -/
def Ledger.step (l : Ledger) (c : Call) : Ledger :=
  let answer := perform u sha256 l.manager c
  ⟨answer.2, l.entries ++ (entry c answer).toList⟩

/-- The run id a call draws is fresh. -/
def FreshRunId (l : Ledger) (c : Call) : Prop :=
  ∀ e ∈ entry c (perform u sha256 l.manager c), Own l.manager.core l.entries e

instance Own.decidable (c : Core) (entries : List Entry) (e : Entry) :
    Decidable (Own c entries e) :=
  inferInstanceAs (Decidable (e.status = .started → (∀ e' ∈ entries, e'.runId ≠ e.runId) ∧
    ∀ row ∈ c.memory, row.runId ≠ e.runId))

instance FreshRunId.decidable (l : Ledger) (c : Call) : Decidable (FreshRunId u sha256 l c) :=
  inferInstanceAs (Decidable (∀ e ∈ entry c (perform u sha256 l.manager c),
    Own l.manager.core l.entries e))

variable {u sha256} {l : Ledger} {c : Call} {cooldown most : ℤ}

/-- The law holds of a ledger, with what its state tells. -/
structure Ledger.Kept (cooldown most : ℤ) (l : Ledger) : Prop where
  cooldown_eq : l.manager.respawnCooldownSeconds = cooldown
  most_eq : l.manager.maxRelocations = most
  fair : Fair cooldown most l.manager.core l.entries
  told : Told cooldown l.manager.core l.entries

/-- **A call keeps the law.** -/
theorem kept_step (h : l.Kept cooldown most) (hfresh : FreshRunId u sha256 l c) :
    (l.step u sha256 c).Kept cooldown most := by
  obtain ⟨rfl, rfl, hf, ht⟩ := h
  obtain ⟨hmove, hcooldown, hmost⟩ := follows_perform u sha256 l.manager c
  have hkept : Fair l.manager.respawnCooldownSeconds l.manager.maxRelocations
      (perform u sha256 l.manager c).2.core (l.step u sha256 c).entries ∧
    Told l.manager.respawnCooldownSeconds (perform u sha256 l.manager c).2.core
      (l.step u sha256 c).entries := by
    unfold Ledger.step
    dsimp only
    cases hentry : entry c (perform u sha256 l.manager c) with
    | none =>
      rw [hentry] at hmove
      rw [Option.toList_none, List.append_nil, hmove.eq_of_none]
      exact ⟨hf, ht⟩
    | some e =>
      rw [hentry] at hmove
      exact fair_move hf ht hmove (hfresh e hentry)
  exact ⟨hcooldown, hmost, hkept.1, hkept.2⟩

end

theorem kept_init (memory : List LootClaim) (cooldown most : ℤ) :
    (Ledger.init memory cooldown most).Kept cooldown most := by
  refine ⟨rfl, rfl, ⟨?_, ?_, ?_, ?_, ?_, ?_, ?_⟩, ⟨?_, ?_, ?_, ?_, ?_⟩⟩
  · exact fun _ => Nat.zero_le _
  · exact fun _ h => absurd h List.not_mem_nil
  · simp [Ledger.init, HuntManager.init, HuntManager.core]
  · simp [Ledger.init, HuntManager.init, HuntManager.core]
  · exact fun _ h => by cases h
  · exact fun front e rest h => by simp [Ledger.init] at h
  · exact fun _ => Nat.zero_le _
  · exact fun _ h => by cases h
  · exact fun _ h => by cases h
  · exact fun _ h => by cases h
  · exact fun _ h => absurd h List.not_mem_nil
  · exact fun _ h => by cases h

/-- **The hunt is fair.** Whatever is called in whatever order, with a fresh
run id for each hunt, the law of the hunt holds at every moment. -/
theorem fair_run (u : Unicode) (sha256 : PyText → PyText) (memory : List LootClaim)
    (cooldown most : ℤ) (calls : List Call)
    (hfresh : Machine.Meets (Ledger.step u sha256) (FreshRunId u sha256)
      (.init memory cooldown most) calls) :
    Fair cooldown most
      (Machine.run (Ledger.step u sha256) (.init memory cooldown most) calls).manager.core
      (Machine.run (Ledger.step u sha256) (.init memory cooldown most) calls).entries := by
  have hstep : ∀ l c, l.Kept cooldown most → FreshRunId u sha256 l c →
      (l.step u sha256 c).Kept cooldown most := fun _ _ => kept_step
  exact (Machine.invariant_of_meets hstep (kept_init memory cooldown most) hfresh).fair

/-- Two hits, a return too early, a return, and the prize. -/
def twoHits : List Call :=
  [.start (.str (PyStr.lit "area")) (.str (PyStr.lit "road")) (.str (PyStr.lit "rare")) [.char '7'],
    .damage (some 101) 0, .damage (some 102) 0, .respawn (some 105) 0, .respawn (some 112) 0,
    .claim (.str [.char 'a']) (.bool true) (some 113) 0 false]

theorem fair_twoHits :
    Fair 10 4 (Machine.run (Ledger.step .ascii id) (.init [] 10 4) twoHits).manager.core
      (Machine.run (Ledger.step .ascii id) (.init [] 10 4) twoHits).entries :=
  fair_run .ascii id [] 10 4 twoHits (by decide)

/-- All of it but the early return is entered. -/
example : (Machine.run (Ledger.step .ascii id) (.init [] 10 4) twoHits).entries.map (·.status) =
    [.started, .secondWind, .dead, .respawned, .claimed] := by decide

end Hunt

end GoblinZomboid
