import GoblinZomboid.Lib.PyStr
import GoblinZomboid.Lib.Run
import Mathlib.Data.Finset.Card
import Mathlib.Data.List.AList
/-!
# `party.py`: joining the party

A player asks to join, travels, and is a member on arrival. The party is
measured when the player asks and grows when the player arrives, so those
under way are not counted.
-/

namespace GoblinZomboid

namespace Party

/-- `TravelPlan`. -/
structure TravelPlan where
  playerId : PyStr
  status : String
  targetKind : String
  targetLabel : PyStr
  createdAt : ℤ
  deriving DecidableEq

/-- `JoinResult`. -/
structure JoinResult where
  status : String
  reason : String
  travel : Option TravelPlan
  deriving DecidableEq

/-- `ValueError`. -/
structure ValueError where
  message : String
  deriving DecidableEq

/-- `PartyManager`: the members, and the plans of those under way. -/
structure PartyManager where
  maxMembers : ℕ
  members : Finset PyStr
  pending : AList fun _ : PyStr => TravelPlan

/-- `PartyManager.__init__`. -/
def PartyManager.init (maxMembers : ℕ) : PartyManager := ⟨maxMembers, ∅, ∅⟩

/-- `_validate_player`. -/
def validatePlayer : PyData → Except ValueError PyStr
  | .str playerId =>
    if playerId.isEmpty || 128 < playerId.length then .error ⟨"invalid player id"⟩
    else .ok playerId
  | _ => .error ⟨"invalid player id"⟩

/-- `request_join`, at a reading of the clock in whole seconds. -/
def requestJoin (p : PartyManager) (playerId : PyData) (now : Option ℤ) (targetLabel : PyStr)
    (clock : ℤ) : Except ValueError (JoinResult × PartyManager) := do
  let playerId ← validatePlayer playerId
  if playerId ∈ p.members then
    return (⟨"member", "player is already in the party", none⟩, p)
  match p.pending.lookup playerId with
  | some travel => return (⟨"traveling", "player already has a travel plan", some travel⟩, p)
  | none =>
    if p.maxMembers ≤ p.members.card then
      return (⟨"full", "party is full", none⟩, p)
    let travel : TravelPlan :=
      { playerId := playerId
        status := "travel_required"
        targetKind := "current_position"
        targetLabel := targetLabel.take 96
        createdAt := now.getD clock }
    return (⟨"traveling", "physical travel is required before joining", some travel⟩,
      { p with pending := p.pending.insert playerId travel })

/-- `confirm_arrival`. -/
def confirmArrival (p : PartyManager) (playerId : PyData) (proximityConfirmed : Bool) :
    Except ValueError (JoinResult × PartyManager) := do
  let playerId ← validatePlayer playerId
  match p.pending.lookup playerId with
  | none => return (⟨"not_pending", "no pending travel plan", none⟩, p)
  | some travel =>
    if !proximityConfirmed then
      return (⟨"traveling", "deterministic proximity gate has not passed", some travel⟩, p)
    return (⟨"member", "party membership accepted after physical arrival", none⟩,
      { p with pending := p.pending.erase playerId, members := insert playerId p.members })

/-- `leave`. -/
def leave (p : PartyManager) (playerId : PyData) : Except ValueError (Bool × PartyManager) := do
  let playerId ← validatePlayer playerId
  return (decide (playerId ∈ p.members),
    { p with pending := p.pending.erase playerId, members := p.members.erase playerId })

/-! ## Runs -/

/-- A call of the party's, with all it is given. -/
inductive Call
  | requestJoin (playerId : PyData) (now : Option ℤ) (targetLabel : PyStr) (clock : ℤ)
  | confirmArrival (playerId : PyData) (proximityConfirmed : Bool)
  | leave (playerId : PyData)

/-- What a call leaves of the party: one that raises leaves it as it was. -/
def left {α : Type*} (p : PartyManager) : Except ValueError (α × PartyManager) → PartyManager
  | .ok (_, q) => q
  | .error _ => p

/-- One call. -/
def step (p : PartyManager) : Call → PartyManager
  | .requestJoin playerId now targetLabel clock =>
    left p (requestJoin p playerId now targetLabel clock)
  | .confirmArrival playerId proximityConfirmed =>
    left p (confirmArrival p playerId proximityConfirmed)
  | .leave playerId => left p (leave p playerId)

/-- The call is the arrival of a player who is under way. -/
def Arrives (p : PartyManager) (c : Call) (id : PyStr) : Prop :=
  ∃ playerId, c = .confirmArrival playerId true ∧ validatePlayer playerId = .ok id ∧
    id ∈ p.pending

/-- Whoever arrives finds room: the party has fewer members than it may. -/
def HasRoom (p : PartyManager) (c : Call) : Prop :=
  ∀ id, Arrives p c id → p.members.card < p.maxMembers

/-- Nobody is both a member and under way. -/
def Apart (p : PartyManager) : Prop := ∀ id ∈ p.members, id ∉ p.pending

/-- The party is no larger than it may be, and nobody is both a member and
under way. -/
structure Orderly (p : PartyManager) : Prop where
  capacity : p.members.card ≤ p.maxMembers
  apart : Apart p

section

variable {p : PartyManager} {c : Call} {id : PyStr}

/-- **What a call can do**: nothing, set a player who is no member under way,
admit one who is, or take a player out of both. -/
theorem step_cases (p : PartyManager) (c : Call) :
    ((∀ id, ¬ Arrives p c id) ∧ (step p c = p ∨
      (∃ id travel, id ∉ p.members ∧
        step p c = { p with pending := p.pending.insert id travel }) ∨
      ∃ id, step p c =
        { p with pending := p.pending.erase id, members := p.members.erase id })) ∨
    ∃ id, Arrives p c id ∧ step p c =
      { p with pending := p.pending.erase id, members := insert id p.members } := by
  cases c with
  | requestJoin playerId now targetLabel clock =>
    refine .inl ⟨fun id h => ?_, ?_⟩
    · obtain ⟨_, hc, -⟩ := h
      cases hc
    simp only [step, requestJoin]
    cases validatePlayer playerId with
    | error e => exact .inl rfl
    | ok id =>
      simp only [bind, Except.bind]
      by_cases hmem : id ∈ p.members
      · rw [if_pos hmem]
        exact .inl rfl
      rw [if_neg hmem]
      cases p.pending.lookup id with
      | some travel => exact .inl rfl
      | none =>
        by_cases hfull : p.maxMembers ≤ p.members.card
        · simp only [if_pos hfull]
          exact .inl rfl
        · simp only [if_neg hfull]
          exact .inr (.inl ⟨id, _, hmem, rfl⟩)
  | confirmArrival playerId proximityConfirmed =>
    simp only [step, confirmArrival]
    cases hid : validatePlayer playerId with
    | error e =>
      refine .inl ⟨fun id h => ?_, .inl rfl⟩
      obtain ⟨_, hc, hvalid, -⟩ := h
      cases hc
      rw [hid] at hvalid
      cases hvalid
    | ok id =>
      simp only [bind, Except.bind]
      cases htravel : p.pending.lookup id with
      | none =>
        refine .inl ⟨fun id' h => ?_, .inl rfl⟩
        obtain ⟨_, hc, hvalid, hpending⟩ := h
        cases hc
        rw [hid] at hvalid
        cases hvalid
        exact AList.lookup_eq_none.1 htravel hpending
      | some travel =>
        cases proximityConfirmed with
        | false =>
          refine .inl ⟨fun id' h => ?_, .inl rfl⟩
          obtain ⟨_, hc, -⟩ := h
          cases hc
        | true =>
          have hpending : id ∈ p.pending := AList.lookup_isSome.1 (by rw [htravel]; rfl)
          exact .inr ⟨id, ⟨playerId, rfl, hid, hpending⟩, rfl⟩
  | leave playerId =>
    refine .inl ⟨fun id h => ?_, ?_⟩
    · obtain ⟨_, hc, -⟩ := h
      cases hc
    simp only [step, leave]
    cases validatePlayer playerId with
    | error e => exact .inl rfl
    | ok id => exact .inr (.inr ⟨id, rfl⟩)

@[simp] theorem maxMembers_step : (step p c).maxMembers = p.maxMembers := by
  obtain ⟨-, h | ⟨id, travel, -, h⟩ | ⟨id, h⟩⟩ | ⟨id, -, h⟩ := step_cases p c
  all_goals rw [h]

/-- **Nobody is both a member and under way** after a call, if nobody was. -/
theorem apart_step (h : Apart p) : Apart (step p c) := by
  intro id hmem hpending
  obtain ⟨-, hs | ⟨id', travel, hid', hs⟩ | ⟨id', hs⟩⟩ | ⟨id', -, hs⟩ := step_cases p c
  · rw [hs] at hmem hpending
    exact h id hmem hpending
  · rw [hs] at hmem hpending
    rcases (AList.mem_insert _).1 hpending with rfl | hpending
    · exact hid' hmem
    · exact h id hmem hpending
  · rw [hs] at hmem hpending
    exact h id (Finset.mem_of_mem_erase hmem) (AList.mem_erase.1 hpending).2
  · rw [hs] at hmem hpending
    obtain ⟨hne, hpending⟩ := AList.mem_erase.1 hpending
    exact h id (Finset.mem_of_mem_insert_of_ne hmem hne) hpending

/-- **A call keeps the party in order exactly when whoever arrives by it
finds room.** -/
theorem orderly_step_iff (h : Orderly p) : Orderly (step p c) ↔ HasRoom p c := by
  have hapart := apart_step (c := c) h.apart
  suffices (step p c).members.card ≤ p.maxMembers ↔ HasRoom p c by
    rw [← this]
    constructor
    · intro h'
      rw [← maxMembers_step (c := c)]
      exact h'.capacity
    · intro hcard
      exact ⟨by rwa [maxMembers_step], hapart⟩
  obtain ⟨hnone, hs⟩ | ⟨id, hid, hs⟩ := step_cases p c
  · have hroom : HasRoom p c := fun id hid => absurd hid (hnone id)
    have hcard : (step p c).members.card ≤ p.members.card := by
      obtain hs | ⟨id, travel, -, hs⟩ | ⟨id, hs⟩ := hs
      · rw [hs]
      · rw [hs]
      · rw [hs]
        exact Finset.card_erase_le
    exact ⟨fun _ => hroom, fun _ => hcard.trans h.capacity⟩
  · -- Who arrives was under way, hence no member yet.
    have hnew : id ∉ p.members := by
      obtain ⟨_, -, -, hpending⟩ := hid
      exact fun hmem => h.apart id hmem hpending
    have hcard : (step p c).members.card = p.members.card + 1 := by
      rw [hs]
      exact Finset.card_insert_of_notMem hnew
    rw [hcard]
    exact ⟨fun hle id' _ => hle, fun hroom => hroom id hid⟩

theorem orderly_init (maxMembers : ℕ) : Orderly (.init maxMembers) :=
  ⟨Nat.zero_le _, fun _ h => absurd h (Finset.notMem_empty _)⟩

/-- Nobody is ever both a member and under way. -/
theorem apart_run (maxMembers : ℕ) (calls : List Call) :
    Apart (Machine.run step (.init maxMembers) calls) :=
  Machine.invariant (fun _ _ => apart_step) (orderly_init maxMembers).apart calls

/-- **The party stays in order exactly while everyone who arrives finds
room.** -/
theorem orderly_run_iff (maxMembers : ℕ) (calls : List Call) :
    (∀ calls', calls' <+: calls → Orderly (Machine.run step (.init maxMembers) calls')) ↔
      Machine.Meets step HasRoom (.init maxMembers) calls := by
  rw [Machine.forall_prefix_iff, and_iff_right (orderly_init maxMembers)]
  have hiff : ∀ p c, Orderly p → (Orderly (step p c) ↔ HasRoom p c) :=
    fun _ _ h => orderly_step_iff h
  exact Machine.meets_congr hiff (fun _ _ _ h => h) (orderly_init maxMembers)

/-! ## Two players under way to one place -/

/-- Two players ask to join a party of at most one, and both arrive. -/
def twoArrivals : List Call :=
  [.requestJoin (.str [.char 'a']) (some 0) [] 0, .requestJoin (.str [.char 'b']) (some 0) [] 0,
    .confirmArrival (.str [.char 'a']) true, .confirmArrival (.str [.char 'b']) true]

/-- Both are members then. -/
theorem not_orderly_twoArrivals :
    ¬ ∀ calls', calls' <+: twoArrivals → Orderly (Machine.run step (.init 1) calls') := by
  intro h
  have hcard : ¬ (Machine.run step (.init 1) twoArrivals).members.card ≤ 1 := by decide
  exact hcard (h twoArrivals List.prefix_rfl).capacity

end

end Party

end GoblinZomboid
