import GoblinZomboid.Lib.Bytes
import Mathlib.Data.List.Sort
import Mathlib.Algebra.Order.Ring.Unbundled.Rat
/-!
# `GoblinAccess.lua` and `GoblinAccessPolicy.lua`: ways in

An edge of the scope is a way in when a door or a window on it can be opened,
a low fence can be climbed, or a window may be broken. Each kind is found with
a priority, and none is above that of a broken window.
-/

namespace GoblinZomboid

namespace Access

/-- `table.sort`: a permutation, in order by what orders strictly and weakly;
what is level comes in any order. -/
structure TableSort where
  sort : {α : Type} → (α → α → Bool) → List α → List α
  perm : ∀ {α : Type} (lt : α → α → Bool) (l : List α), (sort lt l).Perm l
  sorted : ∀ {α : Type} (lt : α → α → Bool) (l : List α),
    (∀ a b, lt a b = true → lt b a = false) →
    (∀ a b c, lt b a = false → lt c b = false → lt c a = false) →
    (sort lt l).Pairwise fun a b => lt b a = false

/-- Insertion is such a sort. -/
def TableSort.insertion : TableSort where
  sort lt l := l.insertionSort fun a b => lt b a = false
  perm lt l := List.perm_insertionSort _ l
  sorted lt l hasymm htrans := by
    have : Std.Total fun a b => lt b a = false := ⟨fun a b => by
      cases hba : lt b a with
      | false => exact .inl rfl
      | true => exact .inr (hasymm b a hba)⟩
    have : IsTrans _ fun a b => lt b a = false := ⟨htrans⟩
    exact List.pairwise_insertionSort _ l

/-! ## Codes and kinds -/

/-- The result codes of access work. -/
inductive Code
  | noPath
  | blocked
  | locked
  | missingTool
  | targetUnloaded
  | targetChanged
  | unsupported
  | permissionDenied
  | timeout
  | engineError
  | complete
  | movingToTarget
  | working
  | waitingForTarget
  deriving DecidableEq

def Code.text : Code → String
  | .noPath => "NO_PATH"
  | .blocked => "BLOCKED"
  | .locked => "LOCKED"
  | .missingTool => "MISSING_TOOL"
  | .targetUnloaded => "TARGET_UNLOADED"
  | .targetChanged => "TARGET_CHANGED"
  | .unsupported => "UNSUPPORTED"
  | .permissionDenied => "PERMISSION_DENIED"
  | .timeout => "TIMEOUT"
  | .engineError => "ENGINE_ERROR"
  | .complete => "COMPLETE"
  | .movingToTarget => "MOVING_TO_TARGET"
  | .working => "WORKING"
  | .waitingForTarget => "WAITING_FOR_TARGET"

/-- What a piece of work returns: `done`, `success`, `detail` and `code`. -/
structure Report where
  done : Bool
  success : Bool
  detail : Bytes
  code : Code
  deriving DecidableEq

/-- `return true, false, detail, code`. -/
def Report.failed (detail : String) (code : Code) : Report := ⟨true, false, Bytes.lit detail, code⟩

/-- `kinds` of `GainAccess.prepare`. -/
inductive Kind
  | building
  | room
  | yard
  | vehicle
  | container
  deriving DecidableEq

/-- The kind a target names, in upper case, by its name or another for it. -/
def Kind.named (name : Bytes) : Option Kind :=
  let name := Bytes.upper name
  if name = Bytes.lit "BUILDING" || name = Bytes.lit "NEARBY_BUILDING" || name = Bytes.lit "BASE" then
    some .building
  else if name = Bytes.lit "ROOM" || name = Bytes.lit "CURRENT_POSITION" then some .room
  else if name = Bytes.lit "YARD" || name = Bytes.lit "AREA" then some .yard
  else if name = Bytes.lit "VEHICLE" then some .vehicle
  else if name = Bytes.lit "CONTAINER" then some .container
  else none

/-- An edge between two squares. -/
structure Edge where
  x : ℤ
  y : ℤ
  z : ℤ
  dx : ℤ
  dy : ℤ
  deriving DecidableEq

/-! ## The policy -/

/-- What `Policy.access` finds. -/
structure Standing where
  /-- `serverOnly`. -/
  server : Bool
  goblin : Bool
  /-- The target has a square. -/
  loaded : Bool
  safehouse : Bool

/-- `Policy.access`. -/
def policyAccess (e : Standing) : Except (Code × String) Unit :=
  if !e.server then .error (.permissionDenied, "access is server-authoritative")
  else if !e.goblin then .error (.permissionDenied, "actor is not a managed Goblin")
  else if !e.loaded then .error (.targetUnloaded, "access target is not loaded")
  else if !e.safehouse then
    .error (.permissionDenied, "another player's safehouse blocks this access")
  else .ok ()

/-- What an order authorizes. -/
structure Request where
  allowBreach : Bool
  autonomous : Bool
  offline : Bool
  deriving DecidableEq

/-- `Policy.breach`, of a target that contains items or not. -/
def policyBreach (e : Standing) (containsItems : Bool) (kind : Kind) (r : Request) :
    Except (Code × String) Unit :=
  match policyAccess e with
  | .error refusal => .error refusal
  | .ok () =>
    if !r.allowBreach then
      .error (.permissionDenied, "destructive breach was not explicitly authorized")
    else if r.autonomous || r.offline then
      .error (.permissionDenied, "autonomous or offline work may not breach structures")
    else if kind = .vehicle then
      .error (.unsupported, "vehicle ownership cannot be proven safely; use a matching key")
    else if kind = .container && containsItems then
      .error (.permissionDenied, "a non-empty container may not be breached")
    else .ok ()

/-- **Who may breach**: an order that allows it, by someone who is there. -/
theorem policyBreach_eq_ok {e : Standing} {containsItems : Bool} {kind : Kind} {r : Request}
    (h : policyBreach e containsItems kind r = .ok ()) :
    r.allowBreach = true ∧ r.autonomous = false ∧ r.offline = false := by
  unfold policyBreach at h
  cases hc : policyAccess e with
  | error refusal =>
    rw [hc] at h
    cases h
  | ok done =>
    rw [hc] at h
    dsimp only at h
    split at h
    · cases h
    rename_i hallow
    split at h
    · cases h
    rename_i haway
    rw [Bool.not_eq_true, Bool.or_eq_false_iff] at haway
    exact ⟨by simpa using hallow, haway.1, haway.2⟩

/-! ## Finding ways in -/

/-- A way in that is found. -/
structure Found where
  edge : Edge
  window : Bool
  breach : Bool
  startedAt : ℤ
  priority : Option ℕ
  score : Option ℚ
  deriving DecidableEq

/-- An edge as `Access.prepare` sees it. -/
structure Opening where
  edge : Edge
  distance : ℚ
  /-- There is a door, or a window, of the scope and within its limit. -/
  here : Bool
  /-- `blockReason`. -/
  reason : Option String
  /-- `doorLocked` and `matchingDoorKey`. -/
  locked : Bool
  keyed : Bool

/-- Open already, or nothing is in the way. -/
def Opening.eligible (o : Opening) : Bool :=
  o.here && (o.reason = none || o.reason = some "already open")

def Opening.priority (window : Bool) (o : Opening) : ℕ :=
  if o.reason = some "already open" then 1
  else if window then 5
  else if o.locked && o.keyed then 3
  else if o.locked then 7
  else 2

def Opening.found (window : Bool) (now : ℤ) (o : Opening) : Found :=
  { edge := o.edge
    window := window
    breach := false
    startedAt := now
    priority := some (o.priority window)
    score := some (o.priority window * 100000 + o.distance) }

/-- `a.score<b.score`. -/
def scoreLt (a b : Found) : Bool := decide (a.score.getD 0 < b.score.getD 0)

/-- The ranked routes of `Access.prepare`, twelve at most. -/
def ranked (ts : TableSort) (window : Bool) (now : ℤ) (openings : List Opening) : List Found :=
  (openings.filter Opening.eligible).foldl
    (fun routes o => (ts.sort scoreLt (routes ++ [o.found window now])).take 12) []

/-- An edge with a fence, or a window that could be broken. -/
structure Spot where
  edge : Edge
  distance : ℚ
  /-- `prepareFence`: a low fence on both sides within the limit.
  `prepareBreachWindow`: a window of the scope within the limit, neither
  smashed nor barricaded nor destroyed. -/
  eligible : Bool

/-- The nearest of them. -/
def nearest (spots : List Spot) : Option Spot :=
  (spots.filter (·.eligible)).foldl
    (fun best spot =>
      match best with
      | none => some spot
      | some best => if spot.distance < best.distance then some spot else some best) none

/-- `Access.prepareFence`. -/
def prepareFence (now : ℤ) (spots : List Spot) : Option Found :=
  (nearest spots).map fun spot => ⟨spot.edge, false, false, now, some 6, none⟩

/-- `Access.prepareBreachWindow`. -/
def prepareBreachWindow (now : ℤ) (spots : List Spot) : Option Found :=
  (nearest spots).map fun spot => ⟨spot.edge, true, true, now, some 8, none⟩

theorem priority_opening_le (window : Bool) (o : Opening) : o.priority window ≤ 7 := by
  unfold Opening.priority
  repeat' split
  all_goals decide

/-- **What can be opened comes before what is broken.** -/
theorem priority_of_mem_ranked {ts : TableSort} {window : Bool} {now : ℤ}
    {openings : List Opening} {f : Found} (h : f ∈ ranked ts window now openings) :
    ∃ n, f.priority = some n ∧ n ≤ 7 := by
  have hfold : ∀ (os : List Opening) (routes : List Found),
      (∀ f ∈ routes, ∃ n, f.priority = some n ∧ n ≤ 7) →
      ∀ f ∈ os.foldl (fun routes o =>
        (ts.sort scoreLt (routes ++ [o.found window now])).take 12) routes,
        ∃ n, f.priority = some n ∧ n ≤ 7 := by
    intro os
    induction os with
    | nil => exact fun routes hroutes => hroutes
    | cons o os ih =>
      intro routes hroutes
      refine ih _ fun f hf => ?_
      have hmem := (ts.perm scoreLt _).mem_iff.1 (List.mem_of_mem_take hf)
      rcases List.mem_append.1 hmem with hmem | hmem
      · exact hroutes f hmem
      · rw [List.mem_singleton.1 hmem]
        exact ⟨_, rfl, priority_opening_le window o⟩
  exact hfold _ [] (fun _ hf => absurd hf List.not_mem_nil) f h

theorem prepareFence_priority {now : ℤ} {spots : List Spot} {f : Found}
    (h : prepareFence now spots = some f) : f.priority = some 6 := by
  obtain ⟨spot, -, rfl⟩ := Option.map_eq_some_iff.1 h
  rfl

theorem prepareBreachWindow_priority {now : ℤ} {spots : List Spot} {f : Found}
    (h : prepareBreachWindow now spots = some f) : f.priority = some 8 := by
  obtain ⟨spot, -, rfl⟩ := Option.map_eq_some_iff.1 h
  rfl

/-! ## Breaking a window -/

/-- What `performBreachWindow` meets. -/
structure Breaching where
  /-- `edgeObject`. -/
  object : Bool
  standing : Standing
  containsItems : Bool
  /-- `isSmashed`. -/
  smashed : Bool
  /-- `approachEdge`: beside the edge, or why not and whether for good. -/
  approach : Except (Bytes × Bool) Unit
  /-- The crowbar; `none` where the call raises. -/
  tool : Option Bool
  /-- `smashWindow`, and `isSmashed` after it. -/
  invoked : Bool
  smashedAfter : Bool
  /-- `markAccessChanged` comes back. -/
  marked : Bool

/-- `Access.performBreachWindow`: its report, where it does not raise, and
whether it has called `smashWindow`. -/
def performBreachWindow (edge : Option Edge) (kind : Kind) (r : Request) (e : Breaching) :
    Option Report × Bool :=
  if edge.isNone then (some (.failed "window target changed" .targetChanged), false)
  else if !e.object then (some (.failed "window is no longer loaded" .targetUnloaded), false)
  else
    match policyBreach e.standing e.containsItems kind r with
    | .error refusal => (some (.failed refusal.2 refusal.1), false)
    | .ok () =>
      if e.smashed then (some ⟨true, true, Bytes.lit "window is breached", .complete⟩, false)
      else
        match e.approach with
        | .error (status, true) => (some ⟨true, false, status, .noPath⟩, false)
        | .error (status, false) => (some ⟨false, true, status, .movingToTarget⟩, false)
        | .ok () =>
          match e.tool with
          | none => (none, false)
          | some false => (some (.failed "reserved crowbar is unavailable" .missingTool), false)
          | some true =>
            if !e.invoked || !e.smashedAfter then
              (some (.failed "native window breach failed" .engineError), true)
            else if !e.marked then (none, true)
            else (some ⟨true, true, Bytes.lit "window breached by explicit order", .complete⟩, true)

/-- **No window is smashed but by the policy.** -/
theorem policy_of_smash {edge : Option Edge} {kind : Kind} {r : Request} {e : Breaching}
    (h : (performBreachWindow edge kind r e).2 = true) :
    policyBreach e.standing e.containsItems kind r = .ok () := by
  unfold performBreachWindow at h
  split at h
  · cases h
  split at h
  · cases h
  cases hc : policyBreach e.standing e.containsItems kind r with
  | ok done => rfl
  | error refusal =>
    rw [hc] at h
    cases h

end Access

end GoblinZomboid
