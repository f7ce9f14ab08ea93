import GoblinZomboid.Server.Access
import GoblinZomboid.Lib.Run
import Mathlib.Tactic.Linarith
/-!
# `GoblinGainAccess.lua`: the least destructive way in

An order keeps up to sixteen ways in, in order of their priority. One that
fails in a way another may mend gives place to the next; a window is broken
when nothing else is left.
-/

namespace GoblinZomboid

namespace Access

/-- `access_method`. -/
inductive Method
  | container
  | vehicle
  | door
  | window
  | fence
  | breachWindow
  deriving DecidableEq

def Method.text : Method → String
  | .container => "CONTAINER"
  | .vehicle => "VEHICLE"
  | .door => "DOOR"
  | .window => "WINDOW"
  | .fence => "FENCE"
  | .breachWindow => "BREACH_WINDOW"

/-- The fields of `routeFields`. -/
structure Route where
  accessMethod : Method
  edge : Option Edge
  window : Bool
  breach : Bool
  startedAt : ℤ
  priority : Option ℕ
  score : Option ℚ
  destinationSide : Option ℕ
  crossFrom : Option ℕ
  deriving DecidableEq

/-- The payload of a job: the route it is on, and the others it keeps. -/
structure Payload where
  targetKind : Kind
  request : Request
  route : Route
  alternates : Option (List Route)
  deriving DecidableEq

/-- All routes of a payload. -/
def Payload.routes (p : Payload) : List Route := p.route :: p.alternates.getD []

namespace GainAccess

/-! ## Preparing -/

/-- What `GainAccess.prepare` meets. -/
structure Scene where
  goblin : Bool
  /-- The owner, and where the owner is. -/
  owner : Bool
  placed : Bool
  now : ℤ
  /-- The kind the target names. -/
  kind : Bytes
  request : Request
  /-- The container and the vehicle module. -/
  container : Except Bytes Unit
  vehicle : Except Bytes Route
  /-- `resolveTargetScope`. -/
  scope : Except Bytes Unit
  doors : List Opening
  windows : List Opening
  fences : List Spot
  breaches : List Spot
  destinationSide : Edge → Option ℕ

/-- `copyRoute`. -/
def copyRoute (e : Scene) (method : Method) (f : Found) : Route :=
  { accessMethod := method
    edge := some f.edge
    window := f.window
    breach := f.breach
    startedAt := f.startedAt
    priority := f.priority
    score := f.score
    destinationSide := e.destinationSide f.edge
    crossFrom := none }

/-- The order of the candidates. -/
def candidateLt (a b : Route) : Bool :=
  let ap := a.priority.getD 99
  let bp := b.priority.getD 99
  if ap ≠ bp then decide (ap < bp)
  else decide (a.score.getD (ap * 100000) < b.score.getD (bp * 100000))

/-- The route that breaks a window, of an order that allows it. -/
def breachRoute (e : Scene) (kind : Kind) : Option Route :=
  if e.request.allowBreach && kind ≠ .yard then
    (prepareBreachWindow e.now e.breaches).map (copyRoute e .breachWindow)
  else none

/-- The routes that open or climb. -/
def ordinary (ts : TableSort) (e : Scene) (kind : Kind) : List Route :=
  (ranked ts false e.now e.doors).map (copyRoute e .door) ++
    if kind ≠ .yard then (ranked ts true e.now e.windows).map (copyRoute e .window)
    else ((prepareFence e.now e.fences).map (copyRoute e .fence)).toList

/-- The routes that are kept: sixteen at most, the last of them the breach. -/
def kept (ts : TableSort) (e : Scene) (kind : Kind) : List Route :=
  let breach := breachRoute e kind
  let candidates := ts.sort candidateLt (ordinary ts e kind ++ breach.toList)
  if 16 < candidates.length then
    let candidates := candidates.take 16
    match breach with
    | some breach => if candidates[15]? = some breach then candidates else candidates.set 15 breach
    | none => candidates
  else candidates

/-- `GainAccess.prepare`. -/
def prepare (ts : TableSort) (e : Scene) : Except Bytes Payload :=
  if !e.goblin || !e.owner then .error (Bytes.lit "owner must be present for access work")
  else
    match Kind.named e.kind with
    | none => .error (Bytes.lit "choose building, room, yard, vehicle, or container")
    | some kind =>
      if !e.placed then .error (Bytes.lit "owner location is unavailable")
      else if kind = .container then
        e.container.map fun _ =>
          { targetKind := kind
            request := ⟨false, false, false⟩
            route := ⟨.container, none, false, false, e.now, none, none, none, none⟩
            alternates := none }
      else if kind = .vehicle then
        e.vehicle.map fun route =>
          { targetKind := kind
            request := { e.request with offline := false }
            route := { route with accessMethod := .vehicle }
            alternates := none }
      else
        match e.scope with
        | .error detail => .error detail
        | .ok () =>
          match kept ts e kind with
          | [] => .error (Bytes.lit "no supported access route is loaded in the target scope")
          | selected :: others => .ok ⟨kind, e.request, selected, some others⟩

/-! ## The order of the routes -/

variable {ts : TableSort} {e : Scene} {kind : Kind} {p : Payload}

theorem candidateLt_eq_true {a b : Route} : candidateLt a b = true ↔
    a.priority.getD 99 < b.priority.getD 99 ∨
      a.priority.getD 99 = b.priority.getD 99 ∧
        a.score.getD (a.priority.getD 99 * 100000) < b.score.getD (b.priority.getD 99 * 100000) := by
  unfold candidateLt
  by_cases h : a.priority.getD 99 = b.priority.getD 99
  · simp [h]
  · simp [h]

theorem candidateLt_asymm {a b : Route} (h : candidateLt a b = true) : candidateLt b a = false := by
  rw [← Bool.not_eq_true, candidateLt_eq_true]
  rw [candidateLt_eq_true] at h
  rintro (h' | ⟨h', hs'⟩)
  · rcases h with h | ⟨h, -⟩ <;> omega
  · rcases h with h | ⟨-, hs⟩
    · omega
    · exact lt_asymm hs hs'

theorem candidateLt_negTrans {a b c : Route} (hba : candidateLt b a = false)
    (hcb : candidateLt c b = false) : candidateLt c a = false := by
  rw [← Bool.not_eq_true, candidateLt_eq_true, not_or, not_and, not_lt, not_lt] at *
  refine ⟨hcb.1.trans' hba.1, fun h => ?_⟩
  have hle := hba.1
  have hle' := hcb.1
  exact (hba.2 (by omega)).trans (hcb.2 (by omega))

theorem breachRoute_eq_some {b : Route} (h : breachRoute e kind = some b) :
    b.accessMethod = .breachWindow ∧ b.priority = some 8 := by
  unfold breachRoute at h
  split at h
  · obtain ⟨f, hf, rfl⟩ := Option.map_eq_some_iff.1 h
    exact ⟨rfl, prepareBreachWindow_priority hf⟩
  · cases h

theorem ordinary_of_mem {r : Route} (h : r ∈ ordinary ts e kind) :
    r.accessMethod ≠ .breachWindow ∧ ∃ n, r.priority = some n ∧ n ≤ 7 := by
  unfold ordinary at h
  rcases List.mem_append.1 h with h | h
  · obtain ⟨f, hf, rfl⟩ := List.mem_map.1 h
    exact ⟨by simp [copyRoute], priority_of_mem_ranked hf⟩
  · split at h
    · obtain ⟨f, hf, rfl⟩ := List.mem_map.1 h
      exact ⟨by simp [copyRoute], priority_of_mem_ranked hf⟩
    · obtain ⟨f, hf, rfl⟩ := Option.map_eq_some_iff.1 (Option.mem_toList.1 h)
      exact ⟨by simp [copyRoute], 6, prepareFence_priority hf, by omega⟩

/-- Nothing but the last of the routes breaks a window. -/
def BreachLast (routes : List Route) : Prop :=
  routes.Pairwise fun r _ => r.accessMethod ≠ .breachWindow

theorem BreachLast.set {routes : List Route} (h : BreachLast routes) (b : Route) :
    BreachLast (routes.set (routes.length - 1) b) := by
  unfold BreachLast at h ⊢
  rw [List.pairwise_iff_getElem] at h ⊢
  intro i j hi hj hij
  rw [List.length_set] at hi hj
  rw [List.getElem_set_ne (by omega)]
  exact h i j hi hj hij

/-- A route that breaks a window has none after it. -/
theorem BreachLast.tail_eq_nil {before after : List Route} {r : Route}
    (h : BreachLast (before ++ r :: after)) (hr : r.accessMethod = .breachWindow) :
    after = [] := by
  have hlater := (List.pairwise_cons.1 (List.pairwise_append.1 h).2.1).1
  refine List.eq_nil_iff_forall_not_mem.2 fun r' hr' => hlater r' hr' hr

variable (ts e kind) in
/-- **The sort puts what breaks a window last.** Its priority is above those
of the rest, and there is one of it. -/
theorem breachLast_sort :
    BreachLast (ts.sort candidateLt (ordinary ts e kind ++ (breachRoute e kind).toList)) := by
  have hperm := ts.perm candidateLt (ordinary ts e kind ++ (breachRoute e kind).toList)
  have hone : (ordinary ts e kind ++ (breachRoute e kind).toList).Pairwise fun a b =>
      ¬(a.accessMethod = .breachWindow ∧ b.accessMethod = .breachWindow) := by
    refine List.pairwise_append.2 ⟨?_, ?_, fun a ha b _ h => (ordinary_of_mem ha).1 h.1⟩
    · exact List.pairwise_of_forall_mem_list fun a ha b _ h => (ordinary_of_mem ha).1 h.1
    · cases breachRoute e kind with
      | none => exact List.Pairwise.nil
      | some b => exact List.pairwise_singleton _ _
  have hsorted := (ts.sorted candidateLt (ordinary ts e kind ++ (breachRoute e kind).toList)
    (fun a b => candidateLt_asymm) (fun a b c => candidateLt_negTrans)).and
      (hone.perm hperm.symm fun h h' => h h'.symm)
  refine hsorted.imp_of_mem fun {a b} ha hb h hbreach => ?_
  obtain ⟨hlt, hboth⟩ := h
  have horigin : ∀ r ∈ ts.sort candidateLt (ordinary ts e kind ++ (breachRoute e kind).toList),
      r ∈ ordinary ts e kind ∨ breachRoute e kind = some r := fun r hr => by
    simpa using hperm.mem_iff.1 hr
  rcases horigin a ha with ha | ha
  · exact (ordinary_of_mem ha).1 hbreach
  rcases horigin b hb with hb | hb
  · obtain ⟨n, hn, hle⟩ := (ordinary_of_mem hb).2
    rw [← Bool.not_eq_true, candidateLt_eq_true, hn, (breachRoute_eq_some ha).2] at hlt
    exact hlt (.inl (by simp only [Option.getD_some]; omega))
  · exact hboth ⟨hbreach, (breachRoute_eq_some hb).1⟩

theorem breachLast_kept : BreachLast (kept ts e kind) := by
  have hsort := breachLast_sort ts e kind
  unfold kept
  dsimp only
  split
  · rename_i hlong
    have htake := List.Pairwise.sublist (List.take_sublist 16 _) hsort
    cases hb : breachRoute e kind with
    | none =>
      rw [hb] at htake
      exact htake
    | some b =>
      rw [hb] at htake hlong
      dsimp only
      split
      · exact htake
      · have hset := BreachLast.set htake b
        rwa [List.length_take_of_le hlong.le] at hset
  · exact hsort

/-- **A payload as prepared**: a window is broken last, and by the order's own
leave. -/
theorem prepare_eq_ok (h : prepare ts e = .ok p) : BreachLast p.routes ∧
    ∀ r ∈ p.routes, r.accessMethod = .breachWindow → p.request = e.request := by
  unfold prepare at h
  split at h
  · cases h
  split at h
  · cases h
  rename_i kind hkind
  split at h
  · cases h
  split at h
  · cases hc : e.container with
    | error detail =>
      rw [hc] at h
      cases h
    | ok done =>
      rw [hc] at h
      cases h
      exact ⟨List.pairwise_singleton _ _, fun r hr hbreach => by simp_all [Payload.routes]⟩
  split at h
  · cases hc : e.vehicle with
    | error detail =>
      rw [hc] at h
      cases h
    | ok route =>
      rw [hc] at h
      cases h
      exact ⟨List.pairwise_singleton _ _, fun r hr hbreach => by simp_all [Payload.routes]⟩
  split at h
  · cases h
  have hlast : BreachLast (kept ts e kind) := breachLast_kept
  split at h
  · cases h
  rename_i hkept
  cases h
  rw [hkept] at hlast
  exact ⟨hlast, fun _ _ _ => rfl⟩

/-! ## Updating -/

/-- `string.find(text, needle, 1, true)`. -/
def mentions (text : Bytes) (needle : String) : Bool := decide (Bytes.lit needle <:+: text)

/-- `failureCode`. -/
def failureCode (detail : Bytes) : Code :=
  let text := Bytes.lower detail
  if mentions text "no matching key" || mentions text "locked" then .locked
  else if mentions text "no longer loaded" || mentions text "area to load" then .targetUnloaded
  else if mentions text "permission" || mentions text "safehouse" then .permissionDenied
  else if mentions text "unsupported" then .unsupported
  else if mentions text "reach" || mentions text "path" then .noPath
  else .blocked

/-- `recoverable`. -/
def recoverable (c : Code) : Bool :=
  c = .noPath || c = .targetUnloaded || c = .locked || c = .blocked

/-- What one update meets. A call that raises answers `none`. -/
structure Tick where
  now : ℤ
  container : Option Report
  /-- `Transport.board`. -/
  boarding : Option (Bool × Option Bool × Bytes)
  /-- `Access.perform`. -/
  opening : Option (Bool × Bool × Bytes)
  /-- `crossOpenedEdge`, and `cross_from` after it. -/
  crossing : Option (Report × Option ℕ)
  /-- `Access.performFence`. -/
  fence : Option Report
  breaking : Breaching

/-- An update: its report, where it does not raise; the payload it leaves; the
policy's verdict, if it has called `smashWindow`; and how the route has failed
and the alternate it has gone on to. -/
structure Updated where
  report : Option Report
  payload : Payload
  smashed : Option (Except (Code × String) Unit)
  next : Option (Report × Route)

/-- `tryAlternate`. -/
def tryAlternate (p : Payload) (now : ℤ) (r : Report) : Updated :=
  if !r.done || r.success || !recoverable r.code || p.route.accessMethod = .breachWindow then
    ⟨some r, p, none, none⟩
  else
    match p.alternates with
    | none | some [] => ⟨some r, p, none, none⟩
    | some (next :: rest) =>
      ⟨some ⟨false, true, Bytes.lit "trying alternate " ++
          Bytes.lower (Bytes.lit next.accessMethod.text) ++ Bytes.lit " route", .movingToTarget⟩,
        { p with route := { next with startedAt := now }, alternates := some rest }, none, some (r, next)⟩

/-- `crossOpenedEdge`, which may note where it began. -/
def cross (p : Payload) (e : Tick) : Option (Report × Payload) :=
  e.crossing.map fun answer =>
    (answer.1, { p with route := { p.route with crossFrom := answer.2 } })

/-- `GainAccess.update`, of a door or a window. -/
def opened (p : Payload) (e : Tick) : Updated :=
  match e.opening with
  | none => ⟨none, p, none, none⟩
  | some (false, success, detail) => ⟨some ⟨false, success, detail, .movingToTarget⟩, p, none, none⟩
  | some (true, false, detail) => tryAlternate p e.now ⟨true, false, detail, failureCode detail⟩
  | some (true, true, _) =>
    match cross p e with
    | none => ⟨none, p, none, none⟩
    | some (report, p) => tryAlternate p e.now report

/-- `GainAccess.update`. -/
def update (p : Payload) (e : Tick) : Updated :=
  match p.route.accessMethod with
  | .container => ⟨e.container, p, none, none⟩
  | .vehicle =>
    match e.boarding with
    | none => ⟨none, p, none, none⟩
    | some (false, success, detail) =>
      ⟨some ⟨false, success ≠ some false, detail,
        if success = some false then .waitingForTarget else .movingToTarget⟩, p, none, none⟩
    | some (true, success, detail) =>
      ⟨some ⟨true, success = some true, detail,
        if success = some true then .complete else failureCode detail⟩, p, none, none⟩
  | .door | .window => opened p e
  | .fence =>
    match e.fence with
    | none => ⟨none, p, none, none⟩
    | some report => tryAlternate p e.now report
  | .breachWindow =>
    let broken := performBreachWindow p.route.edge p.targetKind p.request e.breaking
    let smashed := if broken.2 then
      some (policyBreach e.breaking.standing e.breaking.containsItems p.targetKind p.request) else none
    match broken.1 with
    | none => ⟨none, p, smashed, none⟩
    | some report =>
      if !report.done || !report.success then ⟨some report, p, smashed, none⟩
      else
        match cross p e with
        | none => ⟨none, p, smashed, none⟩
        | some (report, p) => ⟨some report, p, smashed, none⟩

/-! ## What an update does with the routes -/

variable {out : Updated}

/-- The call of `smashWindow` is lawful. -/
structure Lawful (p : Payload) (verdict : Except (Code × String) Unit) : Prop where
  method : p.route.accessMethod = .breachWindow
  verdict : verdict = .ok ()
  allowed : p.request.allowBreach = true
  present : p.request.autonomous = false ∧ p.request.offline = false

/-- A route fails in a way that another may mend. -/
structure Recoverable (r : Report) : Prop where
  done : r.done = true
  failed : r.success = false
  code : recoverable r.code = true

/-- An update stays on the route. -/
structure Stays (p : Payload) (out : Updated) : Prop where
  next : out.next = none
  request : out.payload.request = p.request
  alternates : out.payload.alternates = p.alternates
  method : out.payload.route.accessMethod = p.route.accessMethod
  smashed : ∀ verdict, out.smashed = some verdict → Lawful p verdict

/-- The route has failed, and an update goes on to the first of the others. -/
structure Falls (p : Payload) (out : Updated) (why : Report) (other : Route)
    (rest : List Route) : Prop where
  next : out.next = some (why, other)
  request : out.payload.request = p.request
  before : p.alternates = some (other :: rest)
  after : out.payload.alternates = some rest
  method : out.payload.route.accessMethod = other.accessMethod
  why : Recoverable why
  smashed : out.smashed = none

/-- It does one or the other. -/
def Goes (p : Payload) (out : Updated) : Prop :=
  Stays p out ∨ ∃ why other rest, Falls p out why other rest

/-- Nothing is done with the routes. -/
theorem goes_refl (report : Option Report) : Goes p ⟨report, p, none, none⟩ :=
  .inl ⟨rfl, rfl, rfl, rfl, fun _ h => by cases h⟩

theorem goes_tryAlternate (now : ℤ) (r : Report) : Goes p (tryAlternate p now r) := by
  unfold tryAlternate
  split
  · exact goes_refl _
  rename_i hfails
  simp only [Bool.or_eq_true, Bool.not_eq_true', decide_eq_true_eq, not_or, Bool.not_eq_true,
    Bool.not_eq_false] at hfails
  split
  · exact goes_refl _
  · exact goes_refl _
  · rename_i other rest hother
    exact .inr ⟨r, other, rest, rfl, rfl, hother, rfl, rfl, ⟨hfails.1.1.1, hfails.1.1.2, hfails.1.2⟩,
      rfl⟩

/-- Crossing changes where it began only. -/
theorem cross_eq_some {t : Tick} {report : Report} {p' : Payload}
    (h : cross p t = some (report, p')) :
    p'.request = p.request ∧ p'.alternates = p.alternates ∧
      p'.route.accessMethod = p.route.accessMethod := by
  obtain ⟨answer, -, h⟩ := Option.map_eq_some_iff.1 h
  cases h
  exact ⟨rfl, rfl, rfl⟩

/-- What an update does after a crossing, it does from before it. -/
theorem Goes.of_cross {t : Tick} {report : Report} {p' : Payload}
    (hcross : cross p t = some (report, p')) (h : Goes p' out) (hsmashed : out.smashed = none) :
    Goes p out := by
  obtain ⟨hrequest, halternates, hmethod⟩ := cross_eq_some hcross
  rcases h with h | ⟨why, other, rest, h⟩
  · exact .inl ⟨h.next, h.request.trans hrequest, h.alternates.trans halternates,
      h.method.trans hmethod, fun verdict hv => by rw [hsmashed] at hv; cases hv⟩
  · exact .inr ⟨why, other, rest, h.next, h.request.trans hrequest, halternates ▸ h.before,
      h.after, h.method, h.why, h.smashed⟩

theorem tryAlternate_smashed (now : ℤ) (r : Report) : (tryAlternate p now r).smashed = none := by
  unfold tryAlternate
  split
  · rfl
  · split <;> rfl

theorem goes_opened (t : Tick) : Goes p (opened p t) := by
  unfold opened
  split
  · exact goes_refl _
  · exact goes_refl _
  · exact goes_tryAlternate _ _
  · split
    · exact goes_refl _
    · rename_i hcross
      exact (goes_tryAlternate _ _).of_cross hcross (tryAlternate_smashed _ _)

/-- **Updating.** Where it smashes a window, it is on the route for that, and
both the order and the policy allow it. -/
theorem goes_update (t : Tick) : Goes p (update p t) := by
  unfold update
  split
  · exact goes_refl _
  · split <;> exact goes_refl _
  · exact goes_opened t
  · exact goes_opened t
  · split
    · exact goes_refl _
    · exact goes_tryAlternate _ _
  · rename_i hmethod
    have hlawful : ∀ verdict,
        (if (performBreachWindow p.route.edge p.targetKind p.request t.breaking).2 then
          some (policyBreach t.breaking.standing t.breaking.containsItems p.targetKind p.request)
        else none) = some verdict → Lawful p verdict := by
      intro verdict hv
      split at hv
      · rename_i hsmash
        cases hv
        have hok := policy_of_smash hsmash
        obtain ⟨hallow, hpresent⟩ := policyBreach_eq_ok hok
        exact ⟨hmethod, hok, hallow, hpresent⟩
      · cases hv
    dsimp only
    split
    · exact .inl ⟨rfl, rfl, rfl, rfl, hlawful⟩
    · split
      · exact .inl ⟨rfl, rfl, rfl, rfl, hlawful⟩
      · split
        · exact .inl ⟨rfl, rfl, rfl, rfl, hlawful⟩
        · rename_i hcross
          obtain ⟨hrequest, halternates, hmethod'⟩ := cross_eq_some hcross
          exact .inl ⟨rfl, hrequest, halternates, hmethod', hlawful⟩

/-! ## The job -/

/-- A job: its payload, which is saved, and its runtime, which is not. -/
structure Job where
  payload : Payload
  /-- When the runtime began, and its last result. -/
  runtime : Option (ℤ × Option Report)

/-- What `Jobs.update` and `Capabilities.update` meet around an update. -/
structure Round where
  /-- `serverReady`. -/
  ready : Bool
  /-- The anchor is a point. -/
  anchored : Bool
  /-- `serializable`. -/
  primitive : Bool
  tick : Tick

/-- The codes of a job that is under way. -/
def activeCode (c : Code) : Bool :=
  c = .movingToTarget || c = .working || c = .waitingForTarget

/-- The codes of a job that has failed. -/
def failureCodes (c : Code) : Bool := !activeCode c && c ≠ .complete

/-- `Capabilities.fromLegacy` under `pcall`: a report that is no result is an
engine error. -/
def canonical : Option Report → Report
  | none => .failed "the native job failed; I stopped to avoid repeating a partial operation"
      .engineError
  | some r =>
    if r.done && r.success then { r with code := .complete, detail := r.detail.take 512 }
    else if if r.done then failureCodes r.code
        else activeCode r.code || (!r.success && failureCodes r.code) then
      { r with detail := r.detail.take 512 }
    else .failed "the native job failed; I stopped to avoid repeating a partial operation"
      .engineError

/-- `timeout_ms`. -/
def timeout : ℤ := 300000

/-- `Jobs.update`. -/
def Job.update (j : Job) (e : Round) : Job × Updated :=
  let idle : Report → Job × Updated := fun r => (j, ⟨some r, j.payload, none, none⟩)
  if !e.ready then idle (.failed "server work is unavailable" .unsupported)
  else if !e.anchored then
    idle (.failed "saved job has no valid work area; issue it again" .targetChanged)
  else if !e.primitive then
    idle (.failed "saved job payload is not primitive and serializable" .targetChanged)
  else
    let runtime := j.runtime.getD (e.tick.now, none)
    match runtime.2.filter (·.done) with
    | some last => ({ j with runtime := some runtime }, ⟨some last, j.payload, none, none⟩)
    | none =>
      if timeout < e.tick.now - runtime.1 then
        let report := Report.failed
          "job stopped after 5 minutes; check materials and access, then retry" .timeout
        ({ j with runtime := some (runtime.1, some report) }, ⟨some report, j.payload, none, none⟩)
      else
        let updated := GainAccess.update j.payload e.tick
        let report := canonical updated.report
        (⟨updated.payload, some (runtime.1, some report)⟩, { updated with report := some report })

/-- What happens to a job: a round, or its body is gone and it is restored
from what was saved. What interrupts it does nothing to it. -/
inductive Op
  | round (e : Round)
  | restore
  | interrupt

/-- A route that has failed, and how. -/
structure Failure where
  route : Route
  report : Report

/-- A window is smashed: the verdict of the policy, and the routes that have
failed before. -/
structure Smash where
  verdict : Except (Code × String) Unit
  failed : List Failure

/-- A job, the route it was prepared with or went on to, and those that have
failed before it. -/
structure Run where
  job : Job
  failed : List Failure
  current : Route
  smashes : List Smash

/-- A new job. -/
def Run.start (p : Payload) : Run := ⟨⟨p, none⟩, [], p.route, []⟩

def step (r : Run) : Op → Run
  | .restore => { r with job := { r.job with runtime := none } }
  | .interrupt => r
  | .round e =>
    let out := r.job.update e
    let r := { r with
      job := out.1
      smashes := r.smashes ++ (out.2.smashed.map fun verdict => ⟨verdict, r.failed⟩).toList }
    match out.2.next with
    | none => r
    | some (report, next) =>
      { r with failed := r.failed ++ [⟨r.current, report⟩], current := next }

variable {j : Job} {r : Run}

/-- What a job does with the routes, an update of it does; and it keeps the
payload that is left. -/
theorem Job.update_cases (e : Round) :
    (j.update e).1.payload = (j.update e).2.payload ∧ Goes j.payload (j.update e).2 := by
  unfold Job.update
  dsimp only
  split
  · exact ⟨rfl, goes_refl _⟩
  split
  · exact ⟨rfl, goes_refl _⟩
  split
  · exact ⟨rfl, goes_refl _⟩
  split
  · exact ⟨rfl, goes_refl _⟩
  split
  · exact ⟨rfl, goes_refl _⟩
  refine ⟨rfl, ?_⟩
  rcases goes_update (p := j.payload) e.tick with h | ⟨why, other, rest, h⟩
  · exact .inl ⟨h.next, h.request, h.alternates, h.method, h.smashed⟩
  · exact .inr ⟨why, other, rest, h.next, h.request, h.before, h.after, h.method, h.why, h.smashed⟩

/-! ## Runs -/

/-- The routes of a list of failures. -/
def routesOf (failed : List Failure) : List Route := failed.map (·.route)

/-- **A last resort.** The order allows the breach and is given by someone who
is there, the policy allows it now, and every other route of the job has been
tried and has failed. -/
structure LastResort (e : Scene) (p : Payload) (s : Smash) : Prop where
  allowed : e.request.allowBreach = true
  present : e.request.autonomous = false ∧ e.request.offline = false
  verdict : s.verdict = .ok ()
  last : ∃ breach, breach.accessMethod = .breachWindow ∧ p.routes = routesOf s.failed ++ [breach]
  failed : ∀ f ∈ s.failed, Recoverable f.report

/-- The routes of the job are those that have failed, the one it is on, and
those it keeps. -/
structure Inv (e : Scene) (p : Payload) (r : Run) : Prop where
  routes : p.routes = routesOf r.failed ++ r.current :: r.job.payload.alternates.getD []
  method : r.job.payload.route.accessMethod = r.current.accessMethod
  request : r.job.payload.request = p.request
  failed : ∀ f ∈ r.failed, Recoverable f.report
  smashes : ∀ s ∈ r.smashes, LastResort e p s

theorem inv_start : Inv e p (Run.start p) :=
  ⟨rfl, rfl, rfl, fun _ h => absurd h List.not_mem_nil, fun _ h => absurd h List.not_mem_nil⟩

/-- What is smashed is smashed as a last resort. -/
theorem Inv.lastResort (h : Inv e p r) (hlast : BreachLast p.routes)
    (hrequest : ∀ r ∈ p.routes, r.accessMethod = .breachWindow → p.request = e.request)
    {verdict : Except (Code × String) Unit} (hv : Lawful r.job.payload verdict) :
    LastResort e p ⟨verdict, r.failed⟩ := by
  have hbreach : r.current.accessMethod = .breachWindow := h.method.symm.trans hv.method
  have hsame : r.job.payload.request = e.request := by
    refine h.request.trans (hrequest r.current ?_ hbreach)
    rw [h.routes]
    simp
  have hnil : r.job.payload.alternates.getD [] = [] := by
    rw [h.routes] at hlast
    exact hlast.tail_eq_nil hbreach
  refine ⟨hsame ▸ hv.allowed, hsame ▸ hv.present, hv.verdict, ⟨r.current, hbreach, ?_⟩, h.failed⟩
  rw [h.routes, hnil]

theorem inv_step (hlast : BreachLast p.routes)
    (hrequest : ∀ r ∈ p.routes, r.accessMethod = .breachWindow → p.request = e.request)
    (op : Op) (h : Inv e p r) : Inv e p (step r op) := by
  cases op with
  | restore => exact ⟨h.routes, h.method, h.request, h.failed, h.smashes⟩
  | interrupt => exact h
  | round round =>
    obtain ⟨hpayload, hgoes⟩ := Job.update_cases (j := r.job) round
    have hsmashes : ∀ verdict, (r.job.update round).2.smashed = some verdict →
        LastResort e p ⟨verdict, r.failed⟩ := by
      intro verdict hv
      rcases hgoes with hs | ⟨why, other, rest, hf⟩
      · exact h.lastResort hlast hrequest (hs.smashed verdict hv)
      · rw [hf.smashed] at hv
        cases hv
    have hall : ∀ s ∈ r.smashes ++ ((r.job.update round).2.smashed.map fun verdict =>
        (⟨verdict, r.failed⟩ : Smash)).toList, LastResort e p s := by
      intro s hs
      rcases List.mem_append.1 hs with hs | hs
      · exact h.smashes s hs
      · obtain ⟨verdict, hv, rfl⟩ := Option.map_eq_some_iff.1 (Option.mem_toList.1 hs)
        exact hsmashes verdict hv
    rcases hgoes with hs | ⟨why, other, rest, hf⟩
    · simp only [step, hs.next]
      refine ⟨?_, ?_, ?_, h.failed, hall⟩
      · rw [hpayload, hs.alternates]
        exact h.routes
      · rw [hpayload, hs.method]
        exact h.method
      · rw [hpayload, hs.request]
        exact h.request
    · simp only [step, hf.next]
      refine ⟨?_, ?_, ?_, ?_, hall⟩
      · rw [hpayload, hf.after, h.routes, hf.before]
        simp [routesOf]
      · rw [hpayload, hf.method]
      · rw [hpayload, hf.request]
        exact h.request
      · intro f hmem
        rcases List.mem_append.1 hmem with hmem | hmem
        · exact h.failed f hmem
        · rw [List.mem_singleton.1 hmem]
          exact hf.why

/-- **Breaking is the last resort.** In every run of a job the routes tried are
those it keeps, from the first on and each once, and no window is smashed but
as a last resort. -/
theorem breach_is_last (h : prepare ts e = .ok p) (ops : List Op) :
    routesOf (Machine.run step (Run.start p) ops).failed ++
        [(Machine.run step (Run.start p) ops).current] <+: p.routes ∧
      ∀ smash ∈ (Machine.run step (Run.start p) ops).smashes, LastResort e p smash := by
  obtain ⟨hlast, hrequest⟩ := prepare_eq_ok h
  have hinv : Inv e p (Machine.run step (Run.start p) ops) :=
    Machine.invariant (fun _ op hr => inv_step hlast hrequest op hr) inv_start ops
  refine ⟨⟨(Machine.run step (Run.start p) ops).job.payload.alternates.getD [], ?_⟩, hinv.smashes⟩
  rw [hinv.routes, List.append_assoc, List.singleton_append]

/-- A house with a door, a window, and a window to break. -/
def house : Scene :=
  { goblin := true
    owner := true
    placed := true
    now := 0
    kind := Bytes.lit "BUILDING"
    request := ⟨true, false, false⟩
    container := .ok ()
    vehicle := .error []
    scope := .ok ()
    doors := [⟨⟨1, 0, 0, 1, 0⟩, 2, true, none, false, false⟩]
    windows := [⟨⟨2, 0, 0, 0, 1⟩, 1, true, none, false, false⟩]
    fences := []
    breaches := [⟨⟨2, 0, 0, 0, 1⟩, 1, true⟩]
    destinationSide := fun _ => some 2 }

/-- What is kept of the house. -/
def housePayload : Payload :=
  { targetKind := .building
    request := ⟨true, false, false⟩
    route := ⟨.door, some ⟨1, 0, 0, 1, 0⟩, false, false, 0, some 2, some 200002, some 2, none⟩
    alternates := some [
      ⟨.window, some ⟨2, 0, 0, 0, 1⟩, true, false, 0, some 5, some 500001, some 2, none⟩,
      ⟨.breachWindow, some ⟨2, 0, 0, 0, 1⟩, true, true, 0, some 8, none, some 2, none⟩] }

/-- A round in which nothing opens and any window breaks. -/
def shut : Round :=
  { ready := true
    anchored := true
    primitive := true
    tick :=
      { now := 1
        container := none
        boarding := none
        opening := some (true, false, Bytes.lit "no path")
        crossing := none
        fence := none
        breaking := ⟨true, ⟨true, true, true, true⟩, false, false, .ok (), some true, true, true,
          true⟩ } }

/-- The window is broken after the door and the window have failed. -/
theorem breach_is_last_house :
    let r := Machine.run step (Run.start housePayload)
      [.round shut, .restore, .round shut, .interrupt, .round shut]
    (r.smashes.map fun s => (routesOf s.failed).map (·.accessMethod)) = [[.door, .window]] ∧
      routesOf r.failed ++ [r.current] <+: housePayload.routes ∧
      ∀ smash ∈ r.smashes, LastResort house housePayload smash :=
  have hprepare : prepare .insertion house = .ok housePayload := by decide +kernel
  ⟨by decide, breach_is_last hprepare _⟩

end GainAccess

end Access

end GoblinZomboid
