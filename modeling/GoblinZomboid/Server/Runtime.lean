import GoblinZomboid.Lib.Double
import GoblinZomboid.Lib.Run
import GoblinZomboid.Server.Capabilities
/-!
# `GoblinCapabilities.lua`: the running job of a body

`Capabilities.update` asks the update function of the registered
capability for the next result and keeps it. Whatever that function
returns or raises, what is kept is a canonical result, and one that is
done is handed out again without asking.
-/

namespace GoblinZomboid

namespace Capabilities

/-- The two conversions of the scripting library a result goes through. -/
structure Conversions where
  tostring : LuaValue → Bytes
  tonumber : LuaValue → Option LuaNum
  tostring_str : ∀ s, tostring (.str s) = s
  tonumber_num : ∀ n, tonumber (.num n) = some n

variable (io : Conversions)

/-- `boundedDetail`. -/
def boundedDetail (value : LuaValue) : Bytes :=
  (io.tostring (if value.truthy then value else .str [])).take 512

/-- What `Capabilities.result` builds: a result with its progress. -/
structure Report extends Result where
  progress : ℚ
  bounded : detail.length ≤ 512
  between : 0 ≤ progress ∧ progress ≤ 1

theorem length_boundedDetail (value : LuaValue) : (boundedDetail io value).length ≤ 512 := by
  unfold boundedDetail
  rw [List.length_take]
  omega

/-- `Capabilities.result` of arbitrary values; `none` where it raises. -/
def resultOf (done success code detail progress : LuaValue) : Option Report :=
  match done, success, code with
  | .bool done, .bool success, .str code =>
    if hvalid : ValidCode done success code then
      match io.tonumber progress with
      | some (.finite q) =>
        if hq : 0 ≤ q ∧ q ≤ 1 then
          some ⟨⟨done, success, code, boundedDetail io detail, hvalid⟩, q,
            length_boundedDetail io detail, hq⟩
        else none
      | _ => none
    else none
  | _, _, _ => none

/-- `Capabilities.result` of a result's own fields. -/
def copy (r : Report) : Option Report :=
  resultOf io (.bool r.done) (.bool r.success) (.str r.code) (.str r.detail)
    (.num (.finite r.progress))

/-- **A canonical result is its own copy.** -/
@[simp] theorem copy_eq (r : Report) : copy io r = some r := by
  have hdetail : boundedDetail io (.str r.detail) = r.detail := by
    unfold boundedDetail
    rw [if_pos (by rfl), io.tostring_str]
    exact List.take_of_length_le r.bounded
  simp only [copy, resultOf, dif_pos r.valid, io.tonumber_num, dif_pos r.between, hdetail]

/-- `Capabilities.result(true,false,code,detail,0)`. -/
def failure (code : String) (detail : Bytes) : Option Report :=
  resultOf io (.bool true) (.bool false) (.str (Bytes.lit code)) (.str detail) (.num (.finite 0))

/-- A failure with a standard code is built and is done. -/
theorem exists_failure {code : String} (h : Bytes.lit code ∈ failureCodes) (detail : Bytes) :
    ∃ r, failure io code detail = some r ∧ r.done = true := by
  have hvalid : ValidCode true false (Bytes.lit code) := h
  have hzero : (0 : ℚ) ≤ 0 ∧ (0 : ℚ) ≤ 1 := ⟨le_refl 0, zero_le_one⟩
  simp only [failure, resultOf, dif_pos hvalid, io.tonumber_num, dif_pos hzero]
  exact ⟨_, rfl, rfl⟩

/-! ## The clock -/

/-- `a - b`. -/
def minus : LuaNum → LuaNum → LuaNum
  | .finite a, .finite b => Double.ofRat (a - b)
  | .nan, _ => .nan
  | _, .nan => .nan
  | .huge s, .huge t => if s = t then .nan else .huge s
  | .huge s, .finite _ => .huge s
  | .finite _, .huge t => .huge !t

/-- `a > b`. -/
def exceeds : LuaNum → LuaNum → Bool
  | .finite a, .finite b => b < a
  | .huge false, .finite _ => true
  | .huge false, .huge true => true
  | .finite _, .huge true => true
  | _, _ => false

/-- `math.floor(timeout/60000+0.5)`. -/
def minutes (timeout : LuaNum) : LuaNum :=
  match timeout with
  | .finite t =>
    match Double.ofRat (t / 60000) with
    | .finite m =>
      match Double.ofRat (m + 1 / 2) with
      | .finite x => .finite ⌊x⌋
      | x => x
    | m => m
  | t => t

/-! ## `Capabilities.update` -/

/-- A registered capability, as far as the runner reads it. -/
structure Definition where
  timeoutMs : LuaValue

/-- `Capabilities.active[body]`. -/
structure Runtime where
  task : Bytes
  startedAt : LuaValue
  lastResult : Option Report

/-- How a call of the update function ends. -/
inductive Outcome
  | raised
  | returned (value : LuaValue)

/-- A call of `Capabilities.update` for one body: its arguments, how the
update function ends if it is asked, and what it leaves as the starting
time. -/
structure Call where
  payload : LuaValue
  now : LuaValue
  outcome : Outcome
  startedAt : LuaValue

/-- A body's running job, and how often an update function was asked. -/
structure Running where
  active : Option Runtime
  asked : ℕ

/-- `canonicalResult`, of a call that may have raised. -/
def canonicalResult : Outcome → Option Report
  | .returned (.table entries) =>
    let value := LuaValue.table entries
    resultOf io (value.field "done") (value.field "success") (value.field "code")
      (value.field "detail") (value.field "progress")
  | _ => none

/-- `tonumber(definition.timeout_ms) or 300000`. -/
def Definition.timeout (d : Definition) : LuaNum :=
  (io.tonumber d.timeoutMs).getD (.finite 300000)

/-- The job has run longer than its time. -/
def expired (d : Definition) (startedAt now : LuaValue) : Bool :=
  match now, startedAt with
  | .num now, .num started => exceeds (minus now started) (d.timeout io)
  | _, _ => false

/-- The result of a job stopped for its time. -/
def timeoutResult (d : Definition) : Option Report :=
  failure io "TIMEOUT"
    (Bytes.lit "job stopped after " ++ io.tostring (.num (minutes (d.timeout io))) ++
      Bytes.lit " minutes; check materials and access, then retry")

/-- The result of a job whose update function failed. -/
def engineError : Option Report :=
  failure io "ENGINE_ERROR"
    (Bytes.lit "the native job failed; I stopped to avoid repeating a partial operation")

/-- `runtime.last_result=result` and the copy that is returned. -/
def record (runtime : Runtime) (asked : ℕ) (result : Option Report) : Option Report × Running :=
  match result with
  | some r => (copy io r, ⟨some { runtime with lastResult := some r }, asked⟩)
  | none => (none, ⟨some runtime, asked⟩)

/-- `runtime.last_result`, if it is done. -/
def Runtime.terminal (runtime : Runtime) : Option Report := runtime.lastResult.filter (·.done)

/-- The job `Capabilities.update` works on: a body's job of another task is
cancelled. -/
def runtimeFor (name : Bytes) (s : Running) (now : LuaValue) : Runtime :=
  match s.active with
  | some runtime => if runtime.task = name then runtime else ⟨name, now, none⟩
  | none => ⟨name, now, none⟩

variable (registry : Bytes → Option Definition)

/-- `Capabilities.update`; `none` where it raises. -/
def update (name : Bytes) (s : Running) (c : Call) : Option Report × Running :=
  match registry name with
  | none => (failure io "UNSUPPORTED" (Bytes.lit "unsupported capability"), s)
  | some definition =>
    if !serializable c.payload then
      (failure io "TARGET_CHANGED"
        (Bytes.lit "saved job payload is not primitive and serializable"), s)
    else
      let runtime := runtimeFor name s c.now
      match runtime.terminal with
      | some r => (copy io r, ⟨some runtime, s.asked⟩)
      | none =>
        if expired io definition runtime.startedAt c.now then
          record io runtime s.asked (timeoutResult io definition)
        else
          let runtime := { runtime with startedAt := c.startedAt }
          -- a malformed result and an error end the job the same way
          match canonicalResult io c.outcome with
          | some r => record io runtime (s.asked + 1) (some r)
          | none => record io runtime (s.asked + 1) (engineError io)

/-- `Capabilities.cancel`. -/
def cancel (s : Running) : Bool × Running :=
  match s.active with
  | none => (false, s)
  | some _ => (true, { s with active := none })

/-! ## A job that has ended -/

variable {io} {registry}
variable {name : Bytes} {definition : Definition} {s : Running} {c : Call} {r : Report}

/-- The job of this task is over, with this result. -/
def Settled (name : Bytes) (r : Report) (s : Running) : Prop :=
  ∃ runtime, s.active = some runtime ∧ runtime.task = name ∧ runtime.lastResult = some r ∧
    r.done = true

/-- **The call ends the job**: the time is over, or the update function
raises, returns no canonical result or reports that it is done. -/
def Ends (io : Conversions) (definition : Definition) (name : Bytes) (s : Running) (c : Call) :
    Prop :=
  expired io definition (runtimeFor name s c.now).startedAt c.now = true ∨
    ∀ r, canonicalResult io c.outcome = some r → r.done = true

theorem task_runtimeFor (name : Bytes) (s : Running) (now : LuaValue) :
    (runtimeFor name s now).task = name := by
  unfold runtimeFor
  split
  · split
    · assumption
    · rfl
  · rfl

theorem terminal_eq_some {runtime : Runtime} :
    runtime.terminal = some r ↔ runtime.lastResult = some r ∧ r.done = true := by
  simp [Runtime.terminal, Option.filter_eq_some_iff]

/-- A registered capability with a serialisable payload gets to its job. -/
theorem update_registered (hname : registry name = some definition)
    (hpayload : serializable c.payload = true) :
    update io registry name s c =
      match (runtimeFor name s c.now).terminal with
      | some r => (some r, ⟨some (runtimeFor name s c.now), s.asked⟩)
      | none =>
        if expired io definition (runtimeFor name s c.now).startedAt c.now then
          record io (runtimeFor name s c.now) s.asked (timeoutResult io definition)
        else
          match canonicalResult io c.outcome with
          | some r => record io { runtimeFor name s c.now with startedAt := c.startedAt }
              (s.asked + 1) (some r)
          | none => record io { runtimeFor name s c.now with startedAt := c.startedAt }
              (s.asked + 1) (engineError io) := by
  simp only [update, hname, hpayload, Bool.not_true, Bool.false_eq_true, if_false, copy_eq]

theorem record_some (runtime : Runtime) (asked : ℕ) (r : Report) :
    record io runtime asked (some r) =
      (some r, ⟨some { runtime with lastResult := some r }, asked⟩) := by
  simp only [record, copy_eq]

/-- **What one call does**: it hands out the result that ended the job, or
it stores the result it returns, and that one is done if the call ends the
job. -/
theorem update_cases (hname : registry name = some definition)
    (hpayload : serializable c.payload = true) :
    ∃ r runtime asked, update io registry name s c = (some r, ⟨some runtime, asked⟩) ∧
      runtime.task = name ∧ runtime.lastResult = some r ∧
      (Ends io definition name s c → r.done = true) := by
  rw [update_registered hname hpayload]
  have htask := task_runtimeFor name s c.now
  cases hterminal : (runtimeFor name s c.now).terminal with
  | some r =>
    obtain ⟨hlast, hdone⟩ := terminal_eq_some.1 hterminal
    exact ⟨r, runtimeFor name s c.now, s.asked, rfl, htask, hlast, fun _ => hdone⟩
  | none =>
    by_cases hexpired : expired io definition (runtimeFor name s c.now).startedAt c.now = true
    · obtain ⟨r, hr, hdone⟩ := exists_failure io
        (show Bytes.lit "TIMEOUT" ∈ failureCodes by decide)
        (Bytes.lit "job stopped after " ++ io.tostring (.num (minutes (definition.timeout io))) ++
          Bytes.lit " minutes; check materials and access, then retry")
      have htimeout : timeoutResult io definition = some r := hr
      simp only [hexpired, if_true, htimeout, record_some]
      exact ⟨r, _, s.asked, rfl, htask, rfl, fun _ => hdone⟩
    · simp only [hexpired]
      cases hcanonical : canonicalResult io c.outcome with
      | some r =>
        simp only [record_some]
        refine ⟨r, _, s.asked + 1, rfl, htask, rfl, fun hends => ?_⟩
        rcases hends with hends | hends
        · exact absurd hends hexpired
        · exact hends r hcanonical
      | none =>
        obtain ⟨r, hr, hdone⟩ := exists_failure io
          (show Bytes.lit "ENGINE_ERROR" ∈ failureCodes by decide)
          (Bytes.lit "the native job failed; I stopped to avoid repeating a partial operation")
        have herror : engineError io = some r := hr
        simp only [herror, record_some]
        exact ⟨r, _, s.asked + 1, rfl, htask, rfl, fun _ => hdone⟩

/-- A call that ends the job settles it. -/
theorem settled_of_ends (hname : registry name = some definition)
    (hpayload : serializable c.payload = true) (hends : Ends io definition name s c) :
    ∃ r, (update io registry name s c).1 = some r ∧
      Settled name r (update io registry name s c).2 := by
  obtain ⟨r, runtime, asked, hupdate, htask, hlast, hdone⟩ :=
    @update_cases io registry name definition s c hname hpayload
  rw [hupdate]
  exact ⟨r, rfl, runtime, rfl, htask, hlast, hdone hends⟩

/-- **A settled job answers with its result and asks nobody.** -/
theorem update_settled (hname : registry name = some definition)
    (hpayload : serializable c.payload = true) (hs : Settled name r s) :
    update io registry name s c = (some r, s) := by
  obtain ⟨runtime, hactive, htask, hlast, hdone⟩ := hs
  have hruntime : runtimeFor name s c.now = runtime := by
    simp only [runtimeFor, hactive, htask, if_true]
  have hterminal : runtime.terminal = some r := terminal_eq_some.2 ⟨hlast, hdone⟩
  rw [update_registered hname hpayload, hruntime, hterminal, ← hactive]

/-! ## Runs of calls -/

variable (io registry name) in
/-- The job after one more call. -/
def advance (s : Running) (c : Call) : Running := (update io registry name s c).2

/-- A settled job stays as it is. -/
theorem run_settled (hname : registry name = some definition) (hs : Settled name r s)
    {calls : List Call} (hpayload : ∀ d ∈ calls, serializable d.payload = true) :
    Machine.run (advance io registry name) s calls = s := by
  induction calls with
  | nil => rfl
  | cons d calls ih =>
    have hstep : advance io registry name s d = s := by
      unfold advance
      rw [update_settled hname (hpayload d List.mem_cons_self) hs]
    rw [Machine.run_cons, hstep]
    exact ih fun e he => hpayload e (List.mem_cons_of_mem d he)

/-- **A terminal result sticks.** Over any calls for one task, every one
returns a canonical result; and from the call that ends the job on, the
update function is not asked again and every call returns the result of
that one. -/
theorem terminal_sticks (io : Conversions) {registry : Bytes → Option Definition} {name : Bytes}
    {definition : Definition} (hname : registry name = some definition) (s : Running)
    (calls : List Call) (hpayload : ∀ d ∈ calls, serializable d.payload = true) :
    (∀ pre c post, calls = pre ++ c :: post →
      ∃ r, (update io registry name (Machine.run (advance io registry name) s pre) c).1 = some r ∧
        ValidCode r.done r.success r.code ∧
        (r.done = true → (r.success = true ↔ r.code = complete))) ∧
    (∀ pre c mid d post, calls = pre ++ c :: (mid ++ d :: post) →
      Ends io definition name (Machine.run (advance io registry name) s pre) c →
      (Machine.run (advance io registry name) s (pre ++ c :: (mid ++ [d]))).asked =
        (Machine.run (advance io registry name) s (pre ++ [c])).asked ∧
      (update io registry name
        (Machine.run (advance io registry name) s (pre ++ c :: mid)) d).1 =
        (update io registry name (Machine.run (advance io registry name) s pre) c).1) := by
  constructor
  · intro pre c post hcalls
    have hc : serializable c.payload = true := hpayload c (by rw [hcalls]; simp)
    obtain ⟨r, runtime, asked, hupdate, -, -, -⟩ := @update_cases io registry name definition
      (Machine.run (advance io registry name) s pre) c hname hc
    exact ⟨r, by rw [hupdate], r.valid, success_iff_complete⟩
  · intro pre c mid d post hcalls hends
    have hmem : ∀ e ∈ c :: (mid ++ [d]), serializable e.payload = true := by
      intro e he
      refine hpayload e ?_
      rw [hcalls]
      simp only [List.mem_append, List.mem_cons, List.not_mem_nil] at he ⊢
      tauto
    have hc := hmem c (by simp)
    have hd := hmem d (by simp)
    obtain ⟨r, hr, hsettled⟩ := settled_of_ends hname hc hends
    have hrun : ∀ rest, (∀ e ∈ rest, serializable e.payload = true) →
        Machine.run (advance io registry name) s (pre ++ c :: rest) =
          (update io registry name (Machine.run (advance io registry name) s pre) c).2 := by
      intro rest hrest
      rw [Machine.run_append, Machine.run_cons]
      exact run_settled hname hsettled hrest
    have hmid := hrun mid fun e he => hmem e (by simp [he])
    have hlast := hrun (mid ++ [d]) fun e he => hmem e (List.mem_cons_of_mem c he)
    constructor
    · rw [hlast, hrun [] (by simp)]
    · rw [hmid, update_settled hname hd hsettled, hr]

/-- Conversions of texts, truth values and whole numbers. -/
def plain : Conversions where
  tostring
    | .str s => s
    | .num (.finite q) => Bytes.decimal q.num.toNat
    | .bool true => Bytes.lit "true"
    | .bool false => Bytes.lit "false"
    | _ => Bytes.lit "nil"
  tonumber
    | .num n => some n
    | _ => none
  tostring_str _ := rfl
  tonumber_num _ := rfl

/-- A call at a time of a job whose update function ends so. -/
def callAt (now : ℚ) (outcome : Outcome) : Call :=
  ⟨.table [], .num (.finite now), outcome, .num (.finite 0)⟩

/-- A structured result without a detail. -/
def structured (done success : Bool) (code : String) (progress : ℚ) : LuaValue :=
  .ofFields [("done", .bool done), ("success", .bool success), ("code", .str (Bytes.lit code)),
    ("progress", .num (.finite progress))]

/-- A forage that works, raises an error and would then report success: the
third call repeats the error of the second. -/
theorem terminal_sticks_forage :
    let registry : Bytes → Option Definition := fun name =>
      if name = Bytes.lit "FORAGE" then some ⟨.nil⟩ else none
    let working := callAt 0 (.returned (structured false true "WORKING" 0))
    let broken := callAt 1000 .raised
    let success := callAt 2000 (.returned (structured true true "COMPLETE" 1))
    let step := advance plain registry (Bytes.lit "FORAGE")
    (Machine.run step ⟨none, 0⟩ [working, broken, success]).asked =
        (Machine.run step ⟨none, 0⟩ [working, broken]).asked ∧
      (update plain registry (Bytes.lit "FORAGE")
          (Machine.run step ⟨none, 0⟩ [working, broken]) success).1 =
        (update plain registry (Bytes.lit "FORAGE")
          (Machine.run step ⟨none, 0⟩ [working]) broken).1 := by
  intro registry working broken success step
  have hname : registry (Bytes.lit "FORAGE") = some ⟨.nil⟩ := if_pos rfl
  have hpayload : ∀ d ∈ [working, broken, success], serializable d.payload = true := by
    intro d hd
    simp only [List.mem_cons, List.not_mem_nil, or_false] at hd
    rcases hd with rfl | rfl | rfl <;> decide
  have hends : Ends plain ⟨.nil⟩ (Bytes.lit "FORAGE")
      (Machine.run step ⟨none, 0⟩ [working]) broken := by
    refine Or.inr fun r hr => ?_
    have hraised : canonicalResult plain broken.outcome = none := rfl
    rw [hraised] at hr
    exact absurd hr (by simp)
  exact (terminal_sticks plain hname ⟨none, 0⟩ [working, broken, success] hpayload).2
    [working] broken [] success [] rfl hends

end Capabilities

end GoblinZomboid
