import GoblinZomboid.Server.StepMachine
/-!
# Retries

A step counts its starts, and a result that asks for another try fails the
goal after three of them. A refused preparation is a result of that kind
that no start has counted: as long as no step is refused once it has been
started, no step is tried more than three times in one cycle.
-/

namespace GoblinZomboid

namespace Goals

/-! ## What is tried -/

/-- The goal whose step a tick hands to `setTask`. -/
def triedBy (w : World) (ctx : Context) (now : ℕ) : Option Goal :=
  if w.active.isSome || !ctx.idle || ctx.threat || w.task ≠ .follow then none
  else
    match (select { w with goals := w.goals.map (reconcile now) } now).1 with
    | none => none
    | some g => if foodOff g ctx || g.current.isNone then none else some g

/-- The goal whose step a step of the system tries, as it was selected. -/
def tried (w : World) : Op → Option Goal
  | .tick ctx _ now _ => triedBy w ctx now
  | _ => none

/-- The step is a try of a goal's step in one of its cycles. -/
def triesAt (uid runs index : ℕ) (w : World) (op : Op) : Bool :=
  (tried w op).any fun g => g.uid = uid && g.runs = runs && g.step = index

/-- How often a run tries a goal's step in one of its cycles. -/
def tries (uid runs index : ℕ) : World → List Op → ℕ
  | _, [] => 0
  | w, op :: ops =>
    (if triesAt uid runs index w op then 1 else 0) + tries uid runs index (step w op) ops

/-- A tick without danger or recall, or a result that is no interruption. -/
def Plain : Op → Prop
  | .tick ctx _ _ _ => ctx.threat = false ∧ ctx.recalled = false
  | .jobDone r _ _ _ => r.code ≠ Bytes.lit "INTERRUPTED"
  | _ => False

/-- **The goal is not refused** on a step it has started. -/
def Unrefused (uid : ℕ) (w : World) (op : Op) : Prop :=
  ∀ ctx now larder, op = .tick ctx false now larder →
    ∀ g, triedBy w ctx now = some g → g.uid = uid → g.attempts = 0

/-- A goal at the beginning of a cycle: new, or done and to be armed
again. -/
def AtCycleStart (g : Goal) : Prop :=
  g.state = .done ∨
    g.state = .pending ∧ g.step = 1 ∧ ∀ st ∈ g.steps, st.attempts = 0

/-! ## One goal -/

/-- The bound on the tries that are left to a step in a cycle. -/
def left (runs index : ℕ) (g : Goal) : ℕ :=
  if g.runs ≠ runs then 0
  else if g.state = .done then maxAttempts
  else if index < g.step then 0
  else if g.step = index then maxAttempts - g.attempts
  else maxAttempts

/-- **What a cycle keeps** of a goal: the steps to come have not been
started, and a goal that may be started has a try left. -/
structure InCycle (g : Goal) : Prop where
  ahead : g.state ≠ .done → ∀ st ∈ g.steps.drop g.step, st.attempts = 0
  few : g.state = .pending ∨ g.state = .waiting → g.attempts < maxAttempts
  running : g.state = .active → g.attempts ≤ maxAttempts

variable {w : World} {goals : List Goal} {g g' : Goal} {now runs index : ℕ}

theorem inCycle_of_start (h : AtCycleStart g) : InCycle g := by
  rcases h with hdone | ⟨hpending, hstep, hzero⟩
  · refine ⟨fun hs => absurd hdone hs, fun hs => ?_, fun hs => ?_⟩
    · rw [hdone] at hs
      rcases hs with hs | hs <;> cases hs
    · rw [hdone] at hs
      cases hs
  · refine ⟨fun _ st hst => hzero st (List.mem_of_mem_drop hst), fun _ => ?_, fun hs => ?_⟩
    · unfold Goal.attempts Goal.current
      rw [hstep, if_neg (by decide)]
      cases hget : g.steps[1 - 1]? with
      | none => exact Nat.zero_lt_succ 2
      | some st =>
        have hz := hzero st (List.mem_of_getElem? hget)
        change st.attempts < maxAttempts
        rw [hz]
        exact Nat.zero_lt_succ 2
    · rw [hpending] at hs
      cases hs

/-- Arming again begins a cycle. -/
theorem inCycle_rearm (h : InCycle g) : InCycle (rearm now g) := by
  unfold rearm
  split
  · refine inCycle_of_start (Or.inr ⟨rfl, rfl, fun st hst => ?_⟩)
    obtain ⟨st', -, rfl⟩ := List.mem_map.1 hst
    rfl
  · exact h

theorem left_le (runs index : ℕ) (g : Goal) : left runs index g ≤ maxAttempts := by
  unfold left
  split_ifs <;> omega

theorem left_of_ne (h : g.runs ≠ runs) : left runs index g = 0 := by
  unfold left
  rw [if_pos h]

theorem left_of_done (h : g.runs = runs) (hs : g.state = .done) :
    left runs index g = maxAttempts := by
  unfold left
  rw [if_neg (by simpa using h), if_pos hs]

/-- The tries that are left while the cycle goes on. -/
theorem left_of_going (h : g.runs = runs) (hs : g.state ≠ .done) :
    left runs index g =
      if index < g.step then 0
      else if g.step = index then maxAttempts - g.attempts else maxAttempts := by
  unfold left
  rw [if_neg (by simpa using h), if_neg hs]

theorem left_rearm_le (runs index now : ℕ) (g : Goal) :
    left runs index (rearm now g) ≤ left runs index g := by
  by_cases hruns : g.runs = runs
  · unfold rearm
    split
    · rename_i hdue
      simp only [Bool.and_eq_true, decide_eq_true_eq] at hdue
      rw [left_of_done hruns hdue.1.1]
      exact left_le _ _ _
    · exact le_refl _
  · have hsame : (rearm now g).runs = g.runs := by
      unfold rearm
      split <;> rfl
    rw [left_of_ne (hsame ▸ hruns)]
    exact Nat.zero_le _

/-- Only an interruption gives an attempt back. -/
theorem policy_ne_resume {code : Bytes} (h : code ≠ Bytes.lit "INTERRUPTED") (attempts : ℕ) :
    policy code attempts ≠ .resume := by
  unfold policy
  split
  · split <;> nofun
  · cases hfind : policyTable.find? fun e => Bytes.lit e.1 = code with
    | none => nofun
    | some e =>
      have hmem := List.mem_of_find?_eq_some hfind
      have hcode : Bytes.lit e.1 = code := by simpa using List.find?_some hfind
      have htable : ∀ e ∈ policyTable, e.2 = .resume → Bytes.lit e.1 = Bytes.lit "INTERRUPTED" := by
        decide
      intro hresume
      exact h (hcode ▸ htable e hmem hresume)

/-- The number of starts of the current step. -/
theorem attempts_of_current {st : Step} (h : g.current = some st) : g.attempts = st.attempts := by
  unfold Goal.attempts
  rw [h]
  rfl

/-- The step behind an advance has not been started. -/
theorem attempts_next (h : ∀ st ∈ g.steps.drop g.step, st.attempts = 0)
    (hstep : g'.step = g.step + 1) (hsteps : g'.steps = g.steps) : g'.attempts = 0 := by
  have hcurrent : g'.current = g.steps[g.step]? := by
    unfold Goal.current
    rw [hstep, hsteps, if_neg (Nat.succ_ne_zero _), Nat.add_sub_cancel]
  unfold Goal.attempts
  rw [hcurrent]
  cases hget : g.steps[g.step]? with
  | none => rfl
  | some st =>
    have hdrop : (g.steps.drop g.step)[0]? = some st := by
      rw [List.getElem?_drop, Nat.add_zero]
      exact hget
    exact h st (List.mem_of_getElem? hdrop)

/-- A goal whose step is as it was, and that waits or has failed. -/
theorem inCycle_halt (h : InCycle g) (hdone : g.state ≠ .done) (hstep : g'.step = g.step)
    (hsteps : g'.steps = g.steps)
    (hs : g'.state = .failed ∨ g'.state = .waiting ∧ g.attempts < maxAttempts) : InCycle g' := by
  have hattempts : g'.attempts = g.attempts := by
    unfold Goal.attempts Goal.current
    rw [hstep, hsteps]
  refine ⟨fun _ => ?_, fun hs' => ?_, fun hs' => ?_⟩
  · rw [hstep, hsteps]
    exact h.ahead hdone
  · rw [hattempts]
    rcases hs with hs | ⟨-, hlt⟩
    · rw [hs] at hs'
      rcases hs' with hs' | hs' <;> cases hs'
    · exact hlt
  · rcases hs with hs | ⟨hs, -⟩ <;> rw [hs] at hs' <;> cases hs'

theorem left_halt (hruns : g'.runs = g.runs) (hdone : g.state ≠ .done) (hdone' : g'.state ≠ .done)
    (hstep : g'.step = g.step) (hsteps : g'.steps = g.steps) :
    left runs index g' = left runs index g := by
  have hattempts : g'.attempts = g.attempts := by
    unfold Goal.attempts Goal.current
    rw [hstep, hsteps]
  by_cases h : g.runs = runs
  · rw [left_of_going h hdone, left_of_going (hruns.trans h) hdone', hstep, hattempts]
  · rw [left_of_ne h, left_of_ne (hruns ▸ h)]

/-- **A result spends no try, and an advance leaves none of its step.** -/
theorem follow_cycle (index now : ℕ) (h : InCycle g) (hruns : runs ≤ g.runs)
    (hdone : g.state ≠ .done) {st : Step} (hcurrent : g.current = some st) {r : JobResult} (hcode : r.code ≠ Bytes.lit "INTERRUPTED") :
    InCycle (follow g st r now) ∧ runs ≤ (follow g st r now).runs ∧
      (follow g st r now).state ≠ .active ∧
      left runs index (follow g st r now) ≤ left runs index g ∧
      (policy r.code st.attempts = .advance → g.step = index →
        left runs index (follow g st r now) = 0) := by
  have hattempts := attempts_of_current hcurrent
  have hahead := h.ahead hdone
  -- an advance, to the next step or to the end
  have hadvance : ∀ (P : Prop) (g' : Goal), g'.runs = g.runs → g'.step = g.step + 1 →
      g'.steps = g.steps → g'.state = .pending → InCycle g' ∧ runs ≤ g'.runs ∧
        g'.state ≠ .active ∧ left runs index g' ≤ left runs index g ∧
        (P → g.step = index → left runs index g' = 0) := by
    intro P g' hr hstep hsteps hs
    have hzero := attempts_next hahead hstep hsteps
    have hs' : g'.state ≠ .done := by rw [hs]; nofun
    refine ⟨⟨fun _ x hx => ?_, fun _ => by rw [hzero]; decide, fun ha => ?_⟩, hr ▸ hruns,
      by rw [hs]; nofun, ?_, fun _ hi => ?_⟩
    · rw [hstep, hsteps] at hx
      exact hahead x (List.drop_subset_drop_left _ (Nat.le_succ _) hx)
    · rw [hs] at ha
      cases ha
    · by_cases hrun : g.runs = runs
      · rw [left_of_going hrun hdone, left_of_going (hr.trans hrun) hs', hstep]
        split_ifs <;> omega
      · rw [left_of_ne (hr ▸ hrun)]
        exact Nat.zero_le _
    · by_cases hrun : g.runs = runs
      · rw [left_of_going (hr.trans hrun) hs', hstep, if_pos (by omega)]
      · exact left_of_ne (hr ▸ hrun)
  have hfinish : ∀ (P : Prop) (g' : Goal), g'.runs = g.runs + 1 → g'.state = .done →
      InCycle g' ∧ runs ≤ g'.runs ∧ g'.state ≠ .active ∧
        left runs index g' ≤ left runs index g ∧
        (P → g.step = index → left runs index g' = 0) := by
    intro P g' hr hs
    have hne : left runs index g' = 0 := left_of_ne (by omega)
    exact ⟨inCycle_of_start (Or.inl hs), by omega, by rw [hs]; nofun, by omega, fun _ _ => hne⟩
  have hhalt : ∀ (P : Prop) (g' : Goal), ¬ P → g'.runs = g.runs → g'.step = g.step →
      g'.steps = g.steps →
      (g'.state = .failed ∨ g'.state = .waiting ∧ g.attempts < maxAttempts) →
      InCycle g' ∧ runs ≤ g'.runs ∧ g'.state ≠ .active ∧
        left runs index g' ≤ left runs index g ∧
        (P → g.step = index → left runs index g' = 0) := by
    intro P g' hP hr hstep hsteps hs
    have hs' : g'.state ≠ .done ∧ g'.state ≠ .active := by
      rcases hs with hs | ⟨hs, -⟩ <;> rw [hs] <;> exact ⟨nofun, nofun⟩
    exact ⟨inCycle_halt h hdone hstep hsteps hs, hr ▸ hruns, hs'.2,
      (left_halt hr hdone hs'.1 hstep hsteps).le, fun hp => absurd hp hP⟩
  have hresume := policy_ne_resume hcode st.attempts
  unfold follow
  dsimp only
  cases hpolicy : policy r.code st.attempts with
  | advance =>
    dsimp only
    split
    · exact hfinish _ _ rfl rfl
    · exact hadvance _ _ rfl rfl rfl rfl
  | skip =>
    dsimp only
    split
    · exact hfinish _ _ rfl rfl
    · exact hadvance _ _ rfl rfl rfl rfl
  | resume => exact absurd hpolicy hresume
  | retry =>
    dsimp only
    split
    · exact hhalt _ _ nofun rfl rfl rfl (Or.inl rfl)
    · exact hhalt _ _ nofun rfl rfl rfl (Or.inr ⟨rfl, by omega⟩)
  | retryLong =>
    dsimp only
    split
    · exact hhalt _ _ nofun rfl rfl rfl (Or.inl rfl)
    · exact hhalt _ _ nofun rfl rfl rfl (Or.inr ⟨rfl, by omega⟩)
  | fail => exact hhalt _ _ nofun rfl rfl rfl (Or.inl rfl)

/-- **A start spends a try.** -/
theorem launch_cycle (runs index : ℕ) (h : InCycle g) (hs : g.state = .pending ∨ g.state = .waiting)
    (hsome : g.current.isSome = true) :
    InCycle (launch g) ∧ (launch g).runs = g.runs ∧
      left runs index (launch g) +
        (if g.runs = runs ∧ g.step = index then 1 else 0) ≤ left runs index g := by
  have hlt := h.few hs
  have hgoing : g.state ≠ .done ∧ g.state ≠ .active := by
    rcases hs with hs | hs <;> rw [hs] <;> exact ⟨nofun, nofun⟩
  obtain ⟨st, hst⟩ := Option.isSome_iff_exists.1 hsome
  obtain ⟨hlow, -⟩ := range_of_current hst
  have hattempts := attempts_launch hsome
  have hruns : (launch g).runs = g.runs := by
    unfold launch Goal.mapCurrent
    split <;> rfl
  have hdrop : (launch g).steps.drop g.step = g.steps.drop g.step := by
    unfold launch Goal.mapCurrent
    rw [if_neg (by omega)]
    exact List.drop_modify_of_lt _ _ _ _ (by omega)
  refine ⟨⟨fun _ x hx => ?_, nofun, fun _ => ?_⟩, hruns, ?_⟩
  · rw [step_launch, hdrop] at hx
    exact h.ahead hgoing.1 x hx
  · rw [hattempts]
    omega
  · by_cases hrun : g.runs = runs
    · rw [left_of_going hrun hgoing.1, left_of_going (hruns.trans hrun) nofun, step_launch,
        hattempts]
      split_ifs <;> omega
    · rw [left_of_ne (hruns ▸ hrun), if_neg fun h => hrun h.1]
      exact Nat.zero_le _

/-! ## The registry around it -/

/-- The ids of the records and their tables, in order. -/
def labels (goals : List Goal) : List (Bytes × ℕ) := goals.map fun g => (g.id, g.uid)

/-- The last record with the id is this table. -/
def LastOf (goals : List Goal) (id : Bytes) (uid : ℕ) : Prop :=
  (goals.reverse.find? fun g => g.id = id).map Goal.uid = some uid

theorem lastOf_iff {id : Bytes} {uid : ℕ} :
    LastOf goals id uid ↔
      ((labels goals).reverse.find? fun e => e.1 = id).map Prod.snd = some uid := by
  unfold LastOf labels
  rw [← List.map_reverse, List.find?_map, Option.map_map]
  rfl

theorem lastOf_congr {goals' : List Goal} (h : labels goals' = labels goals) {id : Bytes}
    {uid : ℕ} : LastOf goals' id uid ↔ LastOf goals id uid := by
  rw [lastOf_iff, lastOf_iff, h]

theorem labels_map {f : Goal → Goal} (hf : ∀ g ∈ goals, Same g (f g)) :
    labels (goals.map f) = labels goals := by
  unfold labels
  rw [List.map_map]
  refine List.map_congr_left fun g hg => ?_
  have hsame := hf g hg
  simp only [Function.comp, hsame.id, hsame.uid]

theorem labels_update {u : ℕ} {f : Goal → Goal} (hf : ∀ g ∈ goals, g.uid = u → Same g (f g)) :
    labels (Goals.update goals u f) = labels goals := by
  refine labels_map fun g hg => ?_
  split
  · exact hf g hg ‹_›
  · exact .refl g

/-- The one record of a table, changed. -/
theorem labels_update_one (hn : (goals.map Goal.uid).Nodup) (hg : g ∈ goals) {u : ℕ}
    (hu : g.uid = u) {f : Goal → Goal} (hf : Same g (f g)) :
    labels (Goals.update goals u f) = labels goals := by
  refine labels_update fun x hx hxu => ?_
  rw [List.inj_on_of_nodup_map hn hx hg (hxu.trans hu.symm)]
  exact hf

theorem Same.trans {g₁ g₂ g₃ : Goal} (h : Same g₁ g₂) (h' : Same g₂ g₃) : Same g₁ g₃ :=
  ⟨h'.uid.trans h.uid, h'.id.trans h.id, h'.kind.trans h.kind, h'.createdAt.trans h.createdAt⟩

theorem same_rearm (now : ℕ) (g : Goal) : Same g (rearm now g) := by
  unfold rearm
  split
  · exact ⟨rfl, rfl, rfl, rfl⟩
  · exact .refl g

theorem same_reconcile (g : Goal) : Same g (reconcile now g) := by
  unfold reconcile
  split
  · exact ⟨rfl, rfl, rfl, rfl⟩
  · exact .refl g

theorem same_interrupt (g : Goal) (ctx : Context) : Same g (interrupt g ctx now) := by
  have hsame := same_mapCurrent g fun s => { s with attempts := s.attempts - 1 }
  exact ⟨hsame.uid, hsame.id, hsame.kind, hsame.createdAt⟩

theorem same_launch (g : Goal) : Same g (launch g) := by
  have hsame := same_mapCurrent g fun s => { s with attempts := s.attempts + 1 }
  exact ⟨hsame.uid, hsame.id, hsame.kind, hsame.createdAt⟩

theorem labels_settle {d : Delivery} (hsound : ∀ g ∈ d.goals, Sound g) (now : ℕ)
    (larder : FoodCycle.Larder) : labels (d.settle now larder) = labels d.goals := by
  unfold Delivery.settle
  cases resultGoal d.goals d.id d.task with
  | none => rfl
  | some x =>
    refine labels_update fun g hg _ => ?_
    split
    · exact (foodResult_spec (hsound g hg) ‹_› d.task d.result larder).1
    · exact (follow_spec (hsound g hg) ‹_› x.2 d.result).1

theorem mem_update_of_ne (hg : g ∈ goals) {u : ℕ} (hu : g.uid ≠ u) (f : Goal → Goal) :
    g ∈ Goals.update goals u f :=
  List.mem_map.2 ⟨g, hg, if_neg hu⟩

theorem mem_update_self (hg : g ∈ goals) (f : Goal → Goal) : f g ∈ Goals.update goals g.uid f :=
  List.mem_map.2 ⟨g, hg, if_pos rfl⟩

/-- A record under a delivery: it stays, or the result is for it. -/
theorem mem_settle {d : Delivery} (hn : (d.goals.map Goal.uid).Nodup) (hg : g ∈ d.goals)
    (hfood : g.kind ≠ .restockFood) (now : ℕ) (larder : FoodCycle.Larder) :
    g ∈ d.settle now larder ∨
      ∃ st, g.current = some st ∧ g.state ≠ .cancelled ∧
        follow g st d.result now ∈ d.settle now larder := by
  unfold Delivery.settle
  cases hres : resultGoal d.goals d.id d.task with
  | none => exact Or.inl hg
  | some x =>
    obtain ⟨k, st⟩ := x
    obtain ⟨hk, -, hcancelled, hcurrent, -⟩ := mem_of_resultGoal hres
    dsimp only
    by_cases hku : g.uid = k.uid
    · obtain rfl := List.inj_on_of_nodup_map hn hg hk hku
      refine Or.inr ⟨st, hcurrent, hcancelled, List.mem_map.2 ⟨g, hg, ?_⟩⟩
      rw [if_pos rfl]
      exact if_neg hfood
    · exact Or.inl (mem_update_of_ne hg hku _)

/-- **The last record with an id gets its result.** -/
theorem mem_settle_last {d : Delivery} (hn : (d.goals.map Goal.uid).Nodup) (hg : g ∈ d.goals)
    (hfood : g.kind ≠ .restockFood) (hid : g.id = d.id) (hlast : LastOf d.goals g.id g.uid)
    (hcancelled : g.state ≠ .cancelled) {st : Step} (hcurrent : g.current = some st)
    (htask : st.task = d.task) (now : ℕ) (larder : FoodCycle.Larder) :
    follow g st d.result now ∈ d.settle now larder := by
  have hres : resultGoal d.goals d.id d.task = some (g, st) := by
    unfold LastOf at hlast
    rw [hid] at hlast
    obtain ⟨k, hk, hku⟩ := Option.map_eq_some_iff.1 hlast
    have hmem : k ∈ d.goals := List.mem_reverse.1 (List.mem_of_find?_eq_some hk)
    obtain rfl := List.inj_on_of_nodup_map hn hmem hg hku
    unfold resultGoal
    rw [hk]
    dsimp only
    rw [if_neg hcancelled, hcurrent]
    dsimp only
    rw [if_pos htask]
  unfold Delivery.settle
  rw [hres]
  refine List.mem_map.2 ⟨g, hg, ?_⟩
  rw [if_pos rfl]
  exact if_neg hfood

/-- A step within range is there. -/
theorem current_of_range (h : 1 ≤ g.step ∧ g.step ≤ g.steps.length) :
    g.current.isSome = true := by
  unfold Goal.current
  rw [if_neg (by omega), List.getElem?_eq_getElem (by omega)]
  rfl

/-- **A tick of an idle body, seen from one goal**: it tries it, as it is
armed by now, or it tries another one or none. -/
theorem tickIdle_record (hw : Settled .trivial w) (hactive : w.active = none) (hg : g ∈ w.goals)
    (hfood : g.kind ≠ .restockFood) (hidle : g.state ≠ .active) (hrange : InRange g)
    (ctx : Context) (accepted : Bool) (now : ℕ) (larder : FoodCycle.Larder) :
    (∃ st, triedBy w ctx now = some (rearm now g) ∧ ready now (rearm now g) = true ∧
      (rearm now g).current = some st ∧
      (accepted = true ∧ launch (rearm now g) ∈ (tickIdle w ctx accepted now larder).goals ∧
          (tickIdle w ctx accepted now larder).active = some g.id ∧
          (tickIdle w ctx accepted now larder).payloadGoal = some g.id ∧
          (tickIdle w ctx accepted now larder).task = st.task ∨
        accepted = false ∧ (LastOf w.goals g.id g.uid →
          follow (rearm now g) st ⟨false, noTargetPrepare⟩ now ∈
            (tickIdle w ctx accepted now larder).goals))) ∨
      (∀ x, triedBy w ctx now = some x → x.uid ≠ g.uid) ∧
        ∃ g' ∈ (tickIdle w ctx accepted now larder).goals, g' = g ∨ g' = rearm now g ∨
          ∃ st, (rearm now g).current = some st ∧
            g' = follow (rearm now g) st ⟨false, noTargetPrepare⟩ now := by
  have hrec : Settled .trivial { w with goals := w.goals.map (reconcile now) } :=
    hw.map (fun g hg hold => reconcile_of_atRest (hw.rest g hg hold))
      fun g hg => reconcile_spec (hw.sound g hg)
  obtain ⟨hsel, hbest, hkept⟩ := select_spec hrec now
  have hsame : reconcile now g = g := by
    unfold reconcile
    rw [if_neg hidle]
  have hmem : rearm now g ∈ (select { w with goals := w.goals.map (reconcile now) } now).2.goals :=
    hkept g (hsame ▸ List.mem_map_of_mem hg)
  have hready : ∀ k, (select { w with goals := w.goals.map (reconcile now) } now).1 = some k →
      ready now k = true := by
    intro k hk
    rcases foldl_better_mem _ _ hk with h | h
    · cases h
    · exact (List.mem_filter.1 h).2
  have hlabels : labels (select { w with goals := w.goals.map (reconcile now) } now).2.goals =
      labels w.goals :=
    (labels_map fun g _ => same_rearm now g).trans (labels_map fun g _ => same_reconcile g)
  have hkind : (rearm now g).kind ≠ .restockFood := (same_rearm now g).kind ▸ hfood
  have hnone : w.active.isSome = false := by rw [hactive]; rfl
  unfold tickIdle triedBy
  rw [hnone, Bool.false_or]
  by_cases hbusy : (!ctx.idle || ctx.threat || decide (w.task ≠ .follow)) = true
  · rw [if_pos hbusy, if_pos hbusy]
    exact Or.inr ⟨nofun, g, hg, Or.inl rfl⟩
  rw [if_neg hbusy, if_neg hbusy]
  generalize select { w with goals := w.goals.map (reconcile now) } now = sel
    at hsel hbest hmem hready hlabels ⊢
  obtain ⟨b, w'⟩ := sel
  have hn : (w'.goals.map Goal.uid).Nodup := hsel.nodup
  cases b with
  | none => exact Or.inr ⟨nofun, _, hmem, Or.inr (Or.inl rfl)⟩
  | some k =>
    obtain ⟨hk, hlive, hold⟩ := hbest k rfl
    have hkready := hready k rfl
    dsimp only at hsel hk hmem hlabels hn ⊢
    by_cases hku : k.uid = g.uid
    · -- the goal itself is selected
      obtain rfl : k = rearm now g :=
        List.inj_on_of_nodup_map hn hk hmem (hku.trans (same_rearm now g).uid.symm)
      have hoff : foodOff (rearm now g) ctx = false := by
        unfold foodOff
        rw [decide_eq_false hkind, Bool.false_and, Bool.false_and]
      rw [hoff, if_neg Bool.false_ne_true, Bool.false_or]
      cases hcurrent : (rearm now g).current with
      | none =>
        have hdone : (rearm now g).state ≠ .done := by
          rcases hlive with h | h | h <;> rw [h] <;> nofun
        have hsome := current_of_range (((turn_rearm g).range hrange hkind).2 hdone)
        rw [hcurrent] at hsome
        cases hsome
      | some st =>
        refine Or.inl ⟨st, rfl, hkready, rfl, ?_⟩
        dsimp only
        rw [if_neg hkind]
        cases accepted with
        | true =>
          refine Or.inl ⟨rfl, mem_update_self hmem launch, ?_, ?_, rfl⟩
          · exact congrArg some (same_rearm now g).id
          · exact congrArg some (same_rearm now g).id
        | false =>
          refine Or.inr ⟨rfl, fun hlast => ?_⟩
          rw [goals_start_refused]
          have hlast' : LastOf w'.goals (rearm now g).id (rearm now g).uid := by
            rw [(same_rearm now g).id, (same_rearm now g).uid]
            exact (lastOf_congr hlabels).2 hlast
          refine mem_settle_last (d := ⟨w'.goals, (rearm now g).id, st.task,
            ⟨false, noTargetPrepare⟩⟩) hn hmem hkind rfl hlast' ?_ hcurrent rfl now larder
          rcases hlive with h | h | h <;> rw [h] <;> nofun
    · -- another one is
      have hne : (rearm now g).uid ≠ k.uid := fun h => hku (h.symm.trans (same_rearm now g).uid)
      refine Or.inr ⟨?_, ?_⟩
      · intro x hx
        split_ifs at hx
        rw [← Option.some_inj.1 hx]
        exact hku
      · by_cases hoff : foodOff k ctx = true
        · rw [if_pos hoff]
          exact ⟨_, hmem, Or.inr (Or.inl rfl)⟩
        rw [if_neg hoff]
        cases hcurrent : k.current with
        | none => exact ⟨_, mem_update_of_ne hmem hne _, Or.inr (Or.inl rfl)⟩
        | some st =>
          dsimp only
          have hstart : ∀ (w₁ : World) (k₁ : Goal) (task : Task), (w₁.goals.map Goal.uid).Nodup →
              rearm now g ∈ w₁.goals → k₁.uid = k.uid →
              ∃ g' ∈ (start w₁ k₁ task accepted now larder).goals, g' = g ∨ g' = rearm now g ∨
                ∃ st, (rearm now g).current = some st ∧
                  g' = follow (rearm now g) st ⟨false, noTargetPrepare⟩ now := by
            intro w₁ k₁ task hn₁ hmem₁ hku₁
            cases accepted with
            | true =>
              exact ⟨_, mem_update_of_ne hmem₁ (hku₁ ▸ hne) _, Or.inr (Or.inl rfl)⟩
            | false =>
              rw [goals_start_refused]
              rcases mem_settle (d := ⟨w₁.goals, k₁.id, task, ⟨false, noTargetPrepare⟩⟩) hn₁ hmem₁
                hkind now larder with h | ⟨st, hst, -, h⟩
              · exact ⟨_, h, Or.inr (Or.inl rfl)⟩
              · exact ⟨_, h, Or.inr (Or.inr ⟨st, hst, rfl⟩)⟩
          by_cases hkfood : k.kind = .restockFood
          · rw [if_pos hkfood]
            obtain ⟨hspec, hgo⟩ := next_spec (hsel.sound k hk) hlive hkfood larder now
            have h₂ := hsel.update hk hold rfl (f := fun _ => (FoodCycle.next k larder now).1) hspec
            have hk₂ := mem_update hk rfl fun _ => (FoodCycle.next k larder now).1
            have hmem₂ : rearm now g ∈ (w'.update k.uid fun _ =>
                (FoodCycle.next k larder now).1).goals := mem_update_of_ne hmem hne _
            cases htask : (FoodCycle.next k larder now).2 with
            | none => exact ⟨_, hmem₂, Or.inr (Or.inl rfl)⟩
            | some task =>
              dsimp only
              have hlive₂ := hgo (by rw [htask]; exact Option.some_ne_none _)
              have hsame₂ := same_mapCurrent (FoodCycle.next k larder now).1
                fun s => { s with task := task }
              have h₃ := h₂.update hk₂ (hspec.1.old.not.2 hold) hspec.1.uid
                (f := fun g => g.mapCurrent fun s => { s with task := task })
                ((hlive₂.mapCurrent _).sound hsame₂ (h₂.sound _ hk₂))
              exact hstart _ k task h₃.nodup (mem_update_of_ne hmem₂ hne _) rfl
          · rw [if_neg hkfood]
            exact hstart w' k st.task hn hmem rfl

theorem labels_start (hsound : ∀ g ∈ w.goals, Sound g) (k : Goal) (task : Task) (accepted : Bool)
    (now : ℕ) (larder : FoodCycle.Larder) :
    labels (start w k task accepted now larder).goals = labels w.goals := by
  cases accepted with
  | true => exact labels_update fun x _ _ => same_launch x
  | false =>
    rw [goals_start_refused]
    exact labels_settle (d := ⟨w.goals, k.id, task, ⟨false, noTargetPrepare⟩⟩) hsound now larder

theorem labels_tickIdle (hw : Settled .trivial w) (ctx : Context) (accepted : Bool) (now : ℕ)
    (larder : FoodCycle.Larder) :
    labels (tickIdle w ctx accepted now larder).goals = labels w.goals := by
  have hrec : Settled .trivial { w with goals := w.goals.map (reconcile now) } :=
    hw.map (fun g hg hold => reconcile_of_atRest (hw.rest g hg hold))
      fun g hg => reconcile_spec (hw.sound g hg)
  obtain ⟨hsel, hbest, -⟩ := select_spec hrec now
  have hlabels : labels (select { w with goals := w.goals.map (reconcile now) } now).2.goals =
      labels w.goals :=
    (labels_map fun g _ => same_rearm now g).trans (labels_map fun g _ => same_reconcile g)
  unfold tickIdle
  split
  · rfl
  generalize select { w with goals := w.goals.map (reconcile now) } now = sel
    at hsel hbest hlabels ⊢
  obtain ⟨b, w'⟩ := sel
  cases b with
  | none => exact hlabels
  | some k =>
    obtain ⟨hk, hlive, hold⟩ := hbest k rfl
    dsimp only at hsel hk hlabels ⊢
    refine Eq.trans ?_ hlabels
    split
    · rfl
    · cases k.current with
      | none => exact labels_update fun x _ _ => ⟨rfl, rfl, rfl, rfl⟩
      | some st =>
        dsimp only
        by_cases hkfood : k.kind = .restockFood
        · rw [if_pos hkfood]
          obtain ⟨hspec, hgo⟩ := next_spec (hsel.sound k hk) hlive hkfood larder now
          have h₂ := hsel.update hk hold rfl (f := fun _ => (FoodCycle.next k larder now).1) hspec
          have hk₂ := mem_update hk rfl fun _ => (FoodCycle.next k larder now).1
          have hlabels₂ : labels (w'.update k.uid fun _ => (FoodCycle.next k larder now).1).goals =
              labels w'.goals := labels_update_one hsel.nodup hk rfl hspec.1
          cases htask : (FoodCycle.next k larder now).2 with
          | none => exact hlabels₂
          | some task =>
            have hlive₂ := hgo (by rw [htask]; exact Option.some_ne_none _)
            have hsame₂ := same_mapCurrent (FoodCycle.next k larder now).1
              fun s => { s with task := task }
            have h₃ := h₂.update hk₂ (hspec.1.old.not.2 hold) hspec.1.uid
              (f := fun g => g.mapCurrent fun s => { s with task := task })
              ((hlive₂.mapCurrent _).sound hsame₂ (h₂.sound _ hk₂))
            exact ((labels_start h₃.sound k task accepted now larder).trans
              (labels_update fun x _ _ => same_mapCurrent x _)).trans hlabels₂
        · rw [if_neg hkfood]
          exact labels_start hsel.sound k st.task accepted now larder

/-- **A tick of a body on a job, seen from a goal that does not run.** -/
theorem tickActive_record (hw : Stands w) (hg : g ∈ w.goals) (hidle : g.state ≠ .active)
    (id : Bytes) (ctx : Context) (now : ℕ) :
    labels (tickActive w id ctx now).goals = labels w.goals ∧
      ∃ g' ∈ (tickActive w id ctx now).goals, g' = g ∨ g' = rearm now g := by
  cases hfind : w.goals.find? (fun g => g.id = id && g.state = .active) with
  | none =>
    have hsame : (tickActive w id ctx now).goals = w.goals := by
      simp only [tickActive, hfind]
      split <;> rfl
    rw [hsame]
    exact ⟨rfl, g, hg, Or.inl rfl⟩
  | some k =>
    obtain ⟨hk, -, hkactive⟩ := mem_of_findActive hfind
    have hne : g.uid ≠ k.uid := by
      intro heq
      exact hidle (hw.settled.eq_of_uid hk hg heq ▸ hkactive)
    simp only [tickActive, hfind]
    split
    · exact ⟨labels_update fun x _ _ => ⟨rfl, rfl, rfl, rfl⟩, g, mem_update_of_ne hg hne _,
        Or.inl rfl⟩
    · have hsel : ∀ sel, sel = (if k.kind = .restockFood then select w now else (none, w)) →
          labels sel.2.goals = labels w.goals ∧
            ∃ g' ∈ sel.2.goals, g'.uid ≠ k.uid ∧ (g' = g ∨ g' = rearm now g) := by
        rintro sel rfl
        split
        · exact ⟨labels_map fun x _ => same_rearm now x, rearm now g, List.mem_map_of_mem hg,
            fun h => hne ((same_rearm now g).uid.symm.trans h), Or.inr rfl⟩
        · exact ⟨rfl, g, hg, hne, Or.inl rfl⟩
      obtain ⟨hlabels, g', hg', hne', hcases⟩ := hsel _ rfl
      generalize (if k.kind = .restockFood then select w now else (none, w)) = sel at hlabels hg' ⊢
      split
      · exact ⟨(labels_update fun x _ _ => same_interrupt x ctx).trans hlabels, g',
          mem_update_of_ne hg' hne' _, hcases⟩
      · exact ⟨hlabels, g', hg', hcases⟩

/-- A goal the body works for, in a tick without danger or recall, is left
alone. -/
theorem tickActive_running (hw : Stands w) (hg : g ∈ w.goals) (hfood : g.kind ≠ .restockFood)
    (hactive : g.state = .active) (hpayload : w.payloadGoal = some g.id) {ctx : Context}
    (hthreat : ctx.threat = false) (hrecalled : ctx.recalled = false) (now : ℕ) :
    tickActive w g.id ctx now = w := by
  have hfind : w.goals.find? (fun x => x.id = g.id && x.state = .active) = some g := by
    cases hfind : w.goals.find? (fun x => x.id = g.id && x.state = .active) with
    | none =>
      have hno := List.find?_eq_none.1 hfind g hg
      simp [hactive] at hno
    | some k =>
      obtain ⟨hk, -, hkactive⟩ := mem_of_findActive hfind
      rw [hw.one.eq hk hg hkactive hactive]
  have hoff : foodOff g ctx = false := by
    unfold foodOff
    rw [decide_eq_false hfood, Bool.false_and, Bool.false_and]
  simp only [tickActive, hfind, hpayload, ne_eq, not_true_eq_false, if_false, if_neg hfood,
    hthreat, hrecalled, hoff, decide_eq_false hfood, Option.any_none, Bool.or_self,
    Bool.false_and, Bool.false_eq_true]

/-! ## Runs -/

/-- **A goal in its cycle**, as a registry and a body hold it. -/
structure Tracked (id : Bytes) (uid runs : ℕ) (w : World) (g : Goal) : Prop where
  mem : g ∈ w.goals
  uid_eq : g.uid = uid
  id_eq : g.id = id
  kind : g.kind ≠ .restockFood
  last : LastOf w.goals id uid
  cycle : InCycle g
  runs_le : runs ≤ g.runs
  body : g.state = .active → w.active = some id ∧ w.payloadGoal = some id ∧
    ∃ st, g.current = some st ∧ w.task = st.task

variable {id : Bytes} {uid : ℕ} {w' : World}

/-- The goal after a step that leaves it not running. -/
theorem Tracked.next (ht : Tracked id uid runs w g) (hmem : g' ∈ w'.goals)
    (hlabels : labels w'.goals = labels w.goals) (hsame : Same g g') (hcycle : InCycle g')
    (hruns : runs ≤ g'.runs) (hidle : g'.state ≠ .active) : Tracked id uid runs w' g' where
  mem := hmem
  uid_eq := hsame.uid.trans ht.uid_eq
  id_eq := hsame.id.trans ht.id_eq
  kind := hsame.kind ▸ ht.kind
  last := (lastOf_congr hlabels).2 ht.last
  cycle := hcycle
  runs_le := hruns
  body := fun h => absurd h hidle

theorem runs_rearm (g : Goal) : (rearm now g).runs = g.runs := by
  unfold rearm
  split <;> rfl

theorem idle_rearm (h : g.state ≠ .active) : (rearm now g).state ≠ .active := by
  unfold rearm
  split
  · nofun
  · exact h

theorem Tracked.rearmed (ht : Tracked id uid runs w g) (hmem : rearm now g ∈ w'.goals)
    (hlabels : labels w'.goals = labels w.goals) (hidle : g.state ≠ .active) :
    Tracked id uid runs w' (rearm now g) := by
  have hruns : runs ≤ (rearm now g).runs := (runs_rearm g).symm ▸ ht.runs_le
  exact ht.next hmem hlabels (same_rearm now g) (inCycle_rearm ht.cycle) hruns (idle_rearm hidle)

/-- A goal with a current step is not done. -/
theorem not_done_of_current (hsound : Sound g) (hfood : g.kind ≠ .restockFood) {st : Step}
    (hcurrent : g.current = some st) : g.state ≠ .done := by
  intro hdone
  rw [hsound.done hfood hdone] at hcurrent
  cases hcurrent

/-- A tick of a body that has a goal in hand. -/
theorem tracked_busy (index : ℕ) (hw : Stands w) (ht : Tracked id uid runs w g) {hand : Bytes}
    (hactive : w.active = some hand) {ctx : Context} (hthreat : ctx.threat = false)
    (hrecalled : ctx.recalled = false) (now : ℕ) :
    ∃ g', Tracked id uid runs (tickActive w hand ctx now) g' ∧
      left runs index g' ≤ left runs index g := by
  by_cases hs : g.state = .active
  · obtain ⟨hbody, hpayload, -⟩ := ht.body hs
    have hhand : hand = g.id := by
      rw [hactive, ← ht.id_eq] at hbody
      exact Option.some_inj.1 hbody
    have hpayload' : w.payloadGoal = some g.id := ht.id_eq.symm ▸ hpayload
    rw [hhand, tickActive_running hw ht.mem ht.kind hs hpayload' hthreat hrecalled now]
    exact ⟨g, ht, le_refl _⟩
  · obtain ⟨hlabels, g', hg', h | h⟩ := tickActive_record hw ht.mem hs hand ctx now
    · subst h
      exact ⟨_, ht.next hg' hlabels (.refl _) ht.cycle ht.runs_le hs, le_refl _⟩
    · subst h
      exact ⟨_, ht.rearmed hg' hlabels hs, left_rearm_le runs index now g⟩

/-- A tick of an idle body. -/
theorem tracked_idle (index : ℕ) (hw : Stands w) (ht : Tracked id uid runs w g)
    (hactive : w.active = none) (ctx : Context) (accepted : Bool) (now : ℕ) (larder : FoodCycle.Larder)
    (href : accepted = false → ∀ k, triedBy w ctx now = some k → k.uid = uid → k.attempts = 0) :
    ∃ g', Tracked id uid runs (tickIdle w ctx accepted now larder) g' ∧
      (if (triedBy w ctx now).any fun k => k.uid = uid && k.runs = runs && k.step = index
        then 1 else 0) + left runs index g' ≤ left runs index g := by
  have hidle : g.state ≠ .active := by
    intro hs
    have hbody := (ht.body hs).1
    rw [hactive] at hbody
    cases hbody
  have hlabels := labels_tickIdle hw.settled ctx accepted now larder
  have hmine : (rearm now g).uid = uid := (same_rearm now g).uid.trans ht.uid_eq
  have hkind : (rearm now g).kind ≠ .restockFood := (same_rearm now g).kind ▸ ht.kind
  have hcycle : InCycle (rearm now g) := inCycle_rearm ht.cycle
  have hruns : runs ≤ (rearm now g).runs := (runs_rearm g).symm ▸ ht.runs_le
  have hleft := left_rearm_le runs index now g
  have hsound : Sound (rearm now g) := (rearm_spec (hw.settled.sound g ht.mem)).2
  rcases tickIdle_record hw.settled hactive ht.mem ht.kind hidle (hw.range g ht.mem) ctx accepted
    now larder with ⟨st, htry, hready, hcurrent, ⟨-, hmem, hin, hpayload, htask⟩ | ⟨hno, hmem⟩⟩ |
      ⟨htry, g', hg', hcases⟩
  · -- the goal starts
    have hstate : (rearm now g).state = .pending ∨ (rearm now g).state = .waiting := by
      unfold ready at hready
      simp only [Bool.and_eq_true, Bool.or_eq_true, decide_eq_true_eq] at hready
      exact hready.1
    have hsome : (rearm now g).current.isSome = true := by rw [hcurrent]; rfl
    obtain ⟨hcycle', hruns', hspent⟩ := launch_cycle runs index hcycle hstate hsome
    have hsame := same_launch (rearm now g)
    refine ⟨launch (rearm now g), ⟨hmem, hsame.uid.trans hmine,
      (hsame.id.trans (same_rearm now g).id).trans ht.id_eq, hsame.kind ▸ hkind,
      (lastOf_congr hlabels).2 ht.last, hcycle', hruns'.symm ▸ hruns, fun _ => ⟨?_, ?_, ?_⟩⟩, ?_⟩
    · rw [hin, ht.id_eq]
    · rw [hpayload, ht.id_eq]
    · refine ⟨{ st with attempts := st.attempts + 1 }, ?_, htask⟩
      have hlaunch : (launch (rearm now g)).current = _ :=
        current_mapCurrent (rearm now g) fun s => { s with attempts := s.attempts + 1 }
      rw [hlaunch, hcurrent]
      rfl
    · rw [htry, Option.any_some]
      simp only [hmine, decide_true, Bool.true_and, Bool.and_eq_true, decide_eq_true_eq]
      omega
  · -- the goal is refused before its step was ever started
    have hzero := href hno _ htry hmine
    have hdone := not_done_of_current hsound hkind hcurrent
    have hst : st.attempts = 0 := by rw [← attempts_of_current hcurrent, hzero]
    have hadvance : policy noTargetPrepare st.attempts = .advance := by
      rw [hst]
      rfl
    obtain ⟨hcycle', hruns', hoff, hle, hnone⟩ := follow_cycle index now hcycle hruns hdone
      hcurrent (r := ⟨false, noTargetPrepare⟩) (by decide)
    have hsame : Same (rearm now g) (follow (rearm now g) st ⟨false, noTargetPrepare⟩ now) :=
        (follow_spec hsound hkind st _).1
    refine ⟨_, ht.next (hmem ?_) hlabels ?_ hcycle' hruns' hoff, ?_⟩
    · rw [ht.id_eq, ht.uid_eq]
      exact ht.last
    · exact (same_rearm now g).trans hsame
    · rw [htry, Option.any_some]
      by_cases htries : (rearm now g).runs = runs ∧ (rearm now g).step = index
      · rw [hnone hadvance htries.2]
        have hfull : left runs index (rearm now g) = maxAttempts := by
          rw [left_of_going htries.1 hdone, if_neg (by omega), if_pos htries.2, hzero, Nat.sub_zero]
        have hone : (if (decide ((rearm now g).uid = uid) && decide ((rearm now g).runs = runs) &&
            decide ((rearm now g).step = index)) = true then 1 else 0) ≤ 1 := by
          split_ifs <;> omega
        have hmax : 1 ≤ maxAttempts := by decide
        omega
      · rw [if_neg]
        · omega
        · simp only [Bool.and_eq_true, decide_eq_true_eq]
          exact fun h => htries ⟨h.1.2, h.2⟩
  · -- another goal is tried, or none
    have hzero : ((triedBy w ctx now).any fun k => k.uid = uid && k.runs = runs && k.step = index) =
        false := by
      cases hx : triedBy w ctx now with
      | none => rfl
      | some x =>
        have hne := htry x hx
        rw [ht.uid_eq] at hne
        rw [Option.any_some, decide_eq_false hne]
        rfl
    simp only [hzero, Bool.false_eq_true, if_false, Nat.zero_add]
    rcases hcases with rfl | rfl | ⟨st, hcurrent, rfl⟩
    · exact ⟨_, ht.next hg' hlabels (.refl _) ht.cycle ht.runs_le hidle, le_refl _⟩
    · exact ⟨_, ht.rearmed hg' hlabels hidle, hleft⟩
    · obtain ⟨hcycle', hruns', hoff, hle, -⟩ := follow_cycle index now hcycle hruns
        (not_done_of_current hsound hkind hcurrent) hcurrent
        (r := ⟨false, noTargetPrepare⟩) (by decide)
      have hsame : Same (rearm now g) (follow (rearm now g) st ⟨false, noTargetPrepare⟩ now) :=
        (follow_spec hsound hkind st _).1
      exact ⟨_, ht.next hg' hlabels ((same_rearm now g).trans hsame) hcycle' hruns' hoff,
        hle.trans hleft⟩

/-- The end of a job. -/
theorem tracked_done (index : ℕ) (hw : Stands w) (ht : Tracked id uid runs w g) {r : JobResult}
    (hcode : r.code ≠ Bytes.lit "INTERRUPTED") (now : ℕ) (larder : FoodCycle.Larder)
    (returning : Bool) :
    ∃ g', Tracked id uid runs (jobDone w r now larder returning) g' ∧
      left runs index g' ≤ left runs index g := by
  have hgoals : Jobs.handles w.task = true → (jobDone w r now larder returning).goals =
      (onResult w w.task r now w.payloadGoal larder).goals := by
    intro hhandles
    unfold jobDone
    rw [if_pos hhandles]
    dsimp only
    split <;> rfl
  by_cases hhandles : Jobs.handles w.task = true
  · have hafter := hgoals hhandles
    rw [goals_onResult] at hafter
    have hsound := hw.settled.sound g ht.mem
    -- a record that is not the result's is as it was, and does not run
    by_cases hs : g.state = .active
    · obtain ⟨-, hpayload, st, hcurrent, htask⟩ := ht.body hs
      rw [hpayload] at hafter
      change _ = Delivery.settle ⟨w.goals, id, w.task, r⟩ now larder at hafter
      have hmem := mem_settle_last (d := ⟨w.goals, id, w.task, r⟩) hw.settled.nodup ht.mem ht.kind
        ht.id_eq (by rw [ht.id_eq, ht.uid_eq]; exact ht.last) (by rw [hs]; nofun) hcurrent
        htask.symm now larder
      have hlabels := labels_settle (d := ⟨w.goals, id, w.task, r⟩) hw.settled.sound now larder
      obtain ⟨hcycle', hruns', hoff, hle, -⟩ := follow_cycle index now ht.cycle
        ht.runs_le (by rw [hs]; nofun) hcurrent hcode
      have hsame : Same g (follow g st r now) := (follow_spec hsound ht.kind st r).1
      refine ⟨_, ht.next ?_ ?_ hsame hcycle' hruns' hoff, hle⟩
      · rw [hafter]
        exact hmem
      · rw [hafter]
        exact hlabels
    · cases hto : (w.payloadGoal <|> w.active) with
      | none =>
        rw [hto] at hafter
        dsimp only at hafter
        refine ⟨g, ht.next (hafter.symm ▸ ht.mem) (by rw [hafter]) (.refl g) ht.cycle ht.runs_le hs,
          le_refl _⟩
      | some goalId =>
        rw [hto] at hafter
        dsimp only at hafter
        have hlabels := labels_settle (d := ⟨w.goals, goalId, w.task, r⟩) hw.settled.sound now
          larder
        rw [← hafter] at hlabels
        rcases mem_settle (d := ⟨w.goals, goalId, w.task, r⟩) hw.settled.nodup ht.mem ht.kind now
          larder with h | ⟨st, hcurrent, -, h⟩
        · exact ⟨g, ht.next (hafter.symm ▸ h) hlabels (.refl g) ht.cycle ht.runs_le hs, le_refl _⟩
        · obtain ⟨hcycle', hruns', hoff, hle, -⟩ := follow_cycle index now ht.cycle ht.runs_le
            (not_done_of_current hsound ht.kind hcurrent) hcurrent
            hcode
          have hsame : Same g (follow g st r now) := (follow_spec hsound ht.kind st r).1
          exact ⟨_, ht.next (hafter.symm ▸ h) hlabels hsame hcycle' hruns' hoff, hle⟩
  · have hsame : jobDone w r now larder returning = w := by
      unfold jobDone
      rw [if_neg hhandles]
    rw [hsame]
    exact ⟨g, ht, le_refl _⟩

/-- **One step spends the tries it makes.** -/
theorem tracked_step (index : ℕ) (hw : Stands w) (ht : Tracked id uid runs w g) {op : Op}
    (hop : Plain op) (href : Unrefused uid w op) :
    ∃ g', Tracked id uid runs (step w op) g' ∧
      (if triesAt uid runs index w op then 1 else 0) + left runs index g' ≤ left runs index g := by
  cases op with
  | tick ctx accepted now larder =>
    obtain ⟨hthreat, hrecalled⟩ := hop
    cases hactive : w.active with
    | some hand =>
      have hnone : triesAt uid runs index w (.tick ctx accepted now larder) = false := by
        unfold triesAt tried triedBy
        rw [hactive]
        rfl
      obtain ⟨g', ht', hle⟩ := tracked_busy index hw ht hactive hthreat hrecalled now
      refine ⟨g', ?_, ?_⟩
      · unfold step tick
        rw [hactive]
        exact ht'
      · rw [hnone, if_neg Bool.false_ne_true, Nat.zero_add]
        exact hle
    | none =>
      obtain ⟨g', ht', hle⟩ := tracked_idle index hw ht hactive ctx accepted now larder
        fun h k => href ctx now larder (h ▸ rfl) k
      refine ⟨g', ?_, hle⟩
      unfold step tick
      rw [hactive]
      exact ht'
  | jobDone r now larder returning =>
    obtain ⟨g', ht', hle⟩ := tracked_done index hw ht hop now larder returning
    have hnone : triesAt uid runs index w (.jobDone r now larder returning) = false := rfl
    refine ⟨g', ht', ?_⟩
    rw [hnone, if_neg Bool.false_ne_true, Nat.zero_add]
    exact hle
  | add name minutes now => exact hop.elim
  | cancel name => exact hop.elim
  | ensureFood near scan now => exact hop.elim
  | order task => exact hop.elim
  | restoreActive => exact hop.elim
  | respawn => exact hop.elim

/-- A step of the system is a run of calls. -/
theorem stands_step (hw : Stands w) (op : Op) : Stands (step w op) := by
  cases op with
  | add name minutes now => exact stands_call hw (.add name minutes now)
  | cancel name => exact stands_call hw (.cancel name)
  | ensureFood near scan now => exact stands_call hw (.ensureFood near scan now)
  | tick ctx accepted now larder => exact stands_call hw (.tick ctx accepted now larder)
  | jobDone r now larder returning =>
    have hresult := stands_call hw (.onResult w.task r now w.payloadGoal larder)
    change Stands (jobDone w r now larder returning)
    unfold jobDone
    split
    · dsimp only
      split
      · exact stands_call hresult (.body .returnToBase none _)
      · exact stands_call hresult (.body .follow none _)
    · exact hw
  | order task => exact stands_call hw (.body task none w.active)
  | restoreActive =>
    change Stands (restoreActive w)
    unfold restoreActive
    split
    · rename_i id hactive hpayload
      split
      · exact stands_call hw (.body w.task w.payloadGoal (some id))
      · exact hw
    · exact hw
  | respawn => exact stands_call hw (.body w.task w.payloadGoal none)

/-- The registry after a history. -/
def history (ops : List Op) : World := Machine.run step World.start ops

theorem stands_history (ops : List Op) : Stands (history ops) := by
  have hstep : ∀ (w : World) (op : Op), Stands w → Stands (step w op) := fun w op hw =>
    stands_step hw op
  exact Machine.invariant hstep stands_start ops

/-- The steps the bound is about. -/
def Uninterrupted (uid : ℕ) (w : World) (op : Op) : Prop := Plain op ∧ Unrefused uid w op

/-- **A run spends what it tries.** -/
theorem tries_le_left (hw : Stands w) (ht : Tracked id uid runs w g) {ops : List Op}
    (hops : Machine.Meets step (Uninterrupted uid) w ops) :
    tries uid runs index w ops ≤ left runs index g := by
  induction ops generalizing w g with
  | nil => exact Nat.zero_le _
  | cons op ops ih =>
    obtain ⟨⟨hop, href⟩, hrest⟩ := hops
    obtain ⟨g', ht', hle⟩ := tracked_step index hw ht hop href
    have htail := ih (stands_step hw op) ht' hrest
    unfold tries
    omega

/-- **Bounded retries.** After any history, a goal at the start of a cycle
that later records share no id with is tried at most three times at each of
its steps in that cycle, however the ticks and the results follow each
other, if it is never refused on a step it has started. -/
theorem tries_le_maxAttempts (ops later : List Op) (g : Goal) (hg : g ∈ (history ops).goals)
    (hfood : g.kind ≠ .restockFood) (hstart : AtCycleStart g)
    (hlast : LastOf (history ops).goals g.id g.uid)
    (hlater : Machine.Meets step (Uninterrupted g.uid) (history ops) later) (index : ℕ) :
    tries g.uid g.runs index (history ops) later ≤ maxAttempts := by
  have htracked : Tracked g.id g.uid g.runs (history ops) g := by
    refine ⟨hg, rfl, rfl, hfood, hlast, inCycle_of_start hstart, le_refl _, fun hs => ?_⟩
    rcases hstart with h | ⟨h, -⟩ <;> rw [h] at hs <;> cases hs
  exact (tries_le_left (stands_history ops) htracked hlater).trans (left_le _ _ _)

/-! ## A nail stock that is blocked -/

def nailsAdded : List Op := [.add (Bytes.lit "nails") 0 0]

def attempt (accepted : Bool) (now : ℕ) : Op := .tick atRest accepted now noLarder

def blocked (now : ℕ) : Op := .jobDone ⟨false, Bytes.lit "BLOCKED"⟩ now noLarder false

theorem nailsAtStart : nails ∈ (history nailsAdded).goals ∧ nails.kind ≠ .restockFood ∧
    AtCycleStart nails ∧ LastOf (history nailsAdded).goals nails.id nails.uid := by
  refine ⟨by decide, by decide, Or.inr ⟨rfl, rfl, by decide⟩, ?_⟩
  unfold LastOf
  decide

theorem plain_attempt (accepted : Bool) (now : ℕ) : Plain (attempt accepted now) := ⟨rfl, rfl⟩

theorem plain_blocked (now : ℕ) : Plain (blocked now) := by
  have hne : Bytes.lit "BLOCKED" ≠ Bytes.lit "INTERRUPTED" := by decide
  exact hne

theorem uninterrupted_attempt (uid now : ℕ) (w : World) :
    Uninterrupted uid w (attempt true now) :=
  ⟨plain_attempt true now, fun _ _ _ h => by cases h⟩

theorem uninterrupted_blocked (uid now : ℕ) (w : World) : Uninterrupted uid w (blocked now) :=
  ⟨plain_blocked now, fun _ _ _ h => by cases h⟩

/-- Blocked three times, the goal fails. -/
theorem tries_le_maxAttempts_blocked :
    tries nails.uid nails.runs 1 (history nailsAdded) [attempt true 0, blocked 0,
      attempt true 120000, blocked 120000, attempt true 240000, blocked 240000,
      attempt true 360000] ≤ maxAttempts := by
  obtain ⟨hmem, hfood, hstart, hlast⟩ := nailsAtStart
  refine tries_le_maxAttempts nailsAdded _ nails hmem hfood hstart hlast ?_ 1
  exact ⟨uninterrupted_attempt _ _ _, uninterrupted_blocked _ _ _, uninterrupted_attempt _ _ _,
    uninterrupted_blocked _ _ _, uninterrupted_attempt _ _ _, uninterrupted_blocked _ _ _,
    uninterrupted_attempt _ _ _, trivial⟩

/-- **The refusals of a started step are not counted.** It was started
once and is tried a fourth time. -/
theorem refusals_not_counted :
    (nails ∈ (history nailsAdded).goals ∧ nails.kind ≠ .restockFood ∧ AtCycleStart nails ∧
      LastOf (history nailsAdded).goals nails.id nails.uid) ∧
    Machine.Meets step (fun _ op => Plain op) (history nailsAdded) [attempt true 0, blocked 0,
      attempt false 120000, attempt false 240000, attempt false 360000] ∧
    maxAttempts < tries nails.uid nails.runs 1 (history nailsAdded) [attempt true 0, blocked 0,
      attempt false 120000, attempt false 240000, attempt false 360000] := by
  refine ⟨nailsAtStart, ⟨plain_attempt _ _, plain_blocked _, plain_attempt _ _,
    plain_attempt _ _, plain_attempt _ _, trivial⟩, ?_⟩
  decide

end Goals

end GoblinZomboid
