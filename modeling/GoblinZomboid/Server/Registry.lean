import GoblinZomboid.Server.Cancelled
/-!
# The goal registry

Any calls of the goal module, from a body in any condition, keep a
registry within its bounds as long as no new goal meets a maintenance goal
between two rounds, or a full registry with one, and no late result brings
a failed goal back beside another of its kind.
-/

namespace GoblinZomboid

namespace Goals

/-! ## Calls -/

/-- A call of the module for one owner, or anything that changes the body:
its task, the goal id of its payload, `GoblinGoalActive`. -/
inductive Call
  | add (name : Bytes) (minutes : ℚ) (now : ℕ)
  | cancel (name : Bytes)
  | ensureFood (near : Bool) (scan : FoodCycle.Scan) (now : ℕ)
  | tick (ctx : Context) (accepted : Bool) (now : ℕ) (larder : FoodCycle.Larder)
  | onResult (task : Task) (r : JobResult) (now : ℕ) (goalId : Option Bytes)
      (larder : FoodCycle.Larder)
  | body (task : Task) (payloadGoal active : Option Bytes)

def call (w : World) : Call → World
  | .add name minutes now => (add w name minutes now).2.2
  | .cancel name => cancel w name
  | .ensureFood near scan now => ensureFood w near scan now
  | .tick ctx accepted now larder => tick w ctx accepted now larder
  | .onResult task r now goalId larder => onResult w task r now goalId larder
  | .body task payloadGoal active =>
    { w with task := task, payloadGoal := payloadGoal, active := active }

/-! ## What a registry promises -/

/-- A goal that recurs until it is cancelled. -/
def Goal.recurring (g : Goal) : Bool := 0 < g.intervalMs && g.state ≠ .cancelled

/-- A goal that goes on: not finished, or recurring. -/
def Goal.live (g : Goal) : Bool := !g.finished || g.recurring

/-- **The bounds of a registry**: eight records, one food goal, one live
goal of a kind. -/
structure Bounded (goals : List Goal) : Prop where
  length : goals.length ≤ maxGoals
  food : goals.Pairwise fun g g' => ¬ (g.kind = .restockFood ∧ g'.kind = .restockFood)
  live : goals.Pairwise fun g g' => ¬ (g.kind = g'.kind ∧ g.live = true ∧ g'.live = true)

/-- No recurring goal is discarded. -/
def Keeps (goals goals' : List Goal) : Prop :=
  ∀ g ∈ goals, g.recurring = true → ∃ g' ∈ goals', g'.uid = g.uid

/-! ## The calls that keep it -/

/-- The kind of the record a call of `Goals.add` appends. -/
def added (w : World) (name : Bytes) (minutes : ℚ) : Option Kind :=
  match normalize name, intervalOf minutes with
  | some k, some _ => if (inTheWay k w.goals).isSome then none else some k
  | _, _ => none

/-- The kind of the record a call appends. -/
def appends (w : World) : Call → Option Kind
  | .add name minutes _ => added w name minutes
  | .ensureFood near scan _ => if near && !stocked scan then added w (Bytes.lit "food") 0 else none
  | _ => none

/-- A new goal of the kind meets no goal that recurs and rests: none of its
own kind, and none at all where the registry is full. -/
def Vacant (goals : List Goal) (k : Kind) : Prop :=
  ∀ g ∈ goals, g.finished = true → g.recurring = true →
    g.kind ≠ k ∧ goals.length < maxGoals

/-- A result of `Goals.onResult`. -/
structure Delivery where
  goals : List Goal
  id : Bytes
  task : Task
  result : JobResult

/-- The result a tick hands over when a step is refused. -/
def refusal (w : World) (ctx : Context) (accepted : Bool) (now : ℕ) : Option Delivery :=
  if w.active.isSome || !ctx.idle || ctx.threat || w.task ≠ .follow || accepted then none
  else
    match select { w with goals := w.goals.map (reconcile now) } now with
    | (none, _) => none
    | (some g, w') =>
      if g.kind = .restockFood then none
      else g.current.map fun step => ⟨w'.goals, g.id, step.task, ⟨false, noTargetPrepare⟩⟩

/-- The result a call hands over. -/
def delivery (w : World) : Call → Option Delivery
  | .onResult task r _ goalId _ => (goalId <|> w.active).map fun id => ⟨w.goals, id, task, r⟩
  | .tick ctx accepted now _ => refusal w ctx accepted now
  | _ => none

/-- The policy for a code lets the goal go on. -/
def goesOn (g : Goal) (step : Step) (code : Bytes) : Bool :=
  match policy code step.attempts with
  | .advance | .skip => ({ g with step := g.step + 1 } : Goal).current.isSome
  | .resume => true
  | .retry | .retryLong => step.attempts < maxAttempts
  | .fail => false

/-- The result brings no failed goal back beside a live one of its kind. -/
def Delivery.Timely (d : Delivery) : Prop :=
  ∀ g step, resultGoal d.goals d.id d.task = some (g, step) → g.kind ≠ .restockFood →
    g.state = .failed → g.live = false → goesOn g step d.result.code = true →
    ∀ g' ∈ d.goals, g'.uid ≠ g.uid → g'.kind = g.kind → g'.live = false

/-- **A tame call**: its new goal finds a vacant place, its result a goal
that has not failed. -/
def Tame (w : World) (c : Call) : Prop :=
  (∀ k, appends w c = some k → Vacant w.goals k) ∧ ∀ d, delivery w c = some d → d.Timely

/-! ## Changes in place -/

variable {w : World} {goals : List Goal} {g g' : Goal} {now : ℕ}

theorem live_of_not_finished (h : g.finished = false) : g.live = true := by
  simp [Goal.live, h]

theorem Live.live (h : Live g) : g.live = true := by
  refine live_of_not_finished ?_
  rcases h with h | h | h <;> simp [Goal.finished, h]

/-- A change that makes no goal live, except for the food goal. -/
def Calm (g g' : Goal) : Prop :=
  g'.kind = g.kind ∧ (g.kind = .restockFood ∨ (g'.live = true → g.live = true))

theorem Calm.refl (g : Goal) : Calm g g := ⟨rfl, Or.inr id⟩

/-- **Calm changes keep the bounds.** -/
theorem Bounded.map (h : Bounded goals) {f : Goal → Goal} (hf : ∀ g ∈ goals, Calm g (f g)) :
    Bounded (goals.map f) := by
  refine ⟨by rw [List.length_map]; exact h.length, ?_, ?_⟩
  · refine List.pairwise_map.2 (h.food.imp_of_mem ?_)
    rintro a b ha hb hab ⟨hfa, hfb⟩
    exact hab ⟨(hf a ha).1 ▸ hfa, (hf b hb).1 ▸ hfb⟩
  · refine List.pairwise_map.2 ((h.food.and h.live).imp_of_mem ?_)
    rintro a b ha hb ⟨hfood, hlive⟩ ⟨hkind, hla, hlb⟩
    rw [(hf a ha).1, (hf b hb).1] at hkind
    rcases (hf a ha).2 with hka | hca
    · exact hfood ⟨hka, hkind ▸ hka⟩
    · rcases (hf b hb).2 with hkb | hcb
      · exact hfood ⟨hkind.trans hkb, hkb⟩
      · exact hlive ⟨hkind, hca hla, hcb hlb⟩

/-- One record changes. -/
theorem Bounded.update (h : Bounded goals) {u : ℕ} {f : Goal → Goal}
    (hf : ∀ g ∈ goals, g.uid = u → Calm g (f g)) : Bounded (Goals.update goals u f) := by
  refine h.map fun x hx => ?_
  by_cases hu : x.uid = u
  · rw [if_pos hu]
    exact hf x hx hu
  · rw [if_neg hu]
    exact .refl x

/-- One record becomes live, and no other of its kind is. -/
theorem Bounded.revive (h : Bounded goals) (hnodup : (goals.map Goal.uid).Nodup) {u : ℕ}
    {f : Goal → Goal} (hf : ∀ g ∈ goals, g.uid = u → (f g).kind = g.kind)
    (hother : ∀ g ∈ goals, g.uid = u →
      ∀ g' ∈ goals, g'.uid ≠ u → g'.kind = g.kind → g'.live = false) :
    Bounded (Goals.update goals u f) := by
  have hkind : ∀ x ∈ goals, (if x.uid = u then f x else x).kind = x.kind := by
    intro x hx
    by_cases hu : x.uid = u
    · rw [if_pos hu]
      exact hf x hx hu
    · rw [if_neg hu]
  have hapart : goals.Pairwise fun a b => a.uid ≠ b.uid := List.pairwise_map.1 hnodup
  refine ⟨?_, ?_, ?_⟩
  · rw [Goals.update, List.length_map]
    exact h.length
  · refine List.pairwise_map.2 (h.food.imp_of_mem ?_)
    rintro a b ha hb hab ⟨hfa, hfb⟩
    exact hab ⟨hkind a ha ▸ hfa, hkind b hb ▸ hfb⟩
  · refine List.pairwise_map.2 ((hapart.and h.live).imp_of_mem ?_)
    rintro a b ha hb ⟨hne, hlive⟩ ⟨hk, hla, hlb⟩
    rw [hkind a ha, hkind b hb] at hk
    by_cases hau : a.uid = u
    · have hbu : b.uid ≠ u := fun hbu => hne (hau.trans hbu.symm)
      rw [if_neg hbu, hother a ha hau b hb hbu hk.symm] at hlb
      exact Bool.false_ne_true hlb
    · rw [if_neg hau] at hla
      by_cases hbu : b.uid = u
      · rw [hother b hb hbu a ha hau hk] at hla
        exact Bool.false_ne_true hla
      · rw [if_neg hbu] at hlb
        exact hlive ⟨hk, hla, hlb⟩

/-- A goal that was live may become anything of its kind. -/
theorem calm_of_live (h : g.live = true) (hkind : g'.kind = g.kind) : Calm g g' :=
  ⟨hkind, Or.inr fun _ => h⟩

theorem calm_food (h : g.kind = .restockFood) (hkind : g'.kind = g.kind) : Calm g g' :=
  ⟨hkind, Or.inl h⟩

theorem calm_rearm (g : Goal) : Calm g (rearm now g) := by
  unfold rearm
  split
  · rename_i hdue
    simp only [Bool.and_eq_true, decide_eq_true_eq] at hdue
    exact calm_of_live (by simp [Goal.live, Goal.recurring, hdue.1.1, hdue.1.2]) rfl
  · exact .refl g

theorem calm_reconcile (g : Goal) : Calm g (reconcile now g) := by
  unfold reconcile
  split
  · rename_i hactive
    exact ⟨rfl, Or.inr fun _ => Live.live (Or.inr (Or.inl hactive))⟩
  · exact .refl g

theorem calm_cancelled (scope : Option Kind) (g : Goal) : Calm g (cancelled scope g) := by
  unfold cancelled
  split
  · rename_i hcond
    simp only [Bool.and_eq_true, Bool.not_eq_true'] at hcond
    exact ⟨rfl, Or.inr fun _ => live_of_not_finished hcond.2⟩
  · exact .refl g

theorem bounded_select (h : Bounded w.goals) (now : ℕ) : Bounded (select w now).2.goals :=
  h.map fun g _ => calm_rearm g

/-- The policy tells whether a goal of one round goes on. -/
theorem live_follow_iff (hinterval : g.intervalMs = 0) (step : Step) (r : JobResult)
    (now : ℕ) : (follow g step r now).live = true ↔ goesOn g step r.code = true := by
  have hlive : ∀ g : Goal, g.intervalMs = 0 → (g.live = true ↔ g.finished = false) := by
    intro g hg
    simp [Goal.live, Goal.recurring, hg]
  have hkeep : (follow g step r now).intervalMs = 0 := by
    unfold follow Goal.mapCurrent
    dsimp only
    split
    all_goals first | exact hinterval | (split <;> exact hinterval)
  rw [hlive _ hkeep]
  unfold follow goesOn
  dsimp only
  cases policy r.code step.attempts with
  | advance =>
    dsimp only
    split
    · rename_i hnone
      have hnone : ({ g with step := g.step + 1 } : Goal).current = none := hnone
      simp [Goal.finished, hnone]
    · rename_i hsome
      have hsome : ({ g with step := g.step + 1 } : Goal).current ≠ none := hsome
      simp [Goal.finished, Option.isSome_iff_ne_none, hsome]
  | skip =>
    dsimp only
    split
    · rename_i hnone
      have hnone : ({ g with step := g.step + 1 } : Goal).current = none := hnone
      simp [Goal.finished, hnone]
    · rename_i hsome
      have hsome : ({ g with step := g.step + 1 } : Goal).current ≠ none := hsome
      simp [Goal.finished, Option.isSome_iff_ne_none, hsome]
  | resume => simp [Goal.finished]
  | retry =>
    dsimp only
    split
    · simp [Goal.finished]
      omega
    · simp [Goal.finished]
      omega
  | retryLong =>
    dsimp only
    split
    · simp [Goal.finished]
      omega
    · simp [Goal.finished]
      omega
  | fail => simp [Goal.finished]

/-! ## Results -/

/-- Two records of a kind are not both live. -/
theorem Bounded.one_live (h : Bounded goals) (hg : g ∈ goals) (hg' : g' ∈ goals) (hne : g ≠ g') :
    ¬ (g.kind = g'.kind ∧ g.live = true ∧ g'.live = true) := by
  have hsymm : Std.Symm fun a b : Goal => ¬ (a.kind = b.kind ∧ a.live = true ∧ b.live = true) :=
    ⟨fun a b hab hba => hab ⟨hba.1.symm, hba.2.2, hba.2.1⟩⟩
  exact h.live.forall hg hg' hne

theorem mem_of_resultGoal {id : Bytes} {task : Task} {st : Step}
    (h : resultGoal goals id task = some (g, st)) :
    g ∈ goals ∧ g.id = id ∧ g.state ≠ .cancelled ∧ g.current = some st ∧ st.task = task := by
  unfold resultGoal at h
  cases hfind : goals.reverse.find? fun g => g.id = id with
  | none =>
    rw [hfind] at h
    cases h
  | some x =>
    rw [hfind] at h
    dsimp only at h
    have hid : x.id = id := by simpa using List.find?_some hfind
    have hmem : x ∈ goals := List.mem_reverse.1 (List.mem_of_find?_eq_some hfind)
    split_ifs at h with hstate
    cases hcurrent : x.current with
    | none =>
      rw [hcurrent] at h
      cases h
    | some st' =>
      rw [hcurrent] at h
      dsimp only at h
      split_ifs at h with htask
      cases h
      exact ⟨hmem, hid, hstate, hcurrent, htask⟩

/-- The records a delivery leaves. -/
def Delivery.settle (d : Delivery) (now : ℕ) (larder : FoodCycle.Larder) : List Goal :=
  match resultGoal d.goals d.id d.task with
  | none => d.goals
  | some (g, step) =>
    Goals.update d.goals g.uid fun g =>
      if g.kind = .restockFood then FoodCycle.onResult g d.task d.result larder now
      else follow g step d.result now

theorem goals_onResult (w : World) (task : Task) (r : JobResult) (now : ℕ)
    (goalId : Option Bytes) (larder : FoodCycle.Larder) :
    (onResult w task r now goalId larder).goals =
      match goalId <|> w.active with
      | none => w.goals
      | some id => Delivery.settle ⟨w.goals, id, task, r⟩ now larder := by
  unfold onResult Delivery.settle
  cases goalId <|> w.active with
  | none => rfl
  | some id =>
    dsimp only
    cases resultGoal w.goals id task with
    | none => rfl
    | some x => rfl

/-- Records that keep their tables, and their bounds. -/
structure Fine (goals goals' : List Goal) : Prop where
  uids : goals'.map Goal.uid = goals.map Goal.uid
  bounded : Bounded goals → Bounded goals'

theorem Fine.refl (goals : List Goal) : Fine goals goals := ⟨rfl, id⟩

theorem Fine.trans {goals₁ goals₂ goals₃ : List Goal} (h : Fine goals₁ goals₂)
    (h' : Fine goals₂ goals₃) : Fine goals₁ goals₃ :=
  ⟨h'.uids.trans h.uids, fun hb => h'.bounded (h.bounded hb)⟩

theorem uids_update (goals : List Goal) (u : ℕ) {f : Goal → Goal}
    (hf : ∀ g ∈ goals, g.uid = u → (f g).uid = g.uid) :
    (Goals.update goals u f).map Goal.uid = goals.map Goal.uid := by
  rw [Goals.update, List.map_map]
  refine List.map_congr_left fun g hg => ?_
  dsimp only [Function.comp]
  split
  · exact hf g hg ‹_›
  · rfl

theorem Fine.map {f : Goal → Goal} (hf : ∀ g ∈ goals, (f g).uid = g.uid ∧ Calm g (f g)) :
    Fine goals (goals.map f) := by
  refine ⟨?_, fun hb => hb.map fun g hg => (hf g hg).2⟩
  rw [List.map_map]
  exact List.map_congr_left fun g hg => (hf g hg).1

/-- The one record of a table changes. -/
theorem Fine.update (hn : (goals.map Goal.uid).Nodup) (hg : g ∈ goals) {u : ℕ} (hu : g.uid = u)
    {f : Goal → Goal} (huid : (f g).uid = g.uid) (hcalm : Calm g (f g)) :
    Fine goals (Goals.update goals u f) := by
  have hone : ∀ x ∈ goals, x.uid = u → x = g := fun x hx hxu =>
    List.inj_on_of_nodup_map hn hx hg (hxu.trans hu.symm)
  refine ⟨uids_update goals u fun x hx hxu => ?_, fun hb => hb.update fun x hx hxu => ?_⟩
  · rw [hone x hx hxu]
    exact huid
  · rw [hone x hx hxu]
    exact hcalm

/-- **What a result does to the bounds.** -/
theorem bounded_settle_iff {d : Delivery} (hn : (d.goals.map Goal.uid).Nodup)
    (hsound : ∀ g ∈ d.goals, Sound g) (hb : Bounded d.goals) (now : ℕ)
    (larder : FoodCycle.Larder) : Bounded (d.settle now larder) ↔ d.Timely := by
  unfold Delivery.settle Delivery.Timely
  cases hres : resultGoal d.goals d.id d.task with
  | none => simp [hb]
  | some x =>
    obtain ⟨g, st⟩ := x
    obtain ⟨hg, -, hcancelled, hcurrent, -⟩ := mem_of_resultGoal hres
    dsimp only
    by_cases hfood : g.kind = .restockFood
    · have hcalm : Calm g (FoodCycle.onResult g d.task d.result larder now) :=
        calm_food hfood (foodResult_spec (hsound g hg) hfood d.task d.result larder).1.kind
      constructor
      · rintro - g' st' heq hno
        cases heq
        exact absurd hfood hno
      · intro _
        refine (Fine.update hn hg rfl ?_ ?_).bounded hb
        · rw [if_pos hfood]
          exact (foodResult_spec (hsound g hg) hfood d.task d.result larder).1.uid
        · rwa [if_pos hfood]
    · have hspec : Same g (follow g st d.result now) ∧ Sound (follow g st d.result now) :=
        follow_spec (hsound g hg) hfood st d.result
      constructor
      · rintro hafter g' st' heq - hfailed hdead hgo other hother hne hkind
        cases heq
        have hinterval : g.intervalMs = 0 := by
          simpa [Goal.live, Goal.recurring, Goal.finished, hfailed] using hdead
        have hlive := (live_follow_iff hinterval st d.result now).2 hgo
        by_contra hno
        rw [Bool.not_eq_false] at hno
        have hmem : follow g st d.result now ∈ Goals.update d.goals g.uid fun g =>
            if g.kind = .restockFood then FoodCycle.onResult g d.task d.result larder now
            else follow g st d.result now :=
          List.mem_map.2 ⟨g, hg, by rw [if_pos rfl]; exact if_neg hfood⟩
        have hmem' : other ∈ Goals.update d.goals g.uid fun g =>
            if g.kind = .restockFood then FoodCycle.onResult g d.task d.result larder now
            else follow g st d.result now :=
          List.mem_map.2 ⟨other, hother, by rw [if_neg hne]⟩
        refine hafter.one_live hmem hmem' ?_ ⟨hspec.1.kind.trans hkind.symm, hlive, hno⟩
        intro heq
        exact hne (heq ▸ hspec.1.uid)
      · intro htimely
        have hf : ∀ x ∈ d.goals, x.uid = g.uid → x = g := fun x hx hxu =>
          List.inj_on_of_nodup_map hn hx hg hxu
        by_cases hquiet : (follow g st d.result now).live = true → g.live = true
        · refine (Fine.update hn hg rfl ?_ ?_).bounded hb
          · rw [if_neg hfood]
            exact hspec.1.uid
          · rw [if_neg hfood]
            exact ⟨hspec.1.kind, Or.inr hquiet⟩
        · -- the goal had failed, and goes on
          push Not at hquiet
          obtain ⟨hlive, hdead⟩ := hquiet
          rw [ne_eq, Bool.not_eq_true] at hdead
          have hfailed : g.state = .failed := by
            cases hs : g.state with
            | failed => rfl
            | done =>
              rw [(hsound g hg).done hfood hs] at hcurrent
              cases hcurrent
            | cancelled => exact absurd hs hcancelled
            | _ => simp [Goal.live, Goal.finished, hs] at hdead
          have hinterval : g.intervalMs = 0 := by
            simpa [Goal.live, Goal.recurring, Goal.finished, hfailed] using hdead
          have hgo := (live_follow_iff hinterval st d.result now).1 hlive
          refine hb.revive hn ?_ ?_
          · intro x hx hxu
            rw [hf x hx hxu, if_neg hfood]
            exact hspec.1.kind
          · intro x hx hxu other hother hne hkind
            rw [hf x hx hxu] at hkind
            exact htimely g st rfl hfood hfailed hdead hgo other hother hne hkind

/-! ## New goals -/

theorem Keeps.refl (goals : List Goal) : Keeps goals goals := fun g hg _ => ⟨g, hg, rfl⟩

theorem keeps_of_uids {goals' : List Goal} (h : goals'.map Goal.uid = goals.map Goal.uid) :
    Keeps goals goals' := by
  intro g hg _
  have hmem : g.uid ∈ goals'.map Goal.uid := h ▸ List.mem_map_of_mem hg
  obtain ⟨g', hg', huid⟩ := List.mem_map.1 hmem
  exact ⟨g', hg', huid⟩

theorem room_sublist (goals : List Goal) : (room goals).Sublist goals := by
  unfold room
  split
  · exact List.filter_sublist
  · exact List.Sublist.refl _

theorem room_of_lt (h : goals.length < maxGoals) : room goals = goals := by
  unfold room
  rw [if_neg (by omega)]

theorem mem_room_of_not_finished (hg : g ∈ goals) (h : g.finished = false) : g ∈ room goals := by
  unfold room
  split
  · exact List.mem_filter.2 ⟨hg, by simp [h]⟩
  · exact hg

/-- What is in the way of a kind, when nothing is. -/
theorem finished_of_inTheWay {k : Kind} (h : inTheWay k goals = none) (hg : g ∈ goals)
    (hkind : g.kind = k) : g.finished = true ∧ k ≠ .restockFood := by
  have hno := List.find?_eq_none.1 h g hg
  simp only [Bool.and_eq_true, Bool.or_eq_true, decide_eq_true_eq, Bool.not_eq_true', not_and,
    not_or, Bool.not_eq_false] at hno
  exact hno hkind

/-- **A new record keeps the bounds and discards nothing that recurs** if
and only if it finds a vacant place. -/
theorem append_iff (hw : Settled .trivial w) (hb : Bounded w.goals) {k : Kind}
    (hway : inTheWay k w.goals = none) (hroom : (room w.goals).length < maxGoals)
    (interval now : ℕ) :
    (Bounded (room w.goals ++ [newGoal w.nextUid k interval now]) ∧
      Keeps w.goals (room w.goals ++ [newGoal w.nextUid k interval now])) ↔ Vacant w.goals k := by
  have hnew : ∀ g ∈ w.goals, g.uid ≠ (newGoal w.nextUid k interval now).uid :=
    fun g hg h => (hw.lt g hg).ne h
  have hsub := room_sublist w.goals
  constructor
  · rintro ⟨hafter, hkeeps⟩ g hg hfinished hrecurring
    obtain ⟨g', hg', huid⟩ := hkeeps g hg hrecurring
    have hkept : g ∈ room w.goals := by
      rcases List.mem_append.1 hg' with hg' | hg'
      · exact hw.eq_of_uid hg (hsub.subset hg') huid ▸ hg'
      · rw [List.mem_singleton] at hg'
        exact absurd (hg' ▸ huid.symm) (hnew g hg)
    constructor
    · intro hkind
      refine hafter.one_live (List.mem_append_left _ hkept)
        (List.mem_append_right _ (List.mem_singleton_self _)) ?_
        ⟨hkind, by simp [Goal.live, hrecurring], Live.live (Or.inl rfl)⟩
      intro heq
      exact hnew g hg (congrArg Goal.uid heq)
    · by_contra hfull
      have hfilter : room w.goals = w.goals.filter fun g => !g.finished := if_pos (by omega)
      rw [hfilter, List.mem_filter, hfinished] at hkept
      exact absurd hkept.2 (by decide)
  · intro hvacant
    constructor
    · have hlength : (room w.goals ++ [newGoal w.nextUid k interval now]).length ≤ maxGoals := by
        rw [List.length_append, List.length_singleton]
        omega
      refine ⟨hlength, ?_, ?_⟩
      · refine List.pairwise_append.2 ⟨hb.food.sublist hsub, List.pairwise_singleton _ _, ?_⟩
        intro a ha b hfood
        rintro ⟨hka, hkb⟩
        rw [List.mem_singleton.1 hfood] at hkb
        have hkb : k = .restockFood := hkb
        exact (finished_of_inTheWay hway (hsub.subset ha) (hka.trans hkb.symm)).2 hkb
      · refine List.pairwise_append.2 ⟨hb.live.sublist hsub, List.pairwise_singleton _ _, ?_⟩
        intro a ha b hb'
        rintro ⟨hkind, hlive, -⟩
        rw [List.mem_singleton.1 hb'] at hkind
        have hkind : a.kind = k := hkind
        have hfinished := (finished_of_inTheWay hway (hsub.subset ha) hkind).1
        have hrecurring : a.recurring = true := by
          simpa [Goal.live, hfinished] using hlive
        exact (hvacant a (hsub.subset ha) hfinished hrecurring).1 hkind
    · intro g hg hrecurring
      refine ⟨g, List.mem_append_left _ ?_, rfl⟩
      by_cases hfinished : g.finished = true
      · rw [room_of_lt (hvacant g hg hfinished hrecurring).2]
        exact hg
      · exact mem_room_of_not_finished hg (by simpa using hfinished)

/-- A registry that stays full holds no finished goal. -/
theorem vacant_of_full (hb : Bounded w.goals) (h : maxGoals ≤ (room w.goals).length) (k : Kind) :
    Vacant w.goals k := by
  intro g hg hfinished
  have hlength := hb.length
  have hle := (room_sublist w.goals).length_le
  have heq : room w.goals = w.goals := (room_sublist w.goals).eq_of_length (by omega)
  have hfilter : room w.goals = w.goals.filter fun g => !g.finished := if_pos (by omega)
  rw [← heq, hfilter, List.mem_filter, hfinished] at hg
  exact absurd hg.2 (by decide)

/-- **What `Goals.add` does to the bounds.** -/
theorem add_iff (hw : Settled .trivial w) (hb : Bounded w.goals) (name : Bytes) (minutes : ℚ)
    (now : ℕ) :
    (Bounded (add w name minutes now).2.2.goals ∧
      Keeps w.goals (add w name minutes now).2.2.goals) ↔
      ∀ k, added w name minutes = some k → Vacant w.goals k := by
  have hsame : (Bounded w.goals ∧ Keeps w.goals w.goals) ↔
      ∀ k, (none : Option Kind) = some k → Vacant w.goals k :=
    ⟨fun _ => nofun, fun _ => ⟨hb, .refl w.goals⟩⟩
  unfold add added
  cases normalize name with
  | none => exact hsame
  | some k =>
    cases intervalOf minutes with
    | none => exact hsame
    | some interval =>
      dsimp only
      cases hway : inTheWay k w.goals with
      | some g =>
        have hg : g ∈ w.goals := List.mem_of_find?_eq_some hway
        have hfound := List.find?_some hway
        simp only [Bool.and_eq_true, Bool.or_eq_true, decide_eq_true_eq,
          Bool.not_eq_true'] at hfound
        rw [Option.isSome_some, if_pos rfl]
        refine ⟨fun _ => nofun, fun _ => ?_⟩
        dsimp only
        by_cases hfinished : g.finished = true
        · have hfood : g.kind = .restockFood := by
            rcases hfound.2 with h | h
            · exact absurd hfinished (by simp [h])
            · exact hfound.1.trans h
          rw [if_pos hfinished]
          have hfine := Fine.update hw.nodup hg rfl (f := fun g => reenable g interval) rfl
            (calm_food hfood rfl)
          exact ⟨hfine.bounded hb, keeps_of_uids hfine.uids⟩
        · rw [if_neg hfinished]
          have hlive := live_of_not_finished (by simpa using hfinished)
          have hfine := Fine.update hw.nodup hg rfl (f := fun g => repeatUpdated g interval) rfl
            (calm_of_live hlive rfl)
          exact ⟨hfine.bounded hb, keeps_of_uids hfine.uids⟩
      | none =>
        have hadded : (if (none : Option Goal).isSome = true then none else some k) = some k := rfl
        rw [hadded]
        have hgoal : (∀ k', some k = some k' → Vacant w.goals k') ↔ Vacant w.goals k :=
          ⟨fun h => h k rfl, fun h k' heq => Option.some_inj.1 heq ▸ h⟩
        rw [hgoal]
        dsimp only
        by_cases hfull : maxGoals ≤ (room w.goals).length
        · rw [if_pos hfull]
          exact ⟨fun _ => vacant_of_full hb hfull k, fun _ => ⟨hb, .refl w.goals⟩⟩
        · rw [if_neg hfull]
          exact append_iff hw hb hway (by omega) interval now

/-! ## Ticks -/

theorem live_of_ready (h : ready now g = true) : g.live = true := by
  simp only [ready, Bool.and_eq_true, Bool.or_eq_true, decide_eq_true_eq] at h
  exact Live.live (h.1.imp id Or.inr)

theorem fine_select (w : World) (now : ℕ) : Fine w.goals (select w now).2.goals := by
  refine Fine.map fun g _ => ⟨?_, calm_rearm g⟩
  unfold rearm
  split <;> rfl

theorem fine_tickActive (hw : Settled .trivial w) (id : Bytes) (ctx : Context) (now : ℕ) :
    Fine w.goals (tickActive w id ctx now).goals := by
  simp only [tickActive]
  split
  · split
    · exact .refl w.goals
    · exact .refl w.goals
  · rename_i g hfind
    have hg : g ∈ w.goals := List.mem_of_find?_eq_some hfind
    have hactive : g.state = .active := by
      have hfound := List.find?_some hfind
      simp only [Bool.and_eq_true, decide_eq_true_eq] at hfound
      exact hfound.2
    have hlive : g.live = true := Live.live (Or.inr (Or.inl hactive))
    split
    · exact Fine.update hw.nodup hg rfl (f := fun g => { g with state := .waiting, nextAt := now })
        rfl (calm_of_live hlive rfl)
    · have hsel : Fine w.goals
          (if g.kind = .restockFood then select w now else (none, w)).2.goals ∧
            g ∈ (if g.kind = .restockFood then select w now else (none, w)).2.goals := by
        split
        · have hsame : rearm now g = g := by
            unfold rearm
            rw [if_neg (by simp [hactive])]
          exact ⟨fine_select w now, hsame ▸ List.mem_map_of_mem hg⟩
        · exact ⟨.refl w.goals, hg⟩
      generalize (if g.kind = .restockFood then select w now else (none, w)) = sel at hsel ⊢
      obtain ⟨hfine, hg'⟩ := hsel
      split
      · have hn : (sel.2.goals.map Goal.uid).Nodup := hfine.uids ▸ hw.nodup
        have hsame := same_mapCurrent g fun s => { s with attempts := s.attempts - 1 }
        exact hfine.trans (Fine.update hn hg' rfl (f := fun g => interrupt g ctx now) hsame.uid
          (calm_of_live hlive hsame.kind))
      · exact hfine

/-- A goal whose id is that of the food goal is a food goal. -/
theorem kind_of_id (hg : Sound g) (hg' : Sound g') (h : g'.id = g.id) : g'.kind = g.kind := by
  rw [hg.id_eq, hg'.id_eq] at h
  exact goalId_injective h

theorem uids_settle {d : Delivery} (hsound : ∀ g ∈ d.goals, Sound g) (now : ℕ)
    (larder : FoodCycle.Larder) :
    (d.settle now larder).map Goal.uid = d.goals.map Goal.uid := by
  unfold Delivery.settle
  cases hres : resultGoal d.goals d.id d.task with
  | none => rfl
  | some x =>
    obtain ⟨g, st⟩ := x
    obtain ⟨hg, -, -, -, -⟩ := mem_of_resultGoal hres
    refine uids_update d.goals g.uid fun x hx hxu => ?_
    split
    · exact (foodResult_spec (hsound x hx) ‹_› d.task d.result larder).1.uid
    · exact (follow_spec (hsound x hx) ‹_› st d.result).1.uid

/-- A result for the food goal keeps the bounds. -/
theorem timely_food {d : Delivery} (hsound : ∀ g ∈ d.goals, Sound g) (hg : Sound g)
    (hid : d.id = g.id) (hfood : g.kind = .restockFood) : d.Timely := by
  intro x st hres hno
  obtain ⟨hx, hxid, -, -, -⟩ := mem_of_resultGoal hres
  exact absurd ((kind_of_id hg (hsound x hx) (hxid.trans hid)).trans hfood) hno

/-- A step that `setTask` accepts. -/
theorem fine_start (hn : (w.goals.map Goal.uid).Nodup) (hg : g ∈ w.goals)
    (hlive : g.live = true) {g₀ : Goal} (huid : g.uid = g₀.uid) (task : Task) (now : ℕ)
    (larder : FoodCycle.Larder) : Fine w.goals (start w g₀ task true now larder).goals := by
  have hsame := same_mapCurrent g fun s => { s with attempts := s.attempts + 1 }
  exact Fine.update hn hg huid (f := fun g =>
    { g.mapCurrent fun s => { s with attempts := s.attempts + 1 } with state := .active })
    hsame.uid (calm_of_live hlive hsame.kind)

theorem goals_start_refused (w : World) (g : Goal) (task : Task) (now : ℕ)
    (larder : FoodCycle.Larder) :
    (start w g task false now larder).goals =
      Delivery.settle ⟨w.goals, g.id, task, ⟨false, noTargetPrepare⟩⟩ now larder := by
  unfold start
  rw [if_neg Bool.false_ne_true, goals_onResult]
  rfl

/-- **What a tick of an idle body does to the bounds.** -/
theorem tickIdle_iff (hw : Settled .trivial w) (hb : Bounded w.goals) (hactive : w.active = none)
    (ctx : Context) (accepted : Bool) (now : ℕ) (larder : FoodCycle.Larder) :
    (Bounded (tickIdle w ctx accepted now larder).goals ∧
      Keeps w.goals (tickIdle w ctx accepted now larder).goals) ↔
      ∀ d, refusal w ctx accepted now = some d → d.Timely := by
  have hquiet : ∀ goals', Fine w.goals goals' →
      ((Bounded goals' ∧ Keeps w.goals goals') ↔
        ∀ d, (none : Option Delivery) = some d → d.Timely) :=
    fun goals' h => ⟨fun _ => nofun, fun _ => ⟨h.bounded hb, keeps_of_uids h.uids⟩⟩
  have hrec : Settled .trivial { w with goals := w.goals.map (reconcile now) } :=
    hw.map (fun g hg hold => reconcile_of_atRest (hw.rest g hg hold))
      fun g hg => reconcile_spec (hw.sound g hg)
  have hfirst : Fine w.goals (w.goals.map (reconcile now)) :=
    Fine.map fun g hg => ⟨(reconcile_spec (hw.sound g hg)).1.uid, calm_reconcile g⟩
  obtain ⟨hsel, hbest, -⟩ := select_spec hrec now
  have hfine := hfirst.trans (fine_select { w with goals := w.goals.map (reconcile now) } now)
  unfold tickIdle refusal
  have hnone : w.active.isSome = false := by rw [hactive]; rfl
  rw [hnone, Bool.false_or]
  by_cases hbusy : (!ctx.idle || ctx.threat || decide (w.task ≠ .follow)) = true
  · rw [if_pos hbusy, hbusy, Bool.true_or, if_pos rfl]
    exact hquiet _ (.refl w.goals)
  rw [if_neg hbusy, Bool.eq_false_iff.2 hbusy, Bool.false_or]
  generalize select { w with goals := w.goals.map (reconcile now) } now = sel at hsel hbest hfine ⊢
  obtain ⟨b, w'⟩ := sel
  cases b with
  | none =>
    dsimp only at hfine ⊢
    rw [ite_self]
    exact hquiet _ hfine
  | some g =>
    obtain ⟨hg, hlive, hold⟩ := hbest g rfl
    dsimp only at hsel hg hfine ⊢
    have hn : (w'.goals.map Goal.uid).Nodup := hsel.nodup
    by_cases hoff : foodOff g ctx = true
    · have hfood : g.kind = .restockFood := by
        simp only [foodOff, Bool.and_eq_true, decide_eq_true_eq] at hoff
        exact hoff.1.1
      rw [if_pos hoff, if_pos hfood, ite_self]
      exact hquiet _ hfine
    rw [if_neg hoff]
    cases hcurrent : g.current with
    | none =>
      have hdone : Fine w'.goals (Goals.update w'.goals g.uid fun g => { g with state := .done }) :=
        Fine.update hn hg rfl rfl (calm_of_live hlive.live rfl)
      rw [Option.map_none, ite_self, ite_self]
      exact hquiet _ (hfine.trans hdone)
    | some step =>
      dsimp only
      by_cases hfood : g.kind = .restockFood
      · rw [if_pos hfood, if_pos hfood, ite_self]
        refine hquiet _ (hfine.trans ?_)
        -- the food cycle rewrites its own record, whatever it does
        obtain ⟨hspec, hgo⟩ := next_spec (hsel.sound g hg) hlive hfood larder now
        have h₂ := hsel.update hg hold rfl (f := fun _ => (FoodCycle.next g larder now).1) hspec
        have hg₂ := mem_update hg rfl fun _ => (FoodCycle.next g larder now).1
        have hfine₂ : Fine w'.goals (w'.update g.uid fun _ =>
            (FoodCycle.next g larder now).1).goals :=
          Fine.update hn hg rfl hspec.1.uid (calm_food hfood hspec.1.kind)
        cases htask : (FoodCycle.next g larder now).2 with
        | none => exact hfine₂
        | some task =>
          have hlive₂ := hgo (by rw [htask]; exact Option.some_ne_none _)
          have hsame := same_mapCurrent (FoodCycle.next g larder now).1
            fun s => { s with task := task }
          have h₃ := h₂.update hg₂ (hspec.1.old.not.2 hold) hspec.1.uid
            (f := fun g => g.mapCurrent fun s => { s with task := task })
            ((hlive₂.mapCurrent _).sound hsame (h₂.sound _ hg₂))
          have hg₃ := mem_update hg₂ hspec.1.uid
            fun g => g.mapCurrent fun s => { s with task := task }
          have hfine₃ := hfine₂.trans (Fine.update h₂.nodup hg₂ hspec.1.uid
            (f := fun g => g.mapCurrent fun s => { s with task := task }) hsame.uid
            (calm_of_live hlive₂.live hsame.kind))
          refine hfine₃.trans ?_
          cases accepted with
          | true =>
            exact fine_start h₃.nodup hg₃ (hlive₂.mapCurrent _).live
              (hsame.uid.trans hspec.1.uid) task now larder
          | false =>
            dsimp only
            rw [goals_start_refused]
            have hsound := hsel.sound g hg
            refine ⟨uids_settle h₃.sound now larder, fun hb₃ => ?_⟩
            exact (bounded_settle_iff h₃.nodup h₃.sound hb₃ now larder).2
              (timely_food h₃.sound hsound rfl hfood)
      · rw [if_neg hfood, if_neg hfood]
        cases accepted with
        | true =>
          rw [if_pos rfl]
          exact hquiet _ (hfine.trans (fine_start hn hg hlive.live rfl step.task now larder))
        | false =>
          rw [if_neg Bool.false_ne_true, goals_start_refused, Option.map_some]
          have hb' : Bounded w'.goals := hfine.bounded hb
          have huids := (uids_settle (d := ⟨w'.goals, g.id, step.task, ⟨false, noTargetPrepare⟩⟩)
            hsel.sound now larder).trans hfine.uids
          constructor
          · rintro ⟨hafter, -⟩ d hd
            rw [← Option.some_inj.1 hd]
            exact (bounded_settle_iff hn hsel.sound hb' now larder).1 hafter
          · intro htimely
            exact ⟨(bounded_settle_iff hn hsel.sound hb' now larder).2 (htimely _ rfl),
              keeps_of_uids huids⟩

/-! ## The other calls -/

/-- Records rewritten in what the bounds do not read. -/
theorem bounded_map_iff {f : Goal → Goal} (hkind : ∀ g, (f g).kind = g.kind)
    (hlive : ∀ g, (f g).live = g.live) : Bounded (goals.map f) ↔ Bounded goals := by
  have hiff : Bounded (goals.map f) ↔ (goals.length ≤ maxGoals ∧
      goals.Pairwise (fun g g' => ¬ (g.kind = .restockFood ∧ g'.kind = .restockFood)) ∧
      goals.Pairwise fun g g' => ¬ (g.kind = g'.kind ∧ g.live = true ∧ g'.live = true)) := by
    constructor
    · rintro ⟨hlength, hfood, hone⟩
      rw [List.length_map] at hlength
      rw [List.pairwise_map] at hfood hone
      simp only [hkind, hlive] at hfood hone
      exact ⟨hlength, hfood, hone⟩
    · rintro ⟨hlength, hfood, hone⟩
      refine ⟨by rwa [List.length_map], ?_, ?_⟩
      · rw [List.pairwise_map]
        simpa only [hkind] using hfood
      · rw [List.pairwise_map]
        simpa only [hkind, hlive] using hone
  rw [hiff]
  exact ⟨fun h => ⟨h.1, h.2.1, h.2.2⟩, fun h => ⟨h.length, h.food, h.live⟩⟩

theorem keeps_map_iff {goals' : List Goal} {f : Goal → Goal} (huid : ∀ g, (f g).uid = g.uid) :
    Keeps goals (goals'.map f) ↔ Keeps goals goals' := by
  constructor
  · intro h g hg hrecurring
    obtain ⟨x, hx, hxu⟩ := h g hg hrecurring
    obtain ⟨g', hg', rfl⟩ := List.mem_map.1 hx
    exact ⟨g', hg', (huid g').symm.trans hxu⟩
  · intro h g hg hrecurring
    obtain ⟨g', hg', hu⟩ := h g hg hrecurring
    exact ⟨f g', List.mem_map_of_mem hg', (huid g').trans hu⟩

theorem fine_cancel (w : World) (name : Bytes) : Fine w.goals (cancel w name).goals :=
  Fine.map fun g _ => ⟨(same_cancelled _ g).uid, calm_cancelled _ g⟩

theorem inTheWay_food (goals : List Goal) :
    inTheWay .restockFood goals = goals.find? fun g => g.kind = .restockFood := by
  simp [inTheWay]

/-- **What `Goals.ensureFood` does to the bounds.** -/
theorem ensureFood_iff (hw : Settled .trivial w) (hb : Bounded w.goals) (near : Bool)
    (scan : FoodCycle.Scan) (now : ℕ) :
    (Bounded (ensureFood w near scan now).goals ∧
      Keeps w.goals (ensureFood w near scan now).goals) ↔
      ∀ k, appends w (.ensureFood near scan now) = some k → Vacant w.goals k := by
  have hquiet : ∀ goals', Fine w.goals goals' →
      ((Bounded goals' ∧ Keeps w.goals goals') ↔
        ∀ k, (none : Option Kind) = some k → Vacant w.goals k) :=
    fun goals' h => ⟨fun _ => nofun, fun _ => ⟨h.bounded hb, keeps_of_uids h.uids⟩⟩
  have hname : normalize (Bytes.lit "food") = some .restockFood := by decide
  have hinterval : intervalOf 0 = some 0 := by decide
  unfold ensureFood appends
  dsimp only
  cases near with
  | false => exact hquiet _ (.refl w.goals)
  | true =>
    rw [Bool.true_and, Bool.not_true, if_neg Bool.false_ne_true]
    cases hfind : w.goals.find? fun g => g.kind = .restockFood with
    | some g =>
      have hadded : added w (Bytes.lit "food") 0 = none := by
        unfold added
        rw [hname, hinterval]
        dsimp only
        rw [inTheWay_food, hfind]
        rfl
      have hg : g ∈ w.goals := List.mem_of_find?_eq_some hfind
      have hfood : g.kind = .restockFood := by simpa using List.find?_some hfind
      rw [hadded, ite_self]
      refine hquiet _ ?_
      dsimp only
      split
      · exact .refl w.goals
      · exact Fine.update hw.nodup hg rfl rfl (calm_food hfood rfl)
    | none =>
      dsimp only
      cases hstocked : stocked scan with
      | true => exact hquiet _ (.refl w.goals)
      | false =>
        rw [Bool.not_false, if_pos rfl, if_neg Bool.false_ne_true, ← add_iff hw hb _ 0 now]
        split
        · refine and_congr (bounded_map_iff ?_ ?_) (keeps_map_iff ?_)
          all_goals
            intro g
            split <;> rfl
        · exact Iff.rfl

/-- **What a late result does to the bounds.** -/
theorem onResult_iff (hw : Settled .trivial w) (hb : Bounded w.goals) (task : Task)
    (r : JobResult) (now : ℕ) (goalId : Option Bytes) (larder : FoodCycle.Larder) :
    (Bounded (onResult w task r now goalId larder).goals ∧
      Keeps w.goals (onResult w task r now goalId larder).goals) ↔
      ∀ d, delivery w (.onResult task r now goalId larder) = some d → d.Timely := by
  rw [goals_onResult]
  unfold delivery
  dsimp only
  cases goalId <|> w.active with
  | none => exact ⟨fun _ => nofun, fun _ => ⟨hb, .refl w.goals⟩⟩
  | some id =>
    rw [Option.map_some]
    have hiff := bounded_settle_iff (d := ⟨w.goals, id, task, r⟩) hw.nodup hw.sound hb now larder
    have huids := uids_settle (d := ⟨w.goals, id, task, r⟩) hw.sound now larder
    constructor
    · rintro ⟨hafter, -⟩ d hd
      rw [← Option.some_inj.1 hd]
      exact hiff.1 hafter
    · intro h
      exact ⟨hiff.2 (h _ rfl), keeps_of_uids huids⟩

/-- **One call** keeps the bounds if and only if it is tame. -/
theorem call_iff (hw : Settled .trivial w) (hb : Bounded w.goals) (c : Call) :
    (Bounded (call w c).goals ∧ Keeps w.goals (call w c).goals) ↔ Tame w c := by
  have hquiet : ∀ goals', Fine w.goals goals' → (Bounded goals' ∧ Keeps w.goals goals') :=
    fun goals' h => ⟨h.bounded hb, keeps_of_uids h.uids⟩
  unfold Tame
  cases c with
  | add name minutes now =>
    rw [show (∀ k, appends w (.add name minutes now) = some k → Vacant w.goals k) ↔ _ from
      (add_iff hw hb name minutes now).symm]
    exact ⟨fun h => ⟨h, fun _ => nofun⟩, fun h => h.1⟩
  | cancel name =>
    exact ⟨fun _ => ⟨fun _ => nofun, fun _ => nofun⟩, fun _ => hquiet _ (fine_cancel w name)⟩
  | ensureFood near scan now =>
    rw [← ensureFood_iff hw hb near scan now]
    exact ⟨fun h => ⟨h, fun _ => nofun⟩, fun h => h.1⟩
  | tick ctx accepted now larder =>
    have htick : (Bounded (tick w ctx accepted now larder).goals ∧
        Keeps w.goals (tick w ctx accepted now larder).goals) ↔
          ∀ d, refusal w ctx accepted now = some d → d.Timely := by
      unfold tick
      cases hactive : w.active with
      | none => exact tickIdle_iff hw hb hactive ctx accepted now larder
      | some id =>
        have hnone : refusal w ctx accepted now = none := by
          unfold refusal
          rw [hactive]
          rfl
        rw [hnone]
        exact ⟨fun _ => nofun, fun _ => hquiet _ (fine_tickActive hw id ctx now)⟩
    exact htick.trans ⟨fun h => ⟨fun _ => nofun, h⟩, fun h => h.2⟩
  | onResult task r now goalId larder =>
    rw [← onResult_iff hw hb task r now goalId larder]
    exact ⟨fun h => ⟨fun _ => nofun, h⟩, fun h => h.2⟩
  | body task payloadGoal active =>
    exact ⟨fun _ => ⟨fun _ => nofun, fun _ => nofun⟩, fun _ => hquiet _ (.refl w.goals)⟩

/-- Every call keeps what holds of every record. -/
theorem settled_call (hw : Settled .trivial w) (c : Call) : Settled .trivial (call w c) := by
  have hclear : ∀ id, Clear .trivial w id := fun id g hg hold => absurd hold.1 Bool.false_ne_true
  cases c with
  | add name minutes now => exact settled_step w (.add name minutes now) hw (adds_trivial _)
  | cancel name => exact settled_step w (.cancel name) hw (adds_trivial _)
  | ensureFood near scan now => exact settled_step w (.ensureFood near scan now) hw (adds_trivial _)
  | tick ctx accepted now larder =>
    exact settled_step w (.tick ctx accepted now larder) hw (adds_trivial _)
  | onResult task r now goalId larder =>
    exact hw.onResult task r now goalId larder fun id _ => hclear id
  | body task payloadGoal active =>
    exact hw.hand task (fun id _ => hclear id) fun id _ => hclear id

/-! ## Runs -/

theorem bounded_nil : Bounded [] := ⟨Nat.zero_le _, List.Pairwise.nil, List.Pairwise.nil⟩

/-- **The bounds of a registry over any run.** After every call of a run
the registry is bounded and has discarded nothing that recurs, if and only
if every call of it is tame. -/
theorem bounded_run_iff (calls : List Call) :
    Machine.Meets call (fun w c => Bounded (call w c).goals ∧ Keeps w.goals (call w c).goals)
        World.start calls ↔
      Machine.Meets call Tame World.start calls := by
  have hiff : ∀ (w : World) (c : Call), Settled .trivial w ∧ Bounded w.goals →
      ((Bounded (call w c).goals ∧ Keeps w.goals (call w c).goals) ↔ Tame w c) :=
    fun w c hw => call_iff hw.1 hw.2 c
  have hstep : ∀ (w : World) (c : Call), Settled .trivial w ∧ Bounded w.goals →
      Bounded (call w c).goals ∧ Keeps w.goals (call w c).goals →
      Settled .trivial (call w c) ∧ Bounded (call w c).goals :=
    fun w c hw h => ⟨settled_call hw.1 c, h.1⟩
  exact Machine.meets_congr hiff hstep ⟨settled_initial, bounded_nil⟩

/-- A nail stock every ten minutes, done once. -/
def nailsDone : List Call :=
  [.add (Bytes.lit "nails") 10 0, .tick atRest true 0 noLarder,
    .onResult .stockpile ⟨true, Capabilities.complete⟩ 1000 none noLarder]

/-- Repairs ordered and cancelled, seven times. -/
def sevenRepairs : List Call :=
  (List.range 7).flatMap fun i =>
    [.add (Bytes.lit "repair") 0 (2000 + i), .cancel (Bytes.lit "repair")]

/-- **A maintenance goal between two rounds is not seen.** Ordered again,
it is recorded a second time; and an order to a full registry discards
it. -/
theorem maintenance_goal_lost :
    ¬ Bounded (Machine.run call World.start
        (nailsDone ++ [.add (Bytes.lit "nails") 10 2000])).goals ∧
      ¬ Keeps (Machine.run call World.start (nailsDone ++ sevenRepairs)).goals
        (Machine.run call World.start
          (nailsDone ++ sevenRepairs ++ [.add (Bytes.lit "secure") 0 3000])).goals := by
  have htwice : ¬ (Machine.run call World.start
      (nailsDone ++ [.add (Bytes.lit "nails") 10 2000])).goals.Pairwise fun g g' =>
        ¬ (g.kind = g'.kind ∧ g.live = true ∧ g'.live = true) := by decide
  refine ⟨fun h => htwice h.live, ?_⟩
  unfold Keeps
  decide

end Goals

end GoblinZomboid
