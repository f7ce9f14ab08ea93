import GoblinZomboid.Server.Registry
/-!
# The steps of a goal

At most one goal runs, and a goal that is not done stands at one of its
steps. A step that recall or danger interrupts is as if it had not been
started; one that another order replaces keeps its attempt.
-/

namespace GoblinZomboid

namespace Goals

/-! ## What holds of a record -/

/-- How often the current step was started. -/
def Goal.attempts (g : Goal) : ℕ := (g.current.map Step.attempts).getD 0

/-- **A goal that is not done stands at one of its steps.** The food goal
chooses its own. -/
def InRange (g : Goal) : Prop :=
  g.kind ≠ .restockFood →
    g.steps ≠ [] ∧ (g.state ≠ .done → 1 ≤ g.step ∧ g.step ≤ g.steps.length)

/-- No two records run. -/
def OneActive (goals : List Goal) : Prop :=
  goals.Pairwise fun g g' => ¬ (g.state = .active ∧ g'.state = .active)

/-- A change that starts nothing: a record that runs afterwards has run
before, at this step, with these attempts. -/
structure Turn (g g' : Goal) : Prop where
  uid : g'.uid = g.uid
  range : InRange g → InRange g'
  frozen : g'.state = .active →
    g.state = .active ∧ g'.step = g.step ∧ g'.attempts = g.attempts

/-- Records that change so, and new ones. -/
def Turns (goals goals' : List Goal) : Prop :=
  ∀ g' ∈ goals', (∃ g ∈ goals, Turn g g') ∨ (InRange g' ∧ g'.state ≠ .active)

variable {w : World} {goals : List Goal} {g g' : Goal} {now : ℕ}

theorem Turn.refl (g : Goal) : Turn g g := ⟨rfl, id, fun h => ⟨h, rfl, rfl⟩⟩

theorem Turn.trans {g₁ g₂ g₃ : Goal} (h : Turn g₁ g₂) (h' : Turn g₂ g₃) : Turn g₁ g₃ := by
  refine ⟨h'.uid.trans h.uid, fun hr => h'.range (h.range hr), fun hs => ?_⟩
  obtain ⟨hs₂, hstep₂, hattempts₂⟩ := h'.frozen hs
  obtain ⟨hs₁, hstep₁, hattempts₁⟩ := h.frozen hs₂
  exact ⟨hs₁, hstep₂.trans hstep₁, hattempts₂.trans hattempts₁⟩

theorem Turns.refl (goals : List Goal) : Turns goals goals :=
  fun g hg => Or.inl ⟨g, hg, .refl g⟩

theorem Turns.trans {goals₁ goals₂ goals₃ : List Goal} (h : Turns goals₁ goals₂)
    (h' : Turns goals₂ goals₃) : Turns goals₁ goals₃ := by
  intro g₃ hg₃
  rcases h' g₃ hg₃ with ⟨g₂, hg₂, hturn⟩ | hnew
  · rcases h g₂ hg₂ with ⟨g₁, hg₁, hturn₁⟩ | ⟨hrange, hidle⟩
    · exact Or.inl ⟨g₁, hg₁, hturn₁.trans hturn⟩
    · exact Or.inr ⟨hturn.range hrange, fun hs => hidle (hturn.frozen hs).1⟩
  · exact Or.inr hnew

theorem Turns.map {f : Goal → Goal} (hf : ∀ g ∈ goals, Turn g (f g)) :
    Turns goals (goals.map f) := by
  intro x hx
  obtain ⟨g, hg, rfl⟩ := List.mem_map.1 hx
  exact Or.inl ⟨g, hg, hf g hg⟩

/-- The one record of a table changes. -/
theorem Turns.update (hn : (goals.map Goal.uid).Nodup) (hg : g ∈ goals) {u : ℕ} (hu : g.uid = u)
    {f : Goal → Goal} (hf : Turn g (f g)) : Turns goals (Goals.update goals u f) := by
  refine Turns.map fun x hx => ?_
  split
  · rename_i hxu
    rw [List.inj_on_of_nodup_map hn hx hg (hxu.trans hu.symm)]
    exact hf
  · exact .refl x

theorem Turns.inRange {goals' : List Goal} (h : Turns goals goals')
    (hr : ∀ g ∈ goals, InRange g) : ∀ g ∈ goals', InRange g := by
  intro g' hg'
  rcases h g' hg' with ⟨g, hg, hturn⟩ | hnew
  · exact hturn.range (hr g hg)
  · exact hnew.1

/-- Where nothing ran, nothing runs. -/
theorem Turns.idle {goals' : List Goal} (h : Turns goals goals')
    (hidle : ∀ g ∈ goals, g.state ≠ .active) : ∀ g ∈ goals', g.state ≠ .active := by
  intro g' hg' hs
  rcases h g' hg' with ⟨g, hg, hturn⟩ | hnew
  · exact hidle g hg (hturn.frozen hs).1
  · exact hnew.2 hs

/-- Two records run only if they are one. -/
theorem OneActive.eq (h : OneActive goals) (hg : g ∈ goals) (hg' : g' ∈ goals)
    (hs : g.state = .active) (hs' : g'.state = .active) : g = g' := by
  have hsymm : Std.Symm fun a b : Goal => ¬ (a.state = .active ∧ b.state = .active) :=
    ⟨fun a b hab hba => hab hba.symm⟩
  by_contra hne
  exact h.forall hg hg' hne ⟨hs, hs'⟩

theorem oneActive_of_uid (hn : (goals.map Goal.uid).Nodup)
    (h : ∀ g ∈ goals, ∀ g' ∈ goals, g.state = .active → g'.state = .active → g.uid = g'.uid) :
    OneActive goals := by
  have hapart : goals.Pairwise fun a b => a.uid ≠ b.uid := List.pairwise_map.1 hn
  refine hapart.imp_of_mem ?_
  rintro a b ha hb hne ⟨hsa, hsb⟩
  exact hne (h a ha b hb hsa hsb)

theorem Turns.oneActive {goals' : List Goal} (h : Turns goals goals')
    (hn' : (goals'.map Goal.uid).Nodup) (hone : OneActive goals) : OneActive goals' := by
  refine oneActive_of_uid hn' fun a ha b hb hsa hsb => ?_
  rcases h a ha with ⟨g, hg, hturn⟩ | hnew
  · rcases h b hb with ⟨g', hg', hturn'⟩ | hnew'
    · have heq := hone.eq hg hg' (hturn.frozen hsa).1 (hturn'.frozen hsb).1
      rw [hturn.uid, hturn'.uid, heq]
    · exact absurd hsb hnew'.2
  · exact absurd hsa hnew.2

/-! ## What the functions do to a record -/

theorem current_mapCurrent (g : Goal) (f : Step → Step) :
    (g.mapCurrent f).current = g.current.map f := by
  unfold Goal.mapCurrent Goal.current
  by_cases hstep : g.step = 0
  · simp [hstep]
  · simp only [if_neg hstep, List.getElem?_modify, if_true]
    rfl

theorem step_mapCurrent (g : Goal) (f : Step → Step) : (g.mapCurrent f).step = g.step := by
  unfold Goal.mapCurrent
  split <;> rfl

theorem length_mapCurrent (g : Goal) (f : Step → Step) :
    (g.mapCurrent f).steps.length = g.steps.length := by
  unfold Goal.mapCurrent
  split
  · rfl
  · exact List.length_modify f g.steps (g.step - 1)

/-- A record whose steps are as many, in a state of their own. -/
theorem InRange.congr (h : InRange g) (hkind : g'.kind = g.kind) (hstep : g'.step = g.step)
    (hlength : g'.steps.length = g.steps.length) (hstate : g'.state ≠ .done → g.state ≠ .done) :
    InRange g' := by
  intro hfood
  obtain ⟨hne, hrange⟩ := h (hkind ▸ hfood)
  refine ⟨?_, fun hs => ?_⟩
  · rw [← List.length_pos_iff] at hne ⊢
    omega
  · rw [hstep, hlength]
    exact hrange (hstate hs)

/-- A current step is within range. -/
theorem range_of_current {st : Step} (h : g.current = some st) :
    1 ≤ g.step ∧ g.step ≤ g.steps.length := by
  unfold Goal.current at h
  by_cases hstep : g.step = 0
  · rw [if_pos hstep] at h
    cases h
  · rw [if_neg hstep] at h
    have := (List.getElem?_eq_some_iff.1 h).1
    omega

/-- A change of the food goal that leaves it at rest. -/
theorem turn_food (huid : g'.uid = g.uid) (hfood : g'.kind = .restockFood)
    (hidle : g'.state ≠ .active) : Turn g g' :=
  ⟨huid, fun _ hno => absurd hfood hno, fun hs => absurd hs hidle⟩

theorem turn_rearm (g : Goal) : Turn g (rearm now g) := by
  unfold rearm
  split
  · refine ⟨rfl, fun h hfood => ?_, nofun⟩
    obtain ⟨hne, -⟩ := h hfood
    have hpos := List.length_pos_iff.2 hne
    refine ⟨?_, fun _ => ⟨le_refl 1, ?_⟩⟩
    · rw [ne_eq, List.map_eq_nil_iff]
      exact hne
    · rw [List.length_map]
      exact hpos
  · exact .refl g

theorem turn_reconcile (g : Goal) : Turn g (reconcile now g) := by
  unfold reconcile
  split
  · rename_i hactive
    exact ⟨rfl, fun h => h.congr rfl rfl rfl (fun _ hs => by rw [hactive] at hs; cases hs), nofun⟩
  · exact .refl g

theorem turn_cancelled (scope : Option Kind) (g : Goal) : Turn g (cancelled scope g) := by
  unfold cancelled
  split
  · rename_i hcond
    refine ⟨rfl, fun h => h.congr rfl rfl rfl fun _ hs => ?_, nofun⟩
    simp [Goal.finished, hs] at hcond
  · exact .refl g

theorem turn_reenable (hfood : g.kind = .restockFood) (interval : ℕ) :
    Turn g (reenable g interval) :=
  turn_food rfl hfood nofun

theorem turn_repeatUpdated (g : Goal) (interval : ℕ) : Turn g (repeatUpdated g interval) :=
  ⟨rfl, fun h => h.congr rfl rfl rfl id, fun hs => ⟨hs, rfl, rfl⟩⟩

/-- A running goal that waits again. -/
theorem turn_interrupt (hactive : g.state = .active) (ctx : Context) :
    Turn g (interrupt g ctx now) := by
  have hsame := same_mapCurrent g fun s => { s with attempts := s.attempts - 1 }
  refine ⟨hsame.uid, fun h => h.congr hsame.kind (step_mapCurrent _ _) (length_mapCurrent _ _) ?_,
    nofun⟩
  intro _ hs
  rw [hactive] at hs
  cases hs

theorem turn_follow {st : Step} (hcurrent : g.current = some st) (r : JobResult) :
    Turn g (follow g st r now) := by
  obtain ⟨hlow, hhigh⟩ := range_of_current hcurrent
  have hne : g.steps ≠ [] := by
    rw [← List.length_pos_iff]
    omega
  have hsame := same_mapCurrent { g with lastCode := some r.code }
    fun s => { s with attempts := s.attempts - 1 }
  have hlength := length_mapCurrent { g with lastCode := some r.code }
    fun s => { s with attempts := s.attempts - 1 }
  have hstep := step_mapCurrent { g with lastCode := some r.code }
    fun s => { s with attempts := s.attempts - 1 }
  unfold follow
  dsimp only
  split
  · split
    · exact ⟨rfl, fun _ _ => ⟨hne, fun hs => absurd rfl hs⟩, nofun⟩
    · rename_i hsome
      obtain ⟨next, hnext⟩ := Option.ne_none_iff_exists'.1 hsome
      have hrange := range_of_current hnext
      exact ⟨rfl, fun _ _ => ⟨hne, fun _ => hrange⟩, nofun⟩
  · split
    · exact ⟨rfl, fun _ _ => ⟨hne, fun hs => absurd rfl hs⟩, nofun⟩
    · rename_i hsome
      obtain ⟨next, hnext⟩ := Option.ne_none_iff_exists'.1 hsome
      have hrange := range_of_current hnext
      exact ⟨rfl, fun _ _ => ⟨hne, fun _ => hrange⟩, nofun⟩
  · refine ⟨hsame.uid, fun _ _ => ⟨?_, fun _ => ?_⟩, nofun⟩
    · rw [← List.length_pos_iff]
      dsimp only at hlength ⊢
      omega
    · dsimp only at hlength hstep ⊢
      omega
  · split
    · exact ⟨rfl, fun _ _ => ⟨hne, fun _ => ⟨hlow, hhigh⟩⟩, nofun⟩
    · exact ⟨rfl, fun _ _ => ⟨hne, fun _ => ⟨hlow, hhigh⟩⟩, nofun⟩
  · split
    · exact ⟨rfl, fun _ _ => ⟨hne, fun _ => ⟨hlow, hhigh⟩⟩, nofun⟩
    · exact ⟨rfl, fun _ _ => ⟨hne, fun _ => ⟨hlow, hhigh⟩⟩, nofun⟩
  · exact ⟨rfl, fun _ _ => ⟨hne, fun _ => ⟨hlow, hhigh⟩⟩, nofun⟩

/-- The food cycle rests after a result. -/
theorem state_foodResult (g : Goal) (task : Task) (r : JobResult) (world : FoodCycle.Larder) :
    (FoodCycle.onResult g task r world now).state ≠ .active := by
  simp only [FoodCycle.onResult]
  split_ifs
  · exact fun h => by cases h
  · split
    · split <;> exact fun h => by cases h
    · split <;> exact fun h => by cases h
    · exact fun h => by cases h
    · exact fun h => by cases h
    · exact fun h => by cases h
  · exact fun h => by cases h
  · exact fun h => by cases h

/-- The food cycle's choice leaves the step alone. -/
theorem next_frozen (g : Goal) (world : FoodCycle.Larder) (now : ℕ) :
    (FoodCycle.next g world now).1.steps = g.steps ∧
      (FoodCycle.next g world now).1.step = g.step ∧
      ((FoodCycle.next g world now).1.state = .active → g.state = .active) := by
  simp only [FoodCycle.next]
  split
  · split
    · exact ⟨rfl, rfl, id⟩
    · exact ⟨rfl, rfl, fun h => by cases h⟩
  · split_ifs
    · exact ⟨rfl, rfl, fun h => by cases h⟩
    · exact ⟨rfl, rfl, id⟩
    · exact ⟨rfl, rfl, fun h => by cases h⟩
    · exact ⟨rfl, rfl, id⟩
    · exact ⟨rfl, rfl, id⟩

/-! ## What the functions do to a registry -/

theorem turns_select (w : World) (now : ℕ) : Turns w.goals (select w now).2.goals :=
  Turns.map fun g _ => turn_rearm g

theorem turns_settle {d : Delivery} (hn : (d.goals.map Goal.uid).Nodup)
    (hsound : ∀ g ∈ d.goals, Sound g) (now : ℕ) (larder : FoodCycle.Larder) :
    Turns d.goals (d.settle now larder) := by
  unfold Delivery.settle
  cases hres : resultGoal d.goals d.id d.task with
  | none => exact .refl d.goals
  | some x =>
    obtain ⟨g, st⟩ := x
    obtain ⟨hg, -, -, hcurrent, -⟩ := mem_of_resultGoal hres
    refine Turns.update hn hg rfl ?_
    split
    · rename_i hfood
      obtain ⟨hsame, -⟩ := @foodResult_spec _ now (hsound g hg) hfood d.task d.result larder
      exact turn_food hsame.uid (hsame.kind.trans hfood) (state_foodResult g d.task d.result larder)
    · exact turn_follow hcurrent d.result

theorem turns_add (hw : Settled .trivial w) (name : Bytes) (minutes : ℚ) (now : ℕ) :
    Turns w.goals (add w name minutes now).2.2.goals := by
  unfold add
  split
  · exact .refl w.goals
  · rename_i k _
    split
    · exact .refl w.goals
    · rename_i interval _
      split
      · rename_i g hway
        have hg : g ∈ w.goals := List.mem_of_find?_eq_some hway
        have hfound := List.find?_some hway
        simp only [Bool.and_eq_true, Bool.or_eq_true, decide_eq_true_eq,
          Bool.not_eq_true'] at hfound
        split
        · rename_i hfinished
          have hfood : g.kind = .restockFood := by
            rcases hfound.2 with h | h
            · exact absurd hfinished (by simp [h])
            · exact hfound.1.trans h
          exact Turns.update hw.nodup hg rfl (f := fun g => reenable g interval)
            (turn_reenable hfood interval)
        · exact Turns.update hw.nodup hg rfl (f := fun g => repeatUpdated g interval)
            (turn_repeatUpdated g interval)
      · split
        · exact .refl w.goals
        · intro x hx
          rcases List.mem_append.1 hx with hx | hx
          · exact Or.inl ⟨x, (room_sublist w.goals).subset hx, .refl x⟩
          · rw [List.mem_singleton.1 hx]
            refine Or.inr ⟨fun _ => ?_, nofun⟩
            have hsteps : k.steps ≠ [] := by cases k <;> decide
            refine ⟨by simpa [newGoal] using hsteps, fun _ => ⟨le_refl 1, ?_⟩⟩
            have hpos := List.length_pos_iff.2 hsteps
            simp only [newGoal, List.length_map]
            omega

theorem turns_ensureFood (hw : Settled .trivial w) (near : Bool) (scan : FoodCycle.Scan)
    (now : ℕ) : Turns w.goals (ensureFood w near scan now).goals := by
  unfold ensureFood
  dsimp only
  split
  · exact .refl w.goals
  · split
    · rename_i g hfind
      have hg : g ∈ w.goals := List.mem_of_find?_eq_some hfind
      have hfood : g.kind = .restockFood := by simpa using List.find?_some hfind
      split
      · exact .refl w.goals
      · exact Turns.update hw.nodup hg rfl (turn_food rfl hfood nofun)
    · split
      · exact .refl w.goals
      · have hadd := turns_add hw (Bytes.lit "food") 0 now
        split
        · refine hadd.trans (Turns.map fun g _ => ?_)
          split
          · rename_i hcond
            simp only [Bool.and_eq_true, decide_eq_true_eq] at hcond
            exact turn_food rfl hcond.1 (by rw [hcond.2]; nofun)
          · exact .refl g
        · exact hadd

/-- The running goal a tick finds. -/
theorem mem_of_findActive {id : Bytes}
    (h : w.goals.find? (fun g => g.id = id && g.state = .active) = some g) :
    g ∈ w.goals ∧ g.id = id ∧ g.state = .active := by
  have hfound := List.find?_some h
  simp only [Bool.and_eq_true, decide_eq_true_eq] at hfound
  exact ⟨List.mem_of_find?_eq_some h, hfound⟩

/-- A running goal, parked. -/
def park (now : ℕ) (g : Goal) : Goal := { g with state := .waiting, nextAt := now }

/-- **What a tick does to the goal that runs**: it parks it when the job is
another one, and otherwise interrupts it or lets it run. -/
theorem tickActive_cases (hw : Settled .trivial w) {id : Bytes}
    (hfind : w.goals.find? (fun g => g.id = id && g.state = .active) = some g) (ctx : Context)
    (now : ℕ) :
    ∃ sel, Turns w.goals sel ∧ g ∈ sel ∧ (sel.map Goal.uid).Nodup ∧
      (w.payloadGoal ≠ some id ∧
          (tickActive w id ctx now).goals = Goals.update sel g.uid (park now) ∨
        w.payloadGoal = some id ∧ ((tickActive w id ctx now).goals = sel ∨
          (tickActive w id ctx now).goals =
            Goals.update sel g.uid fun g => interrupt g ctx now)) := by
  obtain ⟨hg, -, hactive⟩ := mem_of_findActive hfind
  simp only [tickActive, hfind]
  by_cases hpayload : w.payloadGoal = some id
  · have hsel : ∀ sel, sel = (if g.kind = .restockFood then select w now else (none, w)) →
        Turns w.goals sel.2.goals ∧ g ∈ sel.2.goals ∧ (sel.2.goals.map Goal.uid).Nodup := by
      rintro sel rfl
      split
      · have hsame : rearm now g = g := by
          unfold rearm
          rw [if_neg (by simp [hactive])]
        exact ⟨turns_select w now, hsame ▸ List.mem_map_of_mem hg,
          (fine_select w now).uids ▸ hw.nodup⟩
      · exact ⟨.refl w.goals, hg, hw.nodup⟩
    obtain ⟨hturns, hg', hn⟩ := hsel _ rfl
    rw [if_neg (by simpa using hpayload)]
    generalize (if g.kind = .restockFood then select w now else (none, w)) = sel at hturns hg' hn ⊢
    refine ⟨sel.2.goals, hturns, hg', hn, Or.inr ⟨hpayload, ?_⟩⟩
    split
    · exact Or.inr rfl
    · exact Or.inl rfl
  · rw [if_pos hpayload]
    exact ⟨w.goals, .refl w.goals, hg, hw.nodup, Or.inl ⟨hpayload, rfl⟩⟩

theorem turn_park (hactive : g.state = .active) : Turn g (park now g) := by
  refine ⟨rfl, fun h => h.congr rfl rfl rfl fun _ hs => ?_, nofun⟩
  rw [hactive] at hs
  cases hs

theorem turns_tickActive (hw : Settled .trivial w) (id : Bytes) (ctx : Context) (now : ℕ) :
    Turns w.goals (tickActive w id ctx now).goals := by
  cases hfind : w.goals.find? (fun g => g.id = id && g.state = .active) with
  | none =>
    have hsame : (tickActive w id ctx now).goals = w.goals := by
      simp only [tickActive, hfind]
      split <;> rfl
    rw [hsame]
    exact .refl w.goals
  | some g =>
    obtain ⟨-, -, hactive⟩ := mem_of_findActive hfind
    obtain ⟨sel, hturns, hg, hn, ⟨-, heq⟩ | ⟨-, heq | heq⟩⟩ := tickActive_cases hw hfind ctx now
    · rw [heq]
      exact hturns.trans (Turns.update hn hg rfl (turn_park hactive))
    · rw [heq]
      exact hturns
    · rw [heq]
      exact hturns.trans (Turns.update hn hg rfl (f := fun g => interrupt g ctx now)
        (turn_interrupt hactive ctx))

/-- A goal, started. -/
def launch (g : Goal) : Goal :=
  { g.mapCurrent fun s => { s with attempts := s.attempts + 1 } with state := .active }

/-- The goal a tick starts, as it was selected. -/
def startedBy (w : World) (ctx : Context) (accepted : Bool) (now : ℕ) (larder : FoodCycle.Larder) :
    Option Goal :=
  if w.active.isSome || !ctx.idle || ctx.threat || w.task ≠ .follow || !accepted then none
  else
    match (select { w with goals := w.goals.map (reconcile now) } now).1 with
    | none => none
    | some g =>
      if foodOff g ctx || g.current.isNone then none
      else if g.kind = .restockFood && (FoodCycle.next g larder now).2.isNone then none
      else some g

/-- The goal a call starts, as it was selected. -/
def starts (w : World) : Call → Option Goal
  | .tick ctx accepted now larder => startedBy w ctx accepted now larder
  | _ => none

theorem state_reconcile (g : Goal) : (reconcile now g).state ≠ .active := by
  unfold reconcile
  split
  · nofun
  · assumption

/-- **What a tick of an idle body does to the records**: nothing runs any
more, and then the goal it starts does. -/
theorem tickIdle_cases (hw : Settled .trivial w) (hactive : w.active = none) (ctx : Context)
    (accepted : Bool) (now : ℕ) (larder : FoodCycle.Larder) :
    match startedBy w ctx accepted now larder with
    | none => Turns w.goals (tickIdle w ctx accepted now larder).goals
    | some g =>
      ∃ sel, Turns w.goals sel ∧ (∀ x ∈ sel, x.state ≠ .active) ∧ (sel.map Goal.uid).Nodup ∧
        (∃ x ∈ sel, x.uid = g.uid ∧ x.step = g.step ∧ x.attempts = g.attempts ∧
          x.current.isSome = true ∧ x.state ≠ .done) ∧
        (tickIdle w ctx accepted now larder).goals = Goals.update sel g.uid launch := by
  have hrec : Settled .trivial { w with goals := w.goals.map (reconcile now) } :=
    hw.map (fun g hg hold => reconcile_of_atRest (hw.rest g hg hold))
      fun g hg => reconcile_spec (hw.sound g hg)
  have hfirst : Turns w.goals (w.goals.map (reconcile now)) := Turns.map fun g _ => turn_reconcile g
  have hidle : ∀ x ∈ w.goals.map (reconcile now), x.state ≠ .active := by
    intro x hx
    obtain ⟨g, -, rfl⟩ := List.mem_map.1 hx
    exact state_reconcile g
  have hsecond := turns_select { w with goals := w.goals.map (reconcile now) } now
  have hidle' := hsecond.idle hidle
  have hturns := hfirst.trans hsecond
  obtain ⟨hsel, hbest, -⟩ := select_spec hrec now
  have hnone : w.active.isSome = false := by rw [hactive]; rfl
  unfold tickIdle startedBy
  rw [hnone, Bool.false_or]
  by_cases hbusy : (!ctx.idle || ctx.threat || decide (w.task ≠ .follow)) = true
  · rw [if_pos hbusy, hbusy, Bool.true_or, if_pos rfl]
    exact .refl w.goals
  rw [if_neg hbusy, Bool.eq_false_iff.2 hbusy, Bool.false_or]
  generalize select { w with goals := w.goals.map (reconcile now) } now = sel
    at hsel hbest hturns hidle' ⊢
  obtain ⟨b, w'⟩ := sel
  cases b with
  | none =>
    dsimp only at hturns ⊢
    rw [ite_self]
    exact hturns
  | some g =>
    obtain ⟨hg, hlive, hold⟩ := hbest g rfl
    dsimp only at hsel hg hturns hidle' ⊢
    have hn : (w'.goals.map Goal.uid).Nodup := hsel.nodup
    have hnotdone : g.state ≠ .done := by
      rcases hlive with h | h | h <;> rw [h] <;> nofun
    by_cases hoff : foodOff g ctx = true
    · rw [if_pos hoff, hoff, Bool.true_or, if_pos rfl, ite_self]
      exact hturns
    rw [if_neg hoff, Bool.eq_false_iff.2 hoff, Bool.false_or]
    cases hcurrent : g.current with
    | none =>
      rw [Option.isNone_none, if_pos rfl, ite_self]
      refine hturns.trans (Turns.update hn hg rfl ⟨rfl, fun hr hfood => ?_, nofun⟩)
      exact ⟨(hr hfood).1, fun hs => absurd rfl hs⟩
    | some step =>
      dsimp only
      rw [Option.isNone_some, if_neg Bool.false_ne_true]
      by_cases hfood : g.kind = .restockFood
      · rw [if_pos hfood, decide_eq_true hfood, Bool.true_and]
        obtain ⟨hspec, hgo⟩ := next_spec (hsel.sound g hg) hlive hfood larder now
        obtain ⟨hsteps, hstep, hfrozen⟩ := next_frozen g larder now
        have h₂ := hsel.update hg hold rfl (f := fun _ => (FoodCycle.next g larder now).1) hspec
        have hg₂ := mem_update hg rfl fun _ => (FoodCycle.next g larder now).1
        have hquiet : (FoodCycle.next g larder now).1.state ≠ .active :=
          fun hs => hidle' g hg (hfrozen hs)
        have hturns₂ : Turns w'.goals (w'.update g.uid fun _ =>
            (FoodCycle.next g larder now).1).goals :=
          Turns.update hn hg rfl (turn_food hspec.1.uid (hspec.1.kind.trans hfood) hquiet)
        cases htask : (FoodCycle.next g larder now).2 with
        | none =>
          rw [Option.isNone_none, if_pos rfl, ite_self]
          exact hturns.trans hturns₂
        | some task =>
          rw [Option.isNone_some, if_neg Bool.false_ne_true]
          dsimp only
          have hlive₂ := hgo (by rw [htask]; exact Option.some_ne_none _)
          have hsame := same_mapCurrent (FoodCycle.next g larder now).1
            fun s => { s with task := task }
          have h₃ := h₂.update hg₂ (hspec.1.old.not.2 hold) hspec.1.uid
            (f := fun g => g.mapCurrent fun s => { s with task := task })
            ((hlive₂.mapCurrent _).sound hsame (h₂.sound _ hg₂))
          have hg₃ := mem_update hg₂ hspec.1.uid
            fun g => g.mapCurrent fun s => { s with task := task }
          have hturns₃ := hturns₂.trans (Turns.update h₂.nodup hg₂ hspec.1.uid
            (f := fun g => g.mapCurrent fun s => { s with task := task })
            (turn_food hsame.uid (hsame.kind.trans (hspec.1.kind.trans hfood))
              (by rw [state_mapCurrent]; exact hquiet)))
          cases accepted with
          | false =>
            rw [Bool.not_false, if_pos rfl, goals_start_refused]
            exact hturns.trans (hturns₃.trans (turns_settle h₃.nodup h₃.sound now larder))
          | true =>
            rw [Bool.not_true, if_neg Bool.false_ne_true]
            refine ⟨_, hturns.trans hturns₃, hturns₃.idle hidle', h₃.nodup,
              ⟨_, hg₃, hsame.uid.trans hspec.1.uid, ?_, ?_, ?_, ?_⟩, rfl⟩
            · rw [step_mapCurrent, hstep]
            · unfold Goal.attempts
              rw [current_mapCurrent, Option.map_map]
              have hcur : (FoodCycle.next g larder now).1.current = g.current := by
                unfold Goal.current
                rw [hsteps, hstep]
              rw [hcur]
              rfl
            · have hcur : (FoodCycle.next g larder now).1.current = g.current := by
                unfold Goal.current
                rw [hsteps, hstep]
              rw [current_mapCurrent, hcur, hcurrent]
              rfl
            · rw [state_mapCurrent]
              rcases hlive₂ with h | h | h <;> rw [h] <;> nofun
      · rw [if_neg hfood, decide_eq_false hfood, Bool.false_and, if_neg Bool.false_ne_true]
        cases accepted with
        | false =>
          rw [Bool.not_false, if_pos rfl, goals_start_refused]
          exact hturns.trans (turns_settle (d := ⟨w'.goals, g.id, step.task,
            ⟨false, noTargetPrepare⟩⟩) hn hsel.sound now larder)
        | true =>
          rw [Bool.not_true, if_neg Bool.false_ne_true]
          exact ⟨w'.goals, hturns, hidle', hn,
            ⟨g, hg, rfl, rfl, rfl, by rw [hcurrent]; rfl, hnotdone⟩, rfl⟩

/-! ## One call -/

/-- **What a call does to the records**: it starts nothing, or nothing runs
any more and then the goal it starts does. -/
theorem call_cases (hw : Settled .trivial w) (c : Call) :
    match starts w c with
    | none => Turns w.goals (call w c).goals
    | some g =>
      ∃ sel, Turns w.goals sel ∧ (∀ x ∈ sel, x.state ≠ .active) ∧ (sel.map Goal.uid).Nodup ∧
        (∃ x ∈ sel, x.uid = g.uid ∧ x.step = g.step ∧ x.attempts = g.attempts ∧
          x.current.isSome = true ∧ x.state ≠ .done) ∧
        (call w c).goals = Goals.update sel g.uid launch := by
  cases c with
  | add name minutes now => exact turns_add hw name minutes now
  | cancel name => exact Turns.map fun g _ => turn_cancelled _ g
  | ensureFood near scan now => exact turns_ensureFood hw near scan now
  | tick ctx accepted now larder =>
    cases hactive : w.active with
    | none =>
      have htick : call w (.tick ctx accepted now larder) =
          tickIdle w ctx accepted now larder := by
        simp only [call, tick, hactive]
      rw [htick]
      exact tickIdle_cases hw hactive ctx accepted now larder
    | some id =>
      have htick : call w (.tick ctx accepted now larder) = tickActive w id ctx now := by
        simp only [call, tick, hactive]
      have hnone : starts w (.tick ctx accepted now larder) = none := by
        simp only [starts, startedBy, hactive]
        rfl
      rw [htick, hnone]
      exact turns_tickActive hw id ctx now
  | onResult task r now goalId larder =>
    have hgoals := goals_onResult w task r now goalId larder
    change Turns w.goals (onResult w task r now goalId larder).goals
    rw [hgoals]
    cases goalId <|> w.active with
    | none => exact .refl w.goals
    | some id => exact turns_settle (d := ⟨w.goals, id, task, r⟩) hw.nodup hw.sound now larder
  | body task payloadGoal active => exact .refl w.goals

theorem step_launch (g : Goal) : (launch g).step = g.step := step_mapCurrent g _

theorem uid_launch (g : Goal) : (launch g).uid = g.uid :=
  (same_mapCurrent g fun s => { s with attempts := s.attempts + 1 }).uid

/-- A start counts one attempt. -/
theorem attempts_launch (h : g.current.isSome = true) : (launch g).attempts = g.attempts + 1 := by
  obtain ⟨st, hst⟩ := Option.isSome_iff_exists.1 h
  have hcur : (launch g).current = g.current.map fun s => { s with attempts := s.attempts + 1 } :=
    current_mapCurrent g _
  unfold Goal.attempts
  rw [hcur, hst]
  rfl

/-- **The invariant**: records are sound and in range, and one runs at
most. -/
structure Stands (w : World) : Prop where
  settled : Settled .trivial w
  range : ∀ g ∈ w.goals, InRange g
  one : OneActive w.goals

theorem stands_start : Stands World.start :=
  ⟨settled_initial, fun g h => (by cases h), List.Pairwise.nil⟩

theorem stands_call (hw : Stands w) (c : Call) : Stands (call w c) := by
  have hset := settled_call hw.settled c
  have hcases := call_cases hw.settled c
  cases hstarts : starts w c with
  | none =>
    rw [hstarts] at hcases
    exact ⟨hset, hcases.inRange hw.range, hcases.oneActive hset.nodup hw.one⟩
  | some g =>
    rw [hstarts] at hcases
    obtain ⟨sel, hturns, hidle, hn, ⟨x, hx, hxu, -, -, -, hdone⟩, hgoals⟩ := hcases
    have hrange := hturns.inRange hw.range
    have hone : ∀ y ∈ sel, y.uid = g.uid → y = x := fun y hy hyu =>
      List.inj_on_of_nodup_map hn hy hx (hyu.trans hxu.symm)
    have hsplit : ∀ z ∈ (call w c).goals, z ∈ sel ∧ z.uid ≠ g.uid ∨ z = launch x := by
      intro z hz
      rw [hgoals] at hz
      obtain ⟨y, hy, rfl⟩ := List.mem_map.1 hz
      by_cases hyu : y.uid = g.uid
      · rw [if_pos hyu, hone y hy hyu]
        exact Or.inr rfl
      · rw [if_neg hyu]
        exact Or.inl ⟨hy, hyu⟩
    refine ⟨hset, fun z hz => ?_, oneActive_of_uid hset.nodup fun a ha b hb hsa hsb => ?_⟩
    · rcases hsplit z hz with ⟨hz, -⟩ | rfl
      · exact hrange z hz
      · have hsame := same_mapCurrent x fun s => { s with attempts := s.attempts + 1 }
        exact (hrange x hx).congr hsame.kind (step_launch x) (length_mapCurrent x _) fun _ => hdone
    · rcases hsplit a ha with ⟨ha, -⟩ | rfl
      · exact absurd hsa (hidle a ha)
      · rcases hsplit b hb with ⟨hb, -⟩ | rfl
        · exact absurd hsb (hidle b hb)
        · rfl

/-- A goal that runs and was not started by the call ran before, at its
step, with its attempts. -/
theorem active_before (hw : Settled .trivial w) {c : Call}
    (hstart : ∀ x, starts w c = some x → x.uid ≠ g.uid) (hg : g ∈ (call w c).goals)
    (hactive : g.state = .active) :
    ∃ x ∈ w.goals, x.uid = g.uid ∧ x.state = .active ∧ x.step = g.step ∧
      x.attempts = g.attempts := by
  have hcases := call_cases hw c
  cases hstarts : starts w c with
  | none =>
    rw [hstarts] at hcases
    rcases hcases g hg with ⟨x, hx, hturn⟩ | hnew
    · obtain ⟨hs, hstep, hattempts⟩ := hturn.frozen hactive
      exact ⟨x, hx, hturn.uid.symm, hs, hstep.symm, hattempts.symm⟩
    · exact absurd hactive hnew.2
  | some s =>
    rw [hstarts] at hcases
    obtain ⟨sel, -, hidle, -, -, hgoals⟩ := hcases
    rw [hgoals] at hg
    obtain ⟨y, hy, rfl⟩ := List.mem_map.1 hg
    by_cases hyu : y.uid = s.uid
    · rw [if_pos hyu] at hstart
      exact absurd ((uid_launch y).trans hyu).symm (hstart s hstarts)
    · rw [if_neg hyu] at hactive
      exact absurd hactive (hidle y hy)

/-- The goal a call starts runs after it, at its step, with one attempt
more. -/
theorem started_spec (hw : Settled .trivial w) {c : Call} {s : Goal} (hstarts : starts w c = some s)
    (hg : g ∈ (call w c).goals) (huid : g.uid = s.uid) :
    g.step = s.step ∧ g.attempts = s.attempts + 1 := by
  have hcases := call_cases hw c
  rw [hstarts] at hcases
  obtain ⟨sel, -, -, hn, ⟨x, hx, hxu, hxstep, hxattempts, hsome, -⟩, hgoals⟩ := hcases
  rw [hgoals] at hg
  obtain ⟨y, hy, rfl⟩ := List.mem_map.1 hg
  by_cases hyu : y.uid = s.uid
  · rw [if_pos hyu, List.inj_on_of_nodup_map hn hy hx (hyu.trans hxu.symm)]
    exact ⟨(step_launch x).trans hxstep, by rw [attempts_launch hsome, hxattempts]⟩
  · rw [if_neg hyu] at huid
    exact absurd huid hyu

/-! ## Runs -/

/-- The registry after some calls. -/
def after (calls : List Call) : World := Machine.run call World.start calls

theorem stands_after (calls : List Call) : Stands (after calls) := by
  have hstep : ∀ (w : World) (c : Call), Stands w → Stands (call w c) := fun w c hw =>
    stands_call hw c
  exact Machine.invariant hstep stands_start calls

/-- A goal that no call of a run starts, and that runs after it, has run
from the beginning. -/
theorem active_through (hw : Stands w) {mid : List Call}
    (hmid : Machine.Meets call (fun w c => ∀ x, starts w c = some x → x.uid ≠ g.uid) w mid)
    (hg : g ∈ (Machine.run call w mid).goals) (hactive : g.state = .active) :
    ∃ x ∈ w.goals, x.uid = g.uid ∧ x.state = .active ∧ x.step = g.step ∧
      x.attempts = g.attempts := by
  induction mid generalizing w with
  | nil => exact ⟨g, hg, rfl, hactive, rfl, rfl⟩
  | cons c mid ih =>
    obtain ⟨x, hx, hxu, hxs, hstep, hattempts⟩ := ih (stands_call hw c) hmid.2 hg
    have hstart : ∀ y, starts w c = some y → y.uid ≠ x.uid := by
      intro y hy
      rw [hxu]
      exact hmid.1 y hy
    obtain ⟨y, hy, hyu, hys, hystep, hyattempts⟩ := active_before hw.settled hstart hx hxs
    exact ⟨y, hy, hyu.trans hxu, hys, hystep.trans hstep, hyattempts.trans hattempts⟩

/-- **A tick takes a running goal off its step**: with its attempt taken
back if the job is still the goal's, and as it is if not. -/
theorem interrupted_spec (hw : Stands w) {id : Bytes} (hid : w.active = some id) {ctx : Context}
    {accepted : Bool} {now : ℕ} {larder : FoodCycle.Larder} (hg : g ∈ w.goals)
    (hactive : g.state = .active) (hg' : g' ∈ (call w (.tick ctx accepted now larder)).goals)
    (huid : g'.uid = g.uid) (hoff : g'.state ≠ .active) :
    g'.step = g.step ∧
      (w.payloadGoal = some id ∧ g'.attempts = g.attempts - 1 ∨
        w.payloadGoal ≠ some id ∧ g'.attempts = g.attempts) := by
  have htick : call w (.tick ctx accepted now larder) = tickActive w id ctx now := by
    simp only [call, tick, hid]
  rw [htick] at hg'
  cases hfind : w.goals.find? (fun g => g.id = id && g.state = .active) with
  | none =>
    have hsame : (tickActive w id ctx now).goals = w.goals := by
      simp only [tickActive, hfind]
      split <;> rfl
    rw [hsame] at hg'
    exact absurd (hw.settled.eq_of_uid hg hg' huid ▸ hactive) hoff
  | some k =>
    obtain ⟨hk, -, hkactive⟩ := mem_of_findActive hfind
    obtain rfl := hw.one.eq hg hk hactive hkactive
    obtain ⟨sel, -, hsel, hn, hcases⟩ := tickActive_cases hw.settled hfind ctx now
    have hone : ∀ y ∈ sel, y.uid = g.uid → y = g := fun y hy hyu =>
      List.inj_on_of_nodup_map hn hy hsel hyu
    -- the record of the table is the changed one
    have hupdated : ∀ f : Goal → Goal, (f g).uid = g.uid → g' ∈ Goals.update sel g.uid f →
        g' = f g := by
      intro f hf hmem
      obtain ⟨y, hy, rfl⟩ := List.mem_map.1 hmem
      by_cases hyu : y.uid = g.uid
      · rw [if_pos hyu, hone y hy hyu]
      · rw [if_neg hyu] at huid
        exact absurd huid hyu
    rcases hcases with ⟨hpayload, heq⟩ | ⟨hpayload, heq | heq⟩
    · rw [heq] at hg'
      obtain rfl := hupdated (park now) rfl hg'
      exact ⟨rfl, Or.inr ⟨hpayload, rfl⟩⟩
    · rw [heq] at hg'
      exact absurd (hone g' hg' huid ▸ hactive) hoff
    · rw [heq] at hg'
      have hsame := same_mapCurrent g fun s => { s with attempts := s.attempts - 1 }
      obtain rfl := hupdated (fun g => interrupt g ctx now) hsame.uid hg'
      refine ⟨step_mapCurrent g _, Or.inl ⟨hpayload, ?_⟩⟩
      have hcur : (interrupt g ctx now).current =
          g.current.map fun s => { s with attempts := s.attempts - 1 } := current_mapCurrent g _
      unfold Goal.attempts
      rw [hcur]
      cases g.current <;> rfl

/-- **An attempt that a tick ends.** The last call before `mid` starts the
goal, as it was selected; no call of `mid` starts it again; and the tick
finds it running and leaves it not running, for a body that still has a
goal in hand. -/
structure Attempt (pre : List Call) (c : Call) (mid : List Call) (tick : Call)
    (g running off : Goal) : Prop where
  started : starts (after pre) c = some g
  alone : Machine.Meets call (fun w d => ∀ x, starts w d = some x → x.uid ≠ g.uid)
    (after (pre ++ [c])) mid
  isTick : ∃ ctx accepted now larder, tick = .tick ctx accepted now larder
  inHand : (after (pre ++ c :: mid)).active.isSome = true
  found : running ∈ (after (pre ++ c :: mid)).goals
  left : off ∈ (after (pre ++ c :: (mid ++ [tick]))).goals
  same : running.uid = g.uid ∧ off.uid = g.uid
  active : running.state = .active
  stopped : off.state ≠ .active

/-- **The steps of a goal.** After any run at most one goal runs, and every
other goal than the food goal that is not done stands at one of its steps.
An attempt that a tick ends leaves the step, and leaves the count as it was
before the attempt if and only if the body's job is still the goal's. -/
theorem step_machine (calls : List Call) :
    OneActive (after calls).goals ∧
    (∀ g ∈ (after calls).goals, g.kind ≠ .restockFood → g.state ≠ .done →
      1 ≤ g.step ∧ g.step ≤ g.steps.length) ∧
    ∀ pre c mid tick g running off, calls = pre ++ c :: (mid ++ [tick]) →
      Attempt pre c mid tick g running off →
      off.step = g.step ∧
        (off.attempts = g.attempts ↔
          (after (pre ++ c :: mid)).payloadGoal = (after (pre ++ c :: mid)).active) := by
  have hstands := stands_after calls
  refine ⟨hstands.one, fun g hg hfood hdone => (hstands.range g hg hfood).2 hdone, ?_⟩
  rintro pre c mid tick g running off - h
  have hafter : after (pre ++ [c]) = call (after pre) c := Machine.run_snoc _ _ _ _
  have hmid : after (pre ++ c :: mid) = Machine.run call (after (pre ++ [c])) mid := by
    unfold after
    rw [← Machine.run_append, List.append_assoc, List.singleton_append]
  have htick : after (pre ++ c :: (mid ++ [tick])) = call (after (pre ++ c :: mid)) tick := by
    rw [← List.cons_append, ← List.append_assoc]
    exact Machine.run_snoc _ _ _ _
  have halone : Machine.Meets call (fun w d => ∀ x, starts w d = some x → x.uid ≠ running.uid)
      (after (pre ++ [c])) mid := h.same.1 ▸ h.alone
  obtain ⟨x, hx, hxu, -, hxstep, hxattempts⟩ :=
    active_through (stands_after (pre ++ [c])) halone (hmid ▸ h.found) h.active
  obtain ⟨hstep, hattempts⟩ := started_spec (stands_after pre).settled h.started (hafter ▸ hx)
    (hxu.trans h.same.1)
  obtain ⟨id, hid⟩ := Option.isSome_iff_exists.1 h.inHand
  obtain ⟨ctx, accepted, now, larder, rfl⟩ := h.isTick
  obtain ⟨hoff, hcases⟩ := interrupted_spec (stands_after (pre ++ c :: mid)) hid h.found h.active
    (htick ▸ h.left) (h.same.2.trans h.same.1.symm) h.stopped
  refine ⟨by rw [hoff, ← hxstep, hstep], ?_⟩
  rw [hid]
  rcases hcases with ⟨hpayload, hcount⟩ | ⟨hpayload, hcount⟩
  · exact ⟨fun _ => hpayload, fun _ => by omega⟩
  · exact ⟨fun heq => by omega, fun heq => absurd heq hpayload⟩

/-! ## A nail stock that is interrupted -/

/-- The nails are ordered, and their step is started. -/
def nailsOrdered : List Call := [.add (Bytes.lit "nails") 0 0]

def nailsTick (ctx : Context) (now : ℕ) : Call := .tick ctx true now noLarder

def nails : Goal := newGoal 0 .stockNails 0 0

theorem nailsStarted : starts (after nailsOrdered) (nailsTick atRest 0) = some nails := by
  decide

/-- A zombie comes near: the attempt is not counted. -/
theorem step_machine_threat :
    (interrupt (launch nails) { atRest with threat := true } 1000).attempts = nails.attempts := by
  have hattempt : Attempt nailsOrdered (nailsTick atRest 0) []
      (nailsTick { atRest with threat := true } 1000) nails (launch nails)
      (interrupt (launch nails) { atRest with threat := true } 1000) := by
    refine ⟨nailsStarted, trivial, ⟨_, _, _, _, rfl⟩, ?_, ?_, ?_, ?_, ?_, ?_⟩
    all_goals decide
  have hpayload : (after (nailsOrdered ++ [nailsTick atRest 0])).payloadGoal =
      (after (nailsOrdered ++ [nailsTick atRest 0])).active := by decide
  exact (((step_machine (nailsOrdered ++ nailsTick atRest 0 ::
    ([] ++ [nailsTick { atRest with threat := true } 1000]))).2.2 _ _ _ _ _ _ _ rfl hattempt).2).2
      hpayload

/-- **An order of the owner counts as an attempt.** The job is replaced
while the step runs, and the step keeps the attempt it was started with. -/
theorem order_counts_attempt :
    Attempt nailsOrdered (nailsTick atRest 0)
        [.body .returnToBase none (some (goalId .stockNails 0))] (nailsTick atRest 1000) nails
        (launch nails) (park 1000 (launch nails)) ∧
      (park 1000 (launch nails)).attempts ≠ nails.attempts := by
  refine ⟨⟨nailsStarted, ⟨fun x hx => (by cases hx), trivial⟩, ⟨_, _, _, _, rfl⟩, ?_, ?_, ?_, ?_,
    ?_, ?_⟩, ?_⟩
  all_goals decide

end Goals

end GoblinZomboid
