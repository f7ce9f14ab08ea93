import GoblinZomboid.Agent.Moves
import GoblinZomboid.Lib.JsonNesting
/-!
# A self through a restart

`save_self` cuts the JSON of a self off at 16000 characters; `load_self` takes
what cannot be read for nothing. So a self comes back exactly when its text
can be written, can be encoded and is not cut off.
-/

namespace GoblinZomboid

namespace Sentience

/-! ## From data and back -/

/-- The goal as another object. -/
def Goal.renew (ref : ℕ) (g : Goal) : Goal := { g with ref := ref }

def Suspended.renew (ref : ℕ) (s : Suspended) : Suspended := { s with goal := s.goal.renew ref }

/-- The self with new goal objects, as `Self.ofData` makes them. -/
def Self.renew (ref : ℕ) (st : Self) : Self :=
  { st with
    currentGoal := st.currentGoal.map (Goal.renew ref)
    suspendedGoal := st.suspendedGoal.map (Suspended.renew (ref + 1)) }

theorem strOrNone?_strOrNone (t : Option PyStr) : strOrNone? (strOrNone t) = some t := by
  cases t <;> rfl

theorem Goal.ofData_data (ref : ℕ) (g : Goal) : Goal.ofData ref g.data = some (g.renew ref) := by
  obtain ⟨old, goal, reason, started, unverified⟩ := g
  cases unverified <;> cases reason <;> rfl

theorem PlanStep.ofData_data (s : PlanStep) : PlanStep.ofData s.data = some s := by
  obtain ⟨intent, note, job, failures⟩ := s
  cases job <;> cases failures <;> rfl

/-- A list whose elements are read back. -/
theorem mapM_map {α : Type} {f : α → PyData} {g : PyData → Option α} (h : ∀ a, g (f a) = some a)
    (l : List α) : (l.map f).mapM g = some l := by
  induction l with
  | nil => rfl
  | cons a l ih =>
    rw [List.map_cons, List.mapM_cons, h, ih]
    rfl

theorem planOfData_data (plan : List PlanStep) : planOfData (planData plan) = some plan :=
  mapM_map PlanStep.ofData_data plan

theorem Suspended.ofData_data (ref : ℕ) (s : Suspended) :
    Suspended.ofData ref s.data = some (s.renew ref) := by
  show (do
    let goal ← Goal.ofData ref s.goal.data
    let plan ← planOfData (planData s.plan)
    let currentStep ← nat? (.int s.currentStep)
    return (⟨goal, plan, currentStep⟩ : Suspended)) = _
  rw [Goal.ofData_data, planOfData_data]
  rfl

theorem expectationsOfData_data (expectations : List (PyStr × PyStr)) :
    expectationsOfData (.dict (expectations.map fun e => (e.1, .str e.2))) = some expectations := by
  show (expectations.map fun e => (e.1, PyData.str e.2)).mapM
    (fun e => (str? e.2).map fun t => (e.1, t)) = _
  induction expectations with
  | nil => rfl
  | cons e rest ih =>
    rw [List.map_cons, List.mapM_cons, ih]
    rfl

/-- **A self is read back** from its data, with new goal objects. -/
theorem Self.ofData_data (ref : ℕ) (st : Self) :
    Self.ofData ref st.data = some (st.renew ref) := by
  have hcurrent : orNone? (Goal.ofData ref) ((st.currentGoal.map Goal.data).getD .none) =
      some (st.currentGoal.map (Goal.renew ref)) := by
    cases st.currentGoal with
    | none => rfl
    | some g =>
      show (Goal.ofData ref g.data).map some = _
      rw [Goal.ofData_data]
      rfl
  have hsuspended : orNone? (Suspended.ofData (ref + 1))
      ((st.suspendedGoal.map Suspended.data).getD .none) =
      some (st.suspendedGoal.map (Suspended.renew (ref + 1))) := by
    cases st.suspendedGoal with
    | none => rfl
    | some s =>
      show (Suspended.ofData (ref + 1) s.data).map some = _
      rw [Suspended.ofData_data]
      rfl
  have hdesires : listOfData desireOfData (.list (st.desires.map desireData)) = some st.desires :=
    @mapM_map _ desireData desireOfData (fun _ => rfl) st.desires
  have hthoughts : listOfData str? (.list (st.thoughts.map .str)) = some st.thoughts :=
    @mapM_map _ PyData.str str? (fun _ => rfl) st.thoughts
  show (do
    let identity ← str? (.str st.identity)
    let name ← strOrNone? (strOrNone st.name)
    let owner ← strOrNone? (strOrNone st.owner)
    let mood ← str? (.str st.mood)
    let desires ← listOfData desireOfData (.list (st.desires.map desireData))
    let currentGoal ← orNone? (Goal.ofData ref) ((st.currentGoal.map Goal.data).getD .none)
    let suspendedGoal ← orNone? (Suspended.ofData (ref + 1))
      ((st.suspendedGoal.map Suspended.data).getD .none)
    let plan ← planOfData (planData st.plan)
    let currentStep ← nat? (.int st.currentStep)
    let thoughts ← listOfData str? (.list (st.thoughts.map .str))
    let expectations ← expectationsOfData
      (.dict (st.expectations.map fun e : PyStr × PyStr => (e.1, PyData.str e.2)))
    let lastReflectAt ← float? (.float st.lastReflectAt)
    let reflections ← nat? (.int st.reflections)
    return (⟨identity, name, owner, mood, desires, currentGoal, suspendedGoal, plan, currentStep,
      thoughts, expectations, lastReflectAt, reflections⟩ : Self)) = _
  rw [strOrNone?_strOrNone, strOrNone?_strOrNone, hdesires, hcurrent, hsuspended, planOfData_data,
    hthoughts, expectationsOfData_data]
  rfl

theorem Self.data_renew (ref : ℕ) (st : Self) : (st.renew ref).data = st.data := by
  obtain ⟨identity, name, owner, mood, desires, current, suspended, plan, step, thoughts,
    expectations, last, reflections⟩ := st
  cases current <;> cases suspended <;> rfl

/-! ## Selves that are well formed -/

/-- Its times are floats, and it expects one thing at a time of anything. -/
structure Self.Formed (st : Self) : Prop where
  reflected : PyJson.IsFloat st.lastReflectAt
  current : ∀ g ∈ st.currentGoal, PyJson.IsFloat g.started
  aside : ∀ s ∈ st.suspendedGoal, PyJson.IsFloat s.goal.started
  expectations : (st.expectations.map Prod.fst).Nodup

variable {st : Self} {ref : ℕ}

theorem Self.Formed.renew (h : st.Formed) : (st.renew ref).Formed where
  reflected := h.reflected
  current g hg := by
    obtain ⟨g', hg', rfl⟩ := Option.map_eq_some_iff.1 hg
    exact h.current g' hg'
  aside s hs := by
    obtain ⟨s', hs', rfl⟩ := Option.map_eq_some_iff.1 hs
    exact h.aside s' hs'
  expectations := h.expectations

theorem formed_strOrNone (t : Option PyStr) : (strOrNone t).Formed := by
  cases t <;> trivial

theorem formedItems_of_forall {items : List PyData} (h : ∀ v ∈ items, v.Formed) :
    PyData.FormedItems items := by
  induction items with
  | nil => trivial
  | cons v items ih =>
    obtain ⟨hv, hitems⟩ := List.forall_mem_cons.1 h
    exact ⟨hv, ih hitems⟩

theorem formedEntries_of_forall {entries : List (PyStr × PyData)} (h : ∀ e ∈ entries, e.2.Formed) :
    PyData.FormedEntries entries := by
  induction entries with
  | nil => trivial
  | cons e entries ih =>
    obtain ⟨he, hentries⟩ := List.forall_mem_cons.1 h
    exact ⟨he, ih hentries⟩

/-- Literal keys are told apart as strings. -/
theorem nodup_keys {entries : List (PyStr × PyData)} {keys : List String}
    (h : entries.map Prod.fst = keys.map PyStr.lit) (hkeys : (keys.map PyStr.lit).Nodup) :
    (entries.map Prod.fst).Nodup := h ▸ hkeys

theorem formed_goal {g : Goal} (h : PyJson.IsFloat g.started) : g.data.Formed := by
  obtain ⟨old, goal, reason, started, unverified⟩ := g
  have hreason := formed_strOrNone reason
  cases unverified with
  | true =>
    exact ⟨@nodup_keys _ ["goal", "reason", "started", "unverified_steps"] rfl (by decide), trivial,
      hreason, h, trivial, trivial⟩
  | false =>
    exact ⟨@nodup_keys _ ["goal", "reason", "started"] rfl (by decide), trivial, hreason, h,
      trivial⟩

theorem formed_desire (d : PyStr × ℕ) : (desireData d).Formed :=
  ⟨@nodup_keys _ ["goal", "priority"] rfl (by decide), trivial, trivial, trivial⟩

theorem formed_step (s : PlanStep) : s.data.Formed := by
  obtain ⟨intent, note, job, failures⟩ := s
  cases job with
  | none =>
    cases failures with
    | zero => exact ⟨@nodup_keys _ ["intent", "note"] rfl (by decide), trivial, trivial, trivial⟩
    | succ n =>
      exact ⟨@nodup_keys _ ["intent", "note", "failures"] rfl (by decide), trivial, trivial,
        trivial, trivial⟩
  | some job =>
    cases failures with
    | zero =>
      exact ⟨@nodup_keys _ ["intent", "note", "job"] rfl (by decide), trivial, trivial,
        trivial, trivial⟩
    | succ n =>
      exact ⟨@nodup_keys _ ["intent", "note", "job", "failures"] rfl (by decide), trivial,
        trivial, trivial, trivial, trivial⟩

theorem formed_map {α : Type} {f : α → PyData} (h : ∀ a, (f a).Formed) (l : List α) :
    (PyData.list (l.map f)).Formed := by
  refine formedItems_of_forall fun v hv => ?_
  obtain ⟨a, -, rfl⟩ := List.mem_map.1 hv
  exact h a

/-- **The data of a well formed self** is well formed. -/
theorem Self.Formed.data (h : st.Formed) : st.data.Formed := by
  have hcurrent : ((st.currentGoal.map Goal.data).getD .none).Formed := by
    cases hgoal : st.currentGoal with
    | none => trivial
    | some g => exact formed_goal (h.current g hgoal)
  have hsuspended : ((st.suspendedGoal.map Suspended.data).getD .none).Formed := by
    cases haside : st.suspendedGoal with
    | none => trivial
    | some s =>
      exact ⟨@nodup_keys _ ["goal", "plan", "current_step"] rfl (by decide),
        formed_goal (h.aside s haside), formed_map formed_step s.plan, trivial, trivial⟩
  have hexpectations :
      (PyData.dict (st.expectations.map fun e => (e.1, PyData.str e.2))).Formed := by
    refine ⟨?_, formedEntries_of_forall fun e he => ?_⟩
    · rw [List.map_map]
      exact h.expectations
    · obtain ⟨e', -, rfl⟩ := List.mem_map.1 he
      trivial
  exact ⟨@nodup_keys _ ["identity", "name", "owner", "mood", "desires", "current_goal",
      "suspended_goal", "plan", "current_step", "thoughts", "expectations", "last_reflect_at",
      "reflections"] rfl (by decide), trivial, formed_strOrNone _, formed_strOrNone _, trivial,
    formed_map formed_desire st.desires, hcurrent, hsuspended,
    formed_map formed_step st.plan, trivial, @formed_map _ PyData.str (fun _ => trivial) st.thoughts,
    hexpectations, h.reflected, trivial, trivial⟩

/-! ## Saving and loading -/

/-- The self fits the row: each of its texts can be encoded, its numbers can be
written, and it weighs no more than 16000 characters. -/
structure Self.Fits (st : Self) : Prop where
  encodable : st.data.encodable = true
  writable : st.data.writable = true
  weight : st.data.weight ≤ 16000

/-- What fits is saved as it is. -/
theorem Self.Formed.loads_saved (h : st.Formed) (hfits : st.Fits) :
    ∃ text v, savedText st = some text ∧ PyJson.loads text = some v ∧
      PyData.ofValue v = st.data := by
  obtain ⟨v, text, hv, htext, hloads⟩ :=
    PyData.loads_json h.data hfits.encodable hfits.writable
  refine ⟨text, v, ?_, hloads, hv⟩
  rw [savedText, if_pos hfits.writable, List.take_of_length_le, htext, PyStr.encode_ofText]
  rw [PyData.length_json]
  exact hfits.weight

/-- What can be encoded and written is saved, if only its beginning. -/
theorem Self.Formed.exists_saved (h : st.Formed) (hencodable : st.data.encodable = true)
    (hwritable : st.data.writable = true) : ∃ text, savedText st = some text := by
  obtain ⟨v, text, -, htext, -⟩ := PyData.loads_json h.data hencodable hwritable
  refine ⟨text.take 16000, ?_⟩
  rw [savedText, if_pos hwritable, htext, PyStr.ofText, ← List.map_take]
  exact PyStr.encode_ofText _

/-- **A text that was saved** is read exactly when it was not cut off, and then
the self fits. -/
theorem Self.Formed.loads_iff (h : st.Formed) {text : PyText} (hsaved : savedText st = some text) :
    (PyJson.loads text = none ↔ 16000 < st.data.weight) ∧
      (st.data.weight ≤ 16000 → st.Fits) := by
  rw [savedText] at hsaved
  split at hsaved
  swap
  · cases hsaved
  rename_i hwritable
  rw [PyStr.encode_eq_some] at hsaved
  have hfits : st.data.weight ≤ 16000 → st.Fits := by
    intro hweight
    refine ⟨PyData.encodable_of_json _ fun n hn => ?_, hwritable, hweight⟩
    rw [List.take_of_length_le (by rw [PyData.length_json]; exact hweight)] at hsaved
    rw [hsaved] at hn
    obtain ⟨c, -, hc⟩ := List.mem_map.1 hn
    cases hc
  refine ⟨⟨fun hnone => ?_, fun hweight => ?_⟩, hfits⟩
  · by_contra hle
    obtain ⟨text', v, hsaved', hloads, -⟩ := h.loads_saved (hfits (Nat.le_of_not_lt hle))
    rw [savedText, if_pos hwritable, PyStr.encode_eq_some, hsaved] at hsaved'
    have hsame : text = text' := List.map_injective_iff.2 (fun _ _ hc => by cases hc; rfl) hsaved'
    rw [hsame, hloads] at hnone
    cases hnone
  · refine JsonNesting.loads_cut h.data ?_ fun hall => ?_
    · rw [← hsaved]
      exact List.take_prefix _ _
    · have hwhole : PyStr.ofText text = st.data.json := hall
      have hlength := congrArg List.length hsaved
      have hlength' := PyData.length_json st.data
      rw [List.length_take, hwhole] at hlength
      omega

/-- **What is saved comes back**: `load_self` after `save_self` answers the data
of the self that is there. -/
def Kept (s : Scene) : Prop :=
  ∀ times, ∃ st, ((do save; loadSelf : Act (Option Self)).run s times).1.map Prod.fst =
    some (.ok (some st)) ∧ s.me.self.map Self.data = some st.data

/-- What `load_self` makes of a row. -/
def loaded (made : ℕ) (row : PyText) : Option Self :=
  (PyJson.loads row).bind fun v => Self.ofData made (PyData.ofValue v)

theorem run_saveLoad (s : Scene) (times : Turns PyTime) (hself : s.me.self = some st) :
    ((do save; loadSelf : Act (Option Self)).run s times).1.map Prod.fst =
      match savedText st, PyStr.encode s.npcId with
      | some text, some _ => some (.ok (loaded s.me.made text))
      | _, _ => some (.error ()) := by
  obtain ⟨npcId, me, episodes⟩ := s
  obtain ⟨self, inbox, seen, jobs, row, made, told⟩ := me
  cases hself
  have hbind : ∀ {α : Type} (f : Scene → Except Unit Unit × Scene) (m : Act α) (s : Scene),
      ((do Attempt.state f; m : Act α).run s times) =
        match (f s).1 with
        | .ok _ => m.run (f s).2 times
        | .error e => (some (.error e, times), (f s).2) := by
    intro α f m s
    show (ExceptT.bindCont (fun _ => m) (f s).1 : Script Scene PyTime (Except Unit α))
      (f s).2 times = _
    cases (f s).1 <;> rfl
  have hstate : ∀ {α : Type} (f : Scene → Except Unit α × Scene) (s : Scene),
      (Attempt.state f : Act α).run s times = (some ((f s).1, times), (f s).2) := fun _ _ => rfl
  rw [save, hbind]
  dsimp only
  cases savedText st with
  | none => rfl
  | some text =>
    cases hid : PyStr.encode npcId with
    | none => rfl
    | some id =>
      dsimp only
      rw [loadSelf, hstate]
      dsimp only
      rw [hid]
      rfl

/-- **A well formed self is kept** exactly when its companion's name can be
encoded and the self fits. -/
theorem Self.Formed.keeps_iff (h : st.Formed) {s : Scene} (hself : s.me.self = some st) :
    Kept s ↔ (PyStr.encode s.npcId).isSome = true ∧ st.Fits := by
  constructor
  · intro hkept
    obtain ⟨st', hrun, -⟩ := hkept fun _ => PyTime.zero
    rw [run_saveLoad s _ hself] at hrun
    split at hrun
    · rename_i text id hsaved hid
      refine ⟨by rw [hid]; rfl, (h.loads_iff hsaved).2 (Nat.le_of_not_lt fun hcut => ?_)⟩
      have hloaded : loaded s.me.made text = some st' :=
        Except.ok.inj (Option.some.inj hrun)
      rw [loaded, (h.loads_iff hsaved).1.2 hcut] at hloaded
      cases hloaded
    · cases Option.some.inj hrun
  · rintro ⟨hid, hfits⟩ times
    obtain ⟨id, hid⟩ := Option.isSome_iff_exists.1 hid
    obtain ⟨text, v, hsaved, hloads, hv⟩ := h.loads_saved hfits
    refine ⟨st.renew s.me.made, ?_, by rw [hself, Self.data_renew]; rfl⟩
    rw [run_saveLoad s times hself, hsaved, hid]
    show some (Except.ok (loaded s.me.made text)) = _
    rw [loaded, hloads, Option.bind_some, hv, Self.ofData_data]

/-! ## Every self that is reached -/

/-- What is stored is read as a well formed self, if as one at all. -/
def RowFormed (row : PyText) : Prop := ∀ made st, loaded made row = some st → st.Formed

theorem Self.Formed.row (h : st.Formed) {text : PyText} (hsaved : savedText st = some text) :
    RowFormed text := by
  intro made st' hloaded
  by_cases hweight : 16000 < st.data.weight
  · rw [loaded, (h.loads_iff hsaved).1.2 hweight] at hloaded
    cases hloaded
  · obtain ⟨text', v, hsaved', hloads, hv⟩ :=
      h.loads_saved ((h.loads_iff hsaved).2 (Nat.le_of_not_lt hweight))
    obtain rfl : text = text' := Option.some.inj (hsaved.symm.trans hsaved')
    rw [loaded, hloads, Option.bind_some, hv, Self.ofData_data] at hloaded
    cases hloaded
    exact h.renew

/-- The self of a companion, and the one stored for it, are well formed. -/
structure Formed (me : Companion) : Prop where
  self : ∀ st ∈ me.self, st.Formed
  row : ∀ row ∈ me.row, RowFormed row

variable {me : Companion} {npcId : PyStr} {lower : PyStr → PyStr}

theorem formed_new (name owner : Option PyStr) : (newSelf npcId name owner).Formed :=
  ⟨isFloat_zero, nofun, nofun, List.nodup_nil⟩

theorem Formed.rest (h : Formed me) {me' : Companion} (hself : me'.self = me.self)
    (hrow : me'.row = me.row) : Formed me' := ⟨hself ▸ h.self, hrow ▸ h.row⟩

theorem Formed.on (h : Formed me) {f : Self → Self} (hf : ∀ st, st.Formed → (f st).Formed) :
    Formed (me.on f) := by
  refine ⟨fun st hst => ?_, h.row⟩
  obtain ⟨st', hst', rfl⟩ := Option.map_eq_some_iff.1 hst
  exact hf st' (h.self st' hst')

theorem Formed.tell (h : Formed me) (what : Goal → List Happening) : Formed (me.tell what) :=
  h.rest rfl rfl

theorem Self.Formed.resume (h : st.Formed) : st.resume.Formed := by
  unfold Self.resume
  split
  · rename_i s hs
    refine ⟨h.reflected, fun g hg => ?_, nofun, h.expectations⟩
    cases hg
    exact h.aside s hs
  · exact ⟨h.reflected, nofun, h.aside, h.expectations⟩

theorem Self.Formed.unverify (h : st.Formed) : st.unverify.Formed := by
  refine ⟨h.reflected, fun g hg => ?_, h.aside, h.expectations⟩
  obtain ⟨g', hg', rfl⟩ := Option.map_eq_some_iff.1 hg
  exact h.current g' hg'

theorem Self.Formed.suspend (h : st.Formed) : st.suspend.Formed := by
  unfold Self.suspend
  split
  · rename_i goal hgoal _
    refine ⟨h.reflected, h.current, fun s hs => ?_, h.expectations⟩
    cases hs
    exact h.current goal hgoal
  · exact h

/-- What is assigned is in the dictionary once. -/
theorem nodup_assign {α : Type} {d : List (PyStr × α)} (h : (d.map Prod.fst).Nodup) (key : PyStr)
    (value : α) : ((assign d key value).map Prod.fst).Nodup := by
  unfold assign
  split
  · have hkeys : (d.map fun e => if e.1 = key then (key, value) else e).map Prod.fst =
        d.map Prod.fst := by
      rw [List.map_map]
      refine List.map_congr_left fun e _ => ?_
      show (if e.1 = key then (key, value) else e).1 = e.1
      split
      · rename_i he
        exact he.symm
      · rfl
    rw [hkeys]
    exact h
  · rename_i hnew
    rw [List.map_append, List.nodup_append]
    refine ⟨h, List.nodup_singleton _, fun k hk k' hk' => ?_⟩
    rintro rfl
    obtain ⟨e, he, rfl⟩ := List.mem_map.1 hk
    rw [List.map_singleton, List.mem_singleton] at hk'
    exact hnew (List.any_eq_true.2 ⟨e, he, decide_eq_true hk'⟩)

theorem Self.Formed.addExpectation (h : st.Formed) (about expect : PyStr) :
    (addExpectation about expect st).Formed := by
  refine ⟨h.reflected, h.current, h.aside, ?_⟩
  have hnodup := nodup_assign h.expectations about expect
  show (((assign st.expectations about expect).drop _).map Prod.fst).Nodup
  rw [List.map_drop]
  exact hnodup.sublist (List.drop_sublist _ _)

namespace Formed

/-- The self that comes out is well formed, wherever it comes from. -/
theorem holds_selfOf {name owner : Option PyStr} :
    Attempt.Holds (On npcId Formed) (selfOf name owner)
      (fun st s => On npcId Formed s ∧ st.Formed) (On npcId Formed) := by
  refine holds_of_here fun me hme => ?_
  refine .bind (Q := fun s₀ s => (s₀.npcId = npcId ∧ s₀.me = me) ∧ Here npcId me s)
    (.get fun s hs => ⟨⟨hs.1, hs.2⟩, hs⟩) fun s₀ => .assume fun hs₀ => ?_
  rw [hs₀.1, hs₀.2]
  rcases hself : me.self with _ | st
  · refine .bind (Q := fun found s => On npcId Formed s ∧ ∀ st ∈ found, st.Formed) ?_
      fun found => ?_
    · refine .state (fun s a hs ha => ?_) fun s e hs he => ?_
      · rw [hs.1, hs.2] at ha ⊢
        rcases hencode : PyStr.encode npcId with _ | text
        · rw [hencode] at ha
          cases ha
        · rw [hencode] at ha
          cases ha
          refine ⟨⟨rfl, hme.rest rfl rfl⟩, fun st hst => ?_⟩
          obtain ⟨row, hrow, hst⟩ := Option.bind_eq_some_iff.1 hst
          exact hme.row row hrow me.made st hst
      · rw [hs.1] at he ⊢
        rcases hencode : PyStr.encode npcId with _ | text
        · exact hs.on hme
        · rw [hencode] at he
          cases he
    · refine .pure fun s hs => ⟨hs.1, ?_⟩
      cases hfound : found with
      | none => exact formed_new name owner
      | some st => exact hs.2 st hfound
  · exact .pure fun s hs => ⟨hs.on hme, hme.self st hself⟩

theorem keeps_get {name owner : Option PyStr} :
    Attempt.Keeps (On npcId Formed) (get name owner) := by
  refine Attempt.Holds.bind holds_selfOf fun st => ?_
  refine Attempt.Holds.bind (Q := fun _ => On npcId Formed) (.modify fun s hs => ?_) fun _ =>
    .pure fun _ hs => hs
  refine ⟨hs.1.1, fun st' hst' => ?_, hs.1.2.row⟩
  cases hst'
  exact ⟨hs.2.reflected, hs.2.current, hs.2.aside, hs.2.expectations⟩

theorem keeps_save : Attempt.Keeps (On npcId Formed) save := by
  refine .state fun s hs => ?_
  rcases hself : s.me.self with _ | st
  · exact hs
  · dsimp only
    split
    · rename_i text id hsaved _
      refine ⟨hs.1, fun st' hst' => ?_, fun row hrow => ?_⟩
      · exact hs.2.self st' hst'
      · cases hrow
        exact (hs.2.self st hself).row hsaved
    · exact hs

theorem keeps_update {f : Self → Self} (hf : ∀ st, st.Formed → (f st).Formed) :
    Attempt.Keeps (On npcId Formed) (update f) := keeps_onMe fun _ hme => hme.on hf

/-- Inbox, snapshots and jobs are beside the self. -/
theorem keeps_beside {f : Companion → Companion}
    (h : ∀ me, (f me).self = me.self ∧ (f me).row = me.row) :
    Attempt.Keeps (On npcId Formed) (onMe f) := keeps_onMe fun me hme => hme.rest (h me).1 (h me).2

theorem keeps_finishGoal {complete : Bool} :
    Attempt.Keeps (On npcId Formed) (finishGoal lower complete) := by
  have hfinish : Attempt.Keeps (On npcId Formed) (onMe fun me => me.finish complete) :=
    keeps_onMe fun _ hme => (hme.tell _).on fun _ hst => hst.resume
  refine .bind .get fun s => ?_
  cases s.me.goal with
  | none => exact hfinish
  | some goal => exact .bind keeps_record fun _ => hfinish

theorem keeps_skipCoolingSteps :
    Attempt.Keeps (On npcId Formed) (skipCoolingSteps lower) := by
  refine .bind keeps_get fun st => .bind keeps_cooling fun cooling => .when ?_
  refine .bind (keeps_onMe fun _ hme => (hme.tell _).on fun _ hst => ?_) fun _ =>
    .bind (.when keeps_finishGoal) fun _ => keeps_save
  exact ⟨hst.unverify.reflected, hst.unverify.current, hst.aside, hst.expectations⟩

theorem keeps_stepResult {intent : PyStr} {success : Bool} :
    Attempt.Keeps (On npcId Formed) (stepResult lower intent success) := by
  refine .bind keeps_get fun st => ?_
  rcases st.step with _ | step
  · exact .pure ()
  have hfail : ∀ st : Self, st.Formed → st.countFailure.Formed :=
    fun st hst => ⟨hst.reflected, hst.current, hst.aside, hst.expectations⟩
  have hpass : ∀ st : Self, st.Formed → (st.advance 1).Formed :=
    fun st hst => ⟨hst.reflected, hst.current, hst.aside, hst.expectations⟩
  refine .when (.bind (.when (keeps_update hfail)) fun _ => .bind (.when ?_) fun _ =>
    .bind (.when ?_) fun _ => .bind (.when (keeps_beside fun _ => ⟨rfl, rfl⟩)) fun _ => keeps_save)
  · exact .bind (keeps_update fun _ hst => hst.unverify) fun _ => .bind .get fun _ => keeps_record
  · exact .bind (keeps_onMe fun _ hme => (hme.tell _).on hpass) fun _ => .when keeps_finishGoal

theorem keeps_adopt {goal : PyStr} {reason : Option PyStr} {now : PyTime} {plan : List PlanStep}
    {aside : Bool} : Attempt.Keeps (On npcId Formed) (adopt goal reason now plan aside) := by
  refine .when (keeps_onMe fun me hme => tell ?_ _)
  refine (hme.rest rfl rfl : Formed { me with made := me.made + 1 }).on fun st hst => ?_
  have hturned : (if aside then st.suspend else st).Formed := by
    split
    · exact hst.suspend
    · exact hst
  refine ⟨hturned.reflected, fun g hg => ?_, hturned.aside, hturned.expectations⟩
  cases hg
  exact now.2

theorem keeps_carryOut {decision : Decision} {goal reason : Option PyStr} {now : PyTime}
    {plan : List PlanStep} {previous : Option Goal} :
    Attempt.Keeps (On npcId Formed) (carryOut lower decision goal reason now plan previous) := by
  unfold carryOut
  split
  · exact keeps_adopt
  · exact keeps_adopt
  · exact keeps_finishGoal
  · exact .when keeps_adopt
  · exact .pure ()

theorem keeps_applyReflection {output : List (PyStr × PyData)} :
    Attempt.Keeps (On npcId Formed) (applyReflection lower output) := by
  have hinbox : Attempt.Keeps (On npcId Formed) takeInbox :=
    .bind .get fun _ => .bind (keeps_beside fun _ => ⟨rfl, rfl⟩) fun _ => .pure _
  refine .bind keeps_get fun _ => .bind keeps_clock fun now => .bind (keeps_update fun st h => ?_)
    fun _ => .bind hinbox fun _ => .bind (keeps_update fun st h => ?_) fun _ =>
    .bind (keeps_update fun st h => ?_) fun _ => .bind (keeps_update fun st h => ?_) fun _ =>
    .bind keeps_opinions fun _ => .bind keeps_cooling fun _ => .bind .get fun _ =>
    .bind keeps_carryOut fun _ => .bind keeps_remember fun _ => .bind keeps_save fun _ => .pure _
  · exact ⟨now.2, h.current, h.aside, h.expectations⟩
  · exact ⟨h.reflected, h.current, h.aside, h.expectations⟩
  · split
    · exact ⟨h.reflected, h.current, h.aside, h.expectations⟩
    · exact h
  · split
    · exact h.addExpectation _ _
    · exact h

/-- **Every call** leaves selves and rows well formed, however it ends. -/
theorem keeps_act {u : Unicode} (op : Op) : Attempt.Keeps (On npcId Formed) (act lower u op) := by
  cases op with
  | meet name owner => exact .bind keeps_get fun _ => .pure ()
  | perceive raw owner seen =>
    have hstore {now : Snapshot} {derived : Bool} {e : PyStr × PyStr} :
        Attempt.Keeps (On npcId Formed) (storeEvent lower owner now derived e) :=
      .bind (.when keeps_record) fun _ => keeps_opinionFromEvent
    rcases seen with _ | now
    · exact Attempt.Holds.throw fun _ hs => hs
    · exact .bind .get fun _ => .bind (keeps_beside fun _ => ⟨rfl, rfl⟩) fun _ =>
        .bind (.each (fun _ => hstore) _) fun _ => .bind (.each (fun _ => hstore) _) fun _ =>
        .when (keeps_beside fun _ => ⟨rfl, rfl⟩)
  | social owner category text =>
    show Attempt.Keeps (On npcId Formed) (social lower owner category text)
    unfold social
    split
    · exact .pure ()
    · exact .bind (keeps_beside fun _ => ⟨rfl, rfl⟩) fun _ => keeps_opinionFromEvent
  | noteJob intent success detail =>
    exact .bind keeps_clock fun _ => keeps_beside fun _ => ⟨rfl, rfl⟩
  | stepResult intent success => exact keeps_stepResult
  | skipCoolingSteps => exact keeps_skipCoolingSteps
  | startReflection =>
    exact .bind keeps_get fun _ => .bind keeps_clock fun now => keeps_update fun st h =>
      ⟨now.2, h.current, h.aside, h.expectations⟩
  | applyReflection output => exact .bind keeps_applyReflection fun _ => .pure ()

end Formed

/-! ## Runs with restarts -/

/-- The agent starts again: what it kept in memory is gone, the tables stay. -/
def Companion.restarted (me : Companion) : Companion :=
  { Companion.unknown with row := me.row, made := me.made, told := me.told }

/-- What happens to the agent. -/
inductive Occasion
  | call (c : Call)
  | restart

variable (lower : PyStr → PyStr) (u : Unicode)

/-- A call works on its companion, a restart on all. -/
def live (s : Sentience) : Occasion → Sentience
  | .call c => step lower u s c
  | .restart => { s with companions := fun npcId => (s.companions npcId).restarted }

/-- What a method called for the companion works on. -/
def scene (s : Sentience) (npcId : PyStr) : Scene := ⟨npcId, s.companions npcId, s.episodes⟩

/-- **Every self that is reached**, restarts included, is well formed. -/
theorem formed_run (occasions : List Occasion) (npcId : PyStr) :
    Formed ((Machine.run (live lower u) fresh occasions).companions npcId) := by
  refine @Machine.invariant _ _ (live lower u) (fun s => ∀ npcId, Formed (s.companions npcId))
    (fun s o hs npcId => ?_) fresh (fun _ => ⟨nofun, nofun⟩) occasions npcId
  cases o with
  | restart => exact ⟨nofun, (hs npcId).row⟩
  | call c =>
    unfold live step
    dsimp only
    by_cases hsame : npcId = c.npcId
    · subst hsame
      rw [Function.update_self]
      exact ((Formed.keeps_act c.op).after (s := ⟨c.npcId, s.companions c.npcId, s.episodes⟩)
        ⟨rfl, hs c.npcId⟩ c.times).2
    · rw [Function.update_of_ne hsame]
      exact hs npcId

/-- **A self comes back** from its row exactly when it fits it; and what is
written is rejected exactly when the self weighs more. -/
theorem comes_back_iff (occasions : List Occasion) (npcId : PyStr) (st : Self)
    (hst : ((Machine.run (live lower u) fresh occasions).companions npcId).self = some st) :
    (Kept (scene (Machine.run (live lower u) fresh occasions) npcId) ↔
      (PyStr.encode npcId).isSome = true ∧ st.Fits) ∧
    ∀ text, savedText st = some text →
      (PyJson.loads text = none ↔ 16000 < st.data.weight) := by
  have hformed := (formed_run lower u occasions npcId).self st hst
  exact ⟨hformed.keeps_iff hst, fun _ hsaved => (hformed.loads_iff hsaved).1⟩

/-- A self that weighs too much is not kept. -/
theorem Self.Formed.not_kept {st : Self} (h : st.Formed) {s : Sentience} {npcId : PyStr}
    (hst : (s.companions npcId).self = some st) (hheavy : 16000 < st.data.weight) :
    ¬ Kept (scene s npcId) := by
  intro hkept
  have hiff := @Self.Formed.keeps_iff st h (scene s npcId) hst
  exact absurd hheavy (Nat.not_lt.2 (hiff.1 hkept).2.weight)

/-- A companion that was just met. -/
theorem comes_back_met : Kept (scene (Machine.run (live id Unicode.ascii) fresh
    [.call ⟨PyStr.lit "goblin-1", .meet none none, fun _ => PyTime.zero⟩])
    (PyStr.lit "goblin-1")) :=
  (comes_back_iff id Unicode.ascii _ _ (newSelf (PyStr.lit "goblin-1") none none)
    (by decide +kernel)).1.2 ⟨by decide +kernel, by decide +kernel, by decide +kernel,
      by decide +kernel⟩

/-! ## A self that does not come back -/

/-- Control characters, which JSON writes with six characters each. -/
def controls (n : ℕ) : PyStr := List.replicate n (.char '\x01')

/-- A reflection as long as its fields may be. -/
def brooding (n : ℕ) : List (PyStr × PyData) :=
  [(PyStr.lit "mood", .str (controls 60)), (PyStr.lit "thought", .str (controls 200)),
    (PyStr.lit "expectation", .dict [(PyStr.lit "about", .str (controls (n + 35))),
      (PyStr.lit "expect", .str (controls 120))])]

/-- A companion is met, and broods so often. -/
def broodRun (k : ℕ) : List Occasion :=
  .call ⟨PyStr.lit "goblin-1", .meet none none, fun _ => PyTime.zero⟩ ::
    (List.range k).map fun n =>
      .call ⟨PyStr.lit "goblin-1", .applyReflection (brooding n), fun _ => PyTime.zero⟩

/-- What such a reflection makes of the self. -/
def Self.brooded (n : ℕ) (now : PyText) (st : Self) : Self :=
  addExpectation (controls (min 40 (n + 35))) (controls 120) (addThought (controls 200)
    { st with lastReflectAt := now, reflections := st.reflections + 1, mood := controls 60 })

/-- The self after so many of them, but for its clock. -/
def broods : ℕ → Self
  | 0 => newSelf (PyStr.lit "goblin-1") none none
  | k + 1 => (broods k).brooded k []

/-- A text without white space is only clipped. -/
theorem text?_controls {n limit : ℕ} (hn : 0 < n) :
    text? (.str (controls n)) limit = some (controls (min limit n)) := by
  have hne : controls n ≠ [] := by
    intro h
    have hlength := congrArg List.length h
    rw [controls, List.length_replicate, List.length_nil] at hlength
    omega
  have hsingle : (controls n).splitOnP PyStr.isSpace = [controls n] := by
    refine List.splitOnP_eq_singleton fun c hc => ?_
    rw [List.eq_of_mem_replicate hc]
    decide
  have hsplit : PyStr.split (controls n) = [controls n] := by
    unfold PyStr.split
    rw [hsingle]
    rw [List.filter_singleton, List.isEmpty_eq_false_iff.2 hne]
    rfl
  unfold text?
  dsimp only
  rw [hsplit, List.intercalate_singleton, if_neg (by rw [List.isEmpty_iff]; exact hne), controls,
    List.take_replicate]
  rfl

theorem expectationOf_brooding (n : ℕ) :
    expectationOf (brooding n) = some (controls (min 40 (n + 35)), controls 120) := by
  have hget : PyData.get (brooding n) "expectation" =
      .dict [(PyStr.lit "about", .str (controls (n + 35))),
        (PyStr.lit "expect", .str (controls 120))] := rfl
  have habout : text? (PyData.get [(PyStr.lit "about", .str (controls (n + 35))),
      (PyStr.lit "expect", .str (controls 120))] "about") 40 =
        some (controls (min 40 (n + 35))) := text?_controls (by omega)
  have hexpect : text? (PyData.get [(PyStr.lit "about", .str (controls (n + 35))),
      (PyStr.lit "expect", .str (controls 120))] "expect") 120 = some (controls 120) :=
    text?_controls (by decide)
  unfold expectationOf
  rw [hget]
  dsimp only
  rw [habout, hexpect]

section Brooding

variable {st : Self} {q : Option Self → Prop} {npcId : PyStr} {lower : PyStr → PyStr}
  {E : Scene → Prop}

/-- Saving leaves the self as it is, whether it succeeds or not. -/
theorem keeps_self_save : Attempt.Keeps (On npcId fun me => q me.self) save := by
  refine .state fun s hs => ?_
  rcases hself : s.me.self with _ | st
  · exact hs
  · dsimp only
    split
    · exact ⟨hs.1, hs.2⟩
    · exact hs

theorem holds_get_self :
    Attempt.Holds (On npcId fun me => me.self = some st) (get none none)
      (fun _ => On npcId fun me => me.self = some st) E := by
  have hself : Attempt.Holds (On npcId fun me => me.self = some st) (selfOf none none)
      (fun st' s => st' = st ∧ On npcId (fun me => me.self = some st) s) E := by
    refine .bind (Q := fun s₀ s => s₀.me.self = some st ∧ On npcId (fun me => me.self = some st) s)
      (.get fun s hs => ⟨hs.2, hs⟩) fun s₀ => .assume fun hs₀ => ?_
    rw [hs₀]
    exact .pure fun s hs => ⟨rfl, hs⟩
  refine .bind hself fun st' => .assume fun hst' => .bind (Q := fun _ => On npcId fun me =>
    me.self = some st) (.modify fun s hs => ⟨hs.1, ?_⟩) fun _ => .pure fun s hs => hs
  subst hst'
  rfl

theorem holds_update_self {f : Self → Self} :
    Attempt.Holds (On npcId fun me => me.self = some st) (update f)
      (fun _ => On npcId fun me => me.self = some (f st)) E :=
  .modify fun _ hs => ⟨hs.1, congrArg (Option.map f) hs.2⟩

/-- **The self after a reflection** is the same whether it can be saved or not. -/
theorem holds_brooding (n : ℕ) :
    Attempt.Holds (On npcId fun me => me.self = some st) (applyReflection lower (brooding n))
      (fun _ => On npcId fun me => ∃ now, me.self = some (st.brooded n now))
      (On npcId fun me => ∃ now, me.self = some (st.brooded n now)) := by
  have hmood : text? (PyData.get (brooding n) "mood") 60 = some (controls 60) :=
    text?_controls (by decide)
  have hthought : text? (PyData.get (brooding n) "thought") 200 = some (controls 200) :=
    text?_controls (by decide)
  have hinbox {E : Scene → Prop} {st : Self} :
      Attempt.Holds (On npcId fun me => me.self = some st) takeInbox
        (fun _ => On npcId fun me => me.self = some st) E :=
    .bind (.get fun _ hs => hs) fun _ =>
      .bind (Q := fun _ => On npcId fun me => me.self = some st) (.modify fun _ hs => hs) fun _ =>
        .pure fun _ hs => hs
  unfold applyReflection
  rw [hmood, hthought, expectationOf_brooding]
  refine .bind holds_get_self fun _ => .bind (.call fun _ _ hs => hs) fun now =>
    .bind holds_update_self fun _ => .bind hinbox fun _ => .bind holds_update_self fun _ =>
    .bind holds_update_self fun _ =>
    .bind (holds_update_self.weaken (fun _ _ hs => ⟨hs.1, now.1, hs.2⟩) fun _ hs => hs) fun _ =>
    .bind keeps_opinions fun _ => .bind keeps_cooling fun _ => .bind (.get fun _ hs => hs) fun _ =>
    .bind (.pure fun _ hs => hs) fun _ => .bind keeps_remember fun _ =>
    .bind (@keeps_self_save (fun self => ∃ now, self = some (st.brooded n now)) npcId) fun _ =>
    .pure fun _ hs => hs

end Brooding

/-- A self with another clock. -/
def Self.atTime (st : Self) (now : PyText) : Self := { st with lastReflectAt := now }

/-- The self of the companion that broods. -/
theorem self_broodRun (k : ℕ) :
    ∃ now, ((Machine.run (live lower u) fresh (broodRun k)).companions
      (PyStr.lit "goblin-1")).self = some ((broods k).atTime now) := by
  induction k with
  | zero => exact ⟨_, rfl⟩
  | succ k ih =>
    obtain ⟨now, hself⟩ := ih
    have hrun : broodRun (k + 1) = broodRun k ++
        [.call ⟨PyStr.lit "goblin-1", .applyReflection (brooding k), fun _ => PyTime.zero⟩] := by
      unfold broodRun
      rw [List.range_succ, List.map_append]
      rfl
    rw [hrun, Machine.run_append]
    generalize Machine.run (live lower u) fresh (broodRun k) = s at hself ⊢
    obtain ⟨-, now', hafter⟩ := Attempt.Holds.after
      (.bind (holds_brooding k) fun _ => .pure fun _ hs => hs)
      (s := ⟨PyStr.lit "goblin-1", s.companions (PyStr.lit "goblin-1"), s.episodes⟩)
      ⟨rfl, hself⟩ fun _ => PyTime.zero
    refine ⟨now', ?_⟩
    show ((Function.update s.companions (PyStr.lit "goblin-1") _) (PyStr.lit "goblin-1")).self = _
    rw [Function.update_self]
    exact hafter

/-- The clock counts with its digits. -/
theorem Self.weight_atTime (st : Self) (now : PyText) :
    (st.atTime now).data.weight + st.lastReflectAt.length = st.data.weight + now.length := by
  simp only [Self.data, Self.atTime, PyData.weight, PyData.weightEntries, List.length_cons,
    List.length_nil]
  omega

/-- **The fields keep to their bounds**, and the text does not: what is written
is rejected. -/
theorem not_kept_brooding :
    (¬ ∀ (lower : PyStr → PyStr) (u : Unicode) (occasions : List Occasion) (npcId : PyStr)
      (st : Self),
      ((Machine.run (live lower u) fresh occasions).companions npcId).self = some st →
      Kept (scene (Machine.run (live lower u) fresh occasions) npcId)) ∧
    ¬ ∀ (lower : PyStr → PyStr) (u : Unicode) (occasions : List Occasion) (npcId : PyStr)
      (st : Self),
      ((Machine.run (live lower u) fresh occasions).companions npcId).self = some st →
      ∀ text, savedText st = some text → PyJson.loads text ≠ none := by
  obtain ⟨now, hself⟩ := self_broodRun id Unicode.ascii 8
  have hformed := (formed_run id Unicode.ascii (broodRun 8) (PyStr.lit "goblin-1")).self _ hself
  have hheavy : 16000 < ((broods 8).atTime now).data.weight := by
    have hweight := (broods 8).weight_atTime now
    have hbroods : 16000 + (broods 8).lastReflectAt.length < (broods 8).data.weight := by
      decide +kernel
    omega
  have hencodable : ((broods 8).atTime now).data.encodable =
      (broods 8).data.encodable := rfl
  have hwritable : ((broods 8).atTime now).data.writable =
      (broods 8).data.writable := rfl
  obtain ⟨text, hsaved⟩ := hformed.exists_saved (hencodable.trans (by decide +kernel))
    (hwritable.trans (by decide +kernel))
  constructor
  · intro h
    exact hformed.not_kept hself hheavy
      (h id Unicode.ascii (broodRun 8) (PyStr.lit "goblin-1") _ hself)
  · intro h
    exact h _ _ _ _ _ hself text hsaved ((hformed.loads_iff hsaved).1.2 hheavy)

end Sentience

end GoblinZomboid
