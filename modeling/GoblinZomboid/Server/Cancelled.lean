import GoblinZomboid.Server.Goals
import GoblinZomboid.Lib.Run
import Mathlib.Data.List.Nodup
/-!
# Cancelled goals

A cancellation leaves finished records as they are. From then on the
records it was about are at rest as long as none of them is a maintenance
goal between two rounds, a finished food goal, or a failed goal whose id
the body still carries.
-/

namespace GoblinZomboid

namespace Goals

/-! ## The invariant -/

/-- The kinds a cancellation was about, the tables there were, and how many
goals had been selected. -/
structure Cut where
  scope : Kind → Bool
  bound : ℕ
  selected : ℕ

/-- The cut that concerns no record. -/
def Cut.trivial : Cut := ⟨fun _ => false, 0, 0⟩

/-- The records behind the cut: no goal of the kinds is added any more,
except for the automatic food goal. -/
def Cut.Old (c : Cut) (g : Goal) : Prop :=
  c.scope g.kind = true ∧ (g.kind ≠ .restockFood ∨ g.uid < c.bound)

/-- What holds of every record: its id tells the kind, a goal that is done
has no step left, and the food goal does not fail. -/
structure Sound (g : Goal) : Prop where
  id_eq : g.id = goalId g.kind g.createdAt
  done : g.kind ≠ .restockFood → g.state = .done → g.current = none
  failed : g.kind = .restockFood → g.state ≠ .failed

/-- The same table, in the fields that never change. -/
structure Same (g g' : Goal) : Prop where
  uid : g'.uid = g.uid
  id : g'.id = g.id
  kind : g'.kind = g.kind
  createdAt : g'.createdAt = g.createdAt

/-- A record that no tick starts. -/
def AtRest (g : Goal) : Prop :=
  g.state = .cancelled ∨
    g.kind ≠ .restockFood ∧ (g.state = .done ∧ g.intervalMs = 0 ∧ g.current = none ∨ g.state = .failed)

/-- No failed record behind the cut has the id. -/
def Clear (c : Cut) (w : World) (id : Bytes) : Prop :=
  ∀ g ∈ w.goals, c.Old g → g.state = .failed → g.id ≠ id

/-- **The invariant**: tables are numbered and sound, and what is behind
the cut is at rest, out of hand and not selected. -/
structure Settled (c : Cut) (w : World) : Prop where
  nodup : (w.goals.map Goal.uid).Nodup
  lt : ∀ g ∈ w.goals, g.uid < w.nextUid
  bound_le : c.bound ≤ w.nextUid
  sound : ∀ g ∈ w.goals, Sound g
  rest : ∀ g ∈ w.goals, c.Old g → AtRest g
  payload : ∀ id, w.payloadGoal = some id → Clear c w id
  active : ∀ id, w.active = some id → Clear c w id
  selected_le : c.selected ≤ w.selected.length
  selected : ∀ g ∈ w.selected.drop c.selected, ¬ c.Old g

variable {c : Cut} {w : World} {g g' : Goal} {now : ℕ}

theorem Same.refl (g : Goal) : Same g g := ⟨rfl, rfl, rfl, rfl⟩

theorem Same.old (h : Same g g') : c.Old g' ↔ c.Old g := by
  simp only [Cut.Old, h.kind, h.uid]

theorem settled_initial : Settled .trivial World.start where
  nodup := List.nodup_nil
  lt := fun g h => by cases h
  bound_le := le_rfl
  sound := fun g h => by cases h
  rest := fun g h => by cases h
  payload := fun id h => by cases h
  active := fun id h => by cases h
  selected_le := le_rfl
  selected := fun g h => by cases h

/-- A record that may still run is not behind the cut. -/
theorem Settled.not_old (hw : Settled c w) (hg : g ∈ w.goals) (h : ¬ AtRest g) : ¬ c.Old g :=
  fun hold => h (hw.rest g hg hold)

/-- One table has one record. -/
theorem Settled.eq_of_uid (hw : Settled c w) (hg : g ∈ w.goals) (hg' : g' ∈ w.goals)
    (h : g'.uid = g.uid) : g' = g :=
  List.inj_on_of_nodup_map hw.nodup hg' hg h

/-- **Records change in place**: those behind the cut do not, and the
others stay the tables they are. -/
theorem Settled.map (hw : Settled c w) {f : Goal → Goal}
    (hold : ∀ g ∈ w.goals, c.Old g → f g = g)
    (hf : ∀ g ∈ w.goals, Same g (f g) ∧ Sound (f g)) :
    Settled c { w with goals := w.goals.map f } := by
  have hkept : ∀ x ∈ w.goals.map f, c.Old x → x ∈ w.goals := by
    intro x hx hxold
    obtain ⟨g, hg, rfl⟩ := List.mem_map.1 hx
    rw [hold g hg ((hf g hg).1.old.1 hxold)]
    exact hg
  have hclear : ∀ id, Clear c w id → Clear c { w with goals := w.goals.map f } id :=
    fun id h x hx hxold => h x (hkept x hx hxold) hxold
  refine ⟨?_, ?_, hw.bound_le, ?_, fun x hx hxold => hw.rest x (hkept x hx hxold) hxold,
    fun id h => hclear id (hw.payload id h), fun id h => hclear id (hw.active id h),
    hw.selected_le, hw.selected⟩
  · have huid : (w.goals.map f).map Goal.uid = w.goals.map Goal.uid := by
      rw [List.map_map]
      exact List.map_congr_left fun g hg => (hf g hg).1.uid
    simpa only [huid] using hw.nodup
  · intro x hx
    obtain ⟨g, hg, rfl⟩ := List.mem_map.1 hx
    exact (hf g hg).1.uid ▸ hw.lt g hg
  · intro x hx
    obtain ⟨g, hg, rfl⟩ := List.mem_map.1 hx
    exact (hf g hg).2

/-- One record changes. -/
theorem Settled.update (hw : Settled c w) (hg : g ∈ w.goals) (hold : ¬ c.Old g) {u : ℕ}
    (hu : g.uid = u) {f : Goal → Goal} (hf : Same g (f g) ∧ Sound (f g)) :
    Settled c (w.update u f) := by
  refine hw.map ?_ ?_
  · intro x hx hxold
    by_cases hxu : x.uid = u
    · exact absurd (hw.eq_of_uid hg hx (hxu.trans hu.symm) ▸ hxold) hold
    · rw [if_neg hxu]
  · intro x hx
    by_cases hxu : x.uid = u
    · rw [if_pos hxu, hw.eq_of_uid hg hx (hxu.trans hu.symm)]
      exact hf
    · rw [if_neg hxu]
      exact ⟨.refl x, hw.sound x hx⟩

theorem mem_update (hg : g ∈ w.goals) {u : ℕ} (hu : g.uid = u) (f : Goal → Goal) :
    f g ∈ (w.update u f).goals :=
  List.mem_map.2 ⟨g, hg, if_pos hu⟩

/-- The body takes up another id, or none. -/
theorem Settled.hand (hw : Settled c w) (task : Task) {payloadGoal active : Option Bytes}
    (hp : ∀ id, payloadGoal = some id → Clear c w id)
    (ha : ∀ id, active = some id → Clear c w id) :
    Settled c { w with task := task, payloadGoal := payloadGoal, active := active } :=
  ⟨hw.nodup, hw.lt, hw.bound_le, hw.sound, hw.rest, hp, ha, hw.selected_le, hw.selected⟩

theorem Settled.follow (hw : Settled c w) : Settled c w.follow :=
  hw.hand .follow (fun id h => by cases h) hw.active

theorem Settled.dropActive (hw : Settled c w) : Settled c { w with active := none } :=
  hw.hand w.task hw.payload (fun id h => by cases h)

theorem Kind.bytes_injective : Function.Injective Kind.bytes := by
  intro k k'
  cases k <;> cases k' <;> decide

/-- A goal id tells the kind: what stands before its colon. -/
theorem goalId_injective {k k' : Kind} {t t' : ℕ} (h : goalId k t = goalId k' t') : k = k' := by
  have hcolon : ∀ k : Kind, (58 : UInt8) ∉ k.bytes := by
    intro k
    cases k <;> decide
  have hshape : ∀ k t, goalId k t = k.bytes ++ 58 :: Bytes.decimal t := by
    intro k t
    have : Bytes.lit ":" = [58] := by decide
    rw [goalId, this, List.append_assoc]
    rfl
  rw [hshape, hshape] at h
  exact Kind.bytes_injective (Bytes.append_cons_inj_of_notMem (hcolon k) (hcolon k') h).1

/-- The id of a record that is not behind the cut. -/
theorem Settled.clear_id (hw : Settled c w) (hg : g ∈ w.goals) (hold : ¬ c.Old g) :
    Clear c w g.id := by
  intro x hx hxold hfailed hid
  rw [(hw.sound x hx).id_eq, (hw.sound g hg).id_eq] at hid
  have hkind := goalId_injective hid
  have hfood : x.kind ≠ .restockFood := fun h => (hw.sound x hx).failed h hfailed
  exact hold ⟨hkind ▸ hxold.1, Or.inl (hkind ▸ hfood)⟩

/-! ## What the functions do to a record -/

/-- The states in which `select` and the results leave a goal that goes on. -/
def Live (g : Goal) : Prop := g.state = .pending ∨ g.state = .active ∨ g.state = .waiting

theorem Live.not_atRest (h : Live g) : ¬ AtRest g := by
  rintro (hs | ⟨-, ⟨hs, -⟩ | hs⟩) <;> rcases h with h | h | h <;> rw [hs] at h <;> cases h

/-- A record that goes on is sound. -/
theorem Live.sound (h : Live g') (hsame : Same g g') (hg : Sound g) : Same g g' ∧ Sound g' := by
  refine ⟨hsame, ?_, fun _ hd => ?_, fun _ hf => ?_⟩
  · rw [hsame.id, hsame.kind, hsame.createdAt, hg.id_eq]
  · rcases h with h | h | h <;> rw [h] at hd <;> cases hd
  · rcases h with h | h | h <;> rw [h] at hf <;> cases hf

theorem same_mapCurrent (g : Goal) (f : Step → Step) : Same g (g.mapCurrent f) := by
  unfold Goal.mapCurrent
  split
  · exact .refl g
  · exact ⟨rfl, rfl, rfl, rfl⟩

theorem state_mapCurrent (g : Goal) (f : Step → Step) : (g.mapCurrent f).state = g.state := by
  unfold Goal.mapCurrent
  split <;> rfl

theorem Live.mapCurrent (h : Live g) (f : Step → Step) : Live (g.mapCurrent f) := by
  unfold Live
  rw [state_mapCurrent]
  exact h

theorem rearm_spec (hg : Sound g) : Same g (rearm now g) ∧ Sound (rearm now g) := by
  unfold rearm
  split
  · exact Live.sound (Or.inl rfl) ⟨rfl, rfl, rfl, rfl⟩ hg
  · exact ⟨.refl g, hg⟩

/-- What is at rest is not armed again. -/
theorem rearm_of_atRest (h : AtRest g) : rearm now g = g := by
  unfold rearm
  rw [if_neg]
  intro hc
  simp only [Bool.and_eq_true, decide_eq_true_eq] at hc
  rcases h with h | ⟨-, ⟨-, h, -⟩ | h⟩
  · rw [h] at hc
    exact State.noConfusion hc.1.1
  · omega
  · rw [h] at hc
    exact State.noConfusion hc.1.1

theorem reconcile_spec (hg : Sound g) : Same g (reconcile now g) ∧ Sound (reconcile now g) := by
  unfold reconcile
  split
  · exact Live.sound (Or.inr (Or.inr rfl)) ⟨rfl, rfl, rfl, rfl⟩ hg
  · exact ⟨.refl g, hg⟩

theorem reconcile_of_atRest (h : AtRest g) : reconcile now g = g := by
  unfold reconcile
  rw [if_neg]
  intro hs
  exact Live.not_atRest (Or.inr (Or.inl hs)) h

theorem interrupt_spec (hg : Sound g) (ctx : Context) :
    Same g (interrupt g ctx now) ∧ Sound (interrupt g ctx now) := by
  have hsame := same_mapCurrent g fun s => { s with attempts := s.attempts - 1 }
  exact Live.sound (Or.inr (Or.inr rfl)) ⟨hsame.uid, hsame.id, hsame.kind, hsame.createdAt⟩ hg

/-- The food cycle ends a round waiting, pending or done. -/
theorem food_spec (hg : Sound g) (hfood : g.kind = .restockFood) (hsame : Same g g')
    (hstate : Live g' ∨ g'.state = .done) : Same g g' ∧ Sound g' := by
  rcases hstate with h | h
  · exact h.sound hsame hg
  · refine ⟨hsame, ?_, fun hk => absurd (hsame.kind.trans hfood) hk, fun _ hf => ?_⟩
    · rw [hsame.id, hsame.kind, hsame.createdAt, hg.id_eq]
    · rw [h] at hf
      cases hf

/-- The food goal goes on when the cycle has a task for it. -/
theorem next_spec (hg : Sound g) (hlive : Live g) (hfood : g.kind = .restockFood)
    (world : FoodCycle.Larder) (now : ℕ) :
    (Same g (FoodCycle.next g world now).1 ∧ Sound (FoodCycle.next g world now).1) ∧
      ((FoodCycle.next g world now).2 ≠ none → Live (FoodCycle.next g world now).1) := by
  have hkey : Same g (FoodCycle.next g world now).1 ∧
      (((FoodCycle.next g world now).2 ≠ none ∧ Live (FoodCycle.next g world now).1) ∨
        ((FoodCycle.next g world now).2 = none ∧
          ((FoodCycle.next g world now).1.state = .waiting ∨
            (FoodCycle.next g world now).1.state = .done))) := by
    simp only [FoodCycle.next]
    split
    · split
      · exact ⟨⟨rfl, rfl, rfl, rfl⟩, Or.inl ⟨by simp, hlive⟩⟩
      · exact ⟨⟨rfl, rfl, rfl, rfl⟩, Or.inr ⟨rfl, Or.inl rfl⟩⟩
    · split_ifs
      · exact ⟨⟨rfl, rfl, rfl, rfl⟩, Or.inr ⟨rfl, Or.inr rfl⟩⟩
      · exact ⟨⟨rfl, rfl, rfl, rfl⟩, Or.inl ⟨by simp, hlive⟩⟩
      · exact ⟨⟨rfl, rfl, rfl, rfl⟩, Or.inr ⟨rfl, Or.inl rfl⟩⟩
      · exact ⟨⟨rfl, rfl, rfl, rfl⟩, Or.inl ⟨by simp, hlive⟩⟩
      · exact ⟨⟨rfl, rfl, rfl, rfl⟩, Or.inl ⟨by simp, hlive⟩⟩
  obtain ⟨hsame, ⟨hsome, hl⟩ | ⟨hnone, hs⟩⟩ := hkey
  · exact ⟨food_spec hg hfood hsame (Or.inl hl), fun _ => hl⟩
  · refine ⟨food_spec hg hfood hsame ?_, fun h => absurd hnone h⟩
    rcases hs with hs | hs
    · exact Or.inl (Or.inr (Or.inr hs))
    · exact Or.inr hs

theorem foodResult_spec (hg : Sound g) (hfood : g.kind = .restockFood) (task : Task)
    (r : JobResult) (world : FoodCycle.Larder) :
    Same g (FoodCycle.onResult g task r world now) ∧
      Sound (FoodCycle.onResult g task r world now) := by
  have hkey : Same g (FoodCycle.onResult g task r world now) ∧
      (Live (FoodCycle.onResult g task r world now) ∨
        (FoodCycle.onResult g task r world now).state = .done) := by
    simp only [FoodCycle.onResult]
    split_ifs
    · exact ⟨⟨rfl, rfl, rfl, rfl⟩, Or.inl (Or.inr (Or.inr rfl))⟩
    · split
      · split
        · exact ⟨⟨rfl, rfl, rfl, rfl⟩, Or.inl (Or.inr (Or.inr rfl))⟩
        · exact ⟨⟨rfl, rfl, rfl, rfl⟩, Or.inl (Or.inl rfl)⟩
      · split
        · exact ⟨⟨rfl, rfl, rfl, rfl⟩, Or.inl (Or.inr (Or.inr rfl))⟩
        · exact ⟨⟨rfl, rfl, rfl, rfl⟩, Or.inr rfl⟩
        · exact ⟨⟨rfl, rfl, rfl, rfl⟩, Or.inl (Or.inl rfl)⟩
      · exact ⟨⟨rfl, rfl, rfl, rfl⟩, Or.inl (Or.inl rfl)⟩
      · exact ⟨⟨rfl, rfl, rfl, rfl⟩, Or.inl (Or.inl rfl)⟩
      · exact ⟨⟨rfl, rfl, rfl, rfl⟩, Or.inl (Or.inl rfl)⟩
    · exact ⟨⟨rfl, rfl, rfl, rfl⟩, Or.inl (Or.inl rfl)⟩
    · exact ⟨⟨rfl, rfl, rfl, rfl⟩, Or.inl (Or.inr (Or.inr rfl))⟩
  exact food_spec hg hfood hkey.1 hkey.2

/-- A goal that is done after a result has no step left. -/
theorem follow_spec (hg : Sound g) (hfood : g.kind ≠ .restockFood) (st : Step) (r : JobResult) :
    Same g (follow g st r now) ∧ Sound (follow g st r now) := by
  have hkey : Same g (follow g st r now) ∧
      ((follow g st r now).state = .done → (follow g st r now).current = none) := by
    have hsame := same_mapCurrent { g with lastCode := some r.code }
      fun s => { s with attempts := s.attempts - 1 }
    unfold follow
    dsimp only
    split
    · split
      · rename_i hnone
        exact ⟨⟨rfl, rfl, rfl, rfl⟩, fun _ => hnone⟩
      · exact ⟨⟨rfl, rfl, rfl, rfl⟩, fun h => by cases h⟩
    · split
      · rename_i hnone
        exact ⟨⟨rfl, rfl, rfl, rfl⟩, fun _ => hnone⟩
      · exact ⟨⟨rfl, rfl, rfl, rfl⟩, fun h => by cases h⟩
    · exact ⟨⟨hsame.uid, hsame.id, hsame.kind, hsame.createdAt⟩, fun h => by cases h⟩
    · split
      · exact ⟨⟨rfl, rfl, rfl, rfl⟩, fun h => by cases h⟩
      · exact ⟨⟨rfl, rfl, rfl, rfl⟩, fun h => by cases h⟩
    · split
      · exact ⟨⟨rfl, rfl, rfl, rfl⟩, fun h => by cases h⟩
      · exact ⟨⟨rfl, rfl, rfl, rfl⟩, fun h => by cases h⟩
    · exact ⟨⟨rfl, rfl, rfl, rfl⟩, fun h => by cases h⟩
  refine ⟨hkey.1, ?_, fun _ => hkey.2, fun hk => absurd (hkey.1.kind.symm.trans hk) hfood⟩
  rw [hkey.1.id, hkey.1.kind, hkey.1.createdAt, hg.id_eq]

/-! ## What the functions do to a registry -/

theorem Settled.of_room (hw : Settled c w) : Settled c { w with goals := room w.goals } := by
  have hsub : (room w.goals).Sublist w.goals := by
    unfold room
    split
    · exact List.filter_sublist
    · exact List.Sublist.refl _
  have hmem : ∀ x ∈ room w.goals, x ∈ w.goals := fun x hx => hsub.subset hx
  exact ⟨hw.nodup.sublist (hsub.map _), fun x hx => hw.lt x (hmem x hx), hw.bound_le,
    fun x hx => hw.sound x (hmem x hx), fun x hx => hw.rest x (hmem x hx),
    fun id h x hx => hw.payload id h x (hmem x hx), fun id h x hx => hw.active id h x (hmem x hx),
    hw.selected_le, hw.selected⟩

/-- A new record of a kind that is not behind the cut. -/
theorem Settled.append (hw : Settled c w) {k : Kind} (hk : c.scope k = false ∨ k = .restockFood)
    (intervalMs now : ℕ) :
    Settled c { w with
      goals := w.goals ++ [newGoal w.nextUid k intervalMs now]
      nextUid := w.nextUid + 1 } := by
  have hnew : ¬ c.Old (newGoal w.nextUid k intervalMs now) := by
    rintro ⟨hscope, hfood⟩
    rcases hk with hk | rfl
    · exact Bool.false_ne_true (hk.symm.trans hscope)
    · have hle := hw.bound_le
      have hlt : w.nextUid < c.bound := hfood.resolve_left fun h => h rfl
      omega
  have hmem : ∀ x ∈ w.goals ++ [newGoal w.nextUid k intervalMs now], c.Old x → x ∈ w.goals := by
    intro x hx hxold
    rcases List.mem_append.1 hx with hx | hx
    · exact hx
    · exact absurd (List.mem_singleton.1 hx ▸ hxold) hnew
  refine ⟨?_, ?_, hw.bound_le.trans (Nat.le_succ _), ?_, fun x hx hxold => hw.rest x (hmem x hx hxold) hxold,
    fun id h x hx hxold => hw.payload id h x (hmem x hx hxold) hxold,
    fun id h x hx hxold => hw.active id h x (hmem x hx hxold) hxold, hw.selected_le, hw.selected⟩
  · rw [List.map_append, List.map_singleton]
    refine List.Nodup.append hw.nodup (List.nodup_singleton _) ?_
    intro u hu hu'
    obtain ⟨x, hx, rfl⟩ := List.mem_map.1 hu
    have : x.uid = w.nextUid := List.mem_singleton.1 hu'
    have := hw.lt x hx
    omega
  · intro x hx
    rcases List.mem_append.1 hx with hx | hx
    · exact (hw.lt x hx).trans (Nat.lt_succ_self _)
    · rw [List.mem_singleton.1 hx]
      exact Nat.lt_succ_self _
  · intro x hx
    rcases List.mem_append.1 hx with hx | hx
    · exact hw.sound x hx
    · rw [List.mem_singleton.1 hx]
      exact ⟨rfl, fun _ => nofun, fun _ => nofun⟩

theorem foldl_better_mem (l : List Goal) (b : Option Goal) {g : Goal}
    (h : l.foldl better b = some g) : b = some g ∨ g ∈ l := by
  induction l generalizing b with
  | nil => exact Or.inl h
  | cons x l ih =>
    rcases ih (better b x) h with hb | hmem
    · cases b with
      | none => exact Or.inr (Option.some_inj.1 hb ▸ List.mem_cons_self)
      | some y =>
        simp only [better] at hb
        split at hb
        · exact Or.inr (Option.some_inj.1 hb ▸ List.mem_cons_self)
        · exact Or.inl hb
    · exact Or.inr (List.mem_cons_of_mem _ hmem)

/-- **A selected goal** is in the registry and goes on. -/
theorem select_spec (hw : Settled c w) (now : ℕ) :
    Settled c (select w now).2 ∧
      (∀ g, (select w now).1 = some g → g ∈ (select w now).2.goals ∧ Live g ∧ ¬ c.Old g) ∧
      ∀ g ∈ w.goals, rearm now g ∈ (select w now).2.goals := by
  have hmap := hw.map (f := rearm now) (fun g hg hold => rearm_of_atRest (hw.rest g hg hold))
    fun g hg => rearm_spec (hw.sound g hg)
  have hbest : ∀ g, best (w.goals.map (rearm now)) now = some g →
      g ∈ w.goals.map (rearm now) ∧ Live g ∧ ¬ c.Old g := by
    intro g hb
    rcases foldl_better_mem _ _ hb with h | h
    · cases h
    · obtain ⟨hg, hready⟩ := List.mem_filter.1 h
      have hlive : Live g := by
        simp only [ready, Bool.and_eq_true, Bool.or_eq_true, decide_eq_true_eq] at hready
        exact hready.1.imp id Or.inr
      exact ⟨hg, hlive, hmap.not_old hg hlive.not_atRest⟩
  refine ⟨⟨hmap.nodup, hmap.lt, hmap.bound_le, hmap.sound, hmap.rest, hmap.payload, hmap.active,
    ?_, ?_⟩, hbest, fun g hg => List.mem_map_of_mem hg⟩
  · simp only [select, List.length_append]
    exact hw.selected_le.trans (Nat.le_add_right _ _)
  · intro g hg
    simp only [select, List.drop_append_of_le_length hw.selected_le] at hg
    rcases List.mem_append.1 hg with hg | hg
    · exact hw.selected g hg
    · exact (hbest g (by simpa using hg)).2.2

/-- A result is for a record that is not behind the cut. -/
theorem resultGoal_spec (hw : Settled c w) {id : Bytes} {task : Task} {st : Step}
    (hclear : Clear c w id) (h : resultGoal w.goals id task = some (g, st)) :
    g ∈ w.goals ∧ ¬ c.Old g := by
  simp only [resultGoal] at h
  split at h
  · cases h
  · rename_i x hx
    have hmem : x ∈ w.goals := List.mem_reverse.1 (List.mem_of_find?_eq_some hx)
    have hid : x.id = id := by simpa using List.find?_some hx
    split at h
    · cases h
    · rename_i hstate
      split at h
      · rename_i st' hcur
        split at h
        · cases h
          refine ⟨hmem, fun hold => ?_⟩
          rcases hw.rest g hmem hold with hs | ⟨-, ⟨-, -, hnone⟩ | hs⟩
          · exact hstate hs
          · rw [hnone] at hcur
            cases hcur
          · exact hclear g hmem hold hs hid
        · cases h
      · cases h

theorem Settled.onResult (hw : Settled c w) (task : Task) (r : JobResult) (now : ℕ)
    (goalId : Option Bytes) (larder : FoodCycle.Larder) (hid : ∀ id, goalId = some id → Clear c w id) :
    Settled c (onResult w task r now goalId larder) := by
  simp only [Goals.onResult]
  split
  · exact hw
  · rename_i id hsome
    have hclear : Clear c w id := by
      cases goalId with
      | none => exact hw.active id hsome
      | some i => exact hid id hsome
    have hw' : Settled c { w with active := if w.active = some id then none else w.active } := by
      refine hw.hand w.task hw.payload fun i hi => ?_
      split at hi
      · cases hi
      · exact hw.active i hi
    split
    · exact hw'
    · rename_i g st hres
      obtain ⟨hg, hold⟩ := resultGoal_spec hw' hclear hres
      refine hw'.update hg hold rfl ?_
      split
      · exact foodResult_spec (hw.sound g hg) ‹_› task r larder
      · exact follow_spec (hw.sound g hg) ‹_› st r

/-! ## One step -/

/-- An `add` of a kind the cut is about. -/
def Op.adds (scope : Kind → Bool) : Op → Bool
  | .add name _ _ => (normalize name).any scope
  | _ => false

/-- Adding a goal of another kind, or the first food goal. -/
theorem settled_add (hw : Settled c w) {name : Bytes} {k : Kind} (hname : normalize name = some k)
    (hk : c.scope k = false ∨ (k = .restockFood ∧ ∀ g ∈ w.goals, g.kind ≠ .restockFood))
    (minutes : ℚ) : Settled c (add w name minutes now).2.2 := by
  simp only [add, hname]
  split
  · exact hw
  · rename_i interval _
    split
    · rename_i g hway
      have hg : g ∈ w.goals := List.mem_of_find?_eq_some hway
      have hfound := List.find?_some hway
      simp only [Bool.and_eq_true, decide_eq_true_eq] at hfound
      have hold : ¬ c.Old g := by
        rintro ⟨hscope, -⟩
        rcases hk with hk | ⟨rfl, hno⟩
        · rw [hfound.1, hk] at hscope
          cases hscope
        · exact hno g hg hfound.1
      split
      · exact hw.update hg hold rfl
          (Live.sound (Or.inl rfl) ⟨rfl, rfl, rfl, rfl⟩ (hw.sound g hg))
      · refine hw.update hg hold rfl ⟨⟨rfl, rfl, rfl, rfl⟩, ?_⟩
        obtain ⟨hid, hdone, hfailed⟩ := hw.sound g hg
        exact ⟨hid, hdone, hfailed⟩
    · split
      · exact hw
      · exact hw.of_room.append (hk.imp id And.left) interval now

theorem settled_ensureFood (hw : Settled c w) (near : Bool) (scan : FoodCycle.Scan) :
    Settled c (ensureFood w near scan now) := by
  simp only [ensureFood]
  split
  · exact hw
  · split
    · rename_i g hfind
      have hg : g ∈ w.goals := List.mem_of_find?_eq_some hfind
      have hfood : g.kind = .restockFood := by simpa using List.find?_some hfind
      split
      · exact hw
      · rename_i hcond
        simp only [Bool.or_eq_true, decide_eq_true_eq, not_or] at hcond
        have hold : ¬ c.Old g := hw.not_old hg fun hrest => by
          rcases hrest with h | ⟨h, -⟩
          · exact hcond.1.1.1 h
          · exact h hfood
        exact hw.update hg hold rfl
          (Live.sound (Or.inl rfl) ⟨rfl, rfl, rfl, rfl⟩ (hw.sound g hg))
    · rename_i hnone
      split
      · exact hw
      · have hno : ∀ g ∈ w.goals, g.kind ≠ .restockFood := by
          intro g hg hfood
          exact List.find?_eq_none.1 hnone g hg (decide_eq_true hfood)
        have hadd : Settled c (add w (Bytes.lit "food") 0 now).2.2 :=
          settled_add hw (by decide) (Or.inr ⟨rfl, hno⟩) 0
        split
        · refine hadd.map ?_ ?_
          · intro g hg hold
            split
            · rename_i hcond
              simp only [Bool.and_eq_true, decide_eq_true_eq] at hcond
              exact absurd (hadd.rest g hg hold) (Live.not_atRest (Or.inl hcond.2))
            · rfl
          · intro g hg
            split
            · rename_i hcond
              simp only [Bool.and_eq_true, decide_eq_true_eq] at hcond
              exact Live.sound (Or.inl hcond.2) ⟨rfl, rfl, rfl, rfl⟩ (hadd.sound g hg)
            · exact ⟨.refl g, hadd.sound g hg⟩
        · exact hadd

theorem settled_tickActive (hw : Settled c w) (id : Bytes) (ctx : Context) :
    Settled c (tickActive w id ctx now) := by
  simp only [tickActive]
  split
  · split
    · exact hw.dropActive.follow
    · exact hw.dropActive
  · rename_i g hfind
    have hg : g ∈ w.goals := List.mem_of_find?_eq_some hfind
    have hactive : g.state = .active := by
      have := List.find?_some hfind
      simp only [Bool.and_eq_true, decide_eq_true_eq] at this
      exact this.2
    have hold : ¬ c.Old g := hw.not_old hg (Live.not_atRest (Or.inr (Or.inl hactive)))
    split
    · exact (hw.update hg hold rfl
        (Live.sound (Or.inr (Or.inr rfl)) ⟨rfl, rfl, rfl, rfl⟩ (hw.sound g hg))).dropActive
    · -- Selecting does not touch a running goal.
      have hsel : ∀ sel, sel = (if g.kind = .restockFood then select w now else (none, w)) →
          Settled c sel.2 ∧ g ∈ sel.2.goals := by
        rintro sel rfl
        split
        · obtain ⟨hs, -, hmem⟩ := select_spec hw now
          have hsame : rearm now g = g := by
            unfold rearm
            rw [if_neg (by simp [hactive])]
          exact ⟨hs, hsame ▸ hmem g hg⟩
        · exact ⟨hw, hg⟩
      obtain ⟨hs, hg'⟩ := hsel _ rfl
      generalize (if g.kind = .restockFood then select w now else (none, w)) = sel at hs hg' ⊢
      split
      · exact (hs.update hg' hold rfl
          (f := fun g => interrupt g ctx now) (interrupt_spec (hs.sound g hg') ctx)).dropActive.follow
      · exact hs

/-- A goal that is started, or refused. `g` is its record as the registry
has it by now. -/
theorem settled_start (hw : Settled c w) (hg : g ∈ w.goals) (hold : ¬ c.Old g)
    (task : Task) (accepted : Bool) (larder : FoodCycle.Larder) {g₀ : Goal}
    (hsame : Same g₀ g) : Settled c (start w g₀ task accepted now larder) := by
  have hclear : Clear c w g₀.id := hsame.id ▸ hw.clear_id hg hold
  unfold start
  split
  · have hcur := same_mapCurrent g fun s => { s with attempts := s.attempts + 1 }
    have hup := hw.update (f := fun g =>
        { g.mapCurrent fun s => { s with attempts := s.attempts + 1 } with state := .active })
      hg hold hsame.uid (Live.sound (Or.inr (Or.inl rfl))
        ⟨hcur.uid, hcur.id, hcur.kind, hcur.createdAt⟩ (hw.sound g hg))
    have hclear' : ∀ id, some g₀.id = some id → Clear c (w.update g₀.uid fun g =>
        { g.mapCurrent fun s => { s with attempts := s.attempts + 1 } with state := .active }) id := by
      intro id hid
      have hmem := mem_update hg hsame.uid fun g : Goal =>
        { g.mapCurrent fun s => { s with attempts := s.attempts + 1 } with state := .active }
      have hid' := hup.clear_id hmem
        ((Same.old ⟨hcur.uid, hcur.id, hcur.kind, hcur.createdAt⟩).not.2 hold)
      rw [← Option.some_inj.1 hid, ← hsame.id, ← hcur.id]
      exact hid'
    exact hup.hand task hclear' hclear'
  · exact hw.onResult task _ now (some g₀.id) larder fun id hid => Option.some_inj.1 hid ▸ hclear

theorem settled_tickIdle (hw : Settled c w) (ctx : Context) (accepted : Bool)
    (larder : FoodCycle.Larder) : Settled c (tickIdle w ctx accepted now larder) := by
  have hrec : Settled c { w with goals := w.goals.map (reconcile now) } :=
    hw.map (fun g hg hold => reconcile_of_atRest (hw.rest g hg hold))
      fun g hg => reconcile_spec (hw.sound g hg)
  obtain ⟨hsel, hbest, -⟩ := select_spec hrec now
  unfold tickIdle
  split
  · exact hw
  · generalize select { w with goals := w.goals.map (reconcile now) } now = sel at hsel hbest
    obtain ⟨b, w₁⟩ := sel
    cases b with
    | none => exact hsel
    | some g =>
      obtain ⟨hg, hlive, hold⟩ := hbest g rfl
      dsimp only at hsel hg ⊢
      split
      · exact hsel
      · split
        · rename_i hnone
          refine hsel.update hg hold rfl ⟨⟨rfl, rfl, rfl, rfl⟩, ?_⟩
          exact ⟨(hsel.sound g hg).id_eq, fun _ _ => hnone, fun _ => nofun⟩
        · split
          · -- The food cycle rewrites the record, then the task of its step.
            rename_i hfood
            obtain ⟨hspec, hgo⟩ := next_spec (hsel.sound g hg) hlive hfood larder now
            have h₂ := hsel.update hg hold rfl (f := fun _ => (FoodCycle.next g larder now).1) hspec
            have hg₂ := mem_update hg rfl fun _ => (FoodCycle.next g larder now).1
            have hold₂ := hspec.1.old.not.2 hold
            split
            · exact h₂
            · rename_i task htask
              have hlive₂ := hgo (by rw [htask]; exact Option.some_ne_none _)
              have hsame := same_mapCurrent (FoodCycle.next g larder now).1
                fun s => { s with task := task }
              have h₃ := h₂.update hg₂ hold₂ hspec.1.uid
                (f := fun g => g.mapCurrent fun s => { s with task := task })
                ((hlive₂.mapCurrent _).sound hsame (h₂.sound _ hg₂))
              have hg₃ := mem_update hg₂ hspec.1.uid
                fun g => g.mapCurrent fun s => { s with task := task }
              exact settled_start h₃ hg₃ (hsame.old.not.2 hold₂) task accepted larder
                ⟨hsame.uid.trans hspec.1.uid, hsame.id.trans hspec.1.id,
                  hsame.kind.trans hspec.1.kind, hsame.createdAt.trans hspec.1.createdAt⟩
          · exact settled_start hsel hg hold _ accepted larder (.refl g)

theorem settled_jobDone (hw : Settled c w) (r : JobResult) (larder : FoodCycle.Larder)
    (returning : Bool) : Settled c (jobDone w r now larder returning) := by
  have hres := hw.onResult w.task r now w.payloadGoal larder hw.payload
  unfold jobDone
  split
  · dsimp only
    split
    · exact hres.hand .returnToBase (fun id h => by cases h) hres.active
    · exact hres.follow
  · exact hw

/-- **Every step keeps the invariant**, unless it adds a goal of the kinds
the cut is about. -/
theorem settled_step (w : World) (op : Op) (hw : Settled c w) (hop : op.adds c.scope = false) :
    Settled c (step w op) := by
  cases op with
  | add name minutes now =>
    cases hname : normalize name with
    | none =>
      simp only [step, add, hname]
      exact hw
    | some k =>
      have hk : c.scope k = false := by simpa [Op.adds, hname] using hop
      exact settled_add hw hname (Or.inl hk) minutes
  | cancel name =>
    refine hw.map (f := cancelled (cancelKind name)) ?_ ?_
    · intro g hg hold
      unfold cancelled
      split
      · rename_i hcond
        simp only [Bool.and_eq_true, Bool.not_eq_true'] at hcond
        exfalso
        rcases hw.rest g hg hold with h | ⟨-, ⟨h, -⟩ | h⟩ <;> simp [Goal.finished, h] at hcond
      · rfl
    · intro g hg
      unfold cancelled
      split
      · exact ⟨⟨rfl, rfl, rfl, rfl⟩, (hw.sound g hg).id_eq, fun _ => nofun, fun _ => nofun⟩
      · exact ⟨.refl g, hw.sound g hg⟩
  | ensureFood near scan now => exact settled_ensureFood hw near scan
  | tick ctx accepted now larder =>
    simp only [step, tick]
    split
    · exact settled_tickActive hw _ ctx
    · exact settled_tickIdle hw ctx accepted larder
  | jobDone r now larder returning => exact settled_jobDone hw r larder returning
  | order task => exact hw.hand task (fun id h => by cases h) hw.active
  | restoreActive =>
    simp only [step, restoreActive]
    split
    · rename_i id _ hp
      split
      · exact hw.hand w.task hw.payload fun i hi => Option.some_inj.1 hi ▸ hw.payload id hp
      · exact hw
    · exact hw
  | respawn => exact hw.dropActive

/-! ## The cancellation -/

/-- Nothing a cancellation leaves alone can come back: no goal it is about
is done with an interval or is a finished food goal, and none that failed
has the id of the job the body is on. -/
def Settles (w : World) (name : Bytes) : Prop :=
  ∀ g ∈ w.goals, covers (cancelKind name) g.kind = true →
    (g.state = .done → g.intervalMs = 0 ∧ g.kind ≠ .restockFood) ∧
      (g.state = .failed → w.payloadGoal ≠ some g.id ∧ w.active ≠ some g.id)

instance (w : World) (name : Bytes) : Decidable (Settles w name) :=
  inferInstanceAs (Decidable (∀ g ∈ w.goals, _ → _ ∧ _))

theorem same_cancelled (scope : Option Kind) (g : Goal) : Same g (cancelled scope g) := by
  unfold cancelled
  split
  · exact ⟨rfl, rfl, rfl, rfl⟩
  · exact .refl g

/-- A goal the cancellation is about is cancelled, or was finished. -/
theorem cancelled_cases {scope : Option Kind} (hg : covers scope g.kind = true) :
    (cancelled scope g).state = .cancelled ∨ cancelled scope g = g ∧ g.finished = true := by
  unfold cancelled
  split
  · exact Or.inl rfl
  · rename_i hcond
    refine Or.inr ⟨rfl, ?_⟩
    simpa [hg] using hcond

/-- A cancellation makes its cut. -/
theorem settled_cancel (hw : Settled .trivial w) {name : Bytes} (h : Settles w name) :
    Settled ⟨covers (cancelKind name), w.nextUid, w.selected.length⟩ (cancel w name) := by
  have hcut := settled_step w (.cancel name) hw rfl
  have hfailed : ∀ x ∈ (cancel w name).goals, covers (cancelKind name) x.kind = true →
      x.state = .failed → w.payloadGoal ≠ some x.id ∧ w.active ≠ some x.id := by
    intro x hx hscope hs
    obtain ⟨g, hg, rfl⟩ := List.mem_map.1 hx
    rw [(same_cancelled _ g).kind] at hscope
    rcases cancelled_cases hscope with hc | ⟨heq, -⟩
    · rw [hs] at hc
      cases hc
    · rw [heq] at hs ⊢
      exact (h g hg hscope).2 hs
  refine ⟨hcut.nodup, hcut.lt, le_rfl, hcut.sound, ?_, ?_, ?_, le_rfl, ?_⟩
  · rintro x hx ⟨hscope, -⟩
    obtain ⟨g, hg, rfl⟩ := List.mem_map.1 hx
    rw [(same_cancelled _ g).kind] at hscope
    rcases cancelled_cases hscope with hc | ⟨heq, hfin⟩
    · exact Or.inl hc
    · rw [heq]
      simp only [Goal.finished, Bool.or_eq_true, decide_eq_true_eq] at hfin
      rcases hfin with (hd | hf) | hc
      · obtain ⟨hinterval, hfood⟩ := (h g hg hscope).1 hd
        exact Or.inr ⟨hfood, Or.inl ⟨hd, hinterval, (hw.sound g hg).done hfood hd⟩⟩
      · exact Or.inr ⟨fun hfood => (hw.sound g hg).failed hfood hf, Or.inr hf⟩
      · exact Or.inl hc
  · intro id hid x hx hold hs hxid
    exact (hfailed x hx hold.1 hs).1 (hxid ▸ hid)
  · intro id hid x hx hold hs hxid
    exact (hfailed x hx hold.1 hs).2 (hxid ▸ hid)
  · intro g hg
    simp [cancel] at hg

theorem adds_trivial (op : Op) : op.adds Cut.trivial.scope = false := by
  cases op <;> simp [Op.adds, Cut.trivial]

/-- **Cancelled goals stay cancelled.** After any run and a cancellation
that settles what it is about, and whatever follows that adds no goal of
its kinds: no record there was at the cancellation is active, or has been
selected since. -/
theorem cancelled_stays (ops later : List Op) (name : Bytes)
    (hset : Settles (Machine.run step World.start ops) name)
    (hlater : ∀ op ∈ later, op.adds (covers (cancelKind name)) = false) :
    (∀ g ∈ (Machine.run step (cancel (Machine.run step World.start ops) name) later).goals,
        covers (cancelKind name) g.kind = true →
        g.uid < (Machine.run step World.start ops).nextUid → g.state ≠ .active) ∧
      ∀ g ∈ (Machine.run step (cancel (Machine.run step World.start ops) name) later).selected.drop
          (Machine.run step World.start ops).selected.length,
        covers (cancelKind name) g.kind = true →
        ¬ g.uid < (Machine.run step World.start ops).nextUid := by
  have hstep : ∀ (c : Cut) (w : World) (op : Op), Settled c w → op.adds c.scope = false →
      Settled c (step w op) := fun c => settled_step
  have hbefore : Settled .trivial (Machine.run step World.start ops) :=
    Machine.invariant_of_meets (hstep .trivial) settled_initial
      (Machine.meets_of_forall (fun _ op _ => adds_trivial op) _)
  have hafter := Machine.invariant_of_meets (hstep _) (settled_cancel hbefore hset)
    (Machine.meets_of_forall (fun _ => hlater) _)
  refine ⟨fun g hg hscope hlt hs => ?_, fun g hg hscope hlt => ?_⟩
  · exact Live.not_atRest (Or.inr (Or.inl hs)) (hafter.rest g hg ⟨hscope, Or.inr hlt⟩)
  · exact hafter.selected g hg ⟨hscope, Or.inr hlt⟩

/-! ## A nail stock every ten minutes -/

/-- An owner at rest. -/
def atRest : Context := ⟨true, false, false, none⟩

/-- Nothing in storage is known. -/
def noLarder : FoodCycle.Larder := ⟨.unknown [], [], false, fun _ => true⟩

/-- The goal is added, run and done. -/
def nailRound : List Op :=
  [.add (Bytes.lit "nails") 10 0, .tick atRest true 0 noLarder,
    .jobDone ⟨true, Capabilities.complete⟩ 1000 noLarder false]

/-- A goal cancelled while its step runs settles. -/
theorem cancelled_stays_running :
    (∀ g ∈ (Machine.run step (cancel (Machine.run step World.start (nailRound.take 2))
          (Bytes.lit "nails")) [.tick atRest true 700000 noLarder]).goals,
        covers (cancelKind (Bytes.lit "nails")) g.kind = true →
        g.uid < (Machine.run step World.start (nailRound.take 2)).nextUid → g.state ≠ .active) ∧
      ∀ g ∈ (Machine.run step (cancel (Machine.run step World.start (nailRound.take 2))
          (Bytes.lit "nails")) [.tick atRest true 700000 noLarder]).selected.drop
          (Machine.run step World.start (nailRound.take 2)).selected.length,
        covers (cancelKind (Bytes.lit "nails")) g.kind = true →
        ¬ g.uid < (Machine.run step World.start (nailRound.take 2)).nextUid :=
  cancelled_stays (nailRound.take 2) [.tick atRest true 700000 noLarder] (Bytes.lit "nails")
    (by decide) (by decide)

/-- **A maintenance goal between two rounds** survives its cancellation and
is started again when its interval is over. -/
theorem cancelled_goal_restarts :
    ∃ g ∈ (Machine.run step (cancel (Machine.run step World.start nailRound) (Bytes.lit "nails"))
        [.tick atRest true 700000 noLarder]).goals,
      covers (cancelKind (Bytes.lit "nails")) g.kind = true ∧
        g.uid < (Machine.run step World.start nailRound).nextUid ∧ g.state = .active := by
  decide

end Goals

end GoblinZomboid
