import GoblinZomboid.Server.Atomic
import GoblinZomboid.Server.Execute
/-!
# What an order writes

An order that is not placed writes a base and targets at most; one that is
placed goes into the body and the record alike. Only the orders to wait
end in waiting.
-/

namespace GoblinZomboid

namespace Brain

/-! ## Writes -/

/-- At most a base and targets are written. -/
structure BaseOnly (p p' : Post) : Prop where
  present : p'.body.present = p.body.present
  data : ∃ base, p'.body.data = { p.body.data with goblinBase := base }
  record : ∀ r, p.record = some r → ∃ base, p'.record = some { r with base := base }

/-- A new order is in place, in the body and in the record. -/
structure Placed (p p' : Post) : Prop where
  goblin : Body.isGoblin p'.body = Body.isGoblin p.body
  owner : p'.body.owner = p.body.owner
  sequence : p.body.data.goblinTaskSequence < p'.body.data.goblinTaskSequence
  freewill : p'.body.data.goblinFreewill = false
  record : ∃ r, p'.record = some r ∧ r.task = p'.body.data.goblinTask ∧
    r.payload = p'.body.data.goblinTaskPayload

variable {e : Engine} {p p' p'' : Post} {t : Task} {payload : LuaValue}

namespace BaseOnly

theorem refl (p : Post) : BaseOnly p p := ⟨rfl, ⟨_, rfl⟩, fun r h => ⟨r.base, h⟩⟩

theorem trans (h : BaseOnly p p') (h' : BaseOnly p' p'') : BaseOnly p p'' := by
  obtain ⟨base, hdata⟩ := h.data
  obtain ⟨base', hdata'⟩ := h'.data
  refine ⟨h'.present.trans h.present, ⟨base', by rw [hdata', hdata]⟩, fun r hr => ?_⟩
  obtain ⟨b, hb⟩ := h.record r hr
  exact h'.record { r with base := b } hb

theorem goblin (h : BaseOnly p p') : Body.isGoblin p'.body = Body.isGoblin p.body := by
  obtain ⟨base, hdata⟩ := h.data
  unfold Body.isGoblin
  rw [hdata]

theorem owner (h : BaseOnly p p') : p'.body.owner = p.body.owner := by
  obtain ⟨base, hdata⟩ := h.data
  unfold Body.owner
  rw [hdata]

theorem sequence (h : BaseOnly p p') :
    p'.body.data.goblinTaskSequence = p.body.data.goblinTaskSequence := by
  obtain ⟨base, hdata⟩ := h.data
  rw [hdata]

end BaseOnly

theorem setBase_baseOnly (p : Post) (point : Point) : BaseOnly p ((p.setBase point).getD p) := by
  unfold Post.setBase Post.withRecord
  split
  · exact .refl p
  · refine ⟨rfl, ⟨some point, rfl⟩, fun r hr => ⟨some point, ?_⟩⟩
    simp [Post.withData, hr]

theorem claimBase_baseOnly (e : Engine) (p : Post) (t : Task) : BaseOnly p (claimBase e p t) := by
  unfold claimBase
  split
  · exact .refl p
  · exact setBase_baseOnly p _

theorem HandlerFrame.baseOnly (h : HandlerFrame p p') : BaseOnly p p' := by
  refine ⟨by rw [h.body], ⟨p.body.data.goblinBase, by rw [h.body]⟩, fun r hr => ⟨r.base, ?_⟩⟩
  rw [h.record, hr]

/-- **Preparing an order** writes a base and targets at most. -/
theorem prepare_baseOnly (e : Engine) (p : Post) (t : Task) (payload : LuaValue) :
    BaseOnly p (prepare e p t payload).2 := by
  have hclaim := claimBase_baseOnly e p t
  unfold prepare
  split
  · exact .refl p
  · dsimp only
    split
    · obtain ⟨hframe, -⟩ := prepareJob_spec e (claimBase e p t) t payload
      have hjob := hclaim.trans hframe.baseOnly
      generalize prepareJob e (claimBase e p t) t payload = answer at hjob
      obtain ⟨_ | _, _⟩ := answer
      · exact hjob
      · exact hjob
    · split
      · exact hclaim
      · split
        · exact hclaim
        · exact hclaim

/-- A task that is given to the body and kept in the record. -/
theorem placed_of_persist (hfreewill : p.body.data.goblinFreewill = false)
    (h : p.persist t payload = some p') :
    Placed p p' ∧ p'.body.data.goblinTask = t ∧ p'.body.data.goblinTaskPayload = payload ∧
      p'.body.data.goblinAutonomous = p.body.data.goblinAutonomous := by
  unfold Post.persist Post.withRecord at h
  split at h
  · cases h
  · cases h
    refine ⟨⟨rfl, rfl, Nat.lt_succ_self _, hfreewill, ⟨_, rfl, rfl, rfl⟩⟩, rfl, rfl, rfl⟩

/-- A key does not go away. -/
theorem persist_eq_some (hkey : Spawner.ownerKey p.body.owner ≠ none) (t : Task)
    (payload : LuaValue) : ∃ p', p.persist t payload = some p' := by
  rw [← Option.isSome_iff_exists, persist_isSome, Option.isSome_iff_ne_none]
  exact hkey

/-- `SET_BASE` stays in place until it is done, and then the body follows. -/
theorem finishSetBase_placed (h : Placed p p') (hkey : Spawner.ownerKey p.body.owner ≠ none) :
    (finishSetBase e p').2 = p' ∨
      Placed p (finishSetBase e p').2 ∧ (finishSetBase e p').2.body.data.goblinTask = .follow := by
  unfold finishSetBase
  split
  · exact .inl rfl
  · exact .inl rfl
  · rename_i point _
    right
    have hbase := setBase_baseOnly p' point
    dsimp only
    generalize (p'.setBase point).getD p' = q at hbase
    have howner : q.body.owner = p.body.owner := hbase.owner.trans h.owner
    obtain ⟨q', hq'⟩ := persist_eq_some (p := q) (howner ▸ hkey) .follow
      (Body.ownerPayload q.body.owner)
    have hfreewill : q.body.data.goblinFreewill = false := by
      obtain ⟨base, hdata⟩ := hbase.data
      rw [hdata]
      exact h.freewill
    obtain ⟨hplaced, htask, -, -⟩ := placed_of_persist hfreewill hq'
    rw [hq', Option.getD_some]
    refine ⟨⟨?_, hplaced.owner.trans howner, ?_, hplaced.freewill, hplaced.record⟩, htask⟩
    · exact hplaced.goblin.trans (hbase.goblin.trans h.goblin)
    · exact (hbase.sequence ▸ h.sequence).trans hplaced.sequence

/-- What follows a placed order leaves it, or has the body follow. -/
theorem finish_placed (h : Placed p p') (hkey : Spawner.ownerKey p.body.owner ≠ none) (t : Task)
    (detail : String) :
    (finish e p' t detail).2 = p' ∨
      Placed p (finish e p' t detail).2 ∧ (finish e p' t detail).2.body.data.goblinTask = .follow := by
  unfold finish
  split
  · exact .inl rfl
  · cases t <;> first | exact .inl rfl | exact finishSetBase_placed h hkey

/-- **Placing an order** for a named owner puts it in place. -/
theorem place_placed (e : Engine) (hkey : Spawner.ownerKey p.body.owner ≠ none) (t : Task)
    (payload : LuaValue) (detail : String) :
    Placed p (place e p t payload detail).2 ∧
      ((place e p t payload detail).2.body.data.goblinTask = .wait →
        t = .wait ∧ (place e p t payload detail).2.body.data.goblinTaskPayload = payload ∧
          (place e p t payload detail).2.body.data.goblinAutonomous =
            (payload.field "autonomous").isTrue) := by
  obtain ⟨hbody, -, -, -⟩ := clearJobs_frame p (if Jobs.handles t then some t else none)
  unfold place
  dsimp only
  generalize clearJobs p (if Jobs.handles t then some t else none) = q at hbody
  have howner : (q.withData (flagged payload)).body.owner = p.body.owner := by
    rw [← hbody]
    rfl
  obtain ⟨q', hq'⟩ := persist_eq_some (p := q.withData (flagged payload)) (howner ▸ hkey) t payload
  obtain ⟨hplaced, htask, hpayload, hauto⟩ := placed_of_persist rfl hq'
  have hp : Placed p q' := by
    refine ⟨?_, hplaced.owner.trans howner, ?_, hplaced.freewill, hplaced.record⟩
    · rw [hplaced.goblin, ← hbody]
      rfl
    · rw [← hbody]
      exact hplaced.sequence
  rw [hq']
  dsimp only
  rcases finish_placed (e := e) hp hkey t detail with hsame | ⟨hfollow, htask'⟩
  · rw [hsame]
    refine ⟨hp, fun hwait => ⟨htask.symm.trans hwait, hpayload, hauto⟩⟩
  · refine ⟨hfollow, fun hwait => ?_⟩
    rw [htask'] at hwait
    cases hwait

/-- **What `setTask` can do** to the order of a named owner's body: leave
it, or put another in place, which is to wait only when asked for. -/
theorem setTask_spec (e : Engine) (hkey : Spawner.ownerKey p.body.owner ≠ none) (task : Bytes)
    (payload : LuaValue) :
    BaseOnly p (setTask e p task payload).2 ∨
      Placed p (setTask e p task payload).2 ∧
        ((setTask e p task payload).2.body.data.goblinTask = .wait →
          Task.ofBytes? task = some .wait ∧
            (setTask e p task payload).2.body.data.goblinTaskPayload = payload.orEmpty ∧
            (setTask e p task payload).2.body.data.goblinAutonomous =
              (payload.orEmpty.field "autonomous").isTrue) := by
  unfold setTask
  split
  · exact .inl (.refl p)
  · split
    · exact .inl (.refl p)
    · exact .inl (.refl p)
    · exact .inl (.refl p)
    · rename_i t _ _ hof
      have hbase := prepare_baseOnly e p t payload.orEmpty
      have hwait : t = .wait → prepare e p t payload.orEmpty = (.ok (payload.orEmpty, ""), p) := by
        rintro rfl
        rfl
      generalize prepare e p t payload.orEmpty = answer at hbase hwait
      obtain ⟨why | ⟨prepared, detail⟩, p'⟩ := answer
      · exact .inl hbase
      · right
        dsimp only at hbase ⊢
        obtain ⟨hplaced, htask⟩ := place_placed e (hbase.owner ▸ hkey) t prepared detail
        refine ⟨⟨hplaced.goblin.trans hbase.goblin, hplaced.owner.trans hbase.owner,
          hbase.sequence ▸ hplaced.sequence, hplaced.freewill, hplaced.record⟩, fun h => ?_⟩
        obtain ⟨rfl, hpayload, hauto⟩ := htask h
        have hprepared := hwait rfl
        simp only [Prod.mk.injEq, Except.ok.injEq] at hprepared
        obtain ⟨⟨rfl, -⟩, -⟩ := hprepared
        exact ⟨hof, hpayload, hauto⟩

/-- Waiting is never refused to a named owner. -/
theorem setTask_wait (e : Engine) (hgoblin : Body.isGoblin p.body = true)
    (hkey : Spawner.ownerKey p.body.owner ≠ none) (payload : LuaValue) :
    (setTask e p (Task.bytes .wait) payload).1.1 = true ∧
      Placed p (setTask e p (Task.bytes .wait) payload).2 ∧
      (setTask e p (Task.bytes .wait) payload).2.body.data.goblinTask = .wait ∧
      (setTask e p (Task.bytes .wait) payload).2.body.data.goblinTaskPayload = payload.orEmpty ∧
      (setTask e p (Task.bytes .wait) payload).2.body.data.goblinAutonomous =
        (payload.orEmpty.field "autonomous").isTrue := by
  have hprepare : prepare e p .wait payload.orEmpty = (.ok (payload.orEmpty, ""), p) := rfl
  have hset : setTask e p (Task.bytes .wait) payload = place e p .wait payload.orEmpty "" := by
    unfold setTask
    simp only [hgoblin, Task.ofBytes?_bytes, hprepare, Bool.not_true, Bool.false_eq_true, if_false]
  rw [hset]
  obtain ⟨hplaced, hwaits⟩ := place_placed e hkey .wait payload.orEmpty ""
  have hdone : (place e p .wait payload.orEmpty "").1.1 = true ∧
      (place e p .wait payload.orEmpty "").2.body.data.goblinTask = .wait := by
    obtain ⟨hbody, -, -, -⟩ := clearJobs_frame p (if Jobs.handles .wait then some .wait else none)
    unfold place
    dsimp only
    generalize clearJobs p (if Jobs.handles .wait then some .wait else none) = q at hbody
    have howner : (q.withData (flagged payload.orEmpty)).body.owner = p.body.owner := by
      rw [← hbody]
      rfl
    obtain ⟨q', hq'⟩ := persist_eq_some (p := q.withData (flagged payload.orEmpty))
      (howner ▸ hkey) .wait payload.orEmpty
    obtain ⟨-, htask, -, -⟩ := placed_of_persist rfl hq'
    rw [hq']
    exact ⟨rfl, htask⟩
  obtain ⟨-, hpayload, hauto⟩ := hwaits hdone.2
  exact ⟨hdone.1, hplaced, hdone.2, hpayload, hauto⟩

/-! ## Commands -/

/-- The names of waiting, in `Brain.execute` as in the bridge. -/
def waitNames : List Bytes := ["NOOP", "WAIT", "HOLD_POSITION", "REST"].map Bytes.lit

/-- The order to wait that `execute` gives. -/
def waitPayload (autonomous : Bool) : LuaValue := tableOf [("autonomous", .bool autonomous)]

theorem ofBytes?_ne_wait {action : Bytes} (h : waitNames.contains action = false) :
    Task.ofBytes? action ≠ some .wait := by
  intro hof
  rw [← Task.bytes_of_ofBytes? hof] at h
  revert h
  decide

/-- A message to wait is an order to wait. -/
theorem execute_wait (e : Engine) {message : LuaValue} {a : Bytes}
    (hact : message.field "action" = .str a) (hgoblin : Body.isGoblin p.body = true)
    (h : waitNames.contains (Bytes.upper a) = true) :
    execute e p message =
      setTask e p (Task.bytes .wait) (waitPayload (message.field "autonomous").isTrue) := by
  have hnames : ∀ action ∈ waitNames,
      (["ENTER_VEHICLE", "EXIT_VEHICLE", "START_VEHICLE", "UNLOCK_VEHICLE"].map Bytes.lit).contains
          action = false ∧
        ((Task.ofBytes? action).any Jobs.handles) = false ∧
        (["OPEN_DOOR", "OPEN_WINDOW"].map Bytes.lit).contains action = false ∧
        (["SAY"].map Bytes.lit).contains action = false ∧
        (["EQUIP"].map Bytes.lit).contains action = false ∧
        (["WAIT", "NOOP", "HOLD_POSITION", "REST"].map Bytes.lit).contains action = true ∧
        (Task.ofBytes? action = none ∨ Task.ofBytes? action = some .wait) := by decide
  obtain ⟨htransport, hjob, hopen, hsay, hequip, hwait, hof⟩ :=
    hnames _ (List.contains_iff_mem.1 h)
  have howner : ownerJobPayload (Bytes.upper a) message = none := by
    unfold ownerJobPayload
    rcases hof with hof | hof
    · rw [hof]
    · rw [hof]
  unfold execute
  simp only [hgoblin, hact, LuaValue.str?, htransport, howner, hjob, hopen, hsay, hequip, hwait,
    Bool.not_true, Bool.false_eq_true, if_false, if_true]
  rfl

/-- An answer that ends no order but to wait: a refusal, or another order's. -/
def NoWait (e : Engine) (p : Post) (r : (Bool × String) × Post) : Prop :=
  r.2 = p ∨ ∃ task payload, Task.ofBytes? task ≠ some .wait ∧ r = setTask e p task payload

theorem NoWait.refuse (e : Engine) (p : Post) (answer : Bool × String) :
    NoWait e p (answer, p) := .inl rfl

theorem NoWait.setTask (e : Engine) (p : Post) {task : Bytes} (h : Task.ofBytes? task ≠ some .wait)
    (payload : LuaValue) : NoWait e p (setTask e p task payload) := .inr ⟨_, _, h, rfl⟩

theorem NoWait.order (e : Engine) (p : Post) {t : Task} (h : t ≠ .wait) (payload : LuaValue) :
    NoWait e p (Brain.setTask e p t.bytes payload) := by
  refine NoWait.setTask e p ?_ payload
  rw [Task.ofBytes?_bytes]
  exact fun hwait => h (Option.some_inj.1 hwait)

theorem NoWait.ite {c : Prop} [Decidable c] {r r' : (Bool × String) × Post} (h : NoWait e p r)
    (h' : NoWait e p r') : NoWait e p (if c then r else r') := by
  split
  · exact h
  · exact h'

/-- Another message is no order to wait. -/
theorem execute_noWait (e : Engine) (p : Post) {message : LuaValue} {a : Bytes}
    (hact : message.field "action" = .str a) (h : waitNames.contains (Bytes.upper a) = false) :
    NoWait e p (execute e p message) := by
  have hne := ofBytes?_ne_wait h
  have hwait : (["WAIT", "NOOP", "HOLD_POSITION", "REST"].map Bytes.lit).contains
      (Bytes.upper a) = false := by
    rw [← h]
    simp only [waitNames, List.map_cons, List.map_nil, List.contains_cons, Bool.or_left_comm]
  have hrefuse (detail : String) : NoWait e p ((false, detail), p) := .refuse e p _
  have hself (payload : LuaValue) := NoWait.setTask e p hne payload
  have horder (t : Task) (ht : t ≠ .wait) (payload : LuaValue) := NoWait.order e p ht payload
  unfold execute
  simp only [hact, LuaValue.str?, hwait, Bool.false_eq_true, if_false]
  refine .ite (hrefuse _) (.ite (hself _) ?_)
  cases ownerJobPayload (Bytes.upper a) message with
  | some payload => exact .ite (hrefuse _) (hself _)
  | none =>
    refine .ite (hself _) (.ite (hself _) ?_)
    refine .ite (horder .speak (fun h => by cases h) _) (.ite (horder .equip (fun h => by cases h) _) ?_)
    refine .ite (horder .follow (fun h => by cases h) _) (.ite (horder .setBase (fun h => by cases h) _) ?_)
    refine .ite (horder .fortify (fun h => by cases h) _) (.ite (horder .build (fun h => by cases h) _) ?_)
    refine .ite (horder .returnToBase (fun h => by cases h) _) (.ite (horder .loot (fun h => by cases h) _) ?_)
    refine .ite (horder .attack (fun h => by cases h) _) (.ite ?_ (hrefuse _))
    split
    · exact horder .moveTo (fun h => by cases h) _
    · exact hrefuse _

end Brain

end GoblinZomboid
