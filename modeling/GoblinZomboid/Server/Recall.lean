import GoblinZomboid.Server.Orders
import GoblinZomboid.Server.Autonomy
/-!
# Recalling a choice

A free-will choice stays recallable as long as the body says it is one. A
choice to wait is placed without that mark, and a body that has come back
has lost it: from then on it waits as if the owner had said so.
-/

namespace GoblinZomboid

/-- A body as the spawner makes it from a record. -/
def Brain.Post.spawn (owner npcId : Bytes) (generation : ℕ) (freewill : Bool)
    (r : Brain.Persisted) : Brain.Post where
  body :=
    let record : Spawner.Record := {
      createdFor := owner
      owner := owner
      npcId := npcId
      generation := generation
      bodyPresent := true
      task := r.task
      taskPayload := r.payload
      baseSet := r.base.isSome
      base := r.base
      freewill := freewill }
    ⟨(Spawner.applyRecord record ⟨owner, Body.mark generation owner npcId, true, true, false⟩).data,
      true⟩
  record := some r
  running := none
  curtains := none
  dismantle := none
  tables := 0
  curtains_lt := fun _ h => by cases h
  dismantle_lt := fun _ h => by cases h

/-- A companion. `chosen` says that a free-will command put its task in
place, which the code does not keep. -/
structure Companion where
  post : Brain.Post
  chosen : Bool

namespace Companion

open Brain (Post Placed BaseOnly)

/-! ## Runs -/

/-- A command as it reaches the server, with what the bridge reads and holds
then. -/
structure Arrival where
  engine : Brain.Engine
  env : Authority.Env
  foodBusy : Bool
  seen : Bridge.Seen
  grants : Authority.Store
  message : LuaValue

/-- What can happen to a companion. -/
inductive Op
  | command (a : Arrival)
  /-- `Autonomy.update`. -/
  | tick (s : Autonomy.Scene)
  /-- Any other call of `Brain.setTask`: the owner's word, a goal's step, a
  finished job, a fight, a ride. -/
  | order (o : Autonomy.Order)
  /-- The owner switches free will. -/
  | freewill (enabled : Bool)
  /-- The body goes and another comes, after a death or without one. -/
  | respawn (died : Bool)

/-- What the bridge makes of a command when this is the only body there. -/
def arrive (a : Arrival) (p : Post) : Bridge.Outcome :=
  let here (b : Bool) : Option Body := if p.body.present && b then some p.body else none
  (Bridge.process a.env (fun npcId => here (npcId == p.body.data.goblinID))
    (fun owner => here (Bytes.lower owner == Bytes.lower p.body.owner))
    a.foodBusy a.message a.seen a.grants).1

/-- Whether a routed message is a free-will choice. -/
def isChoice : Bridge.Route → Bool
  | .order _ _ freewill => freewill
  | _ => false

/-- The companion after an order: a new sequence number is a new task. -/
def after (w : Companion) (choice : Bool) (p : Post) : Companion where
  post := p
  chosen := if p.body.data.goblinTaskSequence = w.post.body.data.goblinTaskSequence then w.chosen
    else choice

/-- A fresh body, with the order of the record. A death resets the record,
and no ride outlives a body. -/
def respawn (died : Bool) (w : Companion) : Companion :=
  let p := w.post
  let owner := p.body.owner
  let kept := p.record.getD ⟨.follow, Body.ownerPayload owner, none⟩
  let r := if died then { kept with task := .follow, payload := Body.ownerPayload owner } else kept
  ⟨Post.spawn owner p.body.data.goblinID (p.body.data.goblinGeneration + 1)
      p.body.data.goblinFreewillEnabled r,
    w.chosen && !died && r.task ≠ .enterVehicle && r.task ≠ .exitVehicle⟩

/-- One step. -/
def step (w : Companion) : Op → Companion
  | .command a =>
    match arrive a w.post with
    | .routed r => w.after (isChoice r) (Bridge.carryOut a.engine a.message w.post r).2
    | _ => w
  | .tick s => w.after false (Autonomy.update s w.post)
  | .order o => w.after false (Autonomy.give w.post o)
  | .freewill enabled =>
    { w with post := w.post.withData fun data => { data with goblinFreewillEnabled := enabled } }
  | .respawn died => respawn died w

/-- The first body of an owner. -/
def start (owner npcId : Bytes) : Companion :=
  ⟨Post.spawn owner npcId 1 true ⟨.follow, Body.ownerPayload owner, none⟩, false⟩

/-! ## The claim and its condition -/

/-- The body is marked as at work of its own. -/
def marked (p : Post) : Bool := p.body.data.goblinFreewill || p.body.data.goblinAutonomous

/-- **A choice to wait is marked as one.** The task of `WAIT` and `NOOP`,
of holding and resting, is one and the same; a body that follows needs no
mark. -/
def Recallable (w : Companion) : Prop :=
  w.chosen = true → w.post.body.data.goblinTask = .wait → marked w.post = true

/-- **A waiting body without the mark is left to wait**: it is not ready for
a choice, and no update replaces its order while no goal is active. -/
theorem left_waiting {p : Post} (hwait : p.body.data.goblinTask = .wait)
    (hmark : marked p = false) (foodBusy : Bool) (s : Autonomy.Scene) (hgoal : s.goal = none) :
    Bridge.freewillReady p.body.data foodBusy = false ∧ Autonomy.update s p = p := by
  simp only [marked, Bool.or_eq_false_iff] at hmark
  obtain ⟨hfreewill, hauto⟩ := hmark
  have hidle : Autonomy.idleUpdate s p = p := by
    unfold Autonomy.idleUpdate
    rw [hauto, hwait]
    simp
  refine ⟨?_, ?_⟩
  · simp [Bridge.freewillReady, hwait, hfreewill, hauto]
  · unfold Autonomy.update
    simp [hfreewill, hauto, hgoal, hidle]

/-- A free-will command is let through to the brain. -/
def LetThrough (a : Arrival) (p : Post) : Prop :=
  ∃ normalized ownerAuthorized, arrive a p = .routed (.order normalized ownerAuthorized true)

/-- **What keeps choices recallable**: no free-will command let through is
called `WAIT` or `NOOP`, and a body that waits by choice is not replaced
unless it died. -/
def KeepsMark (w : Companion) : Op → Prop
  | .command a => LetThrough a w.post →
    Bridge.isAction a.message "WAIT" = false ∧ Bridge.isAction a.message "NOOP" = false
  | .respawn died => died = true ∨ w.chosen = false ∨ w.post.body.data.goblinTask ≠ .wait
  | _ => True

/-! ## What a run keeps -/

/-- **The invariant.** The body is a named owner's, its record waits when it
does, and a choice to wait was not recorded as autonomous. -/
structure Sound (w : Companion) : Prop where
  goblin : Body.isGoblin w.post.body = true
  key : Spawner.ownerKey w.post.body.owner ≠ none
  record : ∃ r, w.post.record = some r ∧
    (r.task = .wait ↔ w.post.body.data.goblinTask = .wait) ∧
    (w.chosen = true → w.post.body.data.goblinTask = .wait →
      (r.payload.field "autonomous").isTrue = false)

/-- The order is left as it is, or another is put in place. -/
def Moves (p p' : Post) : Prop := BaseOnly p p' ∨ Placed p p'

variable {p p' p'' : Post} {w : Companion}

theorem Moves.owner (h : Moves p p') : p'.body.owner = p.body.owner := by
  rcases h with h | h
  · exact h.owner
  · exact h.owner

theorem Moves.trans (h : Moves p p') (h' : Moves p' p'') : Moves p p'' := by
  rcases h with h | h
  · rcases h' with h' | h'
    · exact .inl (h.trans h')
    · exact .inr ⟨h'.goblin.trans h.goblin, h'.owner.trans h.owner, h.sequence ▸ h'.sequence,
        h'.freewill, h'.record⟩
  · rcases h' with h' | h'
    · obtain ⟨base, hdata⟩ := h'.data
      obtain ⟨r, hr, htask, hpayload⟩ := h.record
      obtain ⟨base', hr'⟩ := h'.record r hr
      refine .inr ⟨h'.goblin.trans h.goblin, h'.owner.trans h.owner, ?_, ?_, _, hr', ?_, ?_⟩
      · rw [h'.sequence]
        exact h.sequence
      · rw [hdata]
        exact h.freewill
      · rw [hdata]
        exact htask
      · rw [hdata]
        exact hpayload
    · exact .inr ⟨h'.goblin.trans h.goblin, h'.owner.trans h.owner, h.sequence.trans h'.sequence,
        h'.freewill, h'.record⟩

theorem moves_setTask (e : Brain.Engine) (hkey : Spawner.ownerKey p.body.owner ≠ none)
    (task : Bytes) (payload : LuaValue) : Moves p (Brain.setTask e p task payload).2 := by
  rcases Brain.setTask_spec e hkey task payload with h | ⟨h, -⟩
  · exact .inl h
  · exact .inr h

theorem moves_orders (orders : List Autonomy.Order) (hkey : Spawner.ownerKey p.body.owner ≠ none) :
    Moves p (orders.foldl Autonomy.give p) := by
  induction orders generalizing p with
  | nil => exact .inl (.refl p)
  | cons o orders ih =>
    have hone : Moves p (Autonomy.give p o) := moves_setTask o.engine hkey o.task o.payload
    exact hone.trans (ih (hone.owner ▸ hkey))

/-- The scheduler changes an order only by giving orders. -/
theorem moves_idleUpdate (s : Autonomy.Scene) (hkey : Spawner.ownerKey p.body.owner ≠ none) :
    Moves p (Autonomy.idleUpdate s p) := by
  have hrefl : Moves p p := .inl (.refl p)
  unfold Autonomy.idleUpdate
  split
  · split
    · exact moves_setTask _ hkey _ _
    · exact hrefl
  · split_ifs
    · exact hrefl
    · exact hrefl
    · exact hrefl
    · exact moves_orders _ hkey

theorem moves_update (s : Autonomy.Scene) (hkey : Spawner.ownerKey p.body.owner ≠ none) :
    Moves p (Autonomy.update s p) := by
  have hrefl : Moves p p := .inl (.refl p)
  unfold Autonomy.update
  split
  · exact hrefl
  · split
    · split
      · exact moves_setTask _ hkey _ _
      · exact hrefl
    · split
      · exact moves_setTask _ hkey _ _
      · split
        · exact moves_idleUpdate s hkey
        · rename_i orders taken _
          have horders := moves_orders orders hkey
          split
          · exact horders
          · exact horders.trans (moves_idleUpdate s (horders.owner ▸ hkey))

/-- **An order left as it is** keeps what is known of it; marks may be
added. -/
theorem sound_of_baseOnly (hw : Sound w) (h : BaseOnly w.post p') : Sound ⟨p', w.chosen⟩ := by
  obtain ⟨r, hr, htask, hauto⟩ := hw.record
  obtain ⟨base, hr'⟩ := h.record r hr
  obtain ⟨base', hdata⟩ := h.data
  refine ⟨h.goblin.trans hw.goblin, h.owner ▸ hw.key, _, hr', ?_, ?_⟩
  · rw [hdata]
    exact htask
  · rw [hdata]
    exact hauto

theorem recallable_of_baseOnly (hw : Recallable w) (h : BaseOnly w.post p') :
    Recallable ⟨p', w.chosen⟩ := by
  obtain ⟨base, hdata⟩ := h.data
  unfold Recallable marked
  dsimp only
  rw [hdata]
  exact hw

theorem after_of_baseOnly (h : BaseOnly w.post p') (choice : Bool) :
    w.after choice p' = ⟨p', w.chosen⟩ := by
  unfold after
  rw [if_pos h.sequence]

theorem after_of_placed (h : Placed w.post p') (choice : Bool) :
    w.after choice p' = ⟨p', choice⟩ := by
  unfold after
  rw [if_neg h.sequence.ne']

theorem sound_of_placed (hw : Sound w) (h : Placed w.post p') {choice : Bool}
    (hauto : choice = true → p'.body.data.goblinTask = .wait →
      (p'.body.data.goblinTaskPayload.field "autonomous").isTrue = false) :
    Sound ⟨p', choice⟩ := by
  obtain ⟨r, hr, htask, hpayload⟩ := h.record
  refine ⟨h.goblin.trans hw.goblin, h.owner ▸ hw.key, r, hr, by rw [htask], ?_⟩
  rw [hpayload]
  exact hauto

/-- An order that is nobody's choice leaves a companion recallable. -/
theorem after_false (hw : Sound w) (h : Moves w.post p') :
    Sound (w.after false p') ∧ (Recallable w → Recallable (w.after false p')) := by
  rcases h with h | h
  · rw [after_of_baseOnly h]
    exact ⟨sound_of_baseOnly hw h, fun hrec => recallable_of_baseOnly hrec h⟩
  · rw [after_of_placed h]
    exact ⟨sound_of_placed hw h nofun, fun _ => nofun⟩

/-! ## Commands -/

/-- The action of a well-formed message is in upper case. -/
theorem action_of_wellFormed {message : LuaValue} (h : Bridge.wellFormed message = true) :
    ∃ a, message.field "action" = .str a ∧ Bytes.upper a = a := by
  unfold Bridge.wellFormed at h
  split at h
  · simp only [Bool.and_eq_true] at h
    obtain ⟨-, h⟩ := h
    split at h
    · cases h
    · rename_i a ha
      unfold Bridge.action? at ha
      split at ha
      · rename_i a' hact
        split at ha
        · rename_i hupper
          simp only [Bool.and_eq_true, beq_iff_eq] at hupper
          exact ⟨a', hact, hupper.1⟩
        · cases ha
      · cases ha
  · cases h

/-- **A routed message** is well formed, and a choice is routed as the
normalized message, which is not autonomous. -/
theorem arrive_routed {a : Arrival} {r : Bridge.Route} (h : arrive a p = .routed r) :
    Bridge.wellFormed a.message = true ∧
      ∀ n auth, r = .order n auth true →
        n = Bridge.normalizedMessage a.message ∧
          (a.message.field "autonomous").isTrue = false := by
  unfold arrive Bridge.process at h
  dsimp only at h
  split at h
  · cases h
  · split at h
    · cases h
    · split at h
      · cases h
      · split at h
        · cases h
        · rename_i s hvalid
          have hwell : Bridge.wellFormed a.message = true := by
            unfold Bridge.valid at hvalid
            by_contra hbad
            rw [Bool.not_eq_true] at hbad
            simp [hbad] at hvalid
          refine ⟨hwell, fun n auth hr => ?_⟩
          split at h
          · cases h
          · simp only [Bridge.Outcome.routed.injEq] at h
            rw [← h] at hr
            unfold Bridge.route at hr
            split at hr
            · split at hr
              · cases hr
              · cases hr
            · rename_i hauto
              rw [Bool.not_eq_true] at hauto
              split at hr
              · cases hr
              · simp only [Bridge.Route.order.injEq] at hr
                exact ⟨hr.1.symm, hauto⟩

/-- A message whose action is no name of waiting. -/
def Busy (v : LuaValue) : Prop :=
  ∃ b, v.field "action" = .str b ∧ Brain.waitNames.contains (Bytes.upper b) = false

theorem Busy.ite {c : Prop} [Decidable c] {v v' : LuaValue} (h : Busy v) (h' : Busy v') :
    Busy (if c then v else v') := by
  split
  · exact h
  · exact h'

theorem actionIn_eq {message : LuaValue} {a : Bytes} (hact : message.field "action" = .str a)
    (names : List Bytes) : Authority.actionIn message names = names.contains a := by
  simp [Authority.actionIn, hact, LuaValue.str?]

/-- A busy message stays busy when it is normalized. -/
theorem busy_normalizedMessage {message : LuaValue} {a : Bytes}
    (hact : message.field "action" = .str a) (hupper : Bytes.upper a = a)
    (h : Brain.waitNames.contains a = false) : Busy (Bridge.normalizedMessage message) := by
  have hnew (name : String) (hname : Brain.waitNames.contains (Bytes.upper (Bytes.lit name)) = false) :
      Busy (.ofFields [("action", .str (Bytes.lit name))]) :=
    ⟨_, rfl, hname⟩
  have hsecond : Authority.actionIn message
      (["NOOP", "WAIT", "HOLD_POSITION", "REST"].map Bytes.lit) = false := by
    rw [actionIn_eq hact]
    exact h
  unfold Bridge.normalizedMessage
  simp only [hsecond, Bool.false_eq_true, if_false]
  refine .ite ⟨Bytes.lit "LOOT", rfl, by decide⟩ (.ite (hnew "FOLLOW" (by decide)) ?_)
  refine .ite (hnew "RETURN_TO_BASE" (by decide)) ?_
  refine .ite (hnew "SET_BASE" (by decide)) (.ite (hnew "ATTACK" (by decide)) ?_)
  refine .ite (hnew "FOLLOW" (by decide)) ⟨a, hact, ?_⟩
  rw [hupper, h]

/-- A message to wait becomes the order to wait, and no more. -/
theorem normalizedMessage_wait {message : LuaValue} {a : Bytes}
    (hact : message.field "action" = .str a) (h : Brain.waitNames.contains a = true) :
    Bridge.normalizedMessage message = .ofFields [("action", .str (Bytes.lit "WAIT"))] := by
  have hnames : ∀ a ∈ Brain.waitNames,
      (["SEARCH", "SCAVENGE", "LOOT_AREA"].map Bytes.lit).contains a = false := by decide
  have hfirst : Authority.actionIn message (["SEARCH", "SCAVENGE", "LOOT_AREA"].map Bytes.lit) =
      false := by
    rw [actionIn_eq hact]
    exact hnames a (List.contains_iff_mem.1 h)
  have hsecond : Authority.actionIn message
      (["NOOP", "WAIT", "HOLD_POSITION", "REST"].map Bytes.lit) = true := by
    rw [actionIn_eq hact]
    exact h
  unfold Bridge.normalizedMessage
  simp only [hfirst, hsecond, Bool.false_eq_true, if_false, if_true]

/-- A message moves the order on, or leaves it. -/
theorem moves_execute (e : Brain.Engine) (hgoblin : Body.isGoblin p.body = true)
    (hkey : Spawner.ownerKey p.body.owner ≠ none) (message : LuaValue) :
    Moves p (Brain.execute e p message).2 := by
  cases hact : message.field "action" with
  | str a =>
    cases h : Brain.waitNames.contains (Bytes.upper a) with
    | true =>
      rw [Brain.execute_wait e hact hgoblin h]
      exact moves_setTask e hkey _ _
    | false =>
      rcases Brain.execute_noWait e p hact h with hsame | ⟨task, payload, -, horder⟩
      · rw [hsame]
        exact .inl (.refl p)
      · rw [horder]
        exact moves_setTask e hkey _ _
  | _ =>
    simp only [Brain.execute, hgoblin, hact, LuaValue.str?]
    exact .inl (.refl p)

/-- A message that is no choice moves the order on, or leaves it. -/
theorem moves_carryOut (e : Brain.Engine) (hw : Sound w) (message : LuaValue) {r : Bridge.Route}
    (h : isChoice r = false) : Moves w.post (Bridge.carryOut e message w.post r).2 := by
  cases r with
  | refuse detail => exact .inl (.refl _)
  | offline n => exact moves_execute e hw.goblin hw.key _
  | order n auth freewill =>
    have hfreewill : freewill = false := h
    simp only [Bridge.carryOut, hfreewill, Bool.and_false, Bool.false_and, Bool.false_eq_true,
      if_false]
    exact moves_execute e hw.goblin hw.key _

/-- The mark makes a companion recallable, and changes nothing else. -/
theorem sound_mark (h : Sound w) : Sound ⟨w.post.withData Bridge.markFreewill, w.chosen⟩ :=
  ⟨h.goblin, h.key, h.record⟩

theorem recallable_mark (p : Post) (chosen : Bool) :
    Recallable ⟨p.withData Bridge.markFreewill, chosen⟩ := fun _ _ => rfl

/-- **A choice of something else than waiting** keeps a companion
recallable. -/
theorem choice_busy (e : Brain.Engine) (hw : Sound w) (message : LuaValue) {n : LuaValue}
    (auth : Bool) (h : Busy n) :
    Sound (w.after true (Bridge.carryOut e message w.post (.order n auth true)).2) ∧
      (Recallable w →
        Recallable (w.after true (Bridge.carryOut e message w.post (.order n auth true)).2)) := by
  obtain ⟨b, hact, hbusy⟩ := h
  have hne : Bytes.lit "owner_authorized" ≠ Bytes.lit "action" := by decide
  have hact' : (n.set "owner_authorized" (.bool auth)).field "action" = .str b := by
    rw [LuaValue.field_set_of_ne hne, hact]
  -- What the brain does, before the mark.
  have hbrain : ∀ q, (Brain.execute e w.post (n.set "owner_authorized" (.bool auth))).2 = q →
      BaseOnly w.post q ∨ Placed w.post q ∧ q.body.data.goblinTask ≠ .wait := by
    rintro q rfl
    rcases Brain.execute_noWait e w.post hact' hbusy with hsame | ⟨task, payload, hno, horder⟩
    · rw [hsame]
      exact .inl (.refl _)
    · rw [horder]
      rcases Brain.setTask_spec e hw.key task payload with hbase | ⟨hplaced, hwait⟩
      · exact .inl hbase
      · exact .inr ⟨hplaced, fun htask => hno (hwait htask).1⟩
  unfold Bridge.carryOut
  dsimp only
  generalize Brain.execute e w.post (n.set "owner_authorized" (.bool auth)) = answer at hbrain
  obtain ⟨verdict, q⟩ := answer
  have hq : Sound (w.after true q) ∧ (Recallable w → Recallable (w.after true q)) := by
    rcases hbrain q rfl with hbase | ⟨hplaced, htask⟩
    · rw [after_of_baseOnly hbase]
      exact ⟨sound_of_baseOnly hw hbase, fun hrec => recallable_of_baseOnly hrec hbase⟩
    · rw [after_of_placed hplaced]
      exact ⟨sound_of_placed hw hplaced fun _ hwait => absurd hwait htask,
        fun _ _ hwait => absurd hwait htask⟩
  split
  · exact ⟨sound_mark hq.1, fun _ => recallable_mark _ _⟩
  · exact hq

theorem isAction_eq {message : LuaValue} {a : Bytes} (hact : message.field "action" = .str a)
    (name : String) : Bridge.isAction message name = (a == Bytes.lit name) := by
  simp [Bridge.isAction, Authority.fieldIs, hact, LuaValue.str?]

/-- **A choice to wait** is placed, and is recallable just when it is not
called `WAIT` or `NOOP`. -/
theorem choice_wait (e : Brain.Engine) (hw : Sound w) {message : LuaValue} {a : Bytes}
    (auth : Bool) (hact : message.field "action" = .str a)
    (h : Brain.waitNames.contains a = true) :
    Sound (w.after true (Bridge.carryOut e message w.post
        (.order (Bridge.normalizedMessage message) auth true)).2) ∧
      (Recallable (w.after true (Bridge.carryOut e message w.post
          (.order (Bridge.normalizedMessage message) auth true)).2) ↔
        Bridge.isAction message "WAIT" = false ∧ Bridge.isAction message "NOOP" = false) := by
  have hidle : Bridge.idleChoice message =
      (Bridge.isAction message "WAIT" || Bridge.isAction message "NOOP") := by
    have hnames : ∀ a ∈ Brain.waitNames,
        (a == Bytes.lit "SAY") = false ∧ (a == Bytes.lit "FOLLOW") = false := by decide
    obtain ⟨hsay, hfollow⟩ := hnames a (List.contains_iff_mem.1 h)
    simp only [Bridge.idleChoice, isAction_eq hact, hsay, hfollow, Bool.false_or]
  rw [normalizedMessage_wait hact h]
  have hexecute : Brain.execute e w.post ((LuaValue.ofFields
      [("action", .str (Bytes.lit "WAIT"))]).set "owner_authorized" (.bool auth)) =
        Brain.setTask e w.post (Task.bytes .wait) (Brain.waitPayload false) :=
    Brain.execute_wait e rfl hw.goblin (by decide)
  obtain ⟨hdone, hplaced, htask, hpayload, hauto⟩ :=
    Brain.setTask_wait e hw.goblin hw.key (Brain.waitPayload false)
  have hoff : ((Brain.waitPayload false).orEmpty.field "autonomous").isTrue = false := by decide
  rw [hoff] at hauto
  unfold Bridge.carryOut
  dsimp only
  rw [hexecute, hdone, Bool.true_and, Bool.true_and, hidle]
  generalize Brain.setTask e w.post (Task.bytes .wait) (Brain.waitPayload false) = answer at hplaced htask hpayload hauto
  have hsound : Sound (w.after true answer.2) := by
    rw [after_of_placed hplaced]
    refine sound_of_placed hw hplaced fun _ _ => ?_
    rw [hpayload, hoff]
  cases hname : Bridge.isAction message "WAIT" || Bridge.isAction message "NOOP" with
  | true =>
    refine ⟨hsound, iff_of_false (fun hrec => ?_) fun hnot => ?_⟩
    · rw [Bool.not_true, if_neg nofun, after_of_placed hplaced] at hrec
      have hmarked := hrec rfl htask
      rw [marked, hplaced.freewill, hauto] at hmarked
      cases hmarked
    · rw [hnot.1, hnot.2] at hname
      cases hname
  | false =>
    rw [Bool.not_false, if_pos rfl]
    refine ⟨sound_mark hsound, iff_of_true (recallable_mark _ _) (by simpa using hname)⟩

/-! ## Steps and runs -/

/-- A fresh body waits when its record does, autonomously if the order says
so. -/
theorem spawn_spec (owner npcId : Bytes) (generation : ℕ) (freewill : Bool) (r : Brain.Persisted) :
    let p := Post.spawn owner npcId generation freewill r
    p.body.owner = owner ∧ p.body.data.goblinID = npcId ∧
      Body.isGoblin p.body = (npcId == Config.npcId || Config.npcPrefix.isPrefixOf npcId) ∧
      (p.body.data.goblinTask = .wait ↔ r.task = .wait) ∧
      (r.task = .wait → marked p = (r.payload.field "autonomous").isTrue) := by
  unfold Post.spawn Spawner.applyRecord marked
  refine ⟨rfl, rfl, ?_, ?_, fun hwait => ?_⟩
  · simp [Body.isGoblin, Body.mark, Body.setTask]
  · cases r.task <;> simp [Body.setTask]
  · simp [hwait, Body.setTask, Body.mark]

/-- A goblin's id is one, whatever body carries it. -/
theorem goblinID_of_isGoblin {body : Body} (h : Body.isGoblin body = true) :
    (body.data.goblinID == Config.npcId || Config.npcPrefix.isPrefixOf body.data.goblinID) = true := by
  simp only [Body.isGoblin, Bool.and_eq_true] at h
  exact h.2

theorem sound_respawn (hw : Sound w) (died : Bool) : Sound (respawn died w) := by
  obtain ⟨kept, hkept, htask, hauto⟩ := hw.record
  unfold respawn
  simp only [hkept, Option.getD_some]
  generalize hr : (if died = true then
    ({ kept with task := .follow, payload := Body.ownerPayload w.post.body.owner } :
      Brain.Persisted) else kept) = r
  obtain ⟨howner, -, hgoblin, hwait, -⟩ := spawn_spec w.post.body.owner w.post.body.data.goblinID
    (w.post.body.data.goblinGeneration + 1) w.post.body.data.goblinFreewillEnabled r
  refine ⟨hgoblin.trans (goblinID_of_isGoblin hw.goblin), ?_, r, rfl, hwait.symm, ?_⟩
  · rw [howner]
    exact hw.key
  · intro hchosen hwaits
    cases died with
    | true => simp at hchosen
    | false =>
      obtain rfl : kept = r := hr
      simp only [Bool.and_eq_true] at hchosen
      exact hauto hchosen.1.1.1 (htask.1 (hwait.1 hwaits))

/-- **A new body has lost the mark** of a choice to wait, unless the one
before died. -/
theorem recallable_respawn_iff (hw : Sound w) (died : Bool) :
    Recallable (respawn died w) ↔
      died = true ∨ w.chosen = false ∨ w.post.body.data.goblinTask ≠ .wait := by
  obtain ⟨kept, hkept, htask, hauto⟩ := hw.record
  unfold respawn Recallable
  simp only [hkept, Option.getD_some]
  cases died with
  | true => simp
  | false =>
    obtain ⟨-, -, -, hwait, hmarked⟩ := spawn_spec w.post.body.owner w.post.body.data.goblinID
      (w.post.body.data.goblinGeneration + 1) w.post.body.data.goblinFreewillEnabled kept
    simp only [Bool.false_eq_true, if_false, false_or]
    constructor
    · intro h
      by_contra hcon
      simp only [not_or, Bool.not_eq_false, not_not] at hcon
      obtain ⟨hchosen, hwaits⟩ := hcon
      have hkeptWait := htask.2 hwaits
      have hmark := h (by simp [hchosen, hkeptWait]) (hwait.2 hkeptWait)
      rw [hmarked hkeptWait, hauto hchosen hwaits] at hmark
      cases hmark
    · intro h hchosen hwaits
      simp only [Bool.and_eq_true] at hchosen
      rcases h with hnot | hnot
      · rw [hnot] at hchosen
        cases hchosen.1.1.1
      · exact absurd (htask.1 (hwait.1 hwaits)) hnot

/-- **One step** keeps the invariant, and leads a recallable companion to a
recallable one exactly under the condition. -/
theorem step_spec (hw : Sound w) (op : Op) :
    Sound (step w op) ∧ (Recallable w → (Recallable (step w op) ↔ KeepsMark w op)) := by
  cases op with
  | command a =>
    unfold step KeepsMark LetThrough
    dsimp only
    generalize harrive : arrive a w.post = outcome
    cases outcome with
    | routed r =>
      cases hchoice : isChoice r with
      | false =>
        obtain ⟨hsound, hrec⟩ := after_false hw (moves_carryOut a.engine hw a.message hchoice)
        dsimp only
        rw [hchoice]
        refine ⟨hsound, fun h => iff_of_true (hrec h) ?_⟩
        rintro ⟨n, auth, hr⟩
        rw [Bridge.Outcome.routed.inj hr] at hchoice
        cases hchoice
      | true =>
        obtain ⟨hwell, hroute⟩ := arrive_routed harrive
        obtain ⟨n, auth, rfl⟩ : ∃ n auth, r = .order n auth true := by
          cases r with
          | order n auth freewill =>
            have hfreewill : freewill = true := hchoice
            exact ⟨n, auth, by rw [hfreewill]⟩
          | _ => cases hchoice
        obtain ⟨rfl, -⟩ := hroute n auth rfl
        obtain ⟨name, hact, hupper⟩ := action_of_wellFormed hwell
        cases hwaits : Brain.waitNames.contains name with
        | true =>
          obtain ⟨hsound, hiff⟩ := choice_wait a.engine hw auth hact hwaits
          refine ⟨hsound, fun _ => hiff.trans ?_⟩
          exact ⟨fun h _ => h, fun h => h ⟨_, _, rfl⟩⟩
        | false =>
          obtain ⟨hsound, hrec⟩ :=
            choice_busy a.engine hw a.message auth (busy_normalizedMessage hact hupper hwaits)
          refine ⟨hsound, fun h => iff_of_true (hrec h) fun _ => ?_⟩
          have hnames : Brain.waitNames.contains (Bytes.lit "WAIT") = true ∧
              Brain.waitNames.contains (Bytes.lit "NOOP") = true := by decide
          rw [isAction_eq hact, isAction_eq hact, beq_eq_false_iff_ne, beq_eq_false_iff_ne]
          refine ⟨fun heq => ?_, fun heq => ?_⟩
          · rw [heq, hnames.1] at hwaits
            cases hwaits
          · rw [heq, hnames.2] at hwaits
            cases hwaits
    | _ =>
      refine ⟨hw, fun h => iff_of_true h ?_⟩
      rintro ⟨n, auth, hr⟩
      cases hr
  | tick s =>
    obtain ⟨hsound, hrec⟩ := after_false hw (moves_update s hw.key)
    exact ⟨hsound, fun h => iff_of_true (hrec h) trivial⟩
  | order o =>
    obtain ⟨hsound, hrec⟩ := after_false hw (moves_setTask o.engine hw.key o.task o.payload)
    exact ⟨hsound, fun h => iff_of_true (hrec h) trivial⟩
  | freewill enabled =>
    exact ⟨⟨hw.goblin, hw.key, hw.record⟩, fun h => iff_of_true h trivial⟩
  | respawn died => exact ⟨sound_respawn hw died, fun _ => recallable_respawn_iff hw died⟩

theorem sound_start {owner npcId : Bytes} (h : Spawner.npcIdForOwner owner = some npcId) :
    Sound (start owner npcId) := by
  obtain ⟨key, hkey, rfl⟩ := Option.map_eq_some_iff.1 h
  obtain ⟨howner, -, hgoblin, hwait, -⟩ := spawn_spec owner (Config.npcPrefix ++ key) 1 true
    ⟨.follow, Body.ownerPayload owner, none⟩
  refine ⟨hgoblin.trans ?_, ?_, _, rfl, hwait.symm, nofun⟩
  · simp
  · unfold start
    rw [howner, hkey]
    nofun

/-- **Choices stay recallable exactly in the runs that keep the mark.** -/
theorem recallable_iff_keepsMark {owner npcId : Bytes}
    (h : Spawner.npcIdForOwner owner = some npcId) (ops : List Op) :
    (∀ ops', ops' <+: ops → Recallable (Machine.run step (start owner npcId) ops')) ↔
      Machine.Meets step KeepsMark (start owner npcId) ops := by
  have hstart : Recallable (start owner npcId) := nofun
  rw [Machine.forall_prefix_iff, and_iff_right hstart]
  have hiff : ∀ w op, Sound w ∧ Recallable w → (Recallable (step w op) ↔ KeepsMark w op) := by
    rintro w op ⟨hsound, hrec⟩
    exact (step_spec hsound op).2 hrec
  have hstep : ∀ w op, Sound w ∧ Recallable w → Recallable (step w op) →
      Sound (step w op) ∧ Recallable (step w op) := by
    rintro w op ⟨hsound, -⟩ hnext
    exact ⟨(step_spec hsound op).1, hnext⟩
  exact Machine.meets_congr hiff hstep ⟨sound_start h, hstart⟩

/-- A quiet world: every order is done as it is given. -/
private def quiet : Brain.Engine where
  owner := none
  serverReady := true
  say := (true, "")
  weapon := (true, "")
  transport := .error ""
  opening := .error ""
  houseAt := fun _ => false
  houseNearBase := none
  house := none
  noHouse := none
  handler := .raised
  movement := (true, "")

/-- A free-will command for Ann's companion. -/
private def choice (action : String) : Arrival where
  engine := quiet
  env := ⟨0, 0, Config.default, []⟩
  foodBusy := false
  seen := []
  grants := .empty
  message := .ofFields
    [("type", .str (Bytes.lit "command.npc_action")), ("request_id", .str (Bytes.lit "r1")),
      ("npc_id", .str (Config.npcPrefix ++ Bytes.lit "ann")), ("owner", .str (Bytes.lit "Ann")),
      ("action", .str (Bytes.lit action)), ("freewill", .bool true)]

private def ann : Companion := start (Bytes.lit "Ann") (Config.npcPrefix ++ Bytes.lit "ann")

/-- Holding a position keeps the mark. -/
theorem recallable_holding :
    Recallable (Machine.run step ann [Op.command (choice "HOLD_POSITION")]) := by
  have hruns : ∀ ops', ops' <+: [Op.command (choice "HOLD_POSITION")] →
      Recallable (Machine.run step ann ops') :=
    (recallable_iff_keepsMark (by decide) _).2 ⟨fun _ => ⟨by decide, by decide⟩, trivial⟩
  exact hruns _ List.prefix_rfl

/-- A choice to wait is an owner's order from then on: the body is not ready
for another choice. -/
theorem chosen_wait_unmarked :
    let w := Machine.run step ann [Op.command (choice "WAIT")]
    w.chosen = true ∧ w.post.body.data.goblinTask = .wait ∧ marked w.post = false ∧
      Bridge.freewillReady w.post.body.data false = false := by
  decide

end Companion

end GoblinZomboid
