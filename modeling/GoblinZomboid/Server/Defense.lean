import GoblinZomboid.Server.Body
import Mathlib.Data.Rat.Floor
/-!
# `GoblinDefense.lua`: the combat layer

The layer wraps the brain's update. A body that follows, or was put to a
chore, shoots at the zombies near its owner; an explicit `ATTACK` goes after
those near the body. A shot takes two ticks at the least: one that takes aim
and tells the clients so, and one, when the windup is over, that hits. What
the engine answers in a tick is the tick's `Scene`.
-/

namespace GoblinZomboid

namespace Defense

/-! ## What a tick finds -/

/-- The square a point lies in. -/
structure Tile where
  x : ℤ
  y : ℤ
  z : ℤ
  deriving DecidableEq

def tile (p : Point) : Tile := ⟨⌊p.x⌋, ⌊p.y⌋, ⌊p.z⌋⟩

/-- `distanceSquared`. -/
def distanceSquared (a b : Point) : ℚ := (a.x - b.x) ^ 2 + (a.y - b.y) ^ 2 + (a.z - b.z) ^ 2

/-- What a zombie answers. -/
structure Zombie where
  isGoblin : Bool
  isDead : Bool
  health : Option ℚ
  position : Option Point

/-- `targetIsAlive`. -/
def Zombie.isAlive (z : Zombie) : Bool :=
  !z.isGoblin && !z.isDead && !z.health.any (· ≤ 0) && z.position.isSome

/-- What an online player answers. -/
structure Player where
  username : Bytes
  inVehicle : Bool
  position : Option Point

/-- What one update finds. -/
structure Scene where
  now : ℤ
  body : Body
  /-- The body itself, among the zombies. -/
  self : ℕ
  /-- `GoblinRide` or `GoblinTransportActive`. -/
  riding : Bool
  position : Option Point
  players : List Player
  /-- The zombies of the cell, in its order. -/
  zombies : List ℕ
  look : ℕ → Zombie
  /-- What the target answers once it was hit. -/
  after : Zombie
  /-- Whether `LosUtil.lineClear` is `Clear`; none where it cannot be asked. -/
  lineClear : Tile → Tile → Option Bool
  /-- `Movement.snapshot` is there. -/
  moving : Bool
  /-- The types of the items carried, where there is an inventory. -/
  inventory : Option (List String)
  /-- `AddItem` gives an item. -/
  adds : Bool
  /-- The call of `Hit` succeeds. -/
  hits : Bool
  combatRadius : Option ℚ
  followRunDistance : Option ℚ

namespace Scene

def task (sc : Scene) : Task := sc.body.data.goblinTask

/-- Boarding or riding, which combat waits for. -/
def aboard (sc : Scene) : Bool :=
  sc.riding || sc.task = .enterVehicle || sc.task = .exitVehicle

def automatic (sc : Scene) : Bool := sc.task = .follow || sc.body.data.goblinAutonomous

end Scene

/-! ## What a tick does -/

/-- An entry of `Defense.states`. -/
structure Engagement where
  target : ℕ
  nextAttackAt : ℤ
  lastGoal : Option Point
  taskSequence : ℕ
  fireAt : Option ℤ
  approachAt : Option ℤ

/-- The layer's own data of one body. -/
structure State where
  engagement : Option Engagement
  actionSequence : ℕ
  shotsFired : ℕ
  kills : ℕ

def State.forget (s : State) : State := { s with engagement := none }

/-- `Constants.MOVE_TYPE`. -/
inductive Gait
  | idle | walk | run
  deriving DecidableEq

/-- What a tick asks for. -/
inductive Act
  /-- `originalUpdate(body, now)`. -/
  | passOn
  /-- `Body.setCombatPose`. -/
  | pose (active : Bool)
  /-- `Movement.command(body, MOVE_TO, point)`. -/
  | moveTo (point : Point)
  /-- `Movement.update`. -/
  | move
  /-- `Movement.clear`. -/
  | stop
  /-- `Body.setPhysicalState`, ready to fight. -/
  | ready (gait : Gait)
  /-- `Body.setPhysicalState`, attacking. -/
  | attacking
  /-- The shotgun in both hands. -/
  | equip
  /-- `Body.refillWeapon`. -/
  | refill
  | face (target : ℕ)
  /-- The `combat` command to the clients, of the aim taken at a target. -/
  | aim (target sequence : ℕ) (x y : ℚ)
  | hit (target : ℕ)
  /-- `Brain.setTask(body, FOLLOW, ..)`. -/
  | follow
  | say (text : String)
  deriving DecidableEq

/-! ## Targets -/

/-- A candidate of `nearestThreat`. -/
def Scene.isThreat (sc : Scene) (origin : Point) (z : ℕ) : Bool :=
  z != sc.self && (sc.look z).isAlive
    && (sc.look z).position.any fun p => ⌊p.z⌋ = ⌊origin.z⌋

/-- One turn of the loop: the best so far, and its distance or the bound. -/
def Scene.nearer (sc : Scene) (origin : Point) (best : Option ℕ × ℚ) (z : ℕ) : Option ℕ × ℚ :=
  match (sc.look z).position with
  | none => best
  | some p =>
    if sc.isThreat origin z && distanceSquared origin p ≤ best.2 then
      (some z, distanceSquared origin p)
    else best

/-- `nearestThreat`. -/
def Scene.nearestThreat (sc : Scene) (origin : Option Point) (radius : ℚ) : Option ℕ :=
  match origin with
  | none => none
  | some o => (sc.zombies.foldl (sc.nearer o) (none, radius * radius)).1

/-- A target is kept while it lives; by the automatic defense, only on the
owner's floor and within the radius. -/
def Scene.keeps (sc : Scene) (origin : Option Point) (radius : ℚ) (z : ℕ) : Bool :=
  (sc.look z).isAlive && (!sc.automatic || match origin, (sc.look z).position with
    | some o, some p => ⌊p.z⌋ = ⌊o.z⌋ && distanceSquared p o ≤ radius * radius
    | _, _ => false)

/-- The target of a tick. -/
def Scene.target (sc : Scene) (s : State) (origin : Option Point) (radius : ℚ) : Option ℕ :=
  match s.engagement with
  | none => sc.nearestThreat origin radius
  | some e =>
    if sc.keeps origin radius e.target then some e.target else sc.nearestThreat origin radius

/-! ## Engaging -/

def weapon : String := "Base.DoubleBarrelShotgun"

def shotgunRange : ℚ := 12

def shotCooldownMs : ℤ := 1200

def shotWindupMs : ℤ := 400

def approachMs : ℤ := 45000

def ownerDefenseRadius : ℚ := 5

/-- `Body.ensureWeapon`, as the layer overrides it. -/
def ensureWeapon (sc : Scene) : Except String Unit :=
  match sc.inventory with
  | none => .error "inventory unavailable"
  | some items =>
    if items.contains weapon || sc.adds then .ok () else .error "double-barrel shotgun unavailable"

/-- The state a target is engaged in: its own, or a new one. -/
def engagementOf (sc : Scene) (s : State) (z : ℕ) : Engagement :=
  let fresh : Engagement := ⟨z, 0, none, sc.body.data.goblinTaskSequence, none, none⟩
  match s.engagement with
  | none => fresh
  | some e => if e.target = z then e else fresh

/-- What `engage` leaves and answers. -/
structure Engaging where
  state : State
  acts : List Act
  engaged : Bool
  detail : String

/-- Without a clear shot: on an order, closer; otherwise the owner comes first. -/
def pursue (sc : Scene) (s : State) (e : Engagement) (victim : Point) (gap2 : ℚ)
    (blocked chase : Bool) : Engaging :=
  let e := { e with fireAt := none }
  if !chase then
    ⟨s.forget, [.pose false], false, "following owner; no clear shot in range"⟩
  else
    let since := e.approachAt.getD sc.now
    let e := { e with approachAt := some since }
    if approachMs ≤ sc.now - since then
      ⟨{ s with engagement := some e }, [.pose false], false,
        "could not reach a clear firing position; clear a path and try again"⟩
    else
      let needsGoal := !e.lastGoal.any fun g => distanceSquared g victim ≤ 1
      let gait : Gait := if (sc.followRunDistance.getD 9) ^ 2 ≤ gap2 then .run else .walk
      let detail :=
        if blocked then "approaching the zombie for a clear shot" else "closing to double-barrel range"
      if needsGoal || !sc.moving then
        ⟨{ s with engagement := some { e with lastGoal := some victim } },
          [.pose false, .moveTo victim, .ready gait], true, detail⟩
      else
        ⟨{ s with engagement := some e }, [.pose false, .move, .ready gait], true, detail⟩

/-- The target is alive, and no worse than before. -/
def Scene.unharmed (sc : Scene) (z : ℕ) : Bool :=
  match (sc.look z).health, sc.after.health with
  | some before, some after => before ≤ after && sc.after.isAlive
  | _, _ => false

/-- The impact. -/
def fire (sc : Scene) (s : State) (e : Engagement) (z : ℕ) : Engaging :=
  let s := { s with engagement := some { e with fireAt := none } }
  let acts := [.refill, .attacking, .hit z, .refill, .pose false]
  if !sc.hits then ⟨s, acts, false, "double-barrel Hit failed"⟩
  else if sc.unharmed z then ⟨s, acts, false, "the shot did not damage that zombie"⟩
  else
    ⟨{ s with
        shotsFired := s.shotsFired + 1
        kills := if sc.after.isAlive then s.kills else s.kills + 1 },
      acts, true, "fired double-barrel shotgun"⟩

/-- With a clear shot: aim, wait for the windup, fire. -/
def shoot (sc : Scene) (s : State) (e : Engagement) (z : ℕ) (victim : Point) : Engaging :=
  let e := { e with approachAt := none }
  let s := { s with engagement := some e }
  match ensureWeapon sc with
  | .error detail => ⟨s, [.stop, .ready .idle], false, detail⟩
  | .ok () =>
    let acts := [.stop, .ready .idle, .equip, .face z]
    match e.fireAt with
    | none =>
      if sc.now < e.nextAttackAt then ⟨s, acts ++ [.pose false], true, "shotgun recovery"⟩
      else
        let sequence := s.actionSequence + 1
        ⟨{ s with
            engagement := some { e with
              fireAt := some (sc.now + shotWindupMs)
              nextAttackAt := sc.now + shotCooldownMs }
            actionSequence := sequence },
          acts ++ [.pose true, .aim z sequence victim.x victim.y], true,
          "aiming double-barrel shotgun"⟩
    | some fireAt =>
      if sc.now < fireAt then ⟨s, acts, true, "aiming double-barrel shotgun"⟩
      else
        let r := fire sc s e z
        { r with acts := acts ++ r.acts }

/-- `engage`. -/
def engage (sc : Scene) (s : State) (z : ℕ) (chase : Bool) : Engaging :=
  let e := engagementOf sc s z
  let s := { s with engagement := some e }
  match sc.position, (sc.look z).position with
  | some actor, some victim =>
    match sc.lineClear (tile actor) (tile victim) with
    | none => ⟨s, [], false, "could not check the line of fire"⟩
    | some clear =>
      let gap2 := distanceSquared actor victim
      if !clear || shotgunRange * shotgunRange < gap2 then pursue sc s e victim gap2 (!clear) chase
      else shoot sc s e z victim
  | _, _ => ⟨s, [], false, "combat position unavailable"⟩

/-! ## The update -/

/-- What a tick leaves. The answer is the wrapped update's own where there
is none. -/
structure Turn where
  state : State
  acts : List Act
  answer : Option (Bool × String)

/-- No target, or none to be engaged: an order is over, anything else goes on. -/
def standDown (sc : Scene) (s : State) (acts : List Act) : Turn :=
  if sc.task = .attack then
    ⟨s.forget, acts ++ [.pose false, .follow,
        .say "Comrade, no live zombie remains in my search range; returning to you."],
      some (true, "no live zombie in search range; following owner")⟩
  else ⟨s.forget, acts ++ [.pose false, .passOn], none⟩

/-- Combat around a point. -/
def fight (sc : Scene) (s : State) (acts : List Act) (origin : Option Point) (radius : ℚ) : Turn :=
  match sc.target s origin radius with
  | none => standDown sc s acts
  | some z =>
    let r := engage sc s z (sc.task = .attack)
    if r.engaged then ⟨r.state, acts ++ r.acts, some (true, r.detail)⟩
    else if sc.task = .attack then
      ⟨r.state.forget, acts ++ r.acts ++ [.pose false, .follow,
        .say ("Comrade, " ++ r.detail ++ "; returning to you.")], some (false, r.detail)⟩
    else standDown sc r.state (acts ++ r.acts)

/-- Where the owner is, for the automatic defense. -/
inductive Owner
  | inVehicle
  | absent
  | onFoot (point : Point)

def Scene.owner (sc : Scene) : Owner :=
  match sc.players.find? fun p => p.username.lower == sc.body.owner.lower with
  | none => .absent
  | some p => if p.inVehicle then .inVehicle else p.position.elim .absent .onFoot

/-- An engagement of an earlier order is over. -/
def dropOld (sc : Scene) (s : State) : State × List Act :=
  if s.engagement.any fun e => e.taskSequence ≠ sc.body.data.goblinTaskSequence then
    (s.forget, [.pose false])
  else (s, [])

/-- `Brain.update`, as the layer overrides it. -/
def update (s : State) (sc : Scene) : Turn :=
  if !sc.body.isGoblin then ⟨s, [.passOn], none⟩
  else
    let (s, acts) := dropOld sc s
    if sc.aboard then ⟨s.forget, acts ++ [.pose false, .passOn], none⟩
    else if sc.automatic then
      match sc.owner with
      | .inVehicle => ⟨s, acts ++ [.passOn], none⟩
      | .absent => ⟨s.forget, acts ++ [.pose false, .passOn], none⟩
      | .onFoot origin => fight sc s acts (some origin) ownerDefenseRadius
    else if sc.task = .attack then fight sc s acts sc.position (sc.combatRadius.getD 20)
    else ⟨s, acts ++ [.passOn], none⟩

/-- A body the layer has not seen yet. -/
def start : State := ⟨none, 0, 0, 0⟩

/-- The state one update leaves. -/
def step (s : State) (sc : Scene) : State := (update s sc).state

end Defense

end GoblinZomboid
