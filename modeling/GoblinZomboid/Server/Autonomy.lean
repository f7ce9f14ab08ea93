import GoblinZomboid.Server.Brain
/-!
# `GoblinAutonomy.lua`: the idle scheduler

`update` runs every server tick. A ride, a threat, a recall or a moving
owner sends chosen or autonomous work back to following; only a body that
follows is given a chore. Where it stands and what it finds to do are
the tick's `Scene`.
-/

namespace GoblinZomboid

namespace Autonomy

/-- A call of `Brain.setTask` by one of the layers the scheduler asks, with
the world's answers to it. -/
structure Order where
  engine : Brain.Engine
  task : Bytes
  payload : LuaValue

/-- What one update finds. -/
structure Scene where
  /-- The answers to the scheduler's own orders to follow. -/
  engine : Brain.Engine
  /-- The owner is online, and nowhere. -/
  lost : Bool
  riding : Bool
  online : Bool
  /-- The owner has been still for the idle time. -/
  idle : Bool
  /-- The body is farther from the owner than the recall distance. -/
  far : Bool
  threat : Bool
  /-- `Goals.tick` while a goal is active: what it orders, and whether it
  takes the tick; none without an active goal. -/
  goal : Option (List Order × Bool)
  /-- `Config.autonomyEnabled`. -/
  enabled : Bool
  /-- An online owner is on another floor, or the way back is not done. -/
  lagging : Bool
  /-- The orders of goals, upkeep and chores, which only an idle follower
  reaches. -/
  chores : List Order

/-- One order, whatever is answered. -/
def give (p : Brain.Post) (o : Order) : Brain.Post := (Brain.setTask o.engine p o.task o.payload).2

/-- `Brain.setTask(body, "FOLLOW", {owner = Body.owner(body)})`. -/
def recallBody (e : Brain.Engine) (p : Brain.Post) : Brain.Post :=
  (Brain.setTask e p (Task.bytes .follow) (Body.ownerPayload p.body.owner)).2

/-- The part of `update` after the goals have had their turn. -/
def idleUpdate (s : Scene) (p : Brain.Post) : Brain.Post :=
  if s.online && !s.idle then
    if p.body.data.goblinAutonomous then recallBody s.engine p else p
  else if !s.enabled then p
  else if p.body.data.goblinTask ≠ .follow then p
  else if s.lagging then p
  else s.chores.foldl give p

/-- `Autonomy.update`, in what it does to the body's order. -/
def update (s : Scene) (p : Brain.Post) : Brain.Post :=
  if s.lost then p
  else if s.riding then
    if p.body.data.goblinAutonomous then recallBody s.engine p else p
  else if s.online && p.body.data.goblinFreewill && p.body.data.goblinTask ≠ .follow
      && (!s.idle && s.far || s.threat) then
    recallBody s.engine p
  else
    match if s.online then s.goal else none with
    | none => idleUpdate s p
    | some (orders, taken) =>
      if taken then orders.foldl give p else idleUpdate s (orders.foldl give p)

end Autonomy

end GoblinZomboid
