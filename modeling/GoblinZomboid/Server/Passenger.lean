import GoblinZomboid.Lib.Bytes
import GoblinZomboid.Lib.Reading
import Mathlib.Data.Rat.Floor
/-!
# `GoblinPassenger.lua`: a Goblin in a seat

Who sits where, what drives and whether a Goblin rides at all is what most of a
tick can only read, and most of a tick is of a type that cannot do more.
-/

namespace GoblinZomboid

namespace Transport

/-! ## The engine -/

/-- Who can sit in a car; a player goes by the name in lower case. -/
inductive Who
  | goblin (n : ℕ)
  | player (n : ℕ)
  deriving DecidableEq

structure Point where
  x : ℚ
  y : ℚ
  z : ℚ

/-- The square of the distance in the plane. -/
def Point.distance (p q : Point) : ℚ := (p.x - q.x) ^ 2 + (p.y - q.y) ^ 2

/-- Who sits where, and which car each is attached to. -/
structure Seating where
  seats : ℕ → ℕ → Option Who
  attached : Who → Option ℕ

/-- What of a car no tick changes. -/
structure Car where
  script : Bytes
  count : ℕ
  speed : ℚ
  position : Point
  installed : ℕ → Bool
  enterBlocked : ℕ → Bool
  exitBlocked : ℕ → Bool
  /-- Where a seat's door is, and whether the square there is free. -/
  outside : ℕ → Option (Point × Bool)
  inside : ℕ → Option Point
  working : Bool
  liveBattery : Bool
  /-- `Policy.access`: none where it allows the car. -/
  refusal : Option String

structure Motor where
  running : Bool
  starting : Bool
  trunkLocked : Bool

structure Door where
  locked : Bool
  opened : Bool
  /-- `canUnlockDoor`: the matching key is there. -/
  canUnlock : Bool

inductive Phase
  | enter
  | ride
  | exit
  deriving DecidableEq

/-- `GoblinRide`. -/
structure Ride where
  id : ℕ
  script : Bytes
  seat : ℕ
  phase : Phase
  since : ℤ

inductive Task
  | enterVehicle
  | exitVehicle
  | startVehicle
  | unlockVehicle
  | wait
  | follow
  /-- `GAIN_ACCESS` with the method `VEHICLE`. -/
  | gainAccess
  | other
  deriving DecidableEq

/-- A prepared order. What the engine did not tell is left out. -/
structure Payload where
  vehicleId : Option ℕ := none
  script : Option Bytes := none
  seat : Option ℕ := none
  point : Option Point := none
  startedAt : Option ℤ := none
  lastAttempt : Option ℤ := none

/-- What a Goblin's data and the tables of the mod hold of it, the ride apart. -/
structure Mind where
  owner : ℕ
  position : Point
  task : Task
  payload : Payload
  vehicleExit : Option Point
  revision : ℕ
  boardHold : Bool
  pending : Option Payload
  boardRetry : Option (Option ℕ × ℤ)
  /-- `Passenger.bound`: the car. -/
  bound : Option ℕ
  status : Option String
  said : List String

/-- What only a few steps of a tick change. -/
structure Fixed where
  seating : Seating
  motors : ℕ → Motor
  ride : Option Ride

/-- What every step of a tick may change. -/
structure Side where
  doors : ℕ → ℕ → Option Door
  mind : Mind

abbrev World := Framed Fixed Side

/-- What a tick meets. -/
structure Scene where
  goblin : ℕ
  /-- The cars that are loaded, and the order in which they are told. -/
  cars : ℕ → Option Car
  vehicles : List ℕ
  /-- The owner, where online, and where that is. -/
  owner : Option ℕ
  ownerPosition : Point
  server : Bool
  /-- `goblinServerPassengerReady`. -/
  passengerReady : Bool
  now : ℤ

/-- The Goblin whose tick it is. -/
def Scene.body (e : Scene) : Who := .goblin e.goblin

/-! ## Calls -/

inductive Answer
  | raised
  | no
  | yes
  deriving DecidableEq

/-- How a call goes: whether it acts, and what it answers. -/
structure Turn where
  acts : Bool
  answer : Answer

/-- What a read that is taken for an object gives: an object, nothing, or an
error in its place. -/
inductive Handle (α : Type)
  | present (a : α)
  | nothing
  | junk
  deriving DecidableEq

/-- A script that can only read the fixed part. -/
abbrev Calm := Reading Fixed Side Turn

/-- A script of a tick. -/
abbrev Run := Script World Turn

namespace Calm

/-- A read: none where it raises. -/
def probe {α : Type} (f : Fixed → Side → α) : Calm (Option α) :=
  Reading.look fun t fixed side => if t.answer = .raised then none else some (f fixed side)

/-- A read of the fixed part. -/
def see {α : Type} (f : Fixed → α) : Calm (Option α) := probe fun fixed _ => f fixed

/-- A read that is taken for an object. -/
def find {α : Type} (f : Fixed → Side → Option α) : Calm (Handle α) := do
  let told ← probe f
  pure (match told with
    | none => .junk
    | some none => .nothing
    | some (some a) => .present a)

/-- A call that acts on a door or on the Goblin. -/
def act (f : Side → Side) : Calm Answer := Reading.ofSide <| Script.call fun t side =>
  (some t.answer, if t.acts then f side else side)

/-- The Goblin's own data. -/
def mind : Calm Mind := Reading.ofSide do
  let side ← Script.get
  pure side.mind

def setMind (f : Mind → Mind) : Calm Unit := Reading.ofSide <| Script.modify fun side =>
  { side with mind := f side.mind }

/-- `GoblinRide`. -/
def ride : Calm (Option Ride) := do
  let fixed ← Reading.fixed
  pure fixed.ride

/-- A value the next lines index; without it, an error that nothing in the tick
catches. -/
def need {α : Type} : Option α → Calm α
  | some a => pure a
  | none => Reading.fail

end Calm

/-- A calm script in a tick. -/
abbrev calm {α : Type} (m : Calm α) : Run α := m.lift

/-- A call that acts on the whole. -/
def call (f : World → World) : Run Answer :=
  Script.call fun t w => (some t.answer, if t.acts then f w else w)

/-- A call that acts on the seats. -/
def seatAct (f : Seating → Seating) : Run Answer :=
  call fun w => { w with fixed := { w.fixed with seating := f w.fixed.seating } }

/-- A change of what drives a car. -/
def World.setMotor (v : ℕ) (f : Motor → Motor) (w : World) : World :=
  let motors := fun v' => if v' = v then f (w.fixed.motors v) else w.fixed.motors v'
  { w with fixed := { w.fixed with motors } }

def setRide (ride : Option Ride) : Run Unit := Script.modify fun w =>
  { w with fixed := { w.fixed with ride } }

variable (e : Scene)

/-- `getSeat`: none for -1. -/
def Seating.seatOf (v : ℕ) (who : Who) (s : Seating) : Option ℕ :=
  (e.cars v).bind fun car => (List.range car.count).find? fun seat => s.seats v seat = some who

/-- `enterRSync`. -/
def Seating.enter (v seat : ℕ) (who : Who) (s : Seating) : Seating where
  seats := fun v' seat' => if v' = v ∧ seat' = seat then some who else s.seats v' seat'
  attached := fun who' => if who' = who then some v else s.attached who'

/-- `clearPassenger`. -/
def Seating.clear (v seat : ℕ) (s : Seating) : Seating :=
  { s with seats := fun v' seat' => if v' = v ∧ seat' = seat then none else s.seats v' seat' }

/-- `setVehicle(nil)`. -/
def Seating.detach (who : Who) (s : Seating) : Seating :=
  { s with attached := fun who' => if who' = who then none else s.attached who' }

/-- `exitRSync`. -/
def Seating.exit (v : ℕ) (who : Who) (s : Seating) : Seating :=
  match s.seatOf e v who with
  | some seat => (s.clear v seat).detach who
  | none => s

/-- A read of a car, which is not there where it is not loaded. -/
def ask {α : Type} (v : ℕ) (f : Car → α) : Calm (Option α) := do
  let told ← Calm.see fun _ => (e.cars v).map f
  pure told.join

/-- `getCharacter`. -/
def getCharacter (v seat : ℕ) : Calm (Handle Who) :=
  Calm.find fun fixed _ => fixed.seating.seats v seat

/-- `getVehicle`. -/
def getVehicle (who : Who) : Calm (Handle ℕ) :=
  Calm.find fun fixed _ => fixed.seating.attached who

/-- `getVehicle` of the owner, who may be offline. -/
def ownerVehicle : Calm (Handle ℕ) :=
  match e.owner with
  | some owner => getVehicle (.player owner)
  | none => pure .nothing

/-- `getSeat`. -/
def getSeat (v : ℕ) (who : Who) : Calm (Option (Option ℕ)) :=
  Calm.see fun fixed => fixed.seating.seatOf e v who

/-- `ownerVehicle:getId()`, a call nothing catches. -/
def getId : Handle ℕ → Calm ℕ
  | .present v => do
    let told ← Calm.see fun _ => v
    Calm.need told
  | _ => Reading.fail

/-! ## `GoblinPassenger.lua` -/

/-- `Passenger.validSeat`. -/
def validSeat (v seat : ℕ) : Calm Bool := do
  let count ← ask e v (·.count)
  pure (count.any fun count => 1 ≤ seat && seat < count && seat < 64)

/-- `Passenger.resolve`. -/
def resolve (id : Option ℕ) (script : Option Bytes) : Calm (Option ℕ) :=
  match id.filter fun v => v ≤ 32767 && (e.cars v).isSome with
  | none => pure none
  | some v => do
    let name ← ask e v (·.script)
    pure (if name.isSome && name == script then some v else none)

/-- `Passenger.doorPoint`. -/
def doorPoint (v seat : ℕ) : Calm (Option (Point × Bool)) := do
  let count ← ask e v (·.count)
  if count.any fun count => seat < count && seat < 64 then do
    let told ← ask e v fun car => car.outside seat
    pure (told.join.map fun (p, free) => ({ p with z := ⌊p.z⌋ }, free))
  else pure none

/-- `Passenger.point`. -/
def point (v seat : ℕ) : Calm (Option (Point × Bool)) := do
  let valid ← validSeat e v seat
  if valid then doorPoint e v seat else pure none

/-- `Passenger.place`. -/
def place (p : Option Point) : Calm Unit :=
  match p with
  | none => pure ()
  | some p => do
    let _ ← Calm.act fun side => { side with mind := { side.mind with position := p } }
    pure ()

/-- The seat and the tie `Passenger.detach` ends. -/
def loosen (vehicle : Handle ℕ) : Run Unit :=
  match vehicle with
  | .nothing => pure ()
  | .junk => do
    let _ ← seatAct (Seating.detach e.body)
    pure ()
  | .present v => do
    let seat ← calm (getSeat e v e.body)
    match seat.join with
    | some seat => do
      -- Never clear a replacement occupant's seat.
      let _ ← seatAct (Seating.clear v seat)
      let _ ← seatAct (Seating.detach e.body)
      pure ()
    | none => do
      let _ ← seatAct (Seating.detach e.body)
      pure ()

/-- `Passenger.detach`. -/
def detach (p : Option Point) : Run Unit := do
  let vehicle ← calm (do
    let mind ← Calm.mind
    let vehicle ← getVehicle e.body
    pure (match vehicle, mind.bound with
      | .nothing, some v => Handle.present v
      | vehicle, _ => vehicle))
  loosen e vehicle
  calm (do
    Calm.setMind ({ · with bound := none })
    place p)

/-- The end of `Passenger.apply`. -/
def settle (v seat : ℕ) : Calm Unit := do
  Calm.setMind ({ · with bound := some v })
  let valid ← validSeat e v seat
  if valid then do
    let told ← ask e v fun car => car.inside seat
    place told.join
  else pure ()

/-- Whether the Goblin is tied to a car and does not sit in this seat of it. -/
def elsewhere (v seat : ℕ) (old : Handle ℕ) : Calm Bool :=
  match old with
  | .nothing => pure false
  | .junk => pure true
  | .present u => do
    let told ← getSeat e u e.body
    pure (u ≠ v ∨ told ≠ some (some seat))

/-- `Passenger.apply`, where the seat is free or the Goblin's. -/
def takeSeat (v seat : ℕ) (occupant : Handle Who) : Run Unit := do
  let old ← calm (getVehicle e.body)
  let elsewhere ← calm (elsewhere e v seat old)
  let _ ← (if elsewhere then detach e none else pure ())
  if occupant = .present e.body ∧ old = .present v then calm (settle e v seat)
  else do
    let entered ← seatAct (Seating.enter v seat e.body)
    if entered = .yes then calm (settle e v seat) else pure ()

/-- `Passenger.apply`, with a ride. -/
def apply (ride : Ride) : Run Unit := do
  let vehicle ← calm (resolve e (some ride.id) (some ride.script))
  match vehicle with
  | none => pure ()
  | some v => do
    let valid ← calm (validSeat e v ride.seat)
    if valid then do
      let occupant ← calm (getCharacter v ride.seat)
      -- Never evict a player or another companion.
      if occupant = .nothing ∨ occupant = .present e.body then takeSeat e v ride.seat occupant
      else pure ()
    else pure ()

end Transport

end GoblinZomboid
