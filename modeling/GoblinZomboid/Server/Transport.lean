import GoblinZomboid.Server.Passenger
/-!
# `GoblinTransport.lua`: riding along

A Goblin boards a car that stands, rides in a passenger seat and gets out where
there is room; with its owner at the wheel it starts the car without a key, and
it unlocks a car its owner stands by.
-/

namespace GoblinZomboid

namespace Transport

variable (e : Scene)

/-! ## Doors -/

/-- `getPassengerDoor` and its `getDoor`. -/
def getDoor (v seat : ℕ) : Calm (Handle Unit) := do
  let part ← Calm.see fun _ => ()
  match part with
  | none => pure .nothing
  | some () => Calm.find fun _ side => (side.doors v seat).map fun _ => ()

/-- `isLocked` of a door: none where it raises. -/
def isLocked (v seat : ℕ) (door : Handle Unit) : Calm (Option Bool) :=
  if door = .present () then do
    let told ← Calm.probe fun _ side => (side.doors v seat).map (·.locked)
    pure told.join
  else pure none

/-- A change of a door. -/
def Side.setDoor (v seat : ℕ) (f : Door → Door) (side : Side) : Side :=
  { side with doors := fun v' seat' =>
      if v' = v ∧ seat' = seat then (side.doors v seat).map f else side.doors v' seat' }

/-- `setOpen`, and the packet after it. -/
def setOpen (v seat : ℕ) (door : Handle Unit) (opened : Bool) : Calm Unit := do
  if door = .nothing then pure ()
  else do
    let _ ← Calm.act (if door = .junk then id else Side.setDoor v seat ({ · with opened }))
    let _ ← Calm.act id
    pure ()

/-- `unlockWithNativeKey`: whether the door is unlocked, and the door. -/
def unlockWithNativeKey (v seat : ℕ) : Calm (Bool × Handle Unit) := do
  let door ← getDoor v seat
  if door = .nothing then pure (true, door)
  else do
    let locked ← isLocked v seat door
    match locked with
    | none => pure (false, door)
    | some false => pure (true, door)
    | some true => do
      -- `toggleLockedDoor` where this is so, else `setLocked`: the lock is picked.
      let _ ← Calm.probe fun _ side => (side.doors v seat).any (·.canUnlock)
      let invoked ← Calm.act (Side.setDoor v seat ({ · with locked := false }))
      let locked ← isLocked v seat door
      if invoked = .raised || locked ≠ some false then pure (false, door)
      else do
        let _ ← Calm.act id
        pure (true, door)

/-- The seats a loop over the doors of a car goes through. -/
def ask.doors (v : ℕ) : Calm (Option (List ℕ)) := do
  let count ← ask e v (·.count)
  pure (count.map fun count => List.range (min count 64))

/-- The loop of `lockedDoor`. -/
def lockedDoorFrom (v : ℕ) (here : Option Point) (best : Option (ℕ × Point × ℚ)) :
    List ℕ → Calm (Option (ℕ × Point))
  | [] => pure (best.map fun b => (b.1, b.2.1))
  | seat :: rest => do
    let door ← getDoor v seat
    let locked ← isLocked v seat door
    if locked = some true then do
      let outside ← doorPoint e v seat
      match outside with
      | none => lockedDoorFrom v here best rest
      | some (outside, _) => do
        let here' ← Calm.need here
        let d := outside.distance here'
        if (⌊here'.z⌋ : ℚ) = outside.z && best.all fun b => d < b.2.2 then
          lockedDoorFrom v here (some (seat, outside, d)) rest
        else lockedDoorFrom v here best rest
    else lockedDoorFrom v here best rest

/-- `Body.position` of the Goblin. -/
def here : Calm (Option Point) := Calm.probe fun _ side => side.mind.position

/-- `lockedDoor`. -/
def lockedDoor (v : ℕ) : Calm (Option (ℕ × Point)) := do
  let seats ← ask.doors e v
  match seats with
  | none => pure none
  | some seats => do
    let here ← here
    lockedDoorFrom e v here none seats

/-- The loop of `foreignOccupant`. -/
def foreignFrom (v : ℕ) : List ℕ → Calm Bool
  | [] => pure false
  | seat :: rest => do
    let occupant ← getCharacter v seat
    if occupant = .nothing ∨ occupant = .present e.body
        ∨ e.owner.any fun owner => occupant = .present (.player owner) then
      foreignFrom v rest
    else pure true

/-- `foreignOccupant`. -/
def foreignOccupant (v : ℕ) : Calm Bool := do
  let seats ← ask.doors e v
  match seats with
  | none => pure true
  | some seats => foreignFrom e v seats

/-- The loop of `locksClear`. -/
def locksClearFrom (v : ℕ) : List ℕ → Calm Bool
  | [] => do
    let trunkLocked ← Calm.see fun fixed => (fixed.motors v).trunkLocked
    pure (trunkLocked = some false)
  | seat :: rest => do
    let door ← getDoor v seat
    let locked ← isLocked v seat door
    if door = .nothing || locked = some false then locksClearFrom v rest
    else pure false

/-- `locksClear`. -/
def locksClear (v : ℕ) : Calm Bool := do
  let seats ← ask.doors e v
  match seats with
  | none => pure false
  | some seats => locksClearFrom v seats

/-! ## Seats -/

/-- `stopped`. -/
def stopped (v : ℕ) : Calm Bool := do
  let speed ← ask e v (·.speed)
  pure (speed.any fun speed => -(1 / 2) ≤ speed && speed ≤ 1 / 2)

/-- `available`: none, or what is in the way. -/
def available (v seat : ℕ) : Calm (Option String) := do
  let valid ← validSeat e v seat
  if valid then do
    let installed ← ask e v fun car => car.installed seat
    if installed = some true then do
      let occupied ← Calm.see fun fixed => (fixed.seating.seats v seat).isSome
      if occupied = some false then do
        let door ← getDoor v seat
        let locked ← isLocked v seat door
        if door ≠ .nothing ∧ locked = none then
          pure (some "passenger door lock state unavailable")
        else do
          let blocked ← ask e v fun car => car.enterBlocked seat
          match blocked with
          | none => pure (some "passenger approach check unavailable")
          | some true => pure (some "passenger approach physically blocked")
          | some false => do
            let outside ← point e v seat
            pure (if outside.isNone then some "outside passenger position unavailable" else none)
      else pure (some "passenger seat occupied")
    else pure (some "passenger seat missing")
  else pure (some "invalid passenger seat")

/-- The loop of `choose`: the nearest door so far, and what was in the way. -/
def chooseFrom (v : ℕ) (here : Option Point) (best : Option (ℕ × ℚ)) (failures : List String) :
    List ℕ → Calm (Option ℕ × String)
  | [] => pure (best.map Prod.fst, String.intercalate "; " failures)
  | seat :: rest => do
    let reason ← available e v seat
    match reason with
    | some reason =>
      chooseFrom v here best (failures ++ ["seat " ++ toString seat ++ ": " ++ reason]) rest
    | none => do
      let target ← point e v seat
      let target ← Calm.need target
      let here' ← Calm.need here
      let d := target.1.distance here'
      chooseFrom v here (if best.all fun b => d < b.2 then some (seat, d) else best) failures rest

/-- `choose`. -/
def choose (v : ℕ) : Calm (Option ℕ × String) := do
  let count ← ask e v (·.count)
  match count with
  | none => pure (none, "passenger seat count unavailable")
  | some count => do
    let here ← here
    chooseFrom e v here none [] ((List.range (min (count - 1) 63)).map (· + 1))

/-- `descriptor`. -/
def descriptor (v : ℕ) : Calm (Option ℕ × Option Bytes) := do
  let name ← ask e v (·.script)
  let id ← Calm.see fun _ => v
  pure (id, name)

/-! ## Orders -/

/-- `Policy.access`, which nothing here catches. -/
def access (v : ℕ) : Calm (Option String) := do
  let told ← ask e v (·.refusal)
  Calm.need told

/-- `Body.position` of a car. -/
def carPosition (v : ℕ) : Calm Point := do
  let told ← ask e v (·.position)
  Calm.need told

/-- `Body.position` of the owner. -/
def ownerPosition : Calm Point := do
  let told ← Calm.see fun _ => e.ownerPosition
  Calm.need told

/-- The loops over the cars round the owner, for the nearest that has such a
seat; and whether a car is near at all. -/
def nearestFrom {α : Type} (p : Point) (all : Bool) (seatOf : ℕ → Calm (Option α))
    (best : Option (ℕ × α)) (nearest : ℚ) (nearby : Bool) :
    List ℕ → Calm (Option (ℕ × α) × Bool)
  | [] => pure (best, nearby)
  | v :: rest => do
    let position ← carPosition e v
    let d := p.distance position
    if ⌊p.z⌋ = ⌊position.z⌋ ∧ d ≤ (if all then 25 else nearest) then do
      let seat ← seatOf v
      match seat with
      | some seat =>
        if d ≤ nearest then nearestFrom p all seatOf (some (v, seat)) d true rest
        else nearestFrom p all seatOf best nearest true rest
      | none => nearestFrom p all seatOf best nearest true rest
    else nearestFrom p all seatOf best nearest nearby rest

/-- The cars the cell tells of. -/
def vehicles : Calm (List ℕ) := do
  let told ← Calm.see fun _ => e.vehicles
  pure (told.getD [])

/-- `Transport.prepare` for `UNLOCK_VEHICLE`. -/
def prepareUnlock : Calm (Option Payload × String) := do
  let vehicle ← ownerVehicle e
  let found ← match vehicle with
    | .present v => do
      let seat ← lockedDoor e v
      pure (some (v, seat))
    | .junk => pure none
    | .nothing => do
      let p ← ownerPosition e
      let cars ← vehicles e
      let (best, _) ← nearestFrom e p false (lockedDoor e) none 25 false cars
      pure (best.map fun (v, seat) => (v, some seat))
  match found with
  | none =>
    pure (none, if vehicle = .junk then "vehicle has no reachable locked entry door"
      else "no locked vehicle within five tiles of you")
  | some (_, none) => pure (none, "vehicle has no reachable locked entry door")
  | some (v, some (seat, point)) => do
    let still ← stopped e v
    if still then do
      let foreign ← foreignOccupant e v
      if foreign then pure (none, "another player or companion is inside that vehicle")
      else do
        let refusal ← access e v
        match refusal with
        | some reason => pure (none, reason)
        | none => do
          let (id, script) ← descriptor e v
          let order : Payload :=
            { vehicleId := id, script, seat := some seat, point := some point,
              startedAt := some e.now }
          pure (some order, "going to unlock the nearby vehicle")
    else pure (none, "stop the vehicle before unlocking it")

/-- Whether the owner drives this car, and the Goblin sits in its seat there. -/
def seated (v : ℕ) (ride : Ride) : Calm (Bool × Bool) := do
  let vehicle ← ownerVehicle e
  let driver ← getCharacter v 0
  let bodyVehicle ← getVehicle e.body
  let bodySeat ← getSeat e v e.body
  pure (vehicle = .present v ∧ e.owner.any fun owner => driver = .present (.player owner),
    bodyVehicle = .present v ∧ bodySeat = some (some ride.seat) ∧ 1 ≤ ride.seat)

/-- `isEngineWorking`. -/
def engineWorking (v : ℕ) : Calm Bool := do
  let working ← ask e v (·.working)
  pure (working = some true)

/-- `Transport.prepare` for `START_VEHICLE`. -/
def prepareStart (ride : Ride) : Calm (Option Payload × String) := do
  let vehicle ← resolve e (some ride.id) (some ride.script)
  match vehicle with
  | none => pure (none, "you must be driving the same vehicle I am riding in")
  | some v => do
    let (driving, aboard) ← seated e v ride
    if driving then
      if aboard then do
        let still ← stopped e v
        if still then do
          let working ← engineWorking e v
          if working then do
            let order : Payload :=
              { vehicleId := some ride.id, script := some ride.script, startedAt := some e.now }
            pure (some order, "using the keyless ignition while you drive")
          else pure (none, "the engine is not working")
        else pure (none, "stop the vehicle before keyless starting")
      else pure (none, "I must be seated as your passenger before starting it")
    else pure (none, "you must be driving the same vehicle I am riding in")

/-- The seat of a car that stands. -/
def chooseStopped (v : ℕ) : Calm (Option ℕ) := do
  let still ← stopped e v
  if still then do
    let (seat, _) ← choose e v
    pure seat
  else pure none

/-- `Transport.prepare` for `ENTER_VEHICLE`. -/
def prepareEnter : Calm (Option Payload × String) := do
  let vehicle ← ownerVehicle e
  let (found, nearby) ← match vehicle with
    | .present v => pure (some (v, none), false)
    | .junk => pure (none, false)
    | .nothing => do
      let p ← ownerPosition e
      let cars ← vehicles e
      let (best, nearby) ← nearestFrom e p true (chooseStopped e) none 25 false cars
      pure (best.map fun (v, seat) => (v, some seat), nearby)
  match found with
  | none =>
    pure (none, if vehicle = .junk then "stop the vehicle so I can board"
      else if nearby then "nearby vehicles have no stopped, free, unlocked passenger seat"
      else "stand within five tiles of the vehicle or get in it first")
  | some (v, seat) => do
    let still ← stopped e v
    if still then do
      let (seat, reason) ← match seat with
        | some seat => pure (some seat, "")
        | none => choose e v
      match seat with
      | none => pure (none, "no usable passenger seat (" ++ reason ++ ")")
      | some seat => do
        let (id, script) ← descriptor e v
        let order : Payload :=
          { vehicleId := id, script, seat := some seat, startedAt := some e.now }
        pure (some order, "heading to a free passenger seat")
    else pure (none, "stop the vehicle so I can board")

/-- `Transport.prepare`. -/
def prepare (task : Task) : Calm (Option Payload × String) := do
  let mind ← Calm.mind
  let ride ← Calm.ride
  if ¬e.server ∨ e.owner = none then pure (none, "your player must be present")
  else if ¬e.passengerReady then
    pure (none, "passenger seat protection needs the updated server-side Storm helper")
  else if e.owner ≠ some mind.owner then pure (none, "not your companion")
  else match task, ride with
  | .unlockVehicle, _ => prepareUnlock e
  | .exitVehicle, none => pure (none, "I am not in a vehicle")
  | .exitVehicle, some _ =>
    pure (some { startedAt := some e.now },
      "I will get out when the vehicle stops and the exit is clear")
  | .startVehicle, none => pure (none, "I must be aboard your vehicle to start it")
  | .startVehicle, some ride => prepareStart e ride
  | _, some _ => pure (none, "I am already in a vehicle")
  | _, none => prepareEnter e

/-! ## What a tick does -/

/-- What a step of an order comes to: done, well, and the text. -/
structure Result where
  done : Bool
  ok : Bool
  detail : String

/-- `Movement.command` to a door, or `Movement.update` on the way to it. What
`GoblinMovement` keeps is no part of the world here. -/
def walk (_goal : Point) : Calm Unit := do
  let _ ← Calm.act id
  pure ()

/-- Whether an order has waited over its 45 seconds. -/
def expired (payload : Payload) : Bool := 45000 < e.now - payload.startedAt.getD e.now

/-- Whether the Goblin is at a door. -/
def atDoor (goal : Point) : Calm Bool := do
  let p ← here
  let p ← Calm.need p
  pure ((⌊p.z⌋ : ℚ) = goal.z ∧ p.distance goal ≤ 16 / 25)

/-- The seat `Transport.board` goes for. `keep` writes to the table the order
is in. -/
def boardSeat (v : ℕ) (payload : Payload) (keep : Payload → Mind → Mind) : Calm (Option ℕ) := do
  let reason ← match payload.seat with
    | some seat => available e v seat
    | none => pure (some "invalid passenger seat")
  match reason with
  | none => pure payload.seat
  | some _ => do
    let (seat, _) ← choose e v
    Calm.setMind (keep { payload with seat })
    pure seat

/-- The end of `Transport.board`, at the door. -/
def boardAt (v seat : ℕ) (script : Bytes) : Run Result := do
  -- Read once more, on the thread of the game, before the seat is taken.
  let reason ← calm (available e v seat)
  match reason with
  | some _ => pure ⟨false, false, "seat changed; checking again"⟩
  | none => do
    let unlocked ← calm (unlockWithNativeKey v seat)
    if unlocked.1 then do
      calm (setOpen v seat unlocked.2 true)
      let entered ← seatAct (Seating.enter v seat e.body)
      if entered = .yes then do
        let ride : Ride := ⟨v, script, seat, .enter, e.now⟩
        setRide (some ride)
        calm (Calm.setMind fun mind =>
          { mind with vehicleExit := none, revision := mind.revision + 1 })
        apply e ride
        calm (setOpen v seat unlocked.2 false)
        pure ⟨true, true, "aboard; I will ride with you"⟩
      else pure ⟨true, false, "native passenger entry failed"⟩
    else pure ⟨true, false, "passenger door lock would not open"⟩

/-- `Transport.board`. -/
def board (payload : Payload) (keep : Payload → Mind → Mind) : Run Result := do
  let vehicle ← calm (resolve e payload.vehicleId payload.script)
  match vehicle with
  | none => pure ⟨true, false, "vehicle is no longer loaded"⟩
  | some v =>
    if expired e payload then
      pure ⟨true, false, "could not reach the passenger door; clear a path and try again"⟩
    else do
      let still ← calm (stopped e v)
      if still then do
        let seat ← calm (boardSeat e v payload keep)
        match seat with
        | none => pure ⟨true, false, "passenger seats are occupied, locked, missing, or blocked"⟩
        | some seat => do
          let goal ← calm (do
            let goal ← point e v seat
            Calm.need goal)
          let near ← calm (atDoor goal.1)
          if near then boardAt e v seat (payload.script.getD [])
          else do
            calm (walk goal.1)
            pure ⟨false, true, "walking to passenger door"⟩
      else pure ⟨false, false, "waiting for the vehicle to stop"⟩

/-- Whether the Goblin sits in no seat of a car and is tied to none. -/
def isOut (v : ℕ) : Calm Bool := do
  let seat ← getSeat e v e.body
  let attached ← getVehicle e.body
  pure (seat = some none ∧ attached = .nothing)

/-- The end of `Transport.exit`: the door opens and the Goblin gets out. -/
def exitAt (v : ℕ) (ride : Ride) (point : Point) : Run Result := do
  let door ← calm (getDoor v ride.seat)
  calm (setOpen v ride.seat door true)
  let exited ← seatAct (Seating.exit e v e.body)
  let out ← calm (isOut e v)
  calm (setOpen v ride.seat door false)
  if exited = .yes ∧ out then do
    detach e (some point)
    setRide none
    calm (Calm.setMind fun mind => { mind with
      vehicleExit := some point, revision := mind.revision + 1, boardHold := true })
    pure ⟨true, true, "back on foot"⟩
  else pure ⟨false, false, "native passenger exit failed; still aboard"⟩

/-- `Transport.exit`, with the ride. -/
def exit (ride : Ride) : Run Result := do
  let vehicle ← calm (resolve e (some ride.id) (some ride.script))
  match vehicle with
  | none => pure ⟨false, false, "waiting for the vehicle area to load"⟩
  | some v => do
    let still ← calm (stopped e v)
    if still then do
      let blocked ← calm (ask e v fun car => car.exitBlocked ride.seat)
      let point ← calm (point e v ride.seat)
      match point with
      | some (point, true) =>
        if blocked = some false then
          if ride.phase ≠ .exit then do
            setRide (some { ride with phase := .exit, since := e.now })
            pure ⟨false, true, "getting out"⟩
          else if e.now - ride.since < 700 then pure ⟨false, true, "getting out"⟩
          else exitAt e v ride point
        else pure ⟨false, false, "passenger exit is blocked; move the vehicle to a clear spot"⟩
      | _ => pure ⟨false, false, "passenger exit is blocked; move the vehicle to a clear spot"⟩
    else pure ⟨false, false, "waiting for the vehicle to stop before getting out"⟩

/-- The car a keyless start is for: the owner drives it with the Goblin
aboard. -/
def ignitionOf (ride : Option Ride) : Calm (Option ℕ) :=
  match ride with
  | none => pure none
  | some ride => do
    let vehicle ← resolve e (some ride.id) (some ride.script)
    match vehicle with
    | none => pure none
    | some v => do
      let seated ← seated e v ride
      pure (if seated.1 ∧ seated.2 then some v else none)

/-- The end of `Transport.start`: the ignition is turned. -/
def ignite (v : ℕ) (payload : Payload) (keep : Payload → Mind → Mind) : Run Result := do
  let starting ← calm (Calm.see fun fixed => (fixed.motors v).starting)
  if starting = some true then pure ⟨false, true, "turning the keyless ignition"⟩
  else do
    let tried ← call fun w => w.setMotor v ({ · with starting := true })
    if tried = .raised then pure ⟨true, false, "native keyless ignition is unavailable"⟩
    else do
      calm (Calm.setMind (keep { payload with lastAttempt := some e.now }))
      pure ⟨false, true, "turning the keyless ignition"⟩

/-- `Transport.start`. -/
def start (payload : Payload) (keep : Payload → Mind → Mind) : Run Result := do
  if ¬e.server ∨ e.owner = none then
    pure ⟨true, false, "keyless start requires your Goblin and an online driver"⟩
  else do
    let ride ← calm Calm.ride
    let vehicle ← calm (ignitionOf e ride)
    match vehicle with
    | none => pure ⟨true, false, "driver or Goblin changed vehicles; ignition canceled"⟩
    | some v => do
      let still ← calm (stopped e v)
      if still then do
        let running ← calm (Calm.see fun fixed => (fixed.motors v).running)
        if running = some true then pure ⟨true, true, "engine is running"⟩
        else do
          let working ← calm (engineWorking e v)
          if working then do
            let battery ← calm (ask e v (·.liveBattery))
            if battery = some true then
              if expired e payload then
                pure ⟨true, false, "engine did not start after keyless ignition attempts"⟩
              else if payload.lastAttempt.all fun last => 5000 ≤ e.now - last then
                ignite e v payload keep
              else pure ⟨false, true, "turning the keyless ignition"⟩
            else pure ⟨true, false, "the battery has no charge"⟩
          else pure ⟨true, false, "the engine is not working"⟩
      else pure ⟨true, false, "vehicle moved; ignition canceled"⟩

/-- Whether the owner is in the car or by it. -/
def ownerNear (v : ℕ) : Calm Bool := do
  let vehicle ← ownerVehicle e
  if vehicle = .present v then pure true
  else do
    let p ← ownerPosition e
    let q ← carPosition e v
    pure (⌊p.z⌋ = ⌊q.z⌋ ∧ p.distance q ≤ 25)

/-- `setLocked(false)` of a car, on its doors and its trunk. -/
def World.unlock (v : ℕ) (w : World) : World :=
  let doors := fun v' seat =>
    if v' = v then (w.side.doors v seat).map ({ · with locked := false })
    else w.side.doors v' seat
  { w.setMotor v ({ · with trunkLocked := false }) with side := { w.side with doors } }

/-- Whether a car may be unlocked now: none, or why not. -/
def mayUnlock (v : ℕ) (payload : Payload) : Calm (Option String) := do
  let near ← ownerNear e v
  if near then do
    let still ← stopped e v
    if still then do
      let foreign ← foreignOccupant e v
      if foreign then pure (some "another player or companion entered that vehicle")
      else if expired e payload then pure (some "could not reach the vehicle door in time")
      else access e v
    else pure (some "vehicle moved; unlock canceled")
  else pure (some "you moved more than five tiles from the vehicle")

/-- Whether the Goblin is at the door of a car, or in the car. -/
def reached (v : ℕ) (goal : Point) : Calm Bool := do
  let vehicle ← getVehicle e.body
  if vehicle = .present v then pure true else atDoor goal

/-- The door an order to unlock names. -/
def orderedDoor (v : ℕ) (payload : Payload) : Calm (Handle Unit) :=
  match payload.seat with
  | some seat => getDoor v seat
  | none => pure .nothing

/-- `Transport.unlock`, where it may. -/
def unlockAt (v : ℕ) (payload : Payload) : Run Result := do
  let door ← calm (orderedDoor v payload)
  if door = .nothing then pure ⟨true, false, "vehicle door changed"⟩
  else do
    let clear ← calm (locksClear e v)
    if clear then pure ⟨true, true, "vehicle is already unlocked"⟩
    else do
      let goal ← calm (match payload.seat with
        | some seat => doorPoint e v seat
        | none => pure none)
      match goal with
      | none => pure ⟨true, false, "vehicle door position changed"⟩
      | some goal => do
        let near ← calm (reached e v goal.1)
        if near then do
          let changed ← call (World.unlock v)
          let clear ← calm (locksClear e v)
          if changed = .raised ∨ ¬clear then
            pure ⟨true, false, "native vehicle unlock did not clear all door and trunk locks"⟩
          else pure ⟨true, true, "vehicle is unlocked"⟩
        else do
          calm (walk goal.1)
          pure ⟨false, true, "walking to the locked vehicle door"⟩

/-- `Transport.unlock`. -/
def unlock (payload : Payload) : Run Result := do
  if ¬e.server ∨ e.owner = none then
    pure ⟨true, false, "vehicle unlock requires your online Goblin"⟩
  else do
    let vehicle ← calm (resolve e payload.vehicleId payload.script)
    match vehicle with
    | none => pure ⟨true, false, "vehicle is no longer loaded"⟩
    | some v => do
      let refusal ← calm (mayUnlock e v payload)
      match refusal with
      | some reason => pure ⟨true, false, reason⟩
      | none => unlockAt e v payload

/-! ## The tick -/

/-- `say`. -/
def say (text : String) : Calm Unit := Calm.setMind fun mind =>
  if mind.status = some text then mind
  else { mind with status := some text, said := mind.said ++ ["Comrade, " ++ text ++ "."] }

/-- `Brain.setTask` with `FOLLOW`: the order may not be persisted. -/
def follow : Calm Unit := do
  Calm.setMind ({ · with pending := none })
  let persisted ← Calm.act fun side =>
    { side with mind := { side.mind with task := .follow, payload := {} } }
  if persisted = .raised then Reading.fail else pure ()

/-- `deferBoard`. -/
def deferBoard (v : Option ℕ) : Calm Unit :=
  Calm.setMind ({ · with boardRetry := some (v, e.now + 15000) })

/-- Whether a riding Goblin is to get out. An explicit job stays queued until
it has; `WAIT` stays aboard. -/
def leaves (task : Task) (vehicle : Handle ℕ) (ride : Ride) : Calm Bool :=
  match task with
  | .exitVehicle => pure true
  | .wait | .enterVehicle => pure false
  | .follow =>
    if e.owner = none ∨ vehicle = .nothing then pure true
    else do
      let id ← getId vehicle
      pure (id ≠ ride.id)
  | _ => pure true

/-- The order of a task, which its steps write to. -/
def keepTask (payload : Payload) (mind : Mind) : Mind := { mind with payload }

/-- The order of a Goblin that follows. -/
def keepPending (payload : Payload) (mind : Mind) : Mind := { mind with pending := some payload }

/-- What follows an order to start or to unlock a car. -/
def answered (silent : Bool) (result : Result) : Calm Unit := do
  if result.done then follow else pure ()
  if result.done ∨ ¬silent then say result.detail else pure ()

/-- A ride that has begun 700 ms ago. -/
def Ride.begun (ride : Ride) : Ride :=
  if ride.phase = .enter ∧ 700 ≤ e.now - ride.since then { ride with phase := .ride } else ride

/-- An order to start or to unlock a car, while the Goblin rides. -/
def ordered (order : Run Result) : Run Bool := do
  let result ← order
  calm (answered false result)
  pure true

/-- The tick of a Goblin that rides and has no such order. -/
def ridesOn (task : Task) (vehicle : Handle ℕ) (ride : Ride) : Run Bool := do
  let leaves ← calm (leaves e task vehicle ride)
  if leaves then do
    let result ← exit e ride
    calm (say result.detail)
    pure !result.done
  else pure true

/-- The tick of a Goblin that rides. -/
def riding (mind : Mind) (vehicle : Handle ℕ) (ride : Ride) : Run Bool := do
  let ride := ride.begun e
  setRide (some ride)
  apply e ride
  match mind.task with
  | .startVehicle => ordered (start e mind.payload keepTask)
  | .unlockVehicle => ordered (unlock e mind.payload)
  | task => ridesOn e task vehicle ride

/-- Whether a Goblin may board its owner's car now. -/
def mayBoard (mind : Mind) (vehicle : Handle ℕ) : Calm Bool := do
  let still ← match vehicle with
    | .present v => stopped e v
    | _ => pure false
  if still then
    match mind.boardRetry with
    | none => pure true
    | some (id, until_at) => do
      let v ← getId vehicle
      pure ¬(id = some v ∧ e.now < until_at)
  else do
    Calm.setMind ({ · with pending := none })
    pure false

/-- The order a Goblin boards its owner's car by. -/
def orderOf (mind : Mind) (vehicle : Handle ℕ) : Calm (Option Payload) := do
  Calm.setMind ({ · with boardRetry := none })
  let pending ← match mind.pending with
    | none => pure none
    | some pending => do
      let v ← getId vehicle
      pure (if pending.vehicleId = some v then some pending else none)
  match pending with
  | some pending => pure (some pending)
  | none => do
    let (pending, detail) ← prepare e .enterVehicle
    match pending with
    | some pending => do
      Calm.setMind ({ · with pending := some pending })
      pure (some pending)
    | none => do
      let v ← getId vehicle
      deferBoard e (some v)
      say detail
      pure none

/-- What follows a try to board. -/
def boarded (payload : Payload) (result : Result) : Calm Unit :=
  if result.done then do
    Calm.setMind ({ · with pending := none })
    if result.ok then pure () else deferBoard e payload.vehicleId
  else pure ()

/-- The tick of a Goblin that follows an owner in a car. -/
def following (mind : Mind) (vehicle : Handle ℕ) : Run Bool := do
  let may ← calm (mayBoard e mind vehicle)
  if may then do
    let pending ← calm (orderOf e mind vehicle)
    match pending with
    | none => pure false
    | some pending => do
      let result ← board e pending keepPending
      calm (do
        boarded e pending result
        if result.done then say result.detail else pure ())
      pure (!result.done || result.ok)
  else pure false

/-- The tick of a Goblin on foot. -/
def afoot (mind : Mind) (vehicle : Handle ℕ) : Run Bool :=
  match mind.task with
  | .enterVehicle => do
    let result ← board e mind.payload keepTask
    calm (do
      boarded e mind.payload result
      answered true result)
    pure true
  | .exitVehicle => do
    calm follow
    pure true
  | .startVehicle => do
    calm (do
      follow
      say "I am no longer aboard; ignition canceled")
    pure true
  | .unlockVehicle => do
    let result ← unlock e mind.payload
    calm (answered (result.detail = "walking to the locked vehicle door") result)
    pure true
  | .follow =>
    if vehicle = .nothing ∨ mind.boardHold then pure false else following e mind vehicle
  | _ => pure false

/-- `Transport.tick`: whether it takes the Goblin's tick. -/
def tick : Run Bool := do
  let ride ← calm Calm.ride
  let vehicle ← calm (ownerVehicle e)
  let mind ← calm (do
    Calm.setMind fun mind =>
      if vehicle = .nothing then { mind with boardHold := false, boardRetry := none } else mind
    Calm.mind)
  match ride with
  | some ride => riding e mind vehicle ride
  | none => afoot e mind vehicle

/-- `Brain.update`, as far as cars go: where the tick leaves it to its job, a
Goblin that is to gain access to a car boards it. -/
def update : Run Unit := do
  let mind ← calm Calm.mind
  let taken ← tick e
  if taken ∨ mind.task ≠ .gainAccess then pure ()
  else do
    let result ← board e mind.payload keepTask
    calm (if result.done then follow else pure ())

end Transport

end GoblinZomboid
