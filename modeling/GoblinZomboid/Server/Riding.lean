import GoblinZomboid.Lib.Run
import GoblinZomboid.Server.Boarding
/-!
# Riding does no harm

A tick of a Goblin takes no seat from anyone, never seats the Goblin at the
wheel, starts a car for its own driver alone and unlocks none that others sit
in; and a ride ends in no seat. This holds however the calls of the tick go and
wherever an error stops it.
-/

namespace GoblinZomboid

namespace Transport

open Reading (Tells)
open Script (Holds Keeps)

variable {e : Scene} {s₀ : Seating} {v : ℕ} {m : ℕ → Motor}

/-! ## Starting and unlocking -/

variable (e) in
/-- The Goblin's owner drives the car, with the Goblin in the seat of its ride. -/
structure AtWheel (fixed : Fixed) (v : ℕ) : Prop where
  driver : ∃ owner, e.owner = some owner ∧ fixed.seating.attached (.player owner) = some v ∧
    fixed.seating.seats v 0 = some (.player owner)
  aboard : ∃ ride, fixed.ride = some ride ∧ ride.id = v ∧ 1 ≤ ride.seat ∧
    fixed.seating.attached e.body = some v ∧ fixed.seating.seatOf e v e.body = some ride.seat

variable (e) in
/-- **What car is started**: one its driver has the Goblin in, and that stands,
works and has power. -/
structure Ignition (fixed : Fixed) (v : ℕ) : Prop where
  wheel : AtWheel e fixed v
  stands : Stands e v
  fit : ∃ car, e.cars v = some car ∧ car.working = true ∧ car.liveBattery = true

variable (e) in
/-- **What car is unlocked**: it stands where the owner is, nobody else sits in
it, and the policy allows it. -/
structure Unlocking (fixed : Fixed) (v : ℕ) : Prop where
  near : ∃ owner, e.owner = some owner ∧ (fixed.seating.attached (.player owner) = some v ∨
    ∃ car, e.cars v = some car ∧ e.ownerPosition.distance car.position ≤ 25)
  stands : Stands e v
  alone : ∃ car, e.cars v = some car ∧ car.refusal = none ∧ ∀ seat < min car.count 64, ∀ who,
    fixed.seating.seats v seat = some who →
      who = e.body ∨ ∃ owner, e.owner = some owner ∧ who = .player owner

variable (e) in
/-- What becomes of what drives a car. -/
def MotorsKept (m : ℕ → Motor) (fixed : Fixed) : Prop :=
  ∀ v, fixed.motors v = m v ∨
    Ignition e fixed v ∧ fixed.motors v = { m v with starting := true } ∨
    Unlocking e fixed v ∧ fixed.motors v = { m v with trunkLocked := false }

variable {r : Option Ride}

variable (e) in
/-- The seats and the motors kept, with the ride as it was. -/
def Drives (s₀ : Seating) (m : ℕ → Motor) (r : Option Ride) (fixed : Fixed) : Prop :=
  SeatsKept e s₀ fixed.seating ∧ MotorsKept e m fixed ∧ fixed.ride = r

theorem Drives.of_riding {fixed : Fixed} (h : Riding e s₀ m (· = r) fixed) :
    Drives e s₀ m r fixed := ⟨h.1, fun v => .inl (congrFun h.2.1 v), h.2.2⟩

/-- A change of one car's motor. -/
theorem Drives.setMotor {w : World} {f : Motor → Motor}
    (h : Riding e s₀ m (· = r) w.fixed)
    (hv : Ignition e w.fixed v ∧ f = ({ · with starting := true }) ∨
      Unlocking e w.fixed v ∧ f = ({ · with trunkLocked := false })) :
    Drives e s₀ m r (w.setMotor v f).fixed := by
  refine ⟨h.1, fun u => ?_, h.2.2⟩
  by_cases hu : u = v
  · subst hu
    refine .inr ?_
    have hmotor : (w.setMotor u f).fixed.motors u = f (m u) := by
      rw [← h.2.1]
      exact if_pos rfl
    rw [hmotor]
    rcases hv with ⟨hv, rfl⟩ | ⟨hv, rfl⟩
    · exact .inl ⟨⟨⟨hv.wheel.driver, hv.wheel.aboard⟩, hv.stands, hv.fit⟩, rfl⟩
    · exact .inr ⟨⟨hv.near, hv.stands, hv.alone⟩, rfl⟩
  · left
    rw [← h.2.1]
    exact if_neg hu

theorem tells_seated {ride : Ride} :
    Tells (seated e v ride) fun fixed told => told.1 ∧ told.2 →
      (∃ owner, e.owner = some owner ∧ fixed.seating.attached (.player owner) = some v ∧
        fixed.seating.seats v 0 = some (.player owner)) ∧
      1 ≤ ride.seat ∧ fixed.seating.attached e.body = some v ∧
        fixed.seating.seatOf e v e.body = some ride.seat := by
  refine tells_ownerVehicle.bind fun vehicle => tells_getCharacter.bind fun driver =>
    tells_getVehicle.bind fun bodyVehicle => tells_getSeat.bind fun bodySeat =>
      Tells.pure fun fixed hseat hvehicle hdriver howner htold => ?_
  obtain ⟨hdriving, haboard⟩ := htold
  obtain ⟨hpresent, hdriver'⟩ := of_decide_eq_true hdriving
  obtain ⟨hbody, hin, hpassenger⟩ := of_decide_eq_true haboard
  obtain ⟨owner, howned, hattached⟩ := howner v hpresent
  rw [howned, Option.any_some, decide_eq_true_eq] at hdriver'
  exact ⟨⟨owner, howned, hattached, hdriver.2 _ hdriver'⟩, hpassenger, hvehicle.2 v hbody,
    hseat _ hin⟩

theorem tells_ignitionOf :
    Tells (ignitionOf e r) fun fixed told =>
      ∀ v, told = some v → fixed.ride = r → AtWheel e fixed v := by
  cases r with
  | none => exact Tells.pure fun _ _ h => absurd h.symm (Option.some_ne_none _)
  | some ride =>
    refine tells_resolve.bind fun vehicle => ?_
    cases vehicle with
    | none => exact Tells.pure fun _ _ _ h => absurd h.symm (Option.some_ne_none _)
    | some u =>
      refine tells_seated.bind fun seated => Tells.pure fun fixed hseated hu v hv hride => ?_
      by_cases hboth : seated.1 = true ∧ seated.2 = true
      · rw [if_pos hboth] at hv
        obtain rfl := Option.some.inj hv
        obtain ⟨hdriver, haboard⟩ := hseated hboth
        exact ⟨hdriver, ride, hride, Option.some.inj (hu u rfl), haboard⟩
      · rw [if_neg hboth] at hv
        exact absurd hv.symm (Option.some_ne_none _)

theorem tells_ride : Tells Calm.ride fun fixed ride => fixed.ride = ride :=
  fun _ _ _ _ _ h => (Prod.mk.inj (Option.some.inj h)).1

theorem tells_engineWorking : Tells (engineWorking e v) fun _ working => working →
    ∃ car, e.cars v = some car ∧ car.working = true :=
  tells_ask.bind fun _ => Tells.pure fun _ h hworking => h true (of_decide_eq_true hworking)

theorem ignite_holds {payload : Payload} {keep : Payload → Mind → Mind} (hstands : Stands e v)
    (hfit : ∃ car, e.cars v = some car ∧ car.working = true ∧ car.liveBattery = true) :
    Holds (fun w => Riding e s₀ m (· = r) w.fixed ∧ AtWheel e w.fixed v) (ignite e v payload keep)
      (fun _ w => Drives e s₀ m r w.fixed) fun w => Drives e s₀ m r w.fixed := by
  let K : Fixed → Prop := fun fixed => Riding e s₀ m (· = r) fixed ∧ AtWheel e fixed v
  have hsame : ∀ w : World, K w.fixed → Drives e s₀ m r w.fixed := fun _ h => .of_riding h.1
  refine Reading.step (I := K) hsame fun starting => Holds.ite (fun _ => Holds.pure hsame) fun _ => ?_
  refine Holds.bind (Q := fun _ (w : World) => Drives e s₀ m r w.fixed) ?_ fun tried =>
    Holds.ite (fun _ => Holds.pure fun _ h => h) fun _ =>
      Reading.step (fun _ h => h) fun _ => Holds.pure fun _ h => h
  exact call_holds (fun w _ => hsame w) fun w _ h => .setMotor h.1 (.inl ⟨⟨h.2, hstands, hfit⟩, rfl⟩)

/-- **A keyless start** is for the driver of the car alone. -/
theorem start_holds {payload : Payload} {keep : Payload → Mind → Mind} :
    Holds (fun w => Riding e s₀ m (· = r) w.fixed) (start e payload keep)
      (fun _ w => Drives e s₀ m r w.fixed) fun w => Drives e s₀ m r w.fixed := by
  have hsame : ∀ w : World, Riding e s₀ m (· = r) w.fixed → Drives e s₀ m r w.fixed :=
    fun _ => Drives.of_riding
  refine Holds.ite (fun _ => Holds.pure hsame) fun _ => ?_
  refine tells_ride.step hsame fun ride => ?_
  refine Holds.mono (P := fun w => Riding e s₀ m (· = r) w.fixed ∧ ride = r)
    (Holds.given fun hride => ?_) (fun w h => ⟨h.1, h.2.symm.trans h.1.2.2⟩) fun _ _ h => h
  subst hride
  refine tells_ignitionOf.step hsame fun vehicle => ?_
  cases vehicle with
  | none => exact Holds.pure fun w h => hsame w h.1
  | some v =>
    let K : Fixed → Prop := fun fixed => Riding e s₀ m (· = ride) fixed ∧ AtWheel e fixed v
    have hK : ∀ w : World, K w.fixed → Drives e s₀ m ride w.fixed := fun w h => hsame w h.1
    refine Holds.mono (P := fun w => K w.fixed) ?_ (fun w h => ⟨h.1, h.2 v rfl h.1.2.2⟩)
      fun _ _ h => h
    have hend : ∀ result : Result, Holds (fun w => K w.fixed) (pure result : Run Result)
        (fun _ w => Drives e s₀ m ride w.fixed) fun w => Drives e s₀ m ride w.fixed :=
      fun _ => Holds.pure hK
    refine tells_stopped.step hK fun still =>
      Holds.ite (fun hstill => Holds.given fun hstands => ?_) fun _ => Holds.given fun _ => hend _
    refine Reading.step hK fun running => Holds.ite (fun _ => hend _) fun _ => ?_
    refine tells_engineWorking.step hK fun working =>
      Holds.ite (fun hworking => Holds.given fun hworks => ?_) fun _ => Holds.given fun _ => hend _
    refine tells_ask.step hK fun battery =>
      Holds.ite (fun hbattery => Holds.given fun hlive => ?_) fun _ => Holds.given fun _ => hend _
    refine Holds.ite (fun _ => hend _) fun _ => Holds.ite (fun _ => ?_) fun _ => hend _
    obtain ⟨car, hcar, hworks⟩ := hworks hworking
    obtain ⟨car', hcar', hlive⟩ := hlive true hbattery
    obtain rfl := Option.some.inj (hcar.symm.trans hcar')
    exact ignite_holds (hstands hstill) ⟨car, hcar, hworks, hlive⟩

theorem tells_foreignFrom {l : List ℕ} :
    Tells (foreignFrom e v l) fun fixed foreign => foreign = false →
      ∀ seat ∈ l, ∀ who, fixed.seating.seats v seat = some who →
        who = e.body ∨ ∃ owner, e.owner = some owner ∧ who = .player owner := by
  induction l with
  | nil => exact Tells.pure fun _ _ seat h => absurd h List.not_mem_nil
  | cons seat rest ih =>
    refine tells_getCharacter.bind fun occupant => Tells.ite (fun hours => ?_) fun _ =>
      Tells.pure fun _ _ h => absurd h.symm Bool.false_ne_true
    refine ih.mono fun fixed foreign hrest hread hforeign seat' hseat' who hwho => ?_
    rcases List.mem_cons.1 hseat' with rfl | hseat'
    · rcases hours with rfl | rfl | howner
      · rw [hread.1 rfl] at hwho
        exact absurd hwho.symm (Option.some_ne_none _)
      · rw [hread.2 _ rfl] at hwho
        exact .inl (Option.some.inj hwho).symm
      · obtain ⟨owner, howned, heq⟩ := (Option.any_eq_true _ _).1 howner
        rw [hread.2 _ (of_decide_eq_true heq)] at hwho
        exact .inr ⟨owner, howned, (Option.some.inj hwho).symm⟩
    · exact hrest hforeign seat' hseat' who hwho

theorem tells_doors : Tells (ask.doors e v) fun _ told => ∀ l, told = some l →
    ∃ car, e.cars v = some car ∧ l = List.range (min car.count 64) := by
  refine tells_ask.bind fun count => Tells.pure fun _ h l hl => ?_
  obtain ⟨n, rfl, rfl⟩ := Option.map_eq_some_iff.1 hl
  obtain ⟨car, hcar, rfl⟩ := h n rfl
  exact ⟨car, hcar, rfl⟩

theorem tells_foreignOccupant :
    Tells (foreignOccupant e v) fun fixed foreign => foreign = false →
      ∃ car, e.cars v = some car ∧ ∀ seat < min car.count 64, ∀ who,
        fixed.seating.seats v seat = some who →
          who = e.body ∨ ∃ owner, e.owner = some owner ∧ who = .player owner := by
  refine tells_doors.bind fun seats => ?_
  cases seats with
  | none => exact Tells.pure fun _ _ h => absurd h.symm Bool.false_ne_true
  | some seats =>
    refine tells_foreignFrom.mono fun fixed foreign halone hseats hforeign => ?_
    obtain ⟨car, hcar, rfl⟩ := hseats seats rfl
    exact ⟨car, hcar, fun seat hlt => halone hforeign seat (List.mem_range.2 hlt)⟩

theorem tells_access : Tells (access e v) fun _ refusal =>
    ∃ car, e.cars v = some car ∧ car.refusal = refusal := by
  refine tells_ask.bind fun told => ?_
  cases told with
  | none => exact Tells.fail
  | some refusal => exact Tells.pure fun _ h => h refusal rfl

theorem tells_carPosition : Tells (carPosition e v) fun _ p =>
    ∃ car, e.cars v = some car ∧ car.position = p := by
  refine tells_ask.bind fun told => ?_
  cases told with
  | none => exact Tells.fail
  | some p => exact Tells.pure fun _ h => h p rfl

theorem tells_ownerPosition : Tells (ownerPosition e) fun _ p => e.ownerPosition = p := by
  refine tells_see.bind fun told => ?_
  cases told with
  | none => exact Tells.fail
  | some p => exact Tells.pure fun _ h => h p rfl

theorem tells_ownerNear (howner : e.owner ≠ none) :
    Tells (ownerNear e v) fun fixed near => near →
      ∃ owner, e.owner = some owner ∧ (fixed.seating.attached (.player owner) = some v ∨
        ∃ car, e.cars v = some car ∧ e.ownerPosition.distance car.position ≤ 25) := by
  refine tells_ownerVehicle.bind fun vehicle => Tells.ite (fun hin => ?_) fun _ => ?_
  · refine Tells.pure fun _ h _ => ?_
    obtain ⟨owner, howned, hattached⟩ := h v hin
    exact ⟨owner, howned, .inl hattached⟩
  · refine tells_ownerPosition.bind fun p => tells_carPosition.bind fun q =>
      Tells.pure fun _ hq hp _ hnear => ?_
    obtain ⟨owner, howned⟩ := Option.ne_none_iff_exists'.1 howner
    obtain ⟨car, hcar, rfl⟩ := hq
    subst hp
    exact ⟨owner, howned, .inr ⟨car, hcar, (of_decide_eq_true hnear).2⟩⟩

theorem tells_mayUnlock {payload : Payload} (howner : e.owner ≠ none) :
    Tells (mayUnlock e v payload) fun fixed refusal => refusal = none → Unlocking e fixed v := by
  refine (tells_ownerNear howner).bind fun near => Tells.ite (fun hnear => ?_) fun _ =>
    Tells.pure fun _ _ h => absurd h (Option.some_ne_none _)
  refine tells_stopped.bind fun still => Tells.ite (fun hstill => ?_) fun _ =>
    Tells.pure fun _ _ _ h => absurd h (Option.some_ne_none _)
  refine tells_foreignOccupant.bind fun foreign => Tells.ite (fun _ =>
    Tells.pure fun _ _ _ _ h => absurd h (Option.some_ne_none _)) fun hforeign =>
    Tells.ite (fun _ => Tells.pure fun _ _ _ _ h => absurd h (Option.some_ne_none _)) fun _ => ?_
  refine tells_access.mono fun fixed refusal haccess halone hstands howned hrefusal => ?_
  obtain ⟨car, hcar, hallowed⟩ := haccess
  obtain ⟨car', hcar', halone⟩ := halone (Bool.eq_false_iff.2 hforeign)
  obtain rfl := Option.some.inj (hcar.symm.trans hcar')
  exact ⟨howned hnear, hstands hstill, car, hcar, hallowed.trans hrefusal, halone⟩

theorem unlockAt_holds {payload : Payload} :
    Holds (fun w => Riding e s₀ m (· = r) w.fixed ∧ Unlocking e w.fixed v) (unlockAt e v payload)
      (fun _ w => Drives e s₀ m r w.fixed) fun w => Drives e s₀ m r w.fixed := by
  let K : Fixed → Prop := fun fixed => Riding e s₀ m (· = r) fixed ∧ Unlocking e fixed v
  have hsame : ∀ w : World, K w.fixed → Drives e s₀ m r w.fixed := fun _ h => .of_riding h.1
  have hend : ∀ result : Result, Holds (fun w => K w.fixed) (pure result : Run Result)
      (fun _ w => Drives e s₀ m r w.fixed) fun w => Drives e s₀ m r w.fixed :=
    fun _ => Holds.pure hsame
  refine Reading.step (I := K) hsame fun door => Holds.ite (fun _ => hend _) fun _ => ?_
  refine Reading.step hsame fun clear => Holds.ite (fun _ => hend _) fun _ => ?_
  refine Reading.step hsame fun goal => ?_
  cases goal with
  | none => exact hend _
  | some goal =>
    refine Reading.step hsame fun near => Holds.ite (fun _ => ?_) fun _ =>
      Reading.step hsame fun _ => hend _
    refine Holds.bind (Q := fun _ (w : World) => Drives e s₀ m r w.fixed) ?_ fun changed =>
      Reading.step (fun _ h => h) fun clear => Keeps.ite (Keeps.pure _) (Keeps.pure _)
    exact call_holds (fun w _ => hsame w) fun w _ h => Drives.setMotor h.1 (.inr ⟨h.2, rfl⟩)

/-- **Unlocking** is for a car nobody else sits in. -/
theorem unlock_holds {payload : Payload} :
    Holds (fun w => Riding e s₀ m (· = r) w.fixed) (unlock e payload)
      (fun _ w => Drives e s₀ m r w.fixed) fun w => Drives e s₀ m r w.fixed := by
  have hsame : ∀ w : World, Riding e s₀ m (· = r) w.fixed → Drives e s₀ m r w.fixed :=
    fun _ => Drives.of_riding
  refine Holds.ite (fun _ => Holds.pure hsame) fun howner => Reading.step hsame fun vehicle => ?_
  cases vehicle with
  | none => exact Holds.pure hsame
  | some v =>
    have howned : e.owner ≠ none := fun h => howner (.inr h)
    refine (tells_mayUnlock howned).step hsame fun refusal => ?_
    cases refusal with
    | some reason => exact Holds.pure fun w h => hsame w h.1
    | none => exact unlockAt_holds.mono (fun w h => ⟨h.1, h.2 rfl⟩) fun _ _ h => h

/-! ## The tick -/

variable (e) in
/-- **What a tick keeps**: everyone else's seat, every motor but one its Goblin
may start or unlock, and the ride, unless it ends or begins as it should. -/
structure Kept (fixed₀ fixed : Fixed) : Prop where
  seats : SeatsKept e fixed₀.seating fixed.seating
  motors : MotorsKept e fixed₀.motors fixed
  left : ∀ ride, fixed₀.ride = some ride → (∃ r, fixed.ride = some r ∧ ride.Same r) ∨
    Left e ride ∧ (fixed.ride = none → Out e ride.id fixed.seating)
  boarded : ∀ r, fixed.ride = some r → (∃ ride, fixed₀.ride = some ride ∧ ride.Same r) ∨
    Boarded e fixed₀.seating r

variable {fixed₀ fixed : Fixed}

theorem Kept.of_drives (h : Drives e fixed₀.seating fixed₀.motors r fixed)
    (hr : Option.Rel Ride.Same fixed₀.ride r) : Kept e fixed₀ fixed := by
  obtain ⟨hseats, hmotors, rfl⟩ := h
  refine ⟨hseats, hmotors, fun ride hride => .inl ?_, fun r' hr' => .inl ?_⟩
  · rw [hride] at hr
    generalize fixed.ride = r at hr ⊢
    cases hr with
    | some hsame => exact ⟨_, rfl, hsame⟩
  · rw [hr'] at hr
    generalize fixed₀.ride = r at hr ⊢
    cases hr with
    | some hsame => exact ⟨_, rfl, hsame⟩

theorem Kept.of_riding (h : Riding e fixed₀.seating fixed₀.motors (· = r) fixed)
    (hr : Option.Rel Ride.Same fixed₀.ride r) : Kept e fixed₀ fixed := .of_drives (.of_riding h) hr

theorem Ride.same_begun {ride : Ride} : ride.Same (ride.begun e) := by
  unfold Ride.begun
  split
  · exact ⟨rfl, rfl, rfl⟩
  · exact ⟨rfl, rfl, rfl⟩

theorem Left.of_begun {ride : Ride} (h : Left e (ride.begun e)) : Left e ride := by
  obtain ⟨hstands, hfree, hphase, hlong⟩ := h
  obtain ⟨hid, -, hseat⟩ : ride.Same (ride.begun e) := Ride.same_begun
  have hsame : ride.begun e = ride := by
    unfold Ride.begun at hphase ⊢
    split at hphase
    · have hride : Phase.ride = Phase.exit := hphase
      exact absurd hride (by decide)
    · rename_i hnot
      exact if_neg hnot
  rw [hsame] at hstands hfree hphase hlong
  exact ⟨hstands, hfree, hphase, hlong⟩

theorem Kept.of_leaves {ride : Ride} {stays gone : Prop}
    (h : Leaves e fixed₀.seating fixed₀.motors (ride.begun e) stays gone fixed)
    (hride : fixed₀.ride = some ride) : Kept e fixed₀ fixed := by
  rcases h with ⟨-, hseats, hmotors, r', hr', hsame⟩ | ⟨-, hgone, hleft, hout⟩
  · refine Kept.of_riding ⟨hseats, hmotors, hr'⟩ ?_
    rw [hride]
    obtain ⟨hid, hscript, hseat⟩ : ride.Same (ride.begun e) := Ride.same_begun
    exact .some ⟨hsame.1.trans hid, hsame.2.1.trans hscript, hsame.2.2.trans hseat⟩
  · refine ⟨hgone.1, fun v => .inl (congrFun hgone.2.1 v), fun ride' hride' => .inr ?_,
      fun r' hr' => ?_⟩
    · obtain rfl := Option.some.inj (hride.symm.trans hride')
      obtain ⟨hid, -, -⟩ : ride.Same (ride.begun e) := Ride.same_begun
      exact ⟨hleft.of_begun, fun _ => hid ▸ hout⟩
    · rw [hgone.2.2] at hr'
      exact absurd hr'.symm (Option.some_ne_none _)

variable (e) in
/-- What a tick comes to: a Goblin it leaves to its job rides in no car. -/
def Ticked (fixed₀ : Fixed) (taken : Bool) (fixed : Fixed) : Prop :=
  Kept e fixed₀ fixed ∧ (taken = false → fixed.ride = none)

theorem Kept.ticked (h : Kept e fixed₀ fixed) : Ticked e fixed₀ true fixed :=
  ⟨h, fun h => absurd h.symm Bool.false_ne_true⟩

theorem ordered_holds {order : Run Result} (hr : Option.Rel Ride.Same fixed₀.ride r)
    (h : Holds (fun w => Riding e fixed₀.seating fixed₀.motors (· = r) w.fixed) order
      (fun _ w => Drives e fixed₀.seating fixed₀.motors r w.fixed)
      fun w => Drives e fixed₀.seating fixed₀.motors r w.fixed) :
    Holds (fun w => Riding e fixed₀.seating fixed₀.motors (· = r) w.fixed) (ordered order)
      (fun taken w => Ticked e fixed₀ taken w.fixed) fun w => Kept e fixed₀ w.fixed := by
  have hkept : ∀ w : World, Drives e fixed₀.seating fixed₀.motors r w.fixed →
      Kept e fixed₀ w.fixed := fun w h => .of_drives h hr
  exact Holds.bind (h.weaken (fun _ _ h => h) hkept) fun result =>
    Reading.step hkept fun _ => Holds.pure fun w h => (hkept w h).ticked

theorem ridesOn_holds {task : Task} {vehicle : Handle ℕ} {ride : Ride}
    (hride : fixed₀.ride = some ride) :
    Holds (fun w => Riding e fixed₀.seating fixed₀.motors (· = some (ride.begun e)) w.fixed)
      (ridesOn e task vehicle (ride.begun e)) (fun taken w => Ticked e fixed₀ taken w.fixed)
      fun w => Kept e fixed₀ w.fixed := by
  have hsame : ∀ w : World,
      Riding e fixed₀.seating fixed₀.motors (· = some (ride.begun e)) w.fixed →
        Kept e fixed₀ w.fixed := fun w h => .of_riding h (hride ▸ .some Ride.same_begun)
  refine Reading.step hsame fun leaves => Holds.ite (fun _ => ?_) fun _ =>
    Holds.pure fun w h => (hsame w h).ticked
  refine Holds.bind (exit_holds.weaken (fun _ _ h => h) fun w h => .of_leaves h hride)
    fun result => Reading.step (fun w h => .of_leaves h hride) fun _ => Holds.pure fun w h => ?_
  refine ⟨.of_leaves h hride, fun htaken => ?_⟩
  have hdone : result.done = true := by simpa using htaken
  rcases h with ⟨hstays, -⟩ | ⟨-, hgone, -⟩
  · exact absurd (hstays.symm.trans hdone) Bool.false_ne_true
  · exact hgone.2.2

theorem riding_holds {mind : Mind} {vehicle : Handle ℕ} {ride : Ride}
    (hride : fixed₀.ride = some ride) :
    Holds (fun w => Riding e fixed₀.seating fixed₀.motors (· = some ride) w.fixed)
      (riding e mind vehicle ride) (fun taken w => Ticked e fixed₀ taken w.fixed)
      fun w => Kept e fixed₀ w.fixed := by
  let K : Fixed → Prop := Riding e fixed₀.seating fixed₀.motors (· = some (ride.begun e))
  have hbegun : Option.Rel Ride.Same fixed₀.ride (some (ride.begun e)) :=
    hride ▸ .some Ride.same_begun
  refine Holds.bind (setRide_holds (J := K) fun fixed h => ⟨h.1, h.2.1, rfl⟩) fun _ => ?_
  refine Holds.bind ((apply_keeps riding_taking _).weaken (fun _ _ h => h)
    fun w h => .of_riding h hbegun) fun _ => ?_
  cases mind.task with
  | startVehicle => exact ordered_holds hbegun start_holds
  | unlockVehicle => exact ordered_holds hbegun unlock_holds
  | _ => exact ridesOn_holds hride

theorem Ride.rel_none (h : r = none) : Option.Rel Ride.Same r none := by
  rw [h]
  exact .none

theorem Kept.of_boards {ok : Bool} (hride : fixed₀.ride = none)
    (h : Riding e fixed₀.seating fixed₀.motors (Boards e fixed₀.seating ok) fixed) :
    Kept e fixed₀ fixed := by
  refine ⟨h.1, fun v => .inl (congrFun h.2.1 v), fun ride hride' => ?_, fun r hr => .inr ?_⟩
  · rw [hride] at hride'
    exact absurd hride'.symm (Option.some_ne_none _)
  · rcases h.2.2 with hnone | ⟨-, r', hr', hboarded⟩
    · exact absurd (hr.symm.trans hnone) (Option.some_ne_none _)
    · obtain rfl := Option.some.inj (hr.symm.trans hr')
      exact hboarded

theorem board_keeps {payload : Payload} {keep : Payload → Mind → Mind}
    (hride : fixed₀.ride = none) :
    Holds (fun w => Riding e fixed₀.seating fixed₀.motors (· = none) w.fixed)
      (board e payload keep)
      (fun result w => Kept e fixed₀ w.fixed ∧ (result.ok = false → w.fixed.ride = none))
      fun w => Kept e fixed₀ w.fixed := by
  refine board_holds.weaken (fun result w h => ⟨.of_boards hride h, fun hok => ?_⟩)
    fun w h => .of_boards hride h
  rcases h.2.2 with hnone | ⟨hboards, -⟩
  · exact hnone
  · exact absurd (hok.symm.trans hboards) Bool.false_ne_true

theorem following_holds {mind : Mind} {vehicle : Handle ℕ} (hride : fixed₀.ride = none) :
    Holds (fun w => Riding e fixed₀.seating fixed₀.motors (· = none) w.fixed)
      (following e mind vehicle) (fun taken w => Ticked e fixed₀ taken w.fixed)
      fun w => Kept e fixed₀ w.fixed := by
  have hsame : ∀ w : World, Riding e fixed₀.seating fixed₀.motors (· = none) w.fixed →
      Kept e fixed₀ w.fixed := fun w h => .of_riding h (Ride.rel_none hride)
  have hend : ∀ taken, Holds (fun w => Riding e fixed₀.seating fixed₀.motors (· = none) w.fixed)
      (pure taken : Run Bool) (fun taken w => Ticked e fixed₀ taken w.fixed)
      fun w => Kept e fixed₀ w.fixed :=
    fun taken => Holds.pure fun w h => ⟨hsame w h, fun _ => h.2.2⟩
  refine Reading.step hsame fun may => Holds.ite (fun _ => ?_) fun _ => hend _
  refine Reading.step hsame fun pending => ?_
  cases pending with
  | none => exact hend _
  | some pending =>
    refine Holds.bind (board_keeps hride) fun result => ?_
    refine Reading.step (I := fun fixed => Kept e fixed₀ fixed ∧ (result.ok = false →
      fixed.ride = none)) (fun w h => h.1) fun _ => Holds.pure fun w h => ⟨h.1, fun htaken => ?_⟩
    exact h.2 (Bool.or_eq_false_iff.1 htaken).2

theorem afoot_holds {mind : Mind} {vehicle : Handle ℕ} (hride : fixed₀.ride = none) :
    Holds (fun w => Riding e fixed₀.seating fixed₀.motors (· = none) w.fixed)
      (afoot e mind vehicle) (fun taken w => Ticked e fixed₀ taken w.fixed)
      fun w => Kept e fixed₀ w.fixed := by
  have hnone : Option.Rel Ride.Same fixed₀.ride none := Ride.rel_none hride
  have hsame : ∀ w : World, Riding e fixed₀.seating fixed₀.motors (· = none) w.fixed →
      Kept e fixed₀ w.fixed := fun w h => .of_riding h hnone
  have hend : ∀ taken, Holds (fun w => Riding e fixed₀.seating fixed₀.motors (· = none) w.fixed)
      (pure taken : Run Bool) (fun taken w => Ticked e fixed₀ taken w.fixed)
      fun w => Kept e fixed₀ w.fixed :=
    fun taken => Holds.pure fun w h => ⟨hsame w h, fun _ => h.2.2⟩
  unfold afoot
  cases mind.task with
  | enterVehicle =>
    exact Holds.bind (board_keeps hride) fun result =>
      Reading.step (I := fun fixed => Kept e fixed₀ fixed ∧ (result.ok = false →
        fixed.ride = none)) (fun w h => h.1) fun _ => Holds.pure fun w h => h.1.ticked
  | exitVehicle => exact Reading.step hsame fun _ => hend _
  | startVehicle => exact Reading.step hsame fun _ => hend _
  | unlockVehicle =>
    have hkept : ∀ w : World, Drives e fixed₀.seating fixed₀.motors none w.fixed →
        Kept e fixed₀ w.fixed := fun w h => .of_drives h hnone
    exact Holds.bind (unlock_holds.weaken (fun _ _ h => h) hkept) fun result =>
      Reading.step hkept fun _ => Holds.pure fun w h => (hkept w h).ticked
  | follow => exact Holds.ite (fun _ => hend _) fun _ => following_holds hride
  | wait => exact hend _
  | gainAccess => exact hend _
  | other => exact hend _

/-- **A tick does no harm**, wherever an error stops it. -/
theorem tick_holds : Holds (fun w => w.fixed = fixed₀) (tick e)
    (fun taken w => Ticked e fixed₀ taken w.fixed) fun w => Kept e fixed₀ w.fixed := by
  refine Holds.mono (P := fun w => Riding e fixed₀.seating fixed₀.motors (· = fixed₀.ride) w.fixed)
    ?_ (fun w h => h ▸ ⟨.refl, rfl, rfl⟩) fun _ _ h => h
  have hsame : ∀ w : World,
      Riding e fixed₀.seating fixed₀.motors (· = fixed₀.ride) w.fixed → Kept e fixed₀ w.fixed := by
    refine fun w h => .of_riding h ?_
    cases fixed₀.ride with
    | none => exact .none
    | some ride => exact .some ⟨rfl, rfl, rfl⟩
  refine tells_ride.step hsame fun ride => ?_
  refine Holds.mono (P := fun w =>
    Riding e fixed₀.seating fixed₀.motors (· = fixed₀.ride) w.fixed ∧ fixed₀.ride = ride)
    (Holds.given fun hride => ?_) (fun w h => ⟨h.1, h.1.2.2.symm.trans h.2⟩) fun _ _ h => h
  refine Reading.step hsame fun vehicle => Reading.step hsame fun mind => ?_
  cases ride with
  | none => exact (afoot_holds hride).mono (fun w h => hride ▸ h) fun _ _ h => h
  | some ride => exact (riding_holds hride).mono (fun w h => hride ▸ h) fun _ _ h => h

theorem Kept.refl : Kept e fixed fixed :=
  ⟨.refl, fun _ => .inl rfl, fun ride h => .inl ⟨ride, h, rfl, rfl, rfl⟩,
    fun r h => .inl ⟨r, h, rfl, rfl, rfl⟩⟩

variable (e) in
/-- What an update comes to: a tick, and the job after it. -/
def Updated (fixed₀ fixed : Fixed) : Prop :=
  ∃ between, Kept e fixed₀ between ∧ Kept e between fixed

theorem update_keeps : Holds (fun w => w.fixed = fixed₀) (update e)
    (fun _ w => Updated e fixed₀ w.fixed) fun w => Updated e fixed₀ w.fixed := by
  have hkept : ∀ fixed, Kept e fixed₀ fixed → Updated e fixed₀ fixed :=
    fun fixed h => ⟨fixed, h, .refl⟩
  refine Reading.step (I := (· = fixed₀)) (fun w h => h ▸ hkept _ .refl) fun mind => ?_
  refine Holds.bind (tick_holds.weaken (fun _ _ h => h) fun w h => hkept _ h) fun taken =>
    Holds.ite (fun _ => Holds.pure fun w h => hkept _ h.1) fun hleft => ?_
  refine Holds.start fun w₁ h₁ => ?_
  have hride : w₁.fixed.ride = none := h₁.2 (by simpa using fun h => hleft (.inl h))
  have hupdated : ∀ w : World, Kept e w₁.fixed w.fixed → Updated e fixed₀ w.fixed :=
    fun w h => ⟨w₁.fixed, h₁.1, h⟩
  refine Holds.bind (Q := fun _ (w : World) => Kept e w₁.fixed w.fixed) ?_ fun result =>
    (Reading.keeps_lift _).weaken (fun _ w h => hupdated w h) hupdated
  refine ((board_keeps hride).weaken (fun _ _ h => h.1) hupdated).mono (fun w h => ?_) fun _ _ h => h
  subst h
  exact ⟨.refl, rfl, hride⟩

/-! ## Any run of the game -/

/-- The game, with the data of every Goblin. -/
structure Game where
  seating : Seating
  motors : ℕ → Motor
  doors : ℕ → ℕ → Option Door
  rides : ℕ → Option Ride
  minds : ℕ → Mind

/-- What a Goblin's tick works on. -/
def Game.world (g : Game) (n : ℕ) : World := ⟨⟨g.seating, g.motors, g.rides n⟩, ⟨g.doors, g.minds n⟩⟩

/-- What a tick of a Goblin makes of the game. -/
def Game.set (g : Game) (n : ℕ) (w : World) : Game where
  seating := w.fixed.seating
  motors := w.fixed.motors
  doors := w.side.doors
  rides := fun n' => if n' = n then w.fixed.ride else g.rides n'
  minds := fun n' => if n' = n then w.side.mind else g.minds n'

/-- What happens in the game: the update of a Goblin, with whatever its calls
do, or anything else. -/
inductive Move
  | update (e : Scene) (ts : Turns Turn)
  | outside (g : Game)

def Game.step (g : Game) : Move → Game
  | .update e ts => g.set e.goblin (update e (g.world e.goblin) ts).2
  | .outside g' => g'

/-- Nothing else seats a Goblin. -/
def Fair (g : Game) : Move → Prop
  | .update _ _ => True
  | .outside g' => ∀ v seat n, g'.seating.seats v seat = some (.goblin n) →
    g.seating.seats v seat = some (.goblin n)

/-- An update does to the game what it may. -/
def Harmless (g : Game) : Move → Prop
  | .update e ts => Updated e (g.world e.goblin).fixed
      ((g.step (.update e ts)).world e.goblin).fixed ∧
        ∀ n ≠ e.goblin, (g.step (.update e ts)).rides n = g.rides n
  | .outside _ => True

/-- Every Goblin in a car sits in a passenger's seat. -/
def Game.Seated (g : Game) : Prop :=
  ∀ v seat n, g.seating.seats v seat = some (.goblin n) → 1 ≤ seat ∧ seat < 64

variable {g : Game}

theorem update_harmless (g : Game) (a : Move) : Harmless g a := by
  cases a with
  | outside g' => trivial
  | update e ts =>
    refine ⟨?_, fun n hn => if_neg hn⟩
    have hupdated : Updated e (g.world e.goblin).fixed
        (update e (g.world e.goblin) ts).2.fixed := by
      have hrun := @update_keeps e (g.world e.goblin).fixed (g.world e.goblin) ts rfl
      generalize update e (g.world e.goblin) ts = r at hrun ⊢
      obtain ⟨_ | _, _⟩ := r
      · exact hrun
      · exact hrun
    have hworld : ((g.step (.update e ts)).world e.goblin).fixed =
        (update e (g.world e.goblin) ts).2.fixed := by
      simp [Game.step, Game.set, Game.world]
    rw [hworld]
    exact hupdated

theorem Kept.place (h : Kept e fixed₀ fixed) {seat n : ℕ}
    (hseat : fixed.seating.seats v seat = some (.goblin n)) :
    fixed₀.seating.seats v seat = some (.goblin n) ∨ Passenger e v seat := by
  by_cases hn : Who.goblin n = e.body
  · rw [hn] at hseat ⊢
    exact h.seats.own v seat hseat
  · exact .inl ((h.seats.others v seat _ hn).1 hseat)

theorem Updated.place (h : Updated e fixed₀ fixed) {seat n : ℕ}
    (hseat : fixed.seating.seats v seat = some (.goblin n)) :
    fixed₀.seating.seats v seat = some (.goblin n) ∨ Passenger e v seat := by
  obtain ⟨between, hfirst, hsecond⟩ := h
  rcases hsecond.place hseat with hbetween | hplace
  · exact hfirst.place hbetween
  · exact .inr hplace

theorem Game.Seated.step {a : Move} (hs : g.Seated) (ha : Fair g a) : (g.step a).Seated := by
  intro v seat n hseat
  cases a with
  | outside g' => exact hs v seat n (ha v seat n hseat)
  | update e ts =>
    rcases (update_harmless g (.update e ts)).1.place hseat with h | ⟨car, -, hlow, -, hhigh⟩
    · exact hs v seat n h
    · exact ⟨hlow, hhigh⟩

/-- A van with four seats that stands, its doors unlocked. -/
def van : Car where
  script := []
  count := 4
  speed := 0
  position := ⟨0, 0, 0⟩
  installed := fun _ => true
  enterBlocked := fun _ => false
  exitBlocked := fun _ => false
  outside := fun seat => some (⟨seat, 2, 0⟩, true)
  inside := fun seat => some ⟨seat, 1, 0⟩
  working := true
  liveBattery := true
  refusal := none

/-- The Goblin 3 by the van 7 of the player 5. -/
def vanScene (now : ℤ) : Scene where
  goblin := 3
  cars := fun v => if v = 7 then some van else none
  vehicles := [7]
  owner := some 5
  ownerPosition := ⟨0, 1, 0⟩
  server := true
  passengerReady := true
  now

/-- Nobody is in the van. -/
def emptyVan : Game where
  seating := ⟨fun _ _ => none, fun _ => none⟩
  motors := fun _ => ⟨false, false, false⟩
  doors := fun _ _ => some ⟨false, false, false⟩
  rides := fun _ => none
  minds := fun _ => ⟨5, ⟨1, 2, 0⟩, .follow, {}, none, 0, false, none, none, none, none, []⟩

def works : Turns Turn := fun _ => ⟨true, .yes⟩

end Transport

end GoblinZomboid
