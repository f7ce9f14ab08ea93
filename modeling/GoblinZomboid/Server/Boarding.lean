import GoblinZomboid.Server.Transport
/-!
# In a seat and out of it

What the reads of a tick tell, and what boarding and getting out do to the
seats: the Goblin takes a passenger's seat that is free, leaves no seat but its
own, and its ride ends in no seat.
-/

namespace GoblinZomboid

namespace Transport

open Reading (Tells)

variable {e : Scene}

/-! ## What the reads tell -/

theorem tells_see {α : Type} {f : Fixed → α} :
    Tells (Calm.see f) fun fixed told => ∀ a, told = some a → f fixed = a := by
  refine Tells.look fun t fixed _ a ha => ?_
  by_cases hr : t.answer = .raised
  · rw [if_pos hr] at ha
    exact absurd ha.symm (Option.some_ne_none a)
  · rw [if_neg hr] at ha
    exact Option.some.inj ha

theorem tells_find {α : Type} {f : Fixed → Option α} :
    Tells (Calm.find fun fixed _ => f fixed) fun fixed told =>
      (told = .nothing → f fixed = none) ∧ ∀ a, told = .present a → f fixed = some a := by
  refine tells_see.bind fun told => Tells.pure fun fixed h => ?_
  obtain _ | _ | found := told
  · simp
  · exact ⟨fun _ => h none rfl, by simp⟩
  · refine ⟨by simp, fun b hb => ?_⟩
    rw [h (some found) rfl, Handle.present.inj hb]

theorem tells_ask {α : Type} {v : ℕ} {f : Car → α} :
    Tells (ask e v f) fun _ told =>
      ∀ a, told = some a → ∃ car, e.cars v = some car ∧ f car = a := by
  refine tells_see.bind fun told => Tells.pure fun _ h a ha => ?_
  have hcar : (e.cars v).map f = some a := h _ (Option.join_eq_some_iff.1 ha)
  exact Option.map_eq_some_iff.1 hcar

theorem tells_getCharacter {v seat : ℕ} :
    Tells (getCharacter v seat) fun fixed told =>
      (told = .nothing → fixed.seating.seats v seat = none) ∧
        ∀ who, told = .present who → fixed.seating.seats v seat = some who := tells_find

theorem tells_getVehicle {who : Who} :
    Tells (getVehicle who) fun fixed told =>
      (told = .nothing → fixed.seating.attached who = none) ∧
        ∀ v, told = .present v → fixed.seating.attached who = some v := tells_find

theorem tells_getSeat {v : ℕ} {who : Who} :
    Tells (getSeat e v who) fun fixed told =>
      ∀ seat, told = some seat → fixed.seating.seatOf e v who = seat := tells_see

theorem tells_ownerVehicle :
    Tells (ownerVehicle e) fun fixed told => ∀ v, told = .present v →
      ∃ owner, e.owner = some owner ∧ fixed.seating.attached (.player owner) = some v := by
  unfold ownerVehicle
  cases e.owner with
  | none => exact Tells.pure fun _ _ h => by simp at h
  | some owner => exact tells_getVehicle.mono fun _ _ h v hv => ⟨owner, rfl, h.2 v hv⟩

/-! ## What a tick may do -/

variable (e)

/-- **A passenger's seat**, never the driver's. -/
def Passenger (v seat : ℕ) : Prop :=
  ∃ car, e.cars v = some car ∧ 1 ≤ seat ∧ seat < car.count ∧ seat < 64

/-- A car that stands. -/
def Stands (v : ℕ) : Prop :=
  ∃ car, e.cars v = some car ∧ -(1 / 2) ≤ car.speed ∧ car.speed ≤ 1 / 2

/-- What becomes of the seats: nobody but the Goblin comes or goes, and the
Goblin comes to passengers' seats alone. -/
structure SeatsKept (s₀ s : Seating) : Prop where
  others : ∀ v seat who, who ≠ e.body → (s.seats v seat = some who ↔ s₀.seats v seat = some who)
  attached : ∀ who, who ≠ e.body → s.attached who = s₀.attached who
  own : ∀ v seat, s.seats v seat = some e.body →
    s₀.seats v seat = some e.body ∨ Passenger e v seat

/-- A seat nobody else sits in. -/
def Free (v seat : ℕ) (s : Seating) : Prop := ∀ who, s.seats v seat = some who → who = e.body

/-- The Goblin sits in no seat of a car and is tied to none. -/
def Out (v : ℕ) (s : Seating) : Prop :=
  s.seatOf e v e.body = none ∧ s.attached e.body = none

variable {e} {s₀ s : Seating} {v seat : ℕ}

theorem SeatsKept.refl : SeatsKept e s s :=
  ⟨fun _ _ _ _ => Iff.rfl, fun _ _ => rfl, fun _ _ h => .inl h⟩

theorem SeatsKept.enter (h : SeatsKept e s₀ s) (hfree : Free e v seat s)
    (hseat : Passenger e v seat) : SeatsKept e s₀ (s.enter v seat e.body) where
  others v' seat' who hwho := by
    by_cases heq : v' = v ∧ seat' = seat
    · obtain ⟨rfl, rfl⟩ := heq
      have hnot : s₀.seats v' seat' ≠ some who := fun h₀ =>
        hwho (hfree who ((h.others _ _ _ hwho).2 h₀))
      simp [Seating.enter, Ne.symm hwho, hnot]
    · rw [← h.others v' seat' who hwho]
      simp [Seating.enter, heq]
  attached who hwho := by
    rw [← h.attached who hwho]
    simp [Seating.enter, hwho]
  own v' seat' hown := by
    by_cases heq : v' = v ∧ seat' = seat
    · obtain ⟨rfl, rfl⟩ := heq
      exact .inr hseat
    · simp only [Seating.enter, heq, if_false] at hown
      exact h.own v' seat' hown

theorem SeatsKept.clear (h : SeatsKept e s₀ s) (hown : s.seats v seat = some e.body) :
    SeatsKept e s₀ (s.clear v seat) where
  others v' seat' who hwho := by
    rw [← h.others v' seat' who hwho]
    by_cases heq : v' = v ∧ seat' = seat
    · obtain ⟨rfl, rfl⟩ := heq
      simp [Seating.clear, hown, Ne.symm hwho]
    · simp [Seating.clear, heq]
  attached := h.attached
  own v' seat' hown' := by
    by_cases heq : v' = v ∧ seat' = seat
    · simp [Seating.clear, heq] at hown'
    · simp only [Seating.clear, heq, if_false] at hown'
      exact h.own v' seat' hown'

theorem SeatsKept.detach (h : SeatsKept e s₀ s) : SeatsKept e s₀ (s.detach e.body) where
  others := h.others
  attached who hwho := by
    rw [← h.attached who hwho]
    simp [Seating.detach, hwho]
  own := h.own

theorem seats_of_seatOf (h : s.seatOf e v e.body = some seat) : s.seats v seat = some e.body := by
  obtain ⟨car, -, hfound⟩ := Option.bind_eq_some_iff.1 h
  simpa using List.find?_some hfound

theorem SeatsKept.exit (h : SeatsKept e s₀ s) : SeatsKept e s₀ (s.exit e v e.body) := by
  unfold Seating.exit
  cases hseat : s.seatOf e v e.body with
  | none => exact h
  | some seat => exact (h.clear (seats_of_seatOf hseat)).detach

theorem Free.clear {v' seat' : ℕ} (h : Free e v seat s) : Free e v seat (s.clear v' seat') := by
  intro who hwho
  by_cases heq : v = v' ∧ seat = seat'
  · simp [Seating.clear, heq] at hwho
  · simp only [Seating.clear, heq, if_false] at hwho
    exact h who hwho

theorem Out.clear {v' seat' : ℕ} (h : Out e v s) : Out e v (s.clear v' seat') := by
  refine ⟨?_, h.2⟩
  unfold Seating.seatOf
  cases hcar : e.cars v with
  | none => rfl
  | some car =>
    have hnone : s.seatOf e v e.body = none := h.1
    simp only [Seating.seatOf, hcar, Option.bind_some, List.find?_eq_none, List.mem_range,
      decide_eq_true_eq] at hnone
    simp only [Option.bind_some, List.find?_eq_none, List.mem_range, decide_eq_true_eq]
    intro seat hlt
    by_cases heq : v = v' ∧ seat = seat'
    · simp [Seating.clear, heq]
    · simp only [Seating.clear, heq, if_false]
      exact hnone seat hlt

theorem Out.detach (h : Out e v s) : Out e v (s.detach e.body) :=
  ⟨h.1, if_pos rfl⟩

/-! ## In a seat and out of it -/

open Script (Holds Keeps)

variable {I J : Fixed → Prop}

/-- A call on the whole, whether it acts or not. -/
theorem call_holds {P : World → Prop} {Q : Answer → World → Prop} {C : World → Prop}
    {f : World → World} (h : ∀ w a, P w → Q a w) (hf : ∀ w a, P w → Q a (f w)) :
    Holds P (call f) Q C := by
  refine Holds.call fun t w hw => ⟨fun a ha => ?_, fun ha => absurd ha (Option.some_ne_none _)⟩
  show Q a (if t.acts then f w else w)
  by_cases hacts : t.acts
  · rw [if_pos hacts]
    exact hf w a hw
  · rw [if_neg hacts]
    exact h w a hw

theorem seatAct_keeps {f : Seating → Seating}
    (hf : ∀ fixed, I fixed → I { fixed with seating := f fixed.seating }) :
    Keeps (fun w => I w.fixed) (seatAct f) :=
  call_holds (fun _ _ hw => hw) fun w _ hw => hf w.fixed hw

theorem setRide_holds {ride : Option Ride} {C : World → Prop}
    (h : ∀ fixed, I fixed → J { fixed with ride }) :
    Holds (fun w => I w.fixed) (setRide ride) (fun _ w => J w.fixed) C :=
  Holds.modify fun w hw => h w.fixed hw

variable (e) in
/-- What getting out of a seat keeps. -/
structure Loose (I : Fixed → Prop) : Prop where
  clear : ∀ fixed v seat, I fixed → fixed.seating.seats v seat = some e.body →
    I { fixed with seating := fixed.seating.clear v seat }
  detach : ∀ fixed, I fixed → I { fixed with seating := fixed.seating.detach e.body }

theorem Loose.and (hI : Loose e I) (hJ : Loose e J) : Loose e fun fixed => I fixed ∧ J fixed :=
  ⟨fun fixed v seat h hown => ⟨hI.clear fixed v seat h.1 hown, hJ.clear fixed v seat h.2 hown⟩,
    fun fixed h => ⟨hI.detach fixed h.1, hJ.detach fixed h.2⟩⟩

theorem loosen_keeps (hI : Loose e I) (vehicle : Handle ℕ) :
    Keeps (fun w => I w.fixed) (loosen e vehicle) := by
  have hdetach : Keeps (fun w => I w.fixed) (seatAct (Seating.detach e.body)) :=
    seatAct_keeps hI.detach
  cases vehicle with
  | nothing => exact Keeps.pure ()
  | junk => exact Keeps.bind hdetach fun _ => Keeps.pure ()
  | present v =>
    refine tells_getSeat.step (fun _ h => h) fun told => ?_
    cases hseat : told.join with
    | none =>
      have hend : Keeps (fun w => I w.fixed) (do
          let _ ← seatAct (Seating.detach e.body)
          pure ()) := Keeps.bind hdetach fun _ => Keeps.pure ()
      exact hend.mono (fun _ h => h.1) fun _ _ h => h
    | some seat =>
      -- The seat is read as the Goblin's own, and nothing comes between.
      have htold := Option.join_eq_some_iff.1 hseat
      refine Holds.bind (Q := fun _ (w : World) => I w.fixed) ?_ fun _ =>
        Keeps.bind hdetach fun _ => Keeps.pure ()
      refine call_holds (fun w _ hw => hw.1) fun w _ hw => hI.clear w.fixed v seat hw.1 ?_
      exact seats_of_seatOf (hw.2 _ htold)

theorem detach_keeps (hI : Loose e I) (p : Option Point) :
    Keeps (fun w => I w.fixed) (detach e p) :=
  Keeps.bind (Reading.keeps_lift _) fun vehicle =>
    Keeps.bind (loosen_keeps hI vehicle) fun _ => Reading.keeps_lift _

theorem loose_free : Loose e fun fixed => Free e v seat fixed.seating :=
  ⟨fun _ _ _ h _ => h.clear, fun _ h => h⟩

theorem loose_out : Loose e fun fixed => Out e v fixed.seating :=
  ⟨fun _ _ _ h _ => h.clear, fun _ h => h.detach⟩

variable (e) in
/-- What taking a free passenger's seat keeps. -/
structure Taking (I : Fixed → Prop) : Prop extends Loose e I where
  enter : ∀ fixed v seat, I fixed → Free e v seat fixed.seating → Passenger e v seat →
    I { fixed with seating := fixed.seating.enter v seat e.body }

theorem takeSeat_keeps (hI : Taking e I) (hseat : Passenger e v seat) (occupant : Handle Who) :
    Holds (fun w => I w.fixed ∧ Free e v seat w.fixed.seating) (takeSeat e v seat occupant)
      (fun _ w => I w.fixed) fun w => I w.fixed := by
  let K : Fixed → Prop := fun fixed => I fixed ∧ Free e v seat fixed.seating
  have hdetach : Keeps (fun w => K w.fixed) (detach e none) :=
    detach_keeps (hI.toLoose.and loose_free) none
  have hrest : ∀ w : World, K w.fixed → I w.fixed := fun _ h => h.1
  refine Reading.step hrest fun old => Reading.step hrest fun elsewhere => ?_
  refine Holds.bind (Q := fun _ (w : World) => K w.fixed) ?_ fun _ => Holds.ite (fun _ => ?_) fun _ => ?_
  · exact (Keeps.ite hdetach (Keeps.pure ())).weaken (fun _ _ h => h) hrest
  · exact (Reading.keeps_lift _).weaken (fun _ w h => hrest w h) hrest
  · refine Holds.bind (Q := fun _ (w : World) => I w.fixed) ?_ fun entered =>
      Keeps.ite (Reading.keeps_lift _) (Keeps.pure ())
    exact call_holds (fun w _ h => hrest w h) fun w _ h => hI.enter w.fixed v seat h.1 h.2 hseat

theorem tells_validSeat : Tells (validSeat e v seat) fun _ valid => valid → Passenger e v seat := by
  refine tells_ask.bind fun count => Tells.pure fun _ h hvalid => ?_
  cases count with
  | none => exact absurd hvalid Bool.false_ne_true
  | some count =>
    obtain ⟨car, hcar, rfl⟩ := h count rfl
    simp only [Option.any_some, Bool.and_eq_true, decide_eq_true_eq] at hvalid
    exact ⟨car, hcar, hvalid.1.1, hvalid.1.2, hvalid.2⟩

/-- **Applying a ride evicts nobody**: the Goblin takes a passenger's seat that
is free, or none. -/
theorem apply_keeps (hI : Taking e I) (ride : Ride) : Keeps (fun w => I w.fixed) (apply e ride) := by
  have hsame : ∀ w : World, I w.fixed → I w.fixed := fun _ h => h
  refine Reading.step hsame fun vehicle => ?_
  cases vehicle with
  | none => exact Keeps.pure ()
  | some v =>
    refine tells_validSeat.step hsame fun valid => Holds.ite (fun hvalid => ?_) fun _ => ?_
    · refine Holds.given fun hseat => ?_
      refine tells_getCharacter.step hsame fun occupant => Holds.ite (fun hmine => ?_) fun _ => ?_
      · refine (takeSeat_keeps hI (hseat hvalid) occupant).mono
          (fun w h => ⟨h.1, fun who hwho => ?_⟩) fun _ _ h => h
        rcases hmine with rfl | rfl
        · rw [h.2.1 rfl] at hwho
          exact absurd hwho.symm (Option.some_ne_none _)
        · rw [h.2.2 _ rfl] at hwho
          exact (Option.some.inj hwho).symm
      · exact Holds.pure fun _ h => h.1
    · exact Holds.pure fun _ h => h.1

/-! ## Boarding -/

variable (e) in
/-- A passenger's seat that can be got to. -/
def Boardable (v seat : ℕ) : Prop :=
  ∃ car, e.cars v = some car ∧ (1 ≤ seat ∧ seat < car.count ∧ seat < 64) ∧
    car.installed seat = true ∧ car.enterBlocked seat = false

theorem Boardable.passenger (h : Boardable e v seat) : Passenger e v seat := by
  obtain ⟨car, hcar, hseat, -⟩ := h
  exact ⟨car, hcar, hseat⟩

theorem tells_available :
    Tells (available e v seat) fun fixed told =>
      told = none → Boardable e v seat ∧ fixed.seating.seats v seat = none := by
  refine tells_validSeat.bind fun valid => Tells.ite (fun hvalid => ?_) fun _ =>
    Tells.pure fun _ _ h => absurd h (Option.some_ne_none _)
  refine tells_ask.bind fun installed => Tells.ite (fun hinstalled => ?_) fun _ =>
    Tells.pure fun _ _ _ h => absurd h (Option.some_ne_none _)
  refine tells_see.bind fun occupied => Tells.ite (fun hoccupied => ?_) fun _ =>
    Tells.pure fun _ _ _ _ h => absurd h (Option.some_ne_none _)
  refine Tells.after fun door => Tells.after fun locked => Tells.ite (fun _ =>
    Tells.pure fun _ _ _ _ h => absurd h (Option.some_ne_none _)) fun _ => ?_
  refine tells_ask.bind fun blocked => ?_
  obtain _ | _ | _ := blocked
  · exact Tells.pure fun _ _ _ _ _ h => absurd h (Option.some_ne_none _)
  · refine Tells.after fun outside => Tells.pure fun fixed hblocked hfree hin hseat _ => ?_
    obtain ⟨car, hcar, hblocked⟩ := hblocked false rfl
    obtain ⟨car', hcar', hin⟩ := hin true hinstalled
    obtain ⟨car'', hcar'', hseat⟩ := hseat hvalid
    obtain rfl := Option.some.inj (hcar.symm.trans hcar')
    obtain rfl := Option.some.inj (hcar.symm.trans hcar'')
    refine ⟨⟨car, hcar, hseat, hin, hblocked⟩, ?_⟩
    exact Option.isSome_eq_false_iff.1 (hfree false hoccupied) |> Option.isNone_iff_eq_none.1
  · exact Tells.pure fun _ _ _ _ _ h => absurd h (Option.some_ne_none _)

theorem tells_stopped : Tells (stopped e v) fun _ still => still → Stands e v := by
  refine tells_ask.bind fun speed => Tells.pure fun _ h hstill => ?_
  cases speed with
  | none => exact absurd hstill Bool.false_ne_true
  | some speed =>
    obtain ⟨car, hcar, rfl⟩ := h speed rfl
    simp only [Option.any_some, Bool.and_eq_true, decide_eq_true_eq] at hstill
    exact ⟨car, hcar, hstill⟩

theorem tells_resolve {id : Option ℕ} {script : Option Bytes} :
    Tells (resolve e id script) fun _ told => ∀ v, told = some v → id = some v := by
  unfold resolve
  cases hid : id.filter fun v => v ≤ 32767 && (e.cars v).isSome with
  | none => exact Tells.pure fun _ _ h => absurd h.symm (Option.some_ne_none _)
  | some u =>
    have hu : id = some u := (Option.filter_eq_some_iff.1 hid).1
    refine Tells.after fun name => Tells.pure fun _ v hv => ?_
    by_cases hname : (name.isSome && name == script) = true
    · rw [if_pos hname] at hv
      rw [hu, hv]
    · rw [if_neg hname] at hv
      exact absurd hv.symm (Option.some_ne_none _)

variable (e) in
/-- **How a ride begins**: in a car that stands, in a passenger's seat that can
be got to and that nobody else sat in. -/
structure Boarded (s₀ : Seating) (ride : Ride) : Prop where
  seat : Boardable e ride.id ride.seat
  stands : Stands e ride.id
  free : Free e ride.id ride.seat s₀
  fresh : ride.phase = .enter ∧ ride.since = e.now

theorem Free.before (h : Free e v seat s) (hs : SeatsKept e s₀ s) : Free e v seat s₀ := by
  intro who hwho
  by_contra hne
  exact hne (h who ((hs.others v seat who hne).2 hwho))

variable {m : ℕ → Motor}

variable (e) in
/-- The seats kept, with such a ride. -/
def Riding (s₀ : Seating) (m : ℕ → Motor) (K : Option Ride → Prop) (fixed : Fixed) : Prop :=
  SeatsKept e s₀ fixed.seating ∧ fixed.motors = m ∧ K fixed.ride

theorem riding_taking {K : Option Ride → Prop} : Taking e (Riding e s₀ m K) where
  clear _ _ _ h hown := ⟨h.1.clear hown, h.2⟩
  detach _ h := ⟨h.1.detach, h.2⟩
  enter _ _ _ h hfree hseat := ⟨h.1.enter hfree hseat, h.2⟩

variable (e) in
/-- What boarding comes to: no ride, or one that has just begun. -/
def Boards (s₀ : Seating) (ok : Bool) (ride : Option Ride) : Prop :=
  ride = none ∨ ok = true ∧ ∃ r, ride = some r ∧ Boarded e s₀ r

theorem boardAt_holds {script : Bytes} (hstands : Stands e v) :
    Holds (fun w => Riding e s₀ m (· = none) w.fixed) (boardAt e v seat script)
      (fun result w => Riding e s₀ m (Boards e s₀ result.ok) w.fixed)
      fun w => Riding e s₀ m (Boards e s₀ true) w.fixed := by
  have hnone : ∀ ok fixed, Riding e s₀ m (· = none) fixed → Riding e s₀ m (Boards e s₀ ok) fixed :=
    fun ok fixed h => ⟨h.1, h.2.1, .inl h.2.2⟩
  refine tells_available.step (fun w h => hnone true _ h) fun reason => ?_
  cases reason with
  | some reason => exact Holds.pure fun w h => hnone _ _ h.1
  | none =>
    let K : Fixed → Prop := fun fixed => Riding e s₀ m (· = none) fixed ∧ Free e v seat fixed.seating
    have hK : ∀ ok (w : World), K w.fixed → Riding e s₀ m (Boards e s₀ ok) w.fixed :=
      fun ok w h => hnone ok _ h.1
    refine Holds.mono (P := fun w => K w.fixed ∧ Boardable e v seat ∧ Free e v seat s₀) ?_
      (fun w h => ?_) fun _ _ h => h
    · refine Holds.given fun hseat => Reading.step (hK true) fun unlocked =>
        Holds.ite (fun _ => ?_) fun _ => Holds.pure fun w => hK _ w
      refine Reading.step (hK true) fun _ => ?_
      refine Holds.bind (Q := fun _ (w : World) => Riding e s₀ m (· = none) w.fixed) ?_
        fun entered => Holds.ite (fun _ => ?_) fun _ => Holds.pure fun w => hnone _ w.fixed
      · exact call_holds (fun w _ h => h.1) fun w _ h =>
          riding_taking.enter w.fixed v seat h.1 h.2 hseat.1.passenger
      · let ride : Ride := ⟨v, script, seat, .enter, e.now⟩
        have hboarded : Boarded e s₀ ride := ⟨hseat.1, hstands, hseat.2, rfl, rfl⟩
        have hride : ∀ w : World, Riding e s₀ m (· = some ride) w.fixed →
            Riding e s₀ m (Boards e s₀ true) w.fixed :=
          fun w h => ⟨h.1, h.2.1, .inr ⟨rfl, ride, h.2.2, hboarded⟩⟩
        refine Holds.bind (setRide_holds (J := Riding e s₀ m (· = some ride)) fun fixed h =>
          ⟨h.1, h.2.1, rfl⟩) fun _ => Reading.step hride fun _ => ?_
        refine Holds.bind ((apply_keeps riding_taking ride).weaken (fun _ _ h => h) hride)
          fun _ => Reading.step hride fun _ => Holds.pure fun w h => hride w h
    · obtain ⟨hboardable, hempty⟩ := h.2 rfl
      have hfree : Free e v seat w.fixed.seating := fun who hwho => by
        rw [hempty] at hwho
        exact absurd hwho.symm (Option.some_ne_none _)
      exact ⟨⟨h.1, hfree⟩, hboardable, hfree.before h.1.1⟩

/-- **Boarding**: the Goblin that rides in no car comes to ride in none, or in
a free passenger's seat of a car that stands. -/
theorem board_holds {payload : Payload} {keep : Payload → Mind → Mind} :
    Holds (fun w => Riding e s₀ m (· = none) w.fixed) (board e payload keep)
      (fun result w => Riding e s₀ m (Boards e s₀ result.ok) w.fixed)
      fun w => Riding e s₀ m (Boards e s₀ true) w.fixed := by
  have hnone : ∀ ok (w : World), Riding e s₀ m (· = none) w.fixed →
      Riding e s₀ m (Boards e s₀ ok) w.fixed := fun ok w h => ⟨h.1, h.2.1, .inl h.2.2⟩
  refine Reading.step (hnone true) fun vehicle => ?_
  cases vehicle with
  | none => exact Holds.pure fun w => hnone _ w
  | some v =>
    refine Holds.ite (fun _ => Holds.pure fun w => hnone _ w) fun _ => ?_
    refine tells_stopped.step (hnone true) fun still =>
      Holds.ite (fun hstill => Holds.given fun hstands => ?_) fun _ =>
        Holds.pure fun w h => hnone _ w h.1
    refine Reading.step (hnone true) fun seat => ?_
    cases seat with
    | none => exact Holds.pure fun w => hnone _ w
    | some seat =>
      refine Reading.step (hnone true) fun goal => Reading.step (hnone true) fun near =>
        Holds.ite (fun _ => boardAt_holds (hstands hstill)) fun _ => ?_
      exact Reading.step (hnone true) fun _ => Holds.pure fun w => hnone _ w

/-! ## Getting out -/

variable (e) in
/-- **How a ride ends**: the car stands, the exit is free, and the Goblin has
been getting out for 700 ms. -/
structure Left (ride : Ride) : Prop where
  stands : Stands e ride.id
  free : ∃ car, e.cars ride.id = some car ∧ car.exitBlocked ride.seat = false ∧
    ∃ p, car.outside ride.seat = some (p, true)
  patient : ride.phase = .exit ∧ 700 ≤ e.now - ride.since

/-- The same ride, in what phase it be. -/
def Ride.Same (r r' : Ride) : Prop := r'.id = r.id ∧ r'.script = r.script ∧ r'.seat = r.seat

theorem tells_point : Tells (point e v seat) fun _ told =>
    ∀ p free, told = some (p, free) →
      ∃ car, e.cars v = some car ∧ ∃ q, car.outside seat = some (q, free) := by
  refine Tells.after fun valid => Tells.ite (fun _ => ?_) fun _ =>
    Tells.pure fun _ _ _ h => absurd h.symm (Option.some_ne_none _)
  refine Tells.after fun count => Tells.ite (fun _ => ?_) fun _ =>
    Tells.pure fun _ _ _ h => absurd h.symm (Option.some_ne_none _)
  refine tells_ask.bind fun told => Tells.pure fun _ h p free hp => ?_
  obtain ⟨⟨q, free'⟩, hq, heq⟩ := Option.map_eq_some_iff.1 hp
  obtain ⟨car, hcar, hout⟩ := h _ (Option.join_eq_some_iff.1 hq)
  obtain ⟨-, rfl⟩ := Prod.mk.inj heq
  exact ⟨car, hcar, q, hout⟩

variable (e) in
/-- What a step of getting out comes to: the ride, or none and the Goblin in
no seat. -/
def Leaves (s₀ : Seating) (m : ℕ → Motor) (ride : Ride) (stays gone : Prop) (fixed : Fixed) :
    Prop :=
  stays ∧ Riding e s₀ m (fun r => ∃ r', r = some r' ∧ ride.Same r') fixed ∨
    gone ∧ Riding e s₀ m (· = none) fixed ∧ Left e ride ∧ Out e ride.id fixed.seating

theorem tells_isOut : Tells (isOut e v) fun fixed out => out → Out e v fixed.seating := by
  refine tells_getSeat.bind fun seat => tells_getVehicle.bind fun attached =>
    Tells.pure fun fixed hattached hseat hout => ?_
  obtain ⟨rfl, rfl⟩ := of_decide_eq_true hout
  exact ⟨hseat none rfl, hattached.1 rfl⟩

theorem exitAt_holds {ride : Ride} {p : Point} (hleft : Left e ride) :
    Holds (fun w => Riding e s₀ m (· = some ride) w.fixed) (exitAt e ride.id ride p)
      (fun result w => Leaves e s₀ m ride (result.done = false) (result.done = true) w.fixed)
      fun w => Leaves e s₀ m ride True True w.fixed := by
  have hstays : ∀ (w : World), Riding e s₀ m (· = some ride) w.fixed →
      Riding e s₀ m (fun r => ∃ r', r = some r' ∧ ride.Same r') w.fixed :=
    fun w h => ⟨h.1, h.2.1, ride, h.2.2, rfl, rfl, rfl⟩
  have hsame : ∀ w : World, Riding e s₀ m (· = some ride) w.fixed →
      Leaves e s₀ m ride True True w.fixed := fun w h => .inl ⟨trivial, hstays w h⟩
  refine Reading.step hsame fun door => Reading.step hsame fun _ => ?_
  refine Holds.bind (Q := fun _ (w : World) => Riding e s₀ m (· = some ride) w.fixed)
    (call_holds (fun w _ h => h) fun w _ h => ⟨h.1.exit, h.2⟩) fun exited => ?_
  refine tells_isOut.step hsame fun out => ?_
  refine Reading.step (I := fun fixed => Riding e s₀ m (· = some ride) fixed ∧
    (out → Out e ride.id fixed.seating)) (fun w h => hsame w h.1) fun _ =>
    Holds.ite (fun hout => ?_) fun _ => Holds.pure fun w h => .inl ⟨rfl, hstays w h.1⟩
  let K : Option Ride → Fixed → Prop := fun r fixed =>
    Riding e s₀ m (· = r) fixed ∧ Out e ride.id fixed.seating
  have hgone : ∀ {p : Prop}, p → ∀ w : World, K none w.fixed → Leaves e s₀ m ride True p w.fixed :=
    fun hp w h => .inr ⟨hp, h.1, hleft, h.2⟩
  have hdetach : Keeps (fun w => K (some ride) w.fixed) (detach e (some p)) :=
    detach_keeps (riding_taking.toLoose.and loose_out) (some p)
  refine Holds.bind (Q := fun _ (w : World) => K (some ride) w.fixed) ?_ fun _ => ?_
  · exact (hdetach.mono (fun w h => ⟨h.1, h.2 hout.2⟩) fun _ _ h => h).weaken (fun _ _ h => h)
      fun w h => hsame w h.1
  · exact Holds.bind (setRide_holds (J := K none) fun fixed h => ⟨⟨h.1.1, h.1.2.1, rfl⟩, h.2⟩)
      fun _ => Reading.step (hgone trivial) fun _ => Holds.pure fun w h => .inr ⟨rfl, h.1, hleft, h.2⟩

/-- **Getting out**: the ride goes on, or it ends with the Goblin in no seat
of a car that stands. -/
theorem exit_holds {ride : Ride} :
    Holds (fun w => Riding e s₀ m (· = some ride) w.fixed) (exit e ride)
      (fun result w => Leaves e s₀ m ride (result.done = false) (result.done = true) w.fixed)
      fun w => Leaves e s₀ m ride True True w.fixed := by
  have hstays : ∀ (w : World), Riding e s₀ m (· = some ride) w.fixed →
      Riding e s₀ m (fun r => ∃ r', r = some r' ∧ ride.Same r') w.fixed :=
    fun w h => ⟨h.1, h.2.1, ride, h.2.2, rfl, rfl, rfl⟩
  have hsame : ∀ w : World, Riding e s₀ m (· = some ride) w.fixed →
      Leaves e s₀ m ride True True w.fixed := fun w h => .inl ⟨trivial, hstays w h⟩
  refine tells_resolve.step hsame fun vehicle => ?_
  cases vehicle with
  | none => exact Holds.pure fun w h => .inl ⟨rfl, hstays w h.1⟩
  | some v =>
    refine Holds.given fun hv => ?_
    obtain rfl := Option.some.inj (hv v rfl)
    refine tells_stopped.step hsame fun still =>
      Holds.ite (fun hstill => Holds.given fun hstands => ?_) fun _ =>
        Holds.pure fun w h => .inl ⟨rfl, hstays w h.1⟩
    refine tells_ask.step hsame fun blocked => Holds.given fun hblocked => ?_
    refine tells_point.step hsame fun point => Holds.given fun hpoint => ?_
    obtain _ | ⟨p, _ | _⟩ := point
    · exact Holds.pure fun w h => .inl ⟨rfl, hstays w h⟩
    · exact Holds.pure fun w h => .inl ⟨rfl, hstays w h⟩
    · refine Holds.ite (fun hfree => ?_) fun _ => Holds.pure fun w h => .inl ⟨rfl, hstays w h⟩
      refine Holds.ite (fun _ => ?_) fun hphase => Holds.ite (fun _ =>
        Holds.pure fun w h => .inl ⟨rfl, hstays w h⟩) fun hpatient => ?_
      · refine Holds.bind (setRide_holds (J := Riding e s₀ m fun r => ∃ r', r = some r' ∧
          ride.Same r') fun fixed h => ⟨h.1, h.2.1, _, rfl, rfl, rfl, rfl⟩) fun _ =>
          Holds.pure fun w h => .inl ⟨rfl, h⟩
      · obtain ⟨car, hcar, hexit⟩ := hblocked false hfree
        obtain ⟨car', hcar', q, hq⟩ := hpoint p true rfl
        obtain rfl := Option.some.inj (hcar.symm.trans hcar')
        exact exitAt_holds ⟨hstands hstill, ⟨car, hcar, hexit, q, hq⟩,
          not_not.1 hphase, by omega⟩

end Transport

end GoblinZomboid
