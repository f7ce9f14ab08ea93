import GoblinZomboid.Server.Riding
/-!
# `CompanionSeats.java`: whose seat it is

Players take their seats by packets of the native game, Goblins in their ticks.
A packet is refused where a Goblin sits in a passenger's seat; the driver's seat
is left to the native rules, which is enough because no Goblin ever sits there.
-/

namespace GoblinZomboid

namespace Transport

/-! ## Packets -/

/-- `VehicleEnterPacket` and `VehicleSwitchSeatPacket`: the car, if it is there,
the seat that is asked for, and who asks. -/
structure Packet where
  vehicle : Option ℕ
  seatTo : ℤ
  player : ℕ

variable (count : ℕ → ℕ)

/-- `ReservedSeat.validate`: what becomes of the native verdict. -/
def validate (g : Game) (p : Packet) (consistent : Bool) : Bool :=
  if consistent then
    match p.vehicle with
    | none => true
    | some v =>
      if p.seatTo < 1 ∨ count v ≤ p.seatTo then true
      else
        match g.seating.seats v p.seatTo.toNat with
        | some (.goblin _) => false
        | _ => true
  else false

/-- Somebody is in no seat any more. -/
def Seating.leave (who : Who) (s : Seating) : Seating where
  seats := fun v seat => if s.seats v seat = some who then none else s.seats v seat
  attached := fun who' => if who' = who then none else s.attached who'

/-- What the native game makes of a packet: a car has no seats but its own. -/
def Game.packet (g : Game) (p : Packet) (consistent : Bool) : Game :=
  match p.vehicle with
  | none => g
  | some v =>
    if validate count g p consistent ∧ 0 ≤ p.seatTo ∧ p.seatTo < count v then
      let who := Who.player p.player
      { g with seating := (g.seating.leave who).enter v p.seatTo.toNat who }
    else g

/-- What happens in the game. -/
inductive Event
  | update (e : Scene) (ts : Turns Turn)
  /-- A packet, and the native verdict on it. -/
  | packet (p : Packet) (consistent : Bool)
  /-- Somebody gets out, dies or is unloaded. -/
  | leave (who : Who)
  /-- Anything that is about no seat. -/
  | outside (g : Game)

def Game.handle (g : Game) : Event → Game
  | .update e ts => g.step (.update e ts)
  | .packet p consistent => g.packet count p consistent
  | .leave who => { g with seating := g.seating.leave who }
  | .outside g' => g'

/-- The cars have the seats they have, and the rest changes no seat. -/
def Plain (g : Game) : Event → Prop
  | .update e _ => ∀ v car, e.cars v = some car → car.count = count v
  | .outside g' => g'.seating = g.seating
  | _ => True

/-- Every Goblin in a car sits in one of its passengers' seats. -/
def Game.Boarded (g : Game) : Prop :=
  ∀ v seat n, g.seating.seats v seat = some (.goblin n) → 1 ≤ seat ∧ seat < count v

/-- **A seat is left by the one in it**: an update changes no seat of others,
and no packet takes a Goblin's. -/
def Undisturbed (g : Game) : Event → Prop
  | .update e ts => ∀ v seat who, who ≠ e.body →
    ((g.handle count (.update e ts)).seating.seats v seat = some who ↔
      g.seating.seats v seat = some who)
  | .packet p consistent => ∀ v seat n, g.seating.seats v seat = some (.goblin n) ↔
    (g.handle count (.packet p consistent)).seating.seats v seat = some (.goblin n)
  | _ => True

variable {count} {g : Game}

/-! ## Seats under packets -/

theorem seats_packet {p : Packet} {consistent : Bool} (hg : g.Boarded count) {v seat n : ℕ} :
    g.seating.seats v seat = some (.goblin n) ↔
      (g.packet count p consistent).seating.seats v seat = some (.goblin n) := by
  unfold Game.packet
  cases hvehicle : p.vehicle with
  | none => exact Iff.rfl
  | some u =>
    by_cases htaken : validate count g p consistent ∧ 0 ≤ p.seatTo ∧ p.seatTo < count u
    · obtain ⟨hvalid, hlow, hhigh⟩ := htaken
      simp only [hvalid, hlow, hhigh, and_self, if_true, Seating.enter, Seating.leave]
      by_cases hseat : v = u ∧ seat = p.seatTo.toNat
      · obtain ⟨rfl, rfl⟩ := hseat
        -- The seat is no Goblin's: the first is the driver's, the others are checked.
        have hnot : ∀ m, g.seating.seats v p.seatTo.toNat ≠ some (.goblin m) := by
          intro m hm
          have hin := hg _ _ _ hm
          have hchecked : ¬(p.seatTo < 1 ∨ (count v : ℤ) ≤ p.seatTo) := by omega
          cases consistent with
          | false => simp [validate] at hvalid
          | true => simp [validate, hvehicle, hchecked, hm] at hvalid
        simp [hnot n]
      · simp only [hseat, if_false]
        by_cases hown : g.seating.seats v seat = some (.player p.player)
        · simp [hown]
        · simp [hown]
    · simp only [htaken, if_false]

theorem seats_leave {who : Who} {v seat n : ℕ}
    (h : (g.seating.leave who).seats v seat = some (.goblin n)) :
    g.seating.seats v seat = some (.goblin n) := by
  by_cases hown : g.seating.seats v seat = some who
  · simp [Seating.leave, hown] at h
  · simpa [Seating.leave, hown] using h

/-! ## Any run -/

theorem updated_seats {e : Scene} {fixed₀ fixed : Fixed} (h : Updated e fixed₀ fixed) {v seat : ℕ}
    {who : Who} (hwho : who ≠ e.body) :
    fixed.seating.seats v seat = some who ↔ fixed₀.seating.seats v seat = some who := by
  obtain ⟨between, hfirst, hsecond⟩ := h
  rw [hsecond.seats.others v seat who hwho, hfirst.seats.others v seat who hwho]

theorem Game.Boarded.handle {a : Event} (hg : g.Boarded count) (ha : Plain count g a) :
    (g.handle count a).Boarded count := by
  intro v seat n hseat
  cases a with
  | update e ts =>
    rcases (update_harmless g (.update e ts)).1.place hseat with h | ⟨car, hcar, hlow, hhigh, -⟩
    · exact hg v seat n h
    · exact ⟨hlow, ha v car hcar ▸ hhigh⟩
  | packet p consistent => exact hg v seat n ((seats_packet hg).2 hseat)
  | leave who => exact hg v seat n (seats_leave hseat)
  | outside g' =>
    rw [show (g.handle count (.outside g')).seating = g.seating from ha] at hseat
    exact hg v seat n hseat

theorem undisturbed {a : Event} (hg : g.Boarded count) : Undisturbed count g a := by
  cases a with
  | update e ts => exact fun v seat who hwho => updated_seats (update_harmless g (.update e ts)).1 hwho
  | packet p consistent => exact fun v seat n => seats_packet hg
  | leave who => trivial
  | outside g' => trivial

/-- **Whose seat it is**: in any run of updates and packets, however they
interleave, no update takes a seat from anyone but its Goblin, and no packet
takes a Goblin's, the driver's seat included, which the check leaves out. -/
theorem run_undisturbed {events : List Event} (hg : g.Boarded count)
    (hevents : Machine.Meets (Game.handle count) (Plain count) g events) :
    (Machine.run (Game.handle count) g events).Boarded count ∧
      Machine.Meets (Game.handle count) (Undisturbed count) g events := by
  have hstep : ∀ g a, Game.Boarded count g → Plain count g a → (g.handle count a).Boarded count :=
    fun _ _ => Game.Boarded.handle
  have hmeets : ∀ g a, Game.Boarded count g → Plain count g a → Undisturbed count g a :=
    fun _ _ h _ => undisturbed h
  exact ⟨Machine.invariant_of_meets hstep hg hevents,
    Machine.meets_of_invariant hstep hmeets hg hevents⟩

/-! ### The same van -/

/-- The player takes the wheel, the Goblin follows, and another player asks for
the Goblin's seat and gets the one behind. -/
def vanEvents : List Event :=
  [.packet ⟨some 7, 0, 5⟩ true, .update (vanScene 0) works, .packet ⟨some 7, 1, 6⟩ true,
    .packet ⟨some 7, 2, 6⟩ true]

theorem run_undisturbed_van :
    (Machine.run (Game.handle fun _ => 4) emptyVan vanEvents).Boarded (fun _ => 4) ∧
      (Machine.run (Game.handle fun _ => 4) emptyVan vanEvents).seating.seats 7 1 =
        some (.goblin 3) ∧
      (Machine.run (Game.handle fun _ => 4) emptyVan vanEvents).seating.seats 7 2 =
        some (.player 6) := by
  have hempty : emptyVan.Boarded fun _ => 4 := fun _ _ _ h => absurd h.symm (Option.some_ne_none _)
  have hplain : Machine.Meets (Game.handle fun _ => 4) (Plain fun _ => 4) emptyVan vanEvents := by
    refine ⟨trivial, fun v car hcar => ?_, trivial, trivial, trivial⟩
    by_cases hv : v = 7
    · rw [show (vanScene 0).cars v = some van from if_pos hv] at hcar
      exact Option.some.inj hcar ▸ rfl
    · rw [show (vanScene 0).cars v = none from if_neg hv] at hcar
      exact absurd hcar.symm (Option.some_ne_none _)
  exact ⟨(run_undisturbed hempty hplain).1, by decide +kernel, by decide +kernel⟩

end Transport

end GoblinZomboid
