import GoblinZomboid.Server.Transfer
/-!
# `World.take` and `Transfer.pickup`: taking an item

An item is taken out of its container before it is put into Goblin's
inventory, and off the floor after. A call that fails on the way leaves it
in one place, in none or in both.
-/

namespace GoblinZomboid

namespace Custody

/-- Where an item is taken from. -/
inductive Source
  | container (c : ℕ)
  | floor (square : ℕ)
  deriving DecidableEq

def Source.place : Source → Place
  | .container c => .container c
  | .floor square => .floor square

/-- The calls of `World.take`. -/
structure Taking where
  /-- `World.reachable`. -/
  reachable : Bool
  /-- The source names an object. -/
  target : Bool
  /-- `Policy.access`. -/
  access : Bool
  /-- The object is among those of the square. -/
  present : Bool
  /-- `World.containerAccessible`. -/
  accessible : Bool
  /-- `getContainer` answers with the source's container. -/
  same : Bool
  /-- `hasRoomFor`. -/
  room : Option Bool
  there : Reading
  remove : Outcome
  gone : Reading
  /-- `getSquare` answers with the source's square. -/
  square : Bool
  add : Outcome
  arrived : Reading
  still : Reading
  putBack : Outcome
  /-- `sendRemoveItemFromContainer`. -/
  sent : Bool
  /-- `transmitRemoveItemFromSquare`. -/
  transmit : Outcome
  removeFromWorld : Outcome
  removeFromSquare : Outcome
  setWorldItem : Outcome

/-- The calls of `Transfer.pickup`. -/
structure Picking where
  taking : Taking
  held : Reading

/-! ## The functions -/

/-- The tests of `World.take` before it touches the item. -/
def Taking.admits (e : Taking) (g : Goods) (i : Item) (s : Source) : Bool :=
  e.reachable && e.target && e.access && e.present &&
    (match s with
    | .container _ => e.accessible && e.same
    | .floor _ => true) &&
    e.room == some true &&
    match s with
    | .container c => containsExact e.there (g.holds (.container c)) i == some true
    | .floor _ => e.square

/-- The last calls of `World.take` for an item on the floor, none where one
of them raises an error. -/
def liftOff (e : Taking) (g : Goods) (i : Item) (square : ℕ) : Option Bool × Goods :=
  let sent := e.transmit.run (Goods.remove (.floor square) i) g
  if !sent.1 then (none, sent.2)
  else
    let unworlded := e.removeFromWorld.run id sent.2
    if !unworlded.1 then (none, unworlded.2)
    else
      let lifted := e.removeFromSquare.run (Goods.remove (.floor square) i) unworlded.2
      if !lifted.1 then (none, lifted.2)
      else
        let freed := e.setWorldItem.run id lifted.2
        if !freed.1 then (none, freed.2) else (some true, freed.2)

/-- The end of `World.take`, for an item that is out of its container or on
the floor. -/
def takeIn (e : Taking) (g : Goods) (i : Item) (s : Source) : Option Bool × Goods :=
  let added := e.add.run (Goods.add .goblin i) g
  let arrived := containsExact e.arrived (added.2.holds .goblin) i
  if !added.1 || arrived ≠ some true then
    match s with
    | .container c =>
      if arrived = some false &&
          containsExact e.still (added.2.holds (.container c)) i = some false then
        (some false, (e.putBack.run (Goods.add (.container c) i) added.2).2)
      else (some false, added.2)
    | .floor _ => (some false, added.2)
  else
    match s with
    | .container _ => (some e.sent, added.2)
    | .floor square => liftOff e added.2 i square

/-- `World.take`, none where it raises an error. -/
def take (e : Taking) (g : Goods) (i : Item) (s : Source) : Option Bool × Goods :=
  if !e.admits g i s then (some false, g)
  else
    match s with
    | .container c =>
      let removed := e.remove.run (Goods.remove (.container c) i) g
      if !removed.1 || containsExact e.gone (removed.2.holds (.container c)) i ≠ some false then
        (some false, removed.2)
      else takeIn e removed.2 i s
    | .floor _ => takeIn e g i s

/-- `Transfer.pickup`. -/
def pickup (e : Picking) (g : Goods) (i : Item) (s : Source) : Report × Goods :=
  match take e.taking g i s with
  | (none, g) => (.failed .engineError "pickup raised an engine error", g)
  | (some moved, g) =>
    let held := containsExact e.held (g.holds .goblin) i
    if moved then
      if held ≠ some true then
        (.failed .engineError "pickup reported success without the item", g)
      else (.done none, g)
    else if held = some true then
      (.failed .engineError "pickup moved the item but replication is uncertain", g)
    else (.failed .blocked "source item could not be taken", g)

/-! ## Where the item ends up -/

/-- **A blocked pickup leaves the item in place.** -/
def Kept (r : Report × Goods) (i : Item) (s : Source) : Prop :=
  ∀ detail, r.1 = .failed .blocked detail → r.2.Lies i [s.place]

/-- The item is in one of the two places, not lost and not in both. -/
def Whole (g : Goods) (i : Item) (s : Source) : Prop :=
  g.Lies i [s.place] ∨ g.Lies i [.goblin]

/-- The item has left its container and comes to nowhere: the container gave
it up in a call that failed or could not be read after, or the inventory
refused it and it could not be put back. -/
def Taking.Loses (e : Taking) (g : Goods) (i : Item) (s : Source) : Prop :=
  ∃ c, s = .container c ∧ e.admits g i s = true ∧
    (e.remove = .after ∨ e.remove = .ok ∧
      (e.gone.answers ((g.remove s.place i).holds s.place) = false ∨
        e.add = .before ∧
          ¬(e.arrived.answers ((g.remove s.place i).holds .goblin) = true ∧
            e.still.answers ((g.remove s.place i).holds s.place) = true ∧ e.putBack ≠ .before)))

/-- The item is out of its container, and known to be. -/
def Taking.clears (e : Taking) (g : Goods) (i : Item) (s : Source) : Prop :=
  match s with
  | .container _ => e.remove = .ok ∧ e.gone.answers ((g.remove s.place i).holds s.place) = true
  | .floor _ => True

/-- What Goblin takes from: a container without the item, or the floor. -/
def Source.cleared (s : Source) (g : Goods) (i : Item) : Goods :=
  match s with
  | .container c => g.remove (.container c) i
  | .floor _ => g

/-- The item came into the inventory, in a call that failed or was not seen
to work. -/
def Taking.unseen (e : Taking) (g : Goods) (i : Item) (s : Source) : Prop :=
  e.add = .after ∨
    e.add = .ok ∧ e.arrived.answers (((s.cleared g i).add .goblin i).holds .goblin) = false

/-- The item is with Goblin, nobody says so, and the inventory cannot be
read. -/
def Picking.Hides (e : Picking) (g : Goods) (i : Item) (s : Source) : Prop :=
  e.taking.admits g i s = true ∧ e.taking.clears g i s ∧
    e.held.answers (((s.cleared g i).add .goblin i).holds .goblin) = false ∧
    (e.taking.unseen g i s ∨
      e.taking.add = .ok ∧ e.taking.sent = false ∧ ∃ c, s = .container c)

/-- The item stays on the floor and is with Goblin. -/
def Taking.Doubles (e : Taking) (g : Goods) (i : Item) (s : Source) : Prop :=
  ∃ square, s = .floor square ∧ e.admits g i s = true ∧
    (e.unseen g i s ∨ e.add = .ok ∧ e.transmit = .before)

variable {g g' : Goods} {i : Item} {s : Source} {e : Taking}

/-- A read of a container that has the item, or has not. -/
theorem containsExact_of_mem {r : Reading} {items : List Item} (h : i ∈ items) :
    containsExact r items i = if r.answers items then some true else none := by
  rw [containsExact_eq, decide_eq_true h]

theorem containsExact_of_not_mem {r : Reading} {items : List Item} (h : i ∉ items) :
    containsExact r items i = if r.answers items then some false else none := by
  rw [containsExact_eq, decide_eq_false h]

/-- From a container that gave the item up. -/
theorem takeIn_container {c : ℕ} (h : g.Lies i []) :
    takeIn e g i (.container c) =
      match e.add with
      | .ok =>
        (some (e.arrived.answers ((g.add .goblin i).holds .goblin) && e.sent), g.add .goblin i)
      | .after => (some false, g.add .goblin i)
      | .before =>
        if e.arrived.answers (g.holds .goblin) && e.still.answers (g.holds (.container c)) then
          (some false, (e.putBack.run (Goods.add (.container c) i) g).2)
        else (some false, g) := by
  have hadded : (g.add .goblin i).Lies i [.goblin] := h.add
  have harrived : i ∈ (g.add .goblin i).holds .goblin := hadded.mem
  have hnot : i ∉ g.holds .goblin := h.not_mem List.not_mem_nil
  have hgone : i ∉ g.holds (.container c) := h.not_mem List.not_mem_nil
  unfold takeIn
  cases e.add with
  | ok =>
    rw [Outcome.run_ok]
    dsimp only
    rw [containsExact_of_mem harrived]
    cases e.arrived.answers ((g.add .goblin i).holds .goblin) <;> simp
  | after =>
    rw [Outcome.run_after]
    dsimp only
    rw [containsExact_of_mem harrived]
    cases e.arrived.answers ((g.add .goblin i).holds .goblin) <;> simp
  | before =>
    rw [Outcome.run_before]
    dsimp only
    rw [containsExact_of_not_mem hnot, containsExact_of_not_mem hgone]
    cases e.arrived.answers (g.holds .goblin) <;>
      cases e.still.answers (g.holds (.container c)) <;> simp

/-- From the floor. -/
theorem takeIn_floor {square : ℕ} :
    takeIn e g i (.floor square) =
      match e.add with
      | .ok =>
        if e.arrived.answers ((g.add .goblin i).holds .goblin) then
          liftOff e (g.add .goblin i) i square
        else (some false, g.add .goblin i)
      | .after => (some false, g.add .goblin i)
      | .before => (some false, g) := by
  have harrived : i ∈ (g.add .goblin i).holds .goblin := Goods.mem_add.2 (Or.inl ⟨rfl, rfl⟩)
  unfold takeIn
  cases e.add with
  | ok =>
    rw [Outcome.run_ok]
    dsimp only
    rw [containsExact_of_mem harrived]
    cases e.arrived.answers ((g.add .goblin i).holds .goblin) <;> simp
  | after => simp [Outcome.run_after]
  | before => simp [Outcome.run_before]

/-- **Lifting an item off the floor** ends with an error or a success; the
item is off the floor unless the first call never took effect. -/
theorem liftOff_spec (square : ℕ) (h : g.Lies i [.goblin, .floor square]) :
    (liftOff e g i square).1 ≠ some false ∧
      (liftOff e g i square).2.Lies i
        (if e.transmit = .before then [.goblin, .floor square] else [.goblin]) := by
  have hlifted : (g.remove (.floor square) i).Lies i [.goblin] := by
    have := h.remove (p := .floor square)
    simpa using this
  have hagain : ((g.remove (.floor square) i).remove (.floor square) i).Lies i [.goblin] := by
    rw [remove_remove]
    exact hlifted
  unfold liftOff
  cases e.transmit with
  | before => exact ⟨nofun, h⟩
  | after => exact ⟨nofun, hlifted⟩
  | ok =>
    cases e.removeFromWorld with
    | before => exact ⟨nofun, hlifted⟩
    | after => exact ⟨nofun, hlifted⟩
    | ok =>
      cases e.removeFromSquare with
      | before => exact ⟨nofun, hlifted⟩
      | after => exact ⟨nofun, hagain⟩
      | ok => cases e.setWorldItem <;> exact ⟨nofun, hagain⟩

/-- What a pickup says of an item that `World.take` did not report. -/
theorem kept_of_take {e : Picking} (h : take e.taking g i s = (some false, g')) :
    Kept (pickup e g i s) i s ↔
      g'.Lies i [s.place] ∨ containsExact e.held (g'.holds .goblin) i = some true := by
  unfold Kept pickup
  rw [h]
  dsimp only
  rw [if_neg Bool.false_ne_true]
  by_cases hheld : containsExact e.held (g'.holds .goblin) i = some true
  · rw [if_pos hheld]
    exact ⟨fun _ => Or.inr hheld, fun _ detail hfailed => by cases hfailed⟩
  · rw [if_neg hheld, or_iff_left hheld]
    exact ⟨fun h => h _ rfl, fun h _ _ => h⟩

/-- A pickup that `World.take` reported, or that raised an error, is not
blocked. -/
theorem kept_of_taken {e : Picking} {moved : Option Bool} (h : take e.taking g i s = (moved, g'))
    (hmoved : moved ≠ some false) : Kept (pickup e g i s) i s := by
  unfold Kept pickup
  rw [h]
  rcases moved with _ | _ | _
  · intro detail hfailed
    cases hfailed
  · exact absurd rfl hmoved
  · dsimp only
    rw [if_pos rfl]
    split
    · intro detail hfailed
      cases hfailed
    · intro detail hfailed
      cases hfailed

theorem snd_pickup (e : Picking) (g : Goods) (i : Item) (s : Source) :
    (pickup e g i s).2 = (take e.taking g i s).2 := by
  unfold pickup
  rcases take e.taking g i s with ⟨_ | _ | _, g'⟩
  · rfl
  · dsimp only
    split
    · split <;> rfl
    · split <;> rfl
  · dsimp only
    split
    · split <;> rfl
    · split <;> rfl

theorem take_refused (h : e.admits g i s = false) : take e g i s = (some false, g) := by
  unfold take
  rw [h]
  rfl

theorem take_container {c : ℕ} (h : e.admits g i (.container c) = true) :
    take e g i (.container c) =
      match e.remove with
      | .before => (some false, g)
      | .after => (some false, g.remove (.container c) i)
      | .ok =>
        if e.gone.answers ((g.remove (.container c) i).holds (.container c)) then
          takeIn e (g.remove (.container c) i) i (.container c)
        else (some false, g.remove (.container c) i) := by
  have hgone : i ∉ (g.remove (.container c) i).holds (.container c) :=
    fun hmem => (Goods.mem_remove.1 hmem).1 ⟨rfl, rfl⟩
  unfold take
  rw [h, if_neg (by simp)]
  dsimp only
  cases e.remove with
  | before => simp [Outcome.run_before]
  | after => simp [Outcome.run_after]
  | ok =>
    rw [Outcome.run_ok]
    dsimp only
    rw [containsExact_of_not_mem hgone]
    cases e.gone.answers ((g.remove (.container c) i).holds (.container c)) <;> simp

theorem take_floor {square : ℕ} (h : e.admits g i (.floor square) = true) :
    take e g i (.floor square) = takeIn e g i (.floor square) := by
  unfold take
  rw [h, if_neg (by simp)]

/-- An item is not in two different sets of places. -/
theorem lies_ne {places places' : List Place} (h : g.Lies i places) (p : Place)
    (hp : p ∈ places ∧ p ∉ places' ∨ p ∉ places ∧ p ∈ places') : ¬g.Lies i places' := by
  intro h'
  rcases hp with ⟨hin, hout⟩ | ⟨hout, hin⟩
  · exact hout ((h.unique h' p).1 hin)
  · exact hout ((h.unique h' p).2 hin)

/-- **From a container.** -/
theorem pickup_container (e : Picking) {c : ℕ} (h : g.Lies i [.container c]) :
    (Kept (pickup e g i (.container c)) i (.container c) ↔
      ¬e.taking.Loses g i (.container c) ∧ ¬e.Hides g i (.container c)) ∧
    (Whole (pickup e g i (.container c)).2 i (.container c) ↔
      ¬e.taking.Loses g i (.container c) ∧ ¬e.taking.Doubles g i (.container c)) := by
  have hdoubles : ¬e.taking.Doubles g i (.container c) := by
    rintro ⟨square, hsource, -⟩
    cases hsource
  rw [snd_pickup, and_iff_left hdoubles]
  cases hadmits : e.taking.admits g i (.container c) with
  | false =>
    have htake := take_refused hadmits
    have hloses : ¬e.taking.Loses g i (.container c) := by
      rintro ⟨-, -, hadmits', -⟩
      rw [hadmits] at hadmits'
      cases hadmits'
    have hhides : ¬e.Hides g i (.container c) := by
      rintro ⟨hadmits', -⟩
      rw [hadmits] at hadmits'
      cases hadmits'
    rw [kept_of_take htake, htake]
    exact ⟨iff_of_true (Or.inl h) ⟨hloses, hhides⟩, iff_of_true (Or.inl h) hloses⟩
  | true =>
    have hnowhere : (g.remove (.container c) i).Lies i [] := by simpa using h.remove (p := .container c)
    have hhere : ((g.remove (.container c) i).add .goblin i).Lies i [.goblin] := hnowhere.add
    have hloses : e.taking.Loses g i (.container c) ↔ e.taking.remove = .after ∨
        e.taking.remove = .ok ∧
          (e.taking.gone.answers ((g.remove (.container c) i).holds (.container c)) = false ∨
            e.taking.add = .before ∧
              ¬(e.taking.arrived.answers ((g.remove (.container c) i).holds .goblin) = true ∧
                e.taking.still.answers ((g.remove (.container c) i).holds (.container c)) = true ∧
                e.taking.putBack ≠ .before)) :=
      ⟨fun ⟨_, _, _, hlost⟩ => hlost, fun hlost => ⟨c, rfl, hadmits, hlost⟩⟩
    have hhides : e.Hides g i (.container c) ↔
        (e.taking.remove = .ok ∧
          e.taking.gone.answers ((g.remove (.container c) i).holds (.container c)) = true) ∧
        e.held.answers (((g.remove (.container c) i).add .goblin i).holds .goblin) = false ∧
        ((e.taking.add = .after ∨ e.taking.add = .ok ∧ e.taking.arrived.answers
          (((g.remove (.container c) i).add .goblin i).holds .goblin) = false) ∨
            e.taking.add = .ok ∧ e.taking.sent = false) :=
      ⟨fun ⟨_, hclears, hheld, hcame⟩ => ⟨hclears, hheld, hcame.imp id fun h => ⟨h.1, h.2.1⟩⟩,
        fun ⟨hclears, hheld, hcame⟩ =>
          ⟨hadmits, hclears, hheld, hcame.imp id fun h => ⟨h.1, h.2, c, rfl⟩⟩⟩
    have hlost : ¬Whole (g.remove (.container c) i) i (.container c) := by
      rintro (hback | hgot)
      · exact lies_ne hnowhere (.container c) (Or.inr ⟨List.not_mem_nil, List.mem_cons_self⟩) hback
      · exact lies_ne hnowhere .goblin (Or.inr ⟨List.not_mem_nil, List.mem_cons_self⟩) hgot
    have hunheld {r : Reading} :
        containsExact r ((g.remove (.container c) i).holds .goblin) i ≠ some true :=
      fun heq => hnowhere.not_mem List.not_mem_nil (containsExact_eq_true.1 heq).2
    -- Nothing came of it: the item is in neither place.
    have hdead (htake : take e.taking g i (.container c) = (some false, g.remove (.container c) i))
        (hlose : e.taking.Loses g i (.container c)) :
        (Kept (pickup e g i (.container c)) i (.container c) ↔
          ¬e.taking.Loses g i (.container c) ∧ ¬e.Hides g i (.container c)) ∧
        (Whole (take e.taking g i (.container c)).2 i (.container c) ↔
          ¬e.taking.Loses g i (.container c)) := by
      rw [kept_of_take htake, htake]
      refine ⟨iff_of_false ?_ fun hno => hno.1 hlose, iff_of_false hlost fun hno => hno hlose⟩
      rintro (hback | hheld)
      · exact hlost (Or.inl hback)
      · exact hunheld hheld
    -- Goblin has the item, and `take` does not say so.
    have hcame (htake : take e.taking g i (.container c) =
          (some false, (g.remove (.container c) i).add .goblin i))
        (hlose : ¬e.taking.Loses g i (.container c))
        (hhide : e.Hides g i (.container c) ↔ e.held.answers
          (((g.remove (.container c) i).add .goblin i).holds .goblin) = false) :
        (Kept (pickup e g i (.container c)) i (.container c) ↔
          ¬e.taking.Loses g i (.container c) ∧ ¬e.Hides g i (.container c)) ∧
        (Whole (take e.taking g i (.container c)).2 i (.container c) ↔
          ¬e.taking.Loses g i (.container c)) := by
      rw [kept_of_take htake, htake, and_iff_right hlose, hhide]
      refine ⟨?_, iff_of_true (Or.inr hhere) hlose⟩
      rw [containsExact_of_mem hhere.mem]
      have hnotback : ¬((g.remove (.container c) i).add .goblin i).Lies i [.container c] :=
        lies_ne hhere .goblin (Or.inl ⟨List.mem_cons_self, by simp⟩)
      refine ⟨?_, fun hanswers => Or.inr ?_⟩
      · rintro (hback | hheld) hno
        · exact hnotback hback
        · rw [hno] at hheld
          cases hheld
      · rw [Bool.not_eq_false] at hanswers
        rw [hanswers]
        rfl
    have htake := take_container hadmits
    cases hremove : e.taking.remove with
    | before =>
      have hlose : ¬e.taking.Loses g i (.container c) := by
        rw [hloses, hremove]
        simp
      have hhide : ¬e.Hides g i (.container c) := by
        rw [hhides, hremove]
        simp
      rw [hremove] at htake
      rw [kept_of_take htake, htake]
      exact ⟨iff_of_true (Or.inl h) ⟨hlose, hhide⟩, iff_of_true (Or.inl h) hlose⟩
    | after =>
      rw [hremove] at htake
      exact hdead htake (hloses.2 (Or.inl hremove))
    | ok =>
      rw [hremove] at htake
      dsimp only at htake
      by_cases hgone : e.taking.gone.answers ((g.remove (.container c) i).holds (.container c)) = true
      · rw [if_pos hgone, takeIn_container hnowhere] at htake
        cases hadd : e.taking.add with
        | ok =>
          have hlose : ¬e.taking.Loses g i (.container c) := by
            rw [hloses, hremove, hadd, hgone]
            simp
          rw [hadd] at htake
          dsimp only at htake
          by_cases hmoved : (e.taking.arrived.answers
            (((g.remove (.container c) i).add .goblin i).holds .goblin) && e.taking.sent) = true
          · rw [hmoved] at htake
            have hhide : ¬e.Hides g i (.container c) := by
              rw [hhides, hadd]
              rw [Bool.and_eq_true] at hmoved
              simp [hmoved]
            rw [htake]
            exact ⟨iff_of_true (kept_of_taken htake (by simp)) ⟨hlose, hhide⟩,
              iff_of_true (Or.inr hhere) hlose⟩
          · rw [Bool.not_eq_true] at hmoved
            rw [hmoved] at htake
            refine hcame htake hlose ?_
            rw [hhides, hremove, hadd, hgone]
            rw [Bool.and_eq_false_iff] at hmoved
            rcases hmoved with hmoved | hmoved
            · simp [hmoved]
            · simp [hmoved]
        | after =>
          rw [hadd] at htake
          refine hcame htake ?_ ?_
          · rw [hloses, hremove, hadd, hgone]
            simp
          · rw [hhides, hremove, hadd, hgone]
            simp
        | before =>
          rw [hadd] at htake
          dsimp only at htake
          by_cases hseen : (e.taking.arrived.answers ((g.remove (.container c) i).holds .goblin) &&
            e.taking.still.answers ((g.remove (.container c) i).holds (.container c))) = true
          · rw [if_pos hseen] at htake
            rw [Bool.and_eq_true] at hseen
            have hhide : ¬e.Hides g i (.container c) := by
              rw [hhides, hadd]
              simp
            by_cases hback : e.taking.putBack = .before
            · rw [hback, Outcome.run_before] at htake
              exact hdead htake (hloses.2 (Or.inr ⟨hremove, Or.inr ⟨hadd, fun h => h.2.2 hback⟩⟩))
            · have hlose : ¬e.taking.Loses g i (.container c) := by
                rw [hloses, hremove, hadd, hgone]
                simp [hseen, hback]
              have hreturned : (e.taking.putBack.run (Goods.add (.container c) i)
                  (g.remove (.container c) i)).2.Lies i [.container c] := by
                cases hput : e.taking.putBack with
                | before => exact absurd hput hback
                | ok => exact hnowhere.add
                | after => exact hnowhere.add
              rw [kept_of_take htake, htake]
              exact ⟨iff_of_true (Or.inl hreturned) ⟨hlose, hhide⟩,
                iff_of_true (Or.inl hreturned) hlose⟩
          · rw [if_neg hseen] at htake
            refine hdead htake (hloses.2 (Or.inr ⟨hremove, Or.inr ⟨hadd, fun h => hseen ?_⟩⟩))
            rw [h.1, h.2.1]
            rfl
      · rw [if_neg hgone] at htake
        rw [Bool.not_eq_true] at hgone
        exact hdead htake (hloses.2 (Or.inr ⟨hremove, Or.inl hgone⟩))

/-- **From the floor.** -/
theorem pickup_floor (e : Picking) {square : ℕ} (h : g.Lies i [.floor square]) :
    (Kept (pickup e g i (.floor square)) i (.floor square) ↔
      ¬e.taking.Loses g i (.floor square) ∧ ¬e.Hides g i (.floor square)) ∧
    (Whole (pickup e g i (.floor square)).2 i (.floor square) ↔
      ¬e.taking.Loses g i (.floor square) ∧ ¬e.taking.Doubles g i (.floor square)) := by
  have hloses : ¬e.taking.Loses g i (.floor square) := by
    rintro ⟨c, hsource, -⟩
    cases hsource
  rw [snd_pickup, and_iff_right hloses, and_iff_right hloses]
  cases hadmits : e.taking.admits g i (.floor square) with
  | false =>
    have htake := take_refused hadmits
    have hhides : ¬e.Hides g i (.floor square) := by
      rintro ⟨hadmits', -⟩
      rw [hadmits] at hadmits'
      cases hadmits'
    have hdoubles : ¬e.taking.Doubles g i (.floor square) := by
      rintro ⟨-, -, hadmits', -⟩
      rw [hadmits] at hadmits'
      cases hadmits'
    rw [kept_of_take htake, htake]
    exact ⟨iff_of_true (Or.inl h) hhides, iff_of_true (Or.inl h) hdoubles⟩
  | true =>
    have hboth : (g.add .goblin i).Lies i [.goblin, .floor square] := h.add
    have hhides : e.Hides g i (.floor square) ↔
        e.held.answers ((g.add .goblin i).holds .goblin) = false ∧
          e.taking.unseen g i (.floor square) := by
      refine ⟨fun ⟨_, _, hheld, hcame⟩ => ⟨hheld, ?_⟩, fun ⟨hheld, hcame⟩ =>
        ⟨hadmits, trivial, hheld, Or.inl hcame⟩⟩
      rcases hcame with hcame | ⟨-, -, c, hsource⟩
      · exact hcame
      · cases hsource
    have hdoubles : e.taking.Doubles g i (.floor square) ↔
        e.taking.unseen g i (.floor square) ∨ e.taking.add = .ok ∧ e.taking.transmit = .before :=
      ⟨fun ⟨_, _, _, htwice⟩ => htwice, fun htwice => ⟨square, rfl, hadmits, htwice⟩⟩
    have hnotwhole : ¬Whole (g.add .goblin i) i (.floor square) := by
      rintro (hback | hgot)
      · exact lies_ne hboth .goblin (Or.inl ⟨List.mem_cons_self, by simp [Source.place]⟩) hback
      · exact lies_ne hboth (.floor square) (Or.inl ⟨by simp, by simp⟩) hgot
    -- The item is in both places, and `take` does not say so.
    have hcame (htake : take e.taking g i (.floor square) = (some false, g.add .goblin i))
        (hunseen : e.taking.unseen g i (.floor square)) :
        (Kept (pickup e g i (.floor square)) i (.floor square) ↔ ¬e.Hides g i (.floor square)) ∧
        (Whole (take e.taking g i (.floor square)).2 i (.floor square) ↔
          ¬e.taking.Doubles g i (.floor square)) := by
      rw [kept_of_take htake, htake, hhides, hdoubles, and_iff_left hunseen]
      refine ⟨?_, iff_of_false hnotwhole fun hno => hno (Or.inl hunseen)⟩
      rw [containsExact_of_mem hboth.mem]
      refine ⟨?_, fun hanswers => Or.inr ?_⟩
      · rintro (hback | hheld) hno
        · exact hnotwhole (Or.inl hback)
        · rw [hno] at hheld
          cases hheld
      · rw [Bool.not_eq_false] at hanswers
        rw [hanswers]
        rfl
    have htake := take_floor hadmits
    rw [takeIn_floor] at htake
    cases hadd : e.taking.add with
    | before =>
      rw [hadd] at htake
      have hunseen : ¬e.taking.unseen g i (.floor square) := by
        unfold Taking.unseen
        rw [hadd]
        simp
      have hnodouble : ¬e.taking.Doubles g i (.floor square) := by
        rw [hdoubles, hadd]
        simp [hunseen]
      rw [kept_of_take htake, htake]
      exact ⟨iff_of_true (Or.inl h) fun hno => hunseen (hhides.1 hno).2,
        iff_of_true (Or.inl h) hnodouble⟩
    | after =>
      rw [hadd] at htake
      exact hcame htake (Or.inl hadd)
    | ok =>
      rw [hadd] at htake
      dsimp only at htake
      by_cases harrived : e.taking.arrived.answers ((g.add .goblin i).holds .goblin) = true
      · rw [if_pos harrived] at htake
        have hunseen : ¬e.taking.unseen g i (.floor square) := by
          have hread : e.taking.arrived.answers
              (((Source.floor square).cleared g i).add .goblin i |>.holds .goblin) = true := harrived
          unfold Taking.unseen
          rw [hadd, hread]
          simp
        obtain ⟨hresult, hleft⟩ := liftOff_spec (e := e.taking) square hboth
        refine ⟨iff_of_true (kept_of_taken htake hresult) fun hno => hunseen (hhides.1 hno).2, ?_⟩
        rw [htake, hdoubles, or_iff_right hunseen, and_iff_right hadd]
        by_cases htransmit : e.taking.transmit = .before
        · rw [if_pos htransmit] at hleft
          refine iff_of_false ?_ fun hno => hno htransmit
          rintro (hback | hgot)
          · exact lies_ne hleft .goblin (Or.inl ⟨List.mem_cons_self, by simp [Source.place]⟩) hback
          · exact lies_ne hleft (.floor square) (Or.inl ⟨by simp, by simp⟩) hgot
        · rw [if_neg htransmit] at hleft
          exact iff_of_true (Or.inr hleft) htransmit
      · rw [if_neg harrived] at htake
        rw [Bool.not_eq_true] at harrived
        exact hcame htake (Or.inr ⟨hadd, harrived⟩)

/-- **A blocked pickup leaves the item in place** exactly when the item was
not lost on the way and not brought in unseen; and it is in one of the two
places after any pickup exactly when it was not lost and not left in both. -/
theorem pickup_iff (e : Picking) (g : Goods) (i : Item) (s : Source) (h : g.Lies i [s.place]) :
    (Kept (pickup e g i s) i s ↔ ¬e.taking.Loses g i s ∧ ¬e.Hides g i s) ∧
    (Whole (pickup e g i s).2 i s ↔ ¬e.taking.Loses g i s ∧ ¬e.taking.Doubles g i s) := by
  cases s with
  | container c => exact pickup_container e h
  | floor square => exact pickup_floor e h

/-! ## A pickup that loses the item -/

/-- A crate with one item. -/
def stocked : Goods where
  holds p := if p = .container 0 then [1] else []
  conjured := fun _ => false

theorem lies_stocked : stocked.Lies 1 [.container 0] := by
  intro p
  unfold stocked
  dsimp only
  split <;> simp_all

/-- Every call works. -/
def smooth : Picking :=
  ⟨⟨true, true, true, true, true, true, some true, .clear, .ok, .clear, true, .ok, .clear, .clear,
    .ok, true, .ok, .ok, .ok, .ok⟩, .clear⟩

/-- `Remove` takes the item out and raises an error. -/
def losing : Picking := { smooth with taking := { smooth.taking with remove := .after } }

/-- An inventory that refuses the item: the crate gets it back. -/
def refusing : Picking := { smooth with taking := { smooth.taking with add := .before } }

theorem pickup_iff_refused : Kept (pickup refusing stocked 1 (.container 0)) 1 (.container 0) := by
  refine (pickup_iff refusing stocked 1 (.container 0) lies_stocked).1.2 ⟨?_, ?_⟩
  · rintro ⟨c, -, -, h | ⟨-, h | ⟨-, h⟩⟩⟩
    · cases h
    · cases h
    · exact h ⟨rfl, rfl, nofun⟩
  · rintro ⟨-, -, h, -⟩
    cases h

/-- **The item is lost**: `BLOCKED` says that it was not taken, and it is
neither in the crate nor with Goblin. -/
theorem pickup_loses :
    (pickup losing stocked 1 (.container 0)).1 =
      .failed .blocked "source item could not be taken" ∧
    (∀ p ∈ [Place.goblin, .container 0], 1 ∉ (pickup losing stocked 1 (.container 0)).2.holds p) ∧
    ¬Kept (pickup losing stocked 1 (.container 0)) 1 (.container 0) := by
  have hcode : (pickup losing stocked 1 (.container 0)).1 =
      .failed .blocked "source item could not be taken" := by decide
  have hgone : ∀ p ∈ [Place.goblin, .container 0],
      1 ∉ (pickup losing stocked 1 (.container 0)).2.holds p := by decide
  refine ⟨hcode, hgone, fun hkept => ?_⟩
  exact hgone (.container 0) (by simp) ((hkept _ hcode).mem)

end Custody

end GoblinZomboid
