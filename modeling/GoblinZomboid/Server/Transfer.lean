import GoblinZomboid.Server.Custody
/-!
# `GoblinTransfer.lua`: giving an item away

Each transfer takes the item out of Goblin's inventory, puts it at the
destination and gives it back where that fails. What the caller is told
rests on reads between these calls.
-/

namespace GoblinZomboid

namespace Custody

/-- The codes of a transfer that failed. -/
inductive Code
  | blocked
  | engineError
  | targetChanged
  | targetUnloaded
  deriving DecidableEq

/-- What a transfer tells its caller. -/
inductive Report
  | done (detail : Option String)
  | failed (code : Code) (detail : String)
  deriving DecidableEq

/-! ## The engine's part -/

/-- The calls of `Transfer.detach`. -/
structure Detaching where
  held : Reading
  doRemove : Outcome
  remove : Outcome
  gone : Reading

/-- The calls of `restore`. -/
structure Restoring where
  held : Reading
  add : Outcome
  back : Reading

/-- The calls of `Transfer.deposit`. -/
structure Depositing where
  /-- `getModData`. -/
  marks : Bool
  held : Reading
  there : Reading
  /-- `hasRoomFor`. -/
  room : Option Bool
  detaching : Detaching
  add : Outcome
  arrived : Reading
  restoring : Restoring
  /-- `sendAddItemToContainer`. -/
  sent : Bool

/-- The calls of `Transfer.drop`. -/
structure Dropping where
  marks : Bool
  detaching : Detaching
  /-- `AddWorldInventoryItem`. -/
  add : Outcome
  restoring : Restoring

/-- The calls of `Transfer.handOver`. -/
structure HandingOver where
  marks : Bool
  /-- `getInventory`. -/
  inventory : Bool
  room : Option Bool
  detaching : Detaching
  add : Outcome
  arrived : Reading
  restoring : Restoring
  sent : Bool
  /-- `getCurrentSquare`. -/
  square : Option ℕ
  dropping : Dropping

/-! ## The functions -/

/-- `Transfer.detach`. -/
def detach (e : Detaching) (g : Goods) (i : Item) : Bool × Goods :=
  if containsExact e.held (g.holds .goblin) i ≠ some true then (false, g)
  else
    let removed := e.doRemove.run (Goods.remove .goblin i) g
    let removed := if removed.1 then removed else e.remove.run (Goods.remove .goblin i) removed.2
    (removed.1 && containsExact e.gone (removed.2.holds .goblin) i == some false, removed.2)

/-- `restore`. -/
def restore (e : Restoring) (g : Goods) (i : Item) : Bool × Goods :=
  if containsExact e.held (g.holds .goblin) i = some true then (true, g)
  else
    let added := e.add.run (Goods.add .goblin i) g
    (added.1 && containsExact e.back (added.2.holds .goblin) i == some true, added.2)

/-- `Transfer.deposit`. -/
def deposit (e : Depositing) (g : Goods) (i : Item) (container : ℕ) : Report × Goods :=
  if isConjured e.marks g i then
    (.failed .blocked "conjured supplies never leave Goblin's inventory", g)
  else if containsExact e.held (g.holds .goblin) i ≠ some true then
    (.failed .targetChanged "carried item is no longer in Goblin inventory", g)
  else if containsExact e.there (g.holds (.container container)) i ≠ some false then
    (.failed .engineError "destination already reports this exact item", g)
  else if e.room ≠ some true then (.failed .blocked "destination container is full", g)
  else
    let detached := detach e.detaching g i
    if !detached.1 then
      (.failed .engineError "could not detach the exact carried item", detached.2)
    else
      let added := e.add.run (Goods.add (.container container) i) detached.2
      let arrived := containsExact e.arrived (added.2.holds (.container container)) i
      if !added.1 || arrived ≠ some true then
        if arrived = some false then
          let restored := restore e.restoring added.2 i
          if restored.1 then
            (.failed .blocked "destination refused the item; it stays with Goblin", restored.2)
          else
            (.failed .engineError "destination add failed and custody is uncertain", restored.2)
        else (.failed .engineError "destination add failed and custody is uncertain", added.2)
      else if !e.sent then
        (.failed .engineError "item stored but replication is uncertain; do not retry blindly", added.2)
      else (.done none, added.2)

/-- `Transfer.drop`. -/
def drop (e : Dropping) (g : Goods) (i : Item) (square : Option ℕ) : Report × Goods :=
  if isConjured e.marks g i then
    (.failed .blocked "conjured supplies never leave Goblin's inventory", g)
  else
    match square with
    | none => (.failed .targetUnloaded "drop square unloaded", g)
    | some square =>
      let detached := detach e.detaching g i
      if !detached.1 then
        (.failed .engineError "could not detach the exact carried item", detached.2)
      else
        let added := e.add.run (Goods.add (.floor square) i) detached.2
        if !added.1 then
          let restored := restore e.restoring added.2 i
          if restored.1 then (.failed .blocked "floor drop refused; item kept", restored.2)
          else (.failed .engineError "floor drop failed and custody is uncertain", restored.2)
        else (.done none, added.2)

/-- `Transfer.handOver`. -/
def handOver (e : HandingOver) (g : Goods) (i : Item) (allowFloor : Bool) : Report × Goods :=
  if isConjured e.marks g i then
    (.failed .blocked "conjured supplies are for Goblin's own work only", g)
  else if !e.inventory then (.failed .targetUnloaded "owner inventory unavailable", g)
  else if e.room = some true then
    let detached := detach e.detaching g i
    if !detached.1 then
      (.failed .engineError "could not detach the exact carried item", detached.2)
    else
      let added := e.add.run (Goods.add .player i) detached.2
      let arrived := containsExact e.arrived (added.2.holds .player) i
      if !added.1 || arrived ≠ some true then
        if arrived = some false then
          let restored := restore e.restoring added.2 i
          if restored.1 then
            (.failed .blocked "owner inventory refused the item; it stays with Goblin", restored.2)
          else (.failed .engineError "hand-over failed and custody is uncertain", restored.2)
        else (.failed .engineError "hand-over failed and custody is uncertain", added.2)
      else if !e.sent then
        (.failed .engineError "item handed over but replication is uncertain", added.2)
      else (.done (some "handed"), added.2)
  else if !allowFloor then (.failed .blocked "owner cannot carry more", g)
  else
    match drop e.dropping g i e.square with
    | (.done _, g) => (.done (some "dropped at owner's feet"), g)
    | (.failed code detail, g) => (.failed code detail, g)

/-! ## What they leave -/

variable {g g' : Goods} {i : Item}

/-- The item can be taken out: one of the two calls works, and both reads
come back. -/
def Detaching.succeeds (e : Detaching) (g : Goods) (i : Item) : Bool :=
  e.held.answers (g.holds .goblin) && (e.doRemove = .ok || e.remove = .ok) &&
    e.gone.answers ((g.remove .goblin i).holds .goblin)

/-- It can be given back. -/
def Restoring.succeeds (e : Restoring) (g : Goods) (i : Item) : Bool :=
  e.add = .ok && e.back.answers ((g.add .goblin i).holds .goblin)

theorem remove_remove (p : Place) : (g.remove p i).remove p i = g.remove p i := by
  unfold Goods.remove
  congr 1
  funext q
  by_cases hq : q = p
  · subst hq
    simp
  · simp [hq]

/-- **Detaching** reports success exactly when the item is out and seen to be. -/
theorem detach_spec (e : Detaching) (h : i ∈ g.holds .goblin) :
    (detach e g i).1 = e.succeeds g i ∧
      (e.succeeds g i = true → (detach e g i).2 = g.remove .goblin i) := by
  have hgone : ∀ r : Reading, (containsExact r ((g.remove .goblin i).holds .goblin) i == some false) =
      r.answers ((g.remove .goblin i).holds .goblin) := by
    intro r
    have hnot : i ∉ (g.remove .goblin i).holds .goblin :=
      fun hmem => (Goods.mem_remove.1 hmem).1 ⟨rfl, rfl⟩
    rw [containsExact_eq, decide_eq_false hnot]
    cases r.answers ((g.remove .goblin i).holds .goblin) <;> rfl
  unfold detach Detaching.succeeds
  rw [containsExact_eq, decide_eq_true h]
  cases hheld : e.held.answers (g.holds .goblin) with
  | false => simp
  | true =>
    rw [if_pos rfl, if_neg (by simp)]
    cases hdo : e.doRemove with
    | ok => simp [Outcome.run, hgone]
    | before => cases hremove : e.remove <;> simp [Outcome.run, hgone]
    | after => cases hremove : e.remove <;> simp [Outcome.run, hgone, remove_remove]

/-- **Giving back**, of an item that is not in the inventory. -/
theorem restore_spec (e : Restoring) (h : i ∉ g.holds .goblin) :
    (restore e g i).1 = e.succeeds g i ∧
      (e.succeeds g i = true → (restore e g i).2 = g.add .goblin i) := by
  have hback : (containsExact e.back ((g.add .goblin i).holds .goblin) i == some true) =
      e.back.answers ((g.add .goblin i).holds .goblin) := by
    have hmem : i ∈ (g.add .goblin i).holds .goblin := Goods.mem_add.2 (Or.inl ⟨rfl, rfl⟩)
    rw [containsExact_eq, decide_eq_true hmem]
    cases e.back.answers ((g.add .goblin i).holds .goblin) <;> rfl
  have hheld : containsExact e.held (g.holds .goblin) i ≠ some true :=
    fun heq => h (containsExact_eq_true.1 heq).2
  unfold restore Restoring.succeeds
  rw [if_neg hheld]
  cases hadd : e.add <;> simp [Outcome.run, hback]

/-- An item that was detached is nowhere. -/
theorem lies_detached {e : Detaching} (h : g.Lies i [.goblin]) (hdone : (detach e g i).1 = true) :
    (detach e g i).2.Lies i [] := by
  obtain ⟨hresult, hleft⟩ := detach_spec e h.mem
  rw [hleft (hresult ▸ hdone)]
  exact h.remove

/-- An item given back is with Goblin, and where else it was. -/
theorem lies_restored {e : Restoring} {places : List Place} (h : g.Lies i places)
    (hnot : Place.goblin ∉ places) (hdone : (restore e g i).1 = true) :
    (restore e g i).2.Lies i (.goblin :: places) := by
  obtain ⟨hresult, hleft⟩ := restore_spec e (h.not_mem hnot)
  rw [hleft (hresult ▸ hdone)]
  exact h.add

/-- What a read after `AddItem` says of an item that was nowhere. -/
theorem lies_added {o : Outcome} {r : Reading} {p : Place} (h : g.Lies i []) :
    (containsExact r ((o.run (Goods.add p i) g).2.holds p) i = some true →
      (o.run (Goods.add p i) g).2.Lies i [p]) ∧
    (containsExact r ((o.run (Goods.add p i) g).2.holds p) i = some false →
      (o.run (Goods.add p i) g).2.Lies i []) := by
  have hadd : (g.add p i).Lies i [p] := h.add
  have hmem : containsExact r (g.holds p) i ≠ some true :=
    fun heq => h.not_mem List.not_mem_nil (containsExact_eq_true.1 heq).2
  have hnot : containsExact r ((g.add p i).holds p) i ≠ some false :=
    fun heq => (containsExact_eq_false.1 heq).2 hadd.mem
  cases o with
  | ok => exact ⟨fun _ => hadd, fun heq => absurd heq hnot⟩
  | before => exact ⟨fun heq => absurd heq hmem, fun _ => h⟩
  | after => exact ⟨fun _ => hadd, fun heq => absurd heq hnot⟩

/-! ## What the codes say -/

/-- A transfer, and the engine it meets. -/
inductive Order
  | deposit (e : Depositing) (container : ℕ)
  | handOver (e : HandingOver) (allowFloor : Bool)
  | drop (e : Dropping) (square : Option ℕ)

def Order.run : Order → Goods → Item → Report × Goods
  | .deposit e container, g, i => Custody.deposit e g i container
  | .handOver e allowFloor, g, i => Custody.handOver e g i allowFloor
  | .drop e square, g, i => Custody.drop e g i square

/-- Where a transfer says it put the item. -/
def Order.destination : Order → Option String → Option Place
  | .deposit _ container, _ => some (.container container)
  | .handOver e _, detail => if detail = some "handed" then some .player else e.square.map .floor
  | .drop _ square, _ => square.map .floor

/-- **A report tells the truth**: after a success the item is at the
destination only, and after `BLOCKED` with Goblin only. -/
def Report.Tells (r : Report) (destination : Option String → Option Place) (g : Goods) (i : Item) :
    Prop :=
  match r with
  | .done detail => ∃ p, destination detail = some p ∧ g.Lies i [p]
  | .failed code _ => code = .blocked → g.Lies i [.goblin]

/-- What a transfer reports is true. -/
def Order.Truthful (o : Order) (g : Goods) (i : Item) : Prop :=
  (o.run g i).1.Tells o.destination (o.run g i).2 i

/-- The item goes to the floor in a call that fails, and is given back. -/
def Dropping.slips (e : Dropping) (g : Goods) (i : Item) (square : Option ℕ) : Prop :=
  isConjured e.marks g i = false ∧ e.detaching.succeeds g i = true ∧ e.add = .after ∧
    ∃ s, square = some s ∧ e.restoring.succeeds ((g.remove .goblin i).add (.floor s) i) i = true

/-- A transfer to the floor that slips. -/
def Order.Slips (o : Order) (g : Goods) (i : Item) : Prop :=
  match o with
  | .deposit .. => False
  | .handOver e allowFloor => isConjured e.marks g i = false ∧ e.inventory = true ∧
      e.room ≠ some true ∧ allowFloor = true ∧ e.dropping.slips g i e.square
  | .drop e square => e.slips g i square

theorem tells_failed {code : Code} {detail : String} {destination : Option String → Option Place}
    (h : code ≠ .blocked) : (Report.failed code detail).Tells destination g i :=
  fun hcode => absurd hcode h

/-- A transfer into an inventory: the report follows the read after it. -/
theorem tells_added {detaching : Detaching} {o : Outcome} {r : Reading} {restoring : Restoring}
    {p : Place} {sent : Bool} {detail : Option String} {lost uncertain refused unsent : String}
    {destination : Option String → Option Place} (h : g.Lies i [.goblin])
    (hdestination : destination detail = some p) :
    let detached := detach detaching g i
    let added := o.run (Goods.add p i) detached.2
    let restored := restore restoring added.2 i
    let result := if !detached.1 then (Report.failed .engineError lost, detached.2)
      else if !added.1 || containsExact r (added.2.holds p) i ≠ some true then
        if containsExact r (added.2.holds p) i = some false then
          if restored.1 then (.failed .blocked refused, restored.2)
          else (.failed .engineError uncertain, restored.2)
        else (.failed .engineError uncertain, added.2)
      else if !sent then (.failed .engineError unsent, added.2)
      else (.done detail, added.2)
    result.1.Tells destination result.2 i := by
  dsimp only
  split
  · exact tells_failed (by decide)
  rename_i hdetached
  have hnowhere := lies_detached h (by simpa using hdetached)
  obtain ⟨harrived, hrefused⟩ := lies_added (o := o) (r := r) (p := p) hnowhere
  split
  · split
    · rename_i hfalse
      split
      · rename_i hrestored
        exact fun _ => lies_restored (hrefused hfalse) List.not_mem_nil hrestored
      · exact tells_failed (by decide)
    · exact tells_failed (by decide)
  · rename_i htrue
    split
    · exact tells_failed (by decide)
    · refine ⟨p, hdestination, harrived ?_⟩
      simp only [Bool.or_eq_true, Bool.not_eq_true', decide_eq_true_eq, not_or] at htrue
      exact of_not_not htrue.2

theorem deposit_truthful (e : Depositing) (container : ℕ) (h : g.Lies i [.goblin]) :
    (Order.deposit e container).Truthful g i := by
  unfold Order.Truthful Order.run
  dsimp only
  unfold deposit
  split
  · exact fun _ => h
  split
  · exact tells_failed (by decide)
  split
  · exact tells_failed (by decide)
  split
  · exact fun _ => h
  exact tells_added h rfl

/-- A drop that gets as far as the floor. -/
theorem drop_eq {e : Dropping} {s : ℕ} (hmarks : isConjured e.marks g i = false)
    (hi : i ∈ g.holds .goblin) (hdetached : e.detaching.succeeds g i = true) :
    drop e g i (some s) =
      if e.add = .ok then (.done none, (g.remove .goblin i).add (.floor s) i)
      else
        let restored := restore e.restoring (e.add.run (Goods.add (.floor s) i)
          (g.remove .goblin i)).2 i
        if restored.1 then (.failed .blocked "floor drop refused; item kept", restored.2)
        else (.failed .engineError "floor drop failed and custody is uncertain", restored.2) := by
  obtain ⟨hdetach, hleft⟩ := detach_spec e.detaching hi
  unfold drop
  rw [hmarks, if_neg (by simp)]
  dsimp only
  rw [hdetach, hdetached, hleft hdetached, if_neg (by simp)]
  cases e.add <;> rfl

/-- **A drop** tells the truth unless it slips. -/
theorem drop_truthful_iff (e : Dropping) (square : Option ℕ) (h : g.Lies i [.goblin]) :
    (Order.drop e square).Truthful g i ↔ ¬e.slips g i square := by
  unfold Order.Truthful Order.run
  dsimp only
  cases hmarks : isConjured e.marks g i with
  | true =>
    refine ⟨fun _ hslips => ?_, fun _ => ?_⟩
    · rw [hslips.1] at hmarks
      cases hmarks
    · unfold drop
      rw [hmarks, if_pos rfl]
      exact fun _ => h
  | false =>
    cases square with
    | none =>
      refine ⟨fun _ hslips => ?_, fun _ => ?_⟩
      · obtain ⟨s, hs, -⟩ := hslips.2.2.2
        cases hs
      · unfold drop
        rw [hmarks, if_neg (by simp)]
        exact tells_failed (by decide)
    | some s =>
      cases hsucceeds : e.detaching.succeeds g i with
      | false =>
        refine ⟨fun _ hslips => ?_, fun _ => ?_⟩
        · rw [hslips.2.1] at hsucceeds
          cases hsucceeds
        · have hdetach := (detach_spec e.detaching h.mem).1
          unfold drop
          rw [hmarks, if_neg (by simp)]
          dsimp only
          rw [hdetach, hsucceeds, if_pos (Bool.not_false ▸ rfl)]
          exact tells_failed (by decide)
      | true =>
        have hnowhere : (g.remove .goblin i).Lies i [] := h.remove
        have hadded : ((g.remove .goblin i).add (.floor s) i).Lies i [.floor s] := hnowhere.add
        rw [drop_eq hmarks h.mem hsucceeds]
        dsimp only
        cases hadd : e.add with
        | ok =>
          refine ⟨fun _ hslips => ?_, fun _ => ⟨.floor s, rfl, hadded⟩⟩
          rw [hslips.2.2.1] at hadd
          cases hadd
        | before =>
          refine ⟨fun _ hslips => ?_, fun _ => ?_⟩
          · rw [hslips.2.2.1] at hadd
            cases hadd
          · rw [if_neg nofun, Outcome.run_before]
            by_cases hrestored : (restore e.restoring (g.remove .goblin i) i).1 = true
            · rw [if_pos hrestored]
              exact fun _ => lies_restored hnowhere List.not_mem_nil hrestored
            · rw [if_neg hrestored]
              exact tells_failed (by decide)
        | after =>
          -- The item lies on the floor, whatever is given back.
          rw [if_neg nofun, Outcome.run_after]
          have hrestore := (restore_spec e.restoring (hadded.not_mem (by simp))).1
          by_cases hrestored :
              (restore e.restoring ((g.remove .goblin i).add (.floor s) i) i).1 = true
          · rw [if_pos hrestored]
            have hboth := lies_restored hadded (by simp) hrestored
            refine ⟨fun htells => ?_, fun hslips => ?_⟩
            · have honly := (htells rfl).unique hboth (.floor s)
              simp at honly
            · exact absurd ⟨hmarks, hsucceeds, hadd, s, rfl, hrestore.symm.trans hrestored⟩ hslips
          · rw [if_neg hrestored]
            refine ⟨fun _ hslips => ?_, fun _ => tells_failed (by decide)⟩
            obtain ⟨-, -, -, s', hs', hsucceeds'⟩ := hslips
            obtain rfl := Option.some_inj.1 hs'
            exact hrestored (hrestore.trans hsucceeds')

theorem handOver_truthful_iff (e : HandingOver) (allowFloor : Bool) (h : g.Lies i [.goblin]) :
    (Order.handOver e allowFloor).Truthful g i ↔ ¬(Order.handOver e allowFloor).Slips g i := by
  have hdrop := drop_truthful_iff e.dropping e.square h
  unfold Order.Truthful Order.run Order.Slips at *
  dsimp only at hdrop ⊢
  unfold handOver
  split
  · rename_i hconjured
    refine ⟨fun _ hslips => ?_, fun _ _ => h⟩
    rw [hslips.1] at hconjured
    cases hconjured
  rename_i hconjured
  split
  · rename_i hinventory
    refine ⟨fun _ hslips => ?_, fun _ => tells_failed (by decide)⟩
    rw [hslips.2.1] at hinventory
    cases hinventory
  rename_i hinventory
  split
  · rename_i hroom
    exact ⟨fun _ hslips => hslips.2.2.1 hroom, fun _ => tells_added h rfl⟩
  rename_i hroom
  split
  · rename_i hfloor
    refine ⟨fun _ hslips => ?_, fun _ _ => h⟩
    rw [hslips.2.2.2.1] at hfloor
    cases hfloor
  rename_i hfloor
  -- The item goes to the floor, and the report is that of the drop.
  have hsame : (isConjured e.marks g i = false ∧ e.inventory = true ∧ e.room ≠ some true ∧
      allowFloor = true ∧ e.dropping.slips g i e.square) ↔ e.dropping.slips g i e.square := by
    simp only [Bool.not_eq_true, Bool.not_eq_true', Bool.not_eq_false] at hconjured hinventory hfloor
    simp [hconjured, hinventory, hroom, hfloor]
  rw [hsame, ← hdrop]
  cases hresult : drop e.dropping g i e.square with
  | mk report g' =>
    cases report with
    | done detail =>
      show (∃ p, (if some "dropped at owner's feet" = some "handed" then some Place.player
        else e.square.map .floor) = some p ∧ g'.Lies i [p]) ↔
          ∃ p, e.square.map .floor = some p ∧ g'.Lies i [p]
      rw [if_neg (by decide)]
    | failed code detail => exact Iff.rfl

/-- **The codes tell the truth** unless a transfer to the floor slips: the
call that puts the item down takes effect and fails, and the item is given
back all the same. -/
theorem truthful_iff (o : Order) (g : Goods) (i : Item) (h : g.Lies i [.goblin]) :
    o.Truthful g i ↔ ¬o.Slips g i := by
  cases o with
  | deposit e container => exact ⟨fun _ => not_false, fun _ => deposit_truthful e container h⟩
  | handOver e allowFloor => exact handOver_truthful_iff e allowFloor h
  | drop e square => exact drop_truthful_iff e square h

/-! ## A drop that slips -/

/-- Goblin holds one item. -/
def carrying : Goods where
  holds p := if p = .goblin then [1] else []
  conjured := fun _ => false

theorem lies_carrying : carrying.Lies 1 [.goblin] := by
  intro p
  unfold carrying
  dsimp only
  split <;> simp_all

def clearly : Detaching := ⟨.clear, .ok, .ok, .clear⟩

/-- The engine puts the item down and raises an error. -/
def slippery : Dropping := ⟨true, clearly, .after, ⟨.clear, .ok, .clear⟩⟩

/-- A drop that works. -/
theorem truthful_iff_drop :
    (Order.drop { slippery with add := .ok } (some 0)).Truthful carrying 1 :=
  (truthful_iff _ _ _ lies_carrying).2 (fun hslips => nomatch hslips.2.2.1)

/-- **The drop that slips** says the item was kept, and it lies on the floor
and in the inventory. -/
theorem drop_slips :
    (Order.drop slippery (some 0)).run carrying 1 =
      (.failed .blocked "floor drop refused; item kept",
        ((Order.drop slippery (some 0)).run carrying 1).2) ∧
      1 ∈ (((Order.drop slippery (some 0)).run carrying 1).2.holds .goblin) ∧
      1 ∈ (((Order.drop slippery (some 0)).run carrying 1).2.holds (.floor 0)) ∧
      ¬(Order.drop slippery (some 0)).Truthful carrying 1 := by
  have hheld : 1 ∈ ((Order.drop slippery (some 0)).run carrying 1).2.holds .goblin := by
    decide
  have hfloor : 1 ∈ ((Order.drop slippery (some 0)).run carrying 1).2.holds (.floor 0) := by
    decide
  refine ⟨Prod.ext (by decide) rfl, hheld, hfloor, fun htells => ?_⟩
  unfold Order.Truthful at htells
  have hcode : ((Order.drop slippery (some 0)).run carrying 1).1 =
      .failed .blocked "floor drop refused; item kept" := by decide
  rw [hcode] at htells
  exact absurd ((htells rfl (.floor 0)).1 hfloor) (by simp)

end Custody

end GoblinZomboid
