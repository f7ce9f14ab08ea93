import GoblinZomboid.Server.Delivery
import GoblinZomboid.Server.Ledger
/-!
# `GoblinSortWork.lua`: sorting the base

An update delivers what is carried, finds a source and picks items up from
it. The engine's answers are given for each call; which source is found and
in which order its items come is left open.
-/

namespace GoblinZomboid

namespace Sorting

open Custody
open Delivery (Category)

def maxBatch : ℕ := 6

def maxItems : ℕ := 60

def sourceTimeout : ℕ := 30000

/-- A live storage target. -/
structure Target where
  id : ℕ
  category : Category
  container : ℕ

/-- What an entry says beside the item: its category and the target it goes
to. -/
structure Way where
  category : Category
  dest : Option ℕ

abbrev Entry := Custody.Entry Way

/-- The entry with another target. -/
def redirect (dest : Option ℕ) (entry : Entry) : Entry :=
  { entry with note := { entry.note with dest := dest } }

/-- A source: its square, the container or the floor, and its items. -/
structure Found where
  square : ℕ
  place : Source
  items : List (Item × Category)

structure Payload where
  moved : ℕ
  returned : ℕ
  ledger : List Entry

structure Runtime where
  reconciled : Bool
  skipped : List Item
  skippedSquares : List ℕ
  full : List ℕ
  noRoom : List Category
  source : Option Found
  sourceAt : ℕ

def Runtime.fresh : Runtime := ⟨false, [], [], [], [], none, 0⟩

/-- The job: the world, its payload and its runtime. -/
structure State where
  hold : Hold
  payload : Payload
  runtime : Runtime

def State.withLedger (s : State) (ledger : List Entry) : State :=
  { s with payload := { s.payload with ledger := ledger } }

/-! ## Where things go -/

/-- `Storage.destinations`. -/
def destinations (live : List Target) (category : Category) : List Target :=
  live.filter (fun t => t.category = category) ++
    live.filter (fun t => t.category ≠ category ∧ t.category = .overflow)

/-- `destinationFor`, the preferred target with what its container says of
room. -/
def destinationFor (live : List Target) (category : Category) (preferred : Option (ℕ × Option Bool))
    (rooms : ℕ → Option Bool) (full : List ℕ) : Option Target :=
  let known := preferred.bind fun (id, room) =>
    if full.contains id then none
    else (live.find? fun t => t.id = id).filter fun t =>
      (t.category = category || t.category = .overflow) && room = some true
  known.or <| (destinations live category).find? fun t =>
    !full.contains t.id && rooms t.id = some true

/-- `finish`. -/
def finish (payload : Payload) (success : Bool) (code : JobCode) (extra : Option String) : Result :=
  let text := "sorted " ++ toString payload.moved ++ " item(s)"
  let text := if 0 < payload.returned then
      text ++ "; " ++ toString payload.returned ++ " returned to their source (no room)"
    else text
  let text := match extra with
    | some extra => text ++ "; " ++ extra
    | none => text
  .ended success text code

/-- The name of a category in a text. -/
def categoryText (category : Category) : String :=
  ((Delivery.categories.find? fun e => e.2 = category).map Prod.fst).getD ""

/-! ## Reconciling -/

/-- The reads for one entry of the ledger. -/
structure EntryReads where
  carried : Finding
  /-- The containers of the live targets, by their ids. -/
  targets : ℕ → Finding
  source : SquareReads

/-- One round of `reconcile`: what is kept of the entry, whether it is
uncertain and whether it was moved. -/
def reconcileEntry (r : EntryReads) (live : List Target) (g : Goods) (entry : Entry) :
    Option Entry × ℕ × ℕ :=
  match findById r.carried (g.holds .goblin) entry.id with
  | some true => (some { entry with stage := .carried }, 0, 0)
  | none => (some entry, 1, 0)
  | some false =>
    match live.find? fun t =>
        findById (r.targets t.id) (g.holds (.container t.container)) entry.id == some true with
    | some t =>
      if entry.note.dest = some t.id ∨ t.category = entry.note.category ∨
          t.category = .overflow then
        (none, 0, 1)
      else (none, 0, 0)
    | none => if r.source.finds g entry.square entry.id then (none, 0, 0) else (none, 1, 0)

/-- `reconcile`: the entries kept, how many are uncertain and how many were
moved. -/
def reconcile (reads : ℕ → EntryReads) (live : List Target) (g : Goods) (ledger : List Entry) :
    List Entry × ℕ × ℕ :=
  reconcileAll (fun n entry => reconcileEntry (reads n) live g entry) 0 ledger

/-! ## Delivering -/

/-- A container on the square an item came from. -/
structure Shelf where
  container : ℕ
  /-- `World.containerAccessible` and `Policy.access`. -/
  opens : Bool
  depositing : Depositing

/-- The calls of `deliverCarried`. -/
structure Delivering where
  found : Finding
  preferred : Option Bool
  rooms : ℕ → Option Bool
  /-- The square the item came from is loaded. -/
  square : Bool
  /-- `Support.work`. -/
  work : Bool
  shelves : List Shelf
  /-- The container of `Storage.resolve`. -/
  fresh : Option ℕ
  /-- By the place of an entry in the ledger. -/
  finds : ℕ → Finding
  deposits : ℕ → Depositing

/-- The loop that gives an item back to its source. -/
def giveBack (item : Item) : List Shelf → Hold → Bool × Hold
  | [], h => (false, h)
  | shelf :: rest, h =>
    if shelf.opens then
      match deposit shelf.depositing h.goods item shelf.container with
      | (.done _, g) => (true, h.move g)
      | (.failed _ _, g) => giveBack item rest (h.move g)
    else giveBack item rest h

/-- What the loop over the deposits changes beside the ledger. -/
structure Load where
  hold : Hold
  moved : ℕ
  full : List ℕ

/-- A round of the loop over the deposits at one target, `k` being the place
of the entry it is for. -/
def depositOne (e : Delivering) (target : Target) (k n : ℕ) (other : Entry) (load : Load) :
    Option (Code × String) × Entry × Load :=
  if other.carried ∧ (n = k ∨ other.note.dest = some target.id ∨
      other.note.category = target.category ∧ other.note.dest = none) then
    if findById (e.finds n) (load.hold.goods.holds .goblin) other.id = some true then
      match deposit (e.deposits n) load.hold.goods other.id target.container with
      | (.done _, g) =>
        (none, { other with stage := .delivered },
          { load with hold := load.hold.move g, moved := load.moved + 1 })
      | (.failed .blocked _, g) =>
        (none, redirect none other,
          { load with hold := load.hold.move g, full := target.id :: load.full })
      | (.failed code detail, g) =>
        (some (code, detail), other, { load with hold := load.hold.move g })
    else (none, other, load)
  else (none, other, load)

/-- The loop over the deposits at one target. -/
def depositAll (e : Delivering) (target : Target) (k : ℕ) (ledger : List Entry) (load : Load) :
    Option (Code × String) × List Entry × Load :=
  sweep (depositOne e target k) 0 ledger load

/-- `deliverCarried`, with no result when nothing is carried. -/
def deliverCarried (e : Delivering) (live : List Target) (s : State) : Option Result × State :=
  let s := s.withLedger (s.payload.ledger.filter fun c => c.stage = .carried ∨ c.stage = .pending)
  let k := s.payload.ledger.findIdx Entry.carried
  match s.payload.ledger[k]? with
  | none => (none, s)
  | some entry =>
    match findById e.found (s.hold.goods.holds .goblin) entry.id with
    | none => (some (.ended false "Goblin inventory became unreadable" .engineError), s)
    | some false =>
      (some (.ended false ("carried item " ++ entry.typeText ++ " vanished before delivery")
        .engineError), s)
    | some true =>
      match destinationFor live entry.note.category
          (entry.note.dest.map fun id => (id, e.preferred)) e.rooms s.runtime.full with
      | none =>
        -- Same category, then OVERFLOW, then the source it came from.
        let s := s.withLedger (s.payload.ledger.modify k (redirect none))
        if !e.square then
          (some (finish s.payload false .blocked (some ("no room for "
            ++ categoryText entry.note.category ++ "; " ++ toString (carriedCount s.payload.ledger) ++ " item(s) kept by Goblin"))), s)
        else if !e.work then (some .working, s)
        else
          let back := giveBack entry.id e.shelves s.hold
          let s := { s with hold := back.2 }
          if !back.1 then
            (some (finish s.payload false .blocked (some ("no room for "
              ++ categoryText entry.note.category ++ " and the source is full; "
              ++ toString (carriedCount s.payload.ledger) ++ " item(s) kept by Goblin"))), s)
          else
            let s := s.withLedger (s.payload.ledger.modify k fun c => { c with stage := .returned })
            (some .working,
              { s with
                payload := { s.payload with returned := s.payload.returned + 1 }
                runtime := { s.runtime with noRoom := entry.note.category :: s.runtime.noRoom } })
      | some target =>
        let s := s.withLedger (s.payload.ledger.modify k (redirect (some target.id)))
        if !e.work then (some .working, s)
        else if e.fresh ≠ some target.container then
          (some (.ended false
            "storage container changed before delivery; items kept by Goblin" .targetChanged), s)
        else
          let visit := depositAll e target k s.payload.ledger
            ⟨s.hold, s.payload.moved, s.runtime.full⟩
          let s : State :=
            { hold := visit.2.2.hold
              payload := { s.payload with moved := visit.2.2.moved, ledger := visit.2.1 }
              runtime := { s.runtime with full := visit.2.2.full } }
          match visit.1 with
          | some (code, detail) => (some (.ended false detail code.job), s)
          | none => (some .working, s.withLedger (s.payload.ledger.filter Entry.carried))

/-! ## Picking up -/

/-- The calls for one candidate. -/
structure Pick where
  rooms : ℕ → Option Bool
  /-- `getID`. -/
  idReads : Bool
  type : Option String
  picking : Picking

/-- The loop over the candidates: the job, how many it took and, once it has
stopped, with what. -/
structure Gathering where
  state : State
  taken : ℕ
  stop : Option Result

/-- One round of the loop over the candidates. -/
def pickOne (live : List Target) (source : Found) (p : Gathering)
    (candidate : (Item × Category) × Pick) : Gathering :=
  let ((item, category), e) := candidate
  let s := p.state
  let skip (s : State) : State :=
    { s with runtime := { s.runtime with skipped := item :: s.runtime.skipped } }
  if p.stop.isSome then p
  else if maxBatch ≤ p.taken ∨ maxItems ≤ s.payload.moved + carriedCount s.payload.ledger then
    { p with stop := some .working }
  else
    match destinationFor live category none e.rooms s.runtime.full with
    | none => { p with state := skip s }
    | some target =>
      if s.runtime.noRoom.contains category then { p with state := skip s }
      else if !e.idReads then { p with state := skip s }
      else
        let entry : Entry := ⟨item, e.type, ⟨category, some target.id⟩, source.square, .pending⟩
        match attempt e.picking source.place entry s.payload.ledger s.hold with
        | (.done _, ledger, hold) =>
          { p with state := { s.withLedger ledger with hold := hold }, taken := p.taken + 1 }
        | (.failed code detail, ledger, hold) =>
          let s := skip { s.withLedger ledger with hold := hold }
          if code = .engineError then
            { p with state := s, stop := some (.ended false detail .engineError) }
          -- Goblin's inventory is full: deliver what is carried first.
          else { p with state := s, stop := if 0 < p.taken then some .working else none }

/-! ## The update -/

/-- What an update meets. -/
structure Engine where
  online : Bool
  /-- `scopeFor`: whether the base is there, and only in part. -/
  scope : Option Bool
  /-- `Storage.assignments`. -/
  live : Option (List Target)
  reads : ℕ → EntryReads
  delivering : Delivering
  /-- `findSource`, and whether the scan was complete. -/
  found : Option Found
  complete : Bool
  /-- `Support.work`. -/
  work : Bool
  picks : ℕ → Pick

/-- The candidates of a source, with the calls for each. -/
def Engine.queue (e : Engine) (source : Found) : List ((Item × Category) × Pick) :=
  source.items.zipIdx.map fun (candidate, n) => (candidate, e.picks n)

/-- The ledger against the world, once for a runtime: how many entries are
uncertain. -/
def settle (e : Engine) (live : List Target) (s : State) : ℕ × State :=
  if s.runtime.reconciled then (0, s)
  else
    let found := reconcile e.reads live s.hold.goods s.payload.ledger
    (found.2.1,
      { s with
        payload := { s.payload with moved := s.payload.moved + found.2.2, ledger := found.1 }
        runtime := { s.runtime with reconciled := true } })

/-- The way to a source, with nothing carried that could be delivered. -/
def seek (e : Engine) (now : ℕ) (partly : Bool) (s : State) : (Result ⊕ Found) × State :=
  if maxItems ≤ s.payload.moved then
    (.inl (finish s.payload true .complete
      (some "trip limit reached; order sorting again for more")), s)
  else
    match s.runtime.source.or e.found with
    | none =>
      if !e.complete then
        (.inl (finish s.payload false .blocked
          (some "base is larger than the sorting scan limit")), s)
      else if partly then
        (.inl (finish s.payload true .complete
          (some "loaded rooms only; some floors were not loaded")), s)
      else (.inl (finish s.payload true .complete none), s)
    | some source =>
      let sourceAt := if s.runtime.source.isSome then s.runtime.sourceAt else now
      let kept := { s.runtime with source := some source, sourceAt := sourceAt }
      if !e.work then
        if sourceTimeout < now - sourceAt then
          (.inl .working, { s with runtime := { kept with
            skippedSquares := source.square :: kept.skippedSquares, source := none } })
        else (.inl .working, { s with runtime := kept })
      else (.inr source, { s with runtime := { kept with source := none } })

/-- `Sort.update` as far as the pickups: the result, or the targets and the
source it has come to. -/
def approach (e : Engine) (now : ℕ) (s : State) : (Result ⊕ List Target × Found) × State :=
  if !e.online then
    (.inl (.ended false ("owner logged out; " ++ toString (carriedCount s.payload.ledger)
      ++ " carried item(s) remain with Goblin") .interrupted), s)
  else
    match e.scope, e.live with
    | none, _ => (.inl (.ended false "base house changed or unloaded" .targetUnloaded), s)
    | some _, none => (.inl (.ended false "storage assignments unavailable" .targetUnloaded), s)
    | some partly, some live =>
      let (uncertain, s) := settle e live s
      if 0 < uncertain then
        (.inl (.ended false (toString uncertain ++ " ledger item(s) could not be located after "
          ++ "interruption; sorting stopped to avoid duplication") .engineError), s)
      else
        match deliverCarried e.delivering live s with
        | (some result, s) => (.inl result, s)
        | (none, s) =>
          match seek e now partly s with
          | (.inl result, s) => (.inl result, s)
          | (.inr source, s) => (.inr (live, source), s)

/-- `Sort.update`. -/
def update (e : Engine) (now : ℕ) (s : State) : Result × State :=
  match approach e now s with
  | (.inl result, s) => (result, s)
  | (.inr (live, source), s) =>
    let picked := Machine.run (pickOne live source) ⟨s, 0, none⟩ (e.queue source)
    (picked.stop.getD .working, picked.state)

/-! ## The ledger stays complete -/

/-- No item of the ledger is overlooked when the inventory is read for it. -/
def Sees (reads : ℕ → EntryReads) (g : Goods) (ledger : List Entry) : Prop :=
  ∀ n entry, ledger[n]? = some entry →
    ¬ (reads n).carried.Overlooks (g.holds .goblin) entry.id

theorem reconcile_covers {reads : ℕ → EntryReads} {live : List Target} {h : Hold}
    {ledger : List Entry} (hc : Covers ledger h) (hsees : Sees reads h.goods ledger) :
    Covers (reconcile reads live h.goods ledger).1 h := by
  refine hc.reconcileAll fun n e hn hi hstage => ?_
  -- The item is there, so the read finds it or does not come back.
  rw [reconcileEntry]
  rcases hf : findById (reads n).carried (h.goods.holds .goblin) e.id with _ | _ | _
  · exact ⟨e, rfl, rfl, hstage⟩
  · exact absurd ⟨h.inside _ hi, hf⟩ (hsees n e hn)
  · exact ⟨_, rfl, rfl, rfl⟩

/-- What a transfer reports done is not tracked any more. -/
theorem not_brought_of_done {e : Depositing} {h : Hold} {i : Item} {c : ℕ}
    {detail : Option String} {g' : Goods}
    (hdone : deposit e h.goods i c = (.done detail, g')) : i ∉ (h.move g').brought := by
  intro hi
  have hout := deposit_out (congrArg Prod.fst hdone)
  rw [hdone] at hout
  exact hout (Hold.mem_move.mp hi).2

theorem giveBack_spec (item : Item) (shelves : List Shelf) (h : Hold) :
    (∀ i ∈ (giveBack item shelves h).2.brought, i ∈ h.brought) ∧
      ((giveBack item shelves h).1 = true → item ∉ (giveBack item shelves h).2.brought) := by
  induction shelves generalizing h with
  | nil => exact ⟨fun i hi => hi, nofun⟩
  | cons shelf rest ih =>
    rw [giveBack]
    split
    · rcases hd : deposit shelf.depositing h.goods item shelf.container with ⟨detail | _, g'⟩
      · exact ⟨fun i hi => (Hold.mem_move.mp hi).1, fun _ => not_brought_of_done hd⟩
      · obtain ⟨hsub, hout⟩ := ih (h.move g')
        exact ⟨fun i hi => (Hold.mem_move.mp (hsub i hi)).1, hout⟩
    · exact ih h

/-- **The deposits** lose no entry of an item that stays. -/
theorem depositAll_covers (e : Delivering) (target : Target) (k : ℕ) (ledger : List Entry)
    (load : Load) (hc : Covers ledger load.hold) :
    Covers (depositAll e target k ledger load).2.1 (depositAll e target k ledger load).2.2.hold := by
  refine Covers.sweep Load.hold (fun n other load => ?_) 0 ledger load hc
  have hmoved (g : Goods) : ∀ i ∈ (load.hold.move g).brought, i ∈ load.hold.brought :=
    fun i hi => (Hold.mem_move.mp hi).1
  have hsame : (∀ i ∈ load.hold.brought, i ∈ load.hold.brought) ∧
      (other.id ∈ load.hold.brought → other.stage = .carried →
        other.id = other.id ∧ other.stage = .carried) :=
    ⟨fun i hi => hi, fun _ hstage => ⟨rfl, hstage⟩⟩
  rw [depositOne]
  split
  · split
    · rcases hd : deposit (e.deposits n) load.hold.goods other.id target.container with
        ⟨detail | ⟨code, detail⟩, g⟩
      · exact ⟨hmoved g, fun hin _ => absurd hin (not_brought_of_done hd)⟩
      · cases code with
        | blocked => exact ⟨hmoved g, fun _ hstage => ⟨rfl, hstage⟩⟩
        | engineError => exact ⟨hmoved g, fun _ hstage => ⟨rfl, hstage⟩⟩
        | targetChanged => exact ⟨hmoved g, fun _ hstage => ⟨rfl, hstage⟩⟩
        | targetUnloaded => exact ⟨hmoved g, fun _ hstage => ⟨rfl, hstage⟩⟩
    · exact hsame
  · exact hsame

/-- The ledger of the job is complete. -/
def Complete (s : State) : Prop := Covers s.payload.ledger s.hold

/-- Only entries that are not carried are dropped. -/
theorem Complete.filter {s : State} (hs : Complete s) {keep : Entry → Bool}
    (hkeep : ∀ e, e.stage = .carried → keep e = true) :
    Complete (s.withLedger (s.payload.ledger.filter keep)) :=
  hs.mono fun e he hstage => List.mem_filter.mpr ⟨he, hkeep e hstage⟩

/-- **Delivering keeps the ledger complete.** -/
theorem deliverCarried_complete (e : Delivering) (live : List Target) {s : State}
    (hs : Complete s) : Complete (deliverCarried e live s).2 := by
  unfold deliverCarried
  have hopen := @Complete.filter s hs (fun c => c.stage = .carried ∨ c.stage = .pending)
    fun c hstage => decide_eq_true (Or.inl hstage)
  generalize s.withLedger (s.payload.ledger.filter
    fun c => c.stage = .carried ∨ c.stage = .pending) = s at hopen
  dsimp only
  -- A change of destination leaves every carried entry carried.
  have hdest (k : ℕ) (dest : Option ℕ) :
      Covers (s.payload.ledger.modify k (redirect dest)) s.hold :=
    hopen.modify fun _ _ _ hstage => ⟨rfl, hstage⟩
  split
  · exact hopen
  rename_i entry hentry
  split
  · exact hopen
  · exact hopen
  split
  · split
    · exact hdest _ none
    split
    · exact hdest _ none
    obtain ⟨hsub, hout⟩ := giveBack_spec entry.id e.shelves s.hold
    split
    · exact (hdest _ none).subset hsub
    · rename_i hback
      rw [Bool.not_eq_true', Bool.not_eq_false] at hback
      refine ((hdest _ none).subset hsub).modify fun c hc hin _ => absurd hin ?_
      have hid : c.id = entry.id := by
        change (s.payload.ledger.modify (s.payload.ledger.findIdx Entry.carried)
          (redirect none))[s.payload.ledger.findIdx Entry.carried]? = some c at hc
        rw [List.getElem?_modify_eq, hentry] at hc
        rw [← Option.some.inj hc, redirect]
      rw [hid]
      exact hout hback
  · rename_i target _
    split
    · exact hdest _ (some target.id)
    split
    · exact hdest _ (some target.id)
    have hleft := depositAll_covers e target (s.payload.ledger.findIdx Entry.carried)
      _ ⟨s.hold, s.payload.moved, s.runtime.full⟩
      (hdest (s.payload.ledger.findIdx Entry.carried) (some target.id))
    split
    · exact hleft
    · exact hleft.mono fun c hc hstage => List.mem_filter.mpr ⟨hc, decide_eq_true hstage⟩

/-- The round comes to a pickup, and the pickup slips. -/
def Slipping (live : List Target) (source : Found) (p : Gathering)
    (candidate : (Item × Category) × Pick) : Prop :=
  let ((item, category), e) := candidate
  let s := p.state
  p.stop = none ∧ p.taken < maxBatch ∧
    s.payload.moved + carriedCount s.payload.ledger < maxItems ∧
    destinationFor live category none e.rooms s.runtime.full ≠ none ∧
    s.runtime.noRoom.contains category = false ∧ e.idReads = true ∧
    item ∉ s.hold.goods.holds .goblin ∧ e.picking.Slips s.hold.goods item source.place

/-- **A round of the pickups keeps the ledger complete**, unless it slips. -/
theorem pickOne_complete {live : List Target} {source : Found} {p : Gathering}
    {candidate : (Item × Category) × Pick} (hp : Complete p.state)
    (hslip : ¬ Slipping live source p candidate) :
    Complete (pickOne live source p candidate).state := by
  obtain ⟨⟨item, category⟩, e⟩ := candidate
  unfold pickOne
  dsimp only
  split
  · exact hp
  rename_i hstop
  split
  · exact hp
  rename_i hlimit
  split
  · exact hp
  rename_i target htarget
  split
  · exact hp
  rename_i hroom
  split
  · exact hp
  rename_i hid
  rw [not_or, not_le, not_le] at hlimit
  have hpick := @Covers.attempt Way _ _ e.picking source.place
    ⟨item, e.type, ⟨category, some target.id⟩, source.square, .pending⟩ hp
    fun hnot hslips => hslip ⟨by simpa using hstop, hlimit.1, hlimit.2,
      by rw [htarget]; nofun, by simpa using hroom, by simpa using hid, hnot, hslips⟩
  split
  · rename_i heq
    rw [heq] at hpick
    exact hpick
  · rename_i heq
    rw [heq] at hpick
    split
    · exact hpick
    · exact hpick

/-- The ledger is read against the inventory in this update. -/
def Engine.reconciles (e : Engine) (s : State) : Bool :=
  e.online && e.scope.isSome && e.live.isSome && !s.runtime.reconciled

theorem settle_complete {e : Engine} {live : List Target} {s : State} (hs : Complete s)
    (hsees : s.runtime.reconciled = false → Sees e.reads s.hold.goods s.payload.ledger) :
    Complete (settle e live s).2 := by
  unfold settle
  split
  · exact hs
  · rename_i hfresh
    exact reconcile_covers hs (hsees (Bool.eq_false_iff.mpr hfresh))

theorem seek_complete {e : Engine} {now : ℕ} {partly : Bool} {s : State} (hs : Complete s) :
    Complete (seek e now partly s).2 := by
  unfold seek
  split
  · exact hs
  split
  · split
    · exact hs
    split
    · exact hs
    · exact hs
  · dsimp only
    generalize (if s.runtime.source.isSome then s.runtime.sourceAt else now) = sourceAt
    split
    · split
      · exact hs
      · exact hs
    · exact hs

theorem approach_complete {e : Engine} {now : ℕ} {s : State} (hs : Complete s)
    (hsees : e.reconciles s = true → Sees e.reads s.hold.goods s.payload.ledger) :
    Complete (approach e now s).2 := by
  unfold approach
  split
  · exact hs
  rename_i honline
  split
  · exact hs
  · exact hs
  rename_i partly live hscope hlive
  have hsettle := @settle_complete e live s hs fun hfresh => hsees (by
    rw [Engine.reconciles, hscope, hlive, hfresh]
    simpa using honline)
  dsimp only
  split
  · exact hsettle
  have hdeliver := deliverCarried_complete e.delivering live hsettle
  split
  · rename_i heq
    rw [heq] at hdeliver
    exact hdeliver
  rename_i s' heq
  rw [heq] at hdeliver
  have hseek := @seek_complete e now partly s' hdeliver
  split
  · rename_i heq'
    rw [heq'] at hseek
    exact hseek
  · rename_i heq'
    rw [heq'] at hseek
    exact hseek

/-- No read of the ledger overlooks an item and no pickup slips. -/
def Engine.Faithful (e : Engine) (now : ℕ) (s : State) : Prop :=
  (e.reconciles s = true → Sees e.reads s.hold.goods s.payload.ledger) ∧
    ∀ live source s', approach e now s = (.inr (live, source), s') →
      Machine.Meets (pickOne live source) (fun p c => ¬ Slipping live source p c) ⟨s', 0, none⟩
        (e.queue source)

/-- **An update keeps the ledger complete.** -/
theorem update_complete {e : Engine} {now : ℕ} {s : State} (hs : Complete s)
    (hf : e.Faithful now s) : Complete (update e now s).2 := by
  have happroach := @approach_complete e now s hs hf.1
  unfold update
  split
  · rename_i heq
    rw [heq] at happroach
    exact happroach
  · rename_i live source s' heq
    rw [heq] at happroach
    exact @Machine.invariant_of_meets _ _ (pickOne live source) _ (fun p => Complete p.state)
      (fun p c hp hc => pickOne_complete hp hc) _ _ happroach (hf.2 live source s' heq)

/-! ## Runs -/

/-- Sorting as a kind of job. -/
def kind : Kind State Engine where
  update := update
  others g s := { s with hold := s.hold.move g }
  restart s := { s with runtime := .fresh }

/-- A job as `Sort.prepare` makes it. -/
def prepared (g : Goods) : State := ⟨⟨g, [], Hold.inside_nil g⟩, ⟨0, 0, []⟩, .fresh⟩

/-- **A run of a sorting job keeps its ledger complete.** -/
theorem run_complete (g : Goods) {events : List (Event Engine)}
    (h : Machine.Meets kind.step (Kind.Asks Engine.Faithful) ⟨prepared g, false⟩ events) :
    Complete (Machine.run kind.step ⟨prepared g, false⟩ events).state :=
  @Kind.run_keeps State Engine kind Engine.Faithful Complete
    (fun _ _ _ hs hf => update_complete hs hf) (fun g _ hs => hs.move g) (fun _ hs => hs) _
    (fun _ hi => absurd hi List.not_mem_nil) _ h

/-- An update that finds one item of food in a crate, and a shelf for it. -/
def crate (picking : Picking) : Engine where
  online := true
  scope := some false
  live := some [⟨0, .food, 1⟩]
  reads _ := ⟨.clear, fun _ => .clear, ⟨true, [], fun _ => true⟩⟩
  delivering :=
    { found := .clear, preferred := none, rooms := fun _ => some true, square := true, work := true
      shelves := [], fresh := some 1, finds := fun _ => .clear
      deposits := fun _ => ⟨true, .clear, .clear, some true, ⟨.clear, .ok, .ok, .clear⟩, .ok,
        .clear, ⟨.clear, .ok, .clear⟩, true⟩ }
  found := some ⟨0, .container 0, [(1, .food)]⟩
  complete := true
  work := true
  picks _ := ⟨fun _ => some true, true, none, picking⟩

end Sorting

end GoblinZomboid
