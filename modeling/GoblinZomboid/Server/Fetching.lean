import GoblinZomboid.Server.Sorting
/-!
# `GoblinFetchWork.lua`: fetching from the base

An update picks items up until there are enough or no more, and then hands
over what is carried. The ledger is kept as in sorting.
-/

namespace GoblinZomboid

namespace Fetching

open Custody

def sourceTimeout : ℕ := 30000

def ownerTimeout : ℕ := 120000

abbrev Entry := Custody.Entry Unit

/-- A source: its square, the container or the floor, and its items. -/
structure Found where
  square : ℕ
  place : Source
  items : List Item

/-- The payload, with the name of what is asked for in the texts. -/
structure Payload where
  label : String
  count : ℕ
  delivered : ℕ
  ledger : List Entry

structure Runtime where
  reconciled : Bool
  skipped : List Item
  skippedSquares : List ℕ
  exhausted : Bool
  ownerAt : Option ℕ
  source : Option Found
  sourceAt : ℕ

def Runtime.fresh : Runtime := ⟨false, [], [], false, none, none, 0⟩

/-- The job: the world, its payload and its runtime. -/
structure State where
  hold : Hold
  payload : Payload
  runtime : Runtime

def State.withLedger (s : State) (ledger : List Entry) : State :=
  { s with payload := { s.payload with ledger := ledger } }

/-! ## Reconciling -/

/-- The reads for one entry of the ledger. -/
structure EntryReads where
  carried : Finding
  source : SquareReads
  /-- The owner's inventory, where there is one. -/
  owner : Option Finding

/-- One round of `reconcile`: what is kept of the entry, whether it is lost
and whether it was delivered. -/
def reconcileEntry (r : EntryReads) (g : Goods) (entry : Entry) : Option Entry × ℕ × ℕ :=
  if entry.stage = .carried ∨ entry.stage = .pending then
    match findById r.carried (g.holds .goblin) entry.id with
    | some true => (some { entry with stage := .carried }, 0, 0)
    | none => (some entry, 1, 0)
    | some false =>
      if r.owner.any fun f => findById f (g.holds .player) entry.id == some true then (none, 0, 1)
      else if r.source.finds g entry.square entry.id then (none, 0, 0)
      else (none, 1, 0)
  else (none, 0, 0)

/-- `reconcile`: the entries kept, how many are lost and how many were
delivered. -/
def reconcile (reads : ℕ → EntryReads) (g : Goods) (ledger : List Entry) : List Entry × ℕ × ℕ :=
  reconcileAll (fun n entry => reconcileEntry (reads n) g entry) 0 ledger

/-! ## Handing over -/

/-- The calls of `handOver`. -/
structure Handing where
  /-- `playerFor`. -/
  player : Bool
  /-- `getCurrentSquare`. -/
  square : Bool
  /-- `World.approach`. -/
  approach : Bool
  /-- By the place of an entry in the ledger. -/
  finds : ℕ → Finding
  gives : ℕ → HandingOver

/-- A round of the loop over the carried entries, with what was delivered. -/
def handOne (e : Handing) (n : ℕ) (entry : Entry) (given : Hold × ℕ) :
    Option Result × Entry × Hold × ℕ :=
  if entry.carried then
    if findById (e.finds n) (given.1.goods.holds .goblin) entry.id = some true then
      match handOver (e.gives n) given.1.goods entry.id true with
      | (.done _, g) => (none, { entry with stage := .delivered }, given.1.move g, given.2 + 1)
      | (.failed code detail, g) =>
        (some (.ended false detail code.job), entry, given.1.move g, given.2)
    else
      (some (.ended false ("fetched item " ++ entry.typeText ++ " is no longer carried")
        .engineError), entry, given)
  else (none, entry, given)

/-- The loop over the carried entries. -/
def handAll (e : Handing) (ledger : List Entry) (given : Hold × ℕ) :
    Option Result × List Entry × Hold × ℕ :=
  sweep (handOne e) 0 ledger given

/-- How a hand-over ends. -/
def verdict (payload : Payload) : Result :=
  if payload.count ≤ payload.delivered then
    .ended true ("brought you " ++ toString payload.delivered ++ " " ++ payload.label) .complete
  else
    .ended false ("brought " ++ toString payload.delivered ++ " of " ++ toString payload.count ++ " "
      ++ payload.label ++ "; no more real stock found in base") .missingMaterial

/-- `handOver`, with no result when nothing is carried. -/
def handOverCarried (e : Handing) (now : ℕ) (s : State) : Option Result × State :=
  let carried := toString (carriedCount s.payload.ledger)
  if carriedCount s.payload.ledger = 0 then (none, s)
  else if !e.player then
    (some (.ended false ("owner logged out; " ++ carried ++ " fetched item(s) remain with Goblin")
      .interrupted), s)
  else if !e.square then
    (some (.ended false "owner position unavailable" .targetUnloaded), s)
  else
    let ownerAt := s.runtime.ownerAt.getD now
    let s := { s with runtime := { s.runtime with ownerAt := some ownerAt } }
    if !e.approach then
      if ownerTimeout < now - ownerAt then
        (some (.ended false ("could not reach you with " ++ carried
          ++ " item(s); they stay with Goblin") .noPath), s)
      else (some .working, s)
    else
      let given := handAll e s.payload.ledger (s.hold, s.payload.delivered)
      let s : State :=
        { hold := given.2.2.1
          payload := { s.payload with ledger := given.2.1, delivered := given.2.2.2 }
          runtime := { s.runtime with ownerAt := none } }
      match given.1 with
      | some result => (some result, s)
      | none =>
        let s := s.withLedger (s.payload.ledger.filter Entry.carried)
        (some (verdict s.payload), s)

/-! ## Picking up -/

/-- The calls for one candidate. -/
structure Pick where
  /-- `getID`. -/
  idReads : Bool
  type : Option String
  picking : Picking

/-- The loop over the candidates: the job, how many it still wants and, once
it has stopped, with what. -/
structure Gathering where
  state : State
  want : ℤ
  stop : Option Result

/-- One round of the loop over the candidates. -/
def pickOne (source : Found) (p : Gathering) (candidate : Item × Pick) : Gathering :=
  let (item, e) := candidate
  let s := p.state
  let skip (s : State) : State :=
    { s with runtime := { s.runtime with skipped := item :: s.runtime.skipped } }
  if p.stop.isSome then p
  else if p.want ≤ 0 then { p with stop := some .working }
  else if !e.idReads then { p with state := skip s }
  else
    let entry : Entry := ⟨item, e.type, (), source.square, .pending⟩
    match attempt e.picking source.place entry s.payload.ledger s.hold with
    | (.done _, ledger, hold) =>
      { p with state := { s.withLedger ledger with hold := hold }, want := p.want - 1 }
    | (.failed code detail, ledger, hold) =>
      let s := skip { s.withLedger ledger with hold := hold }
      if code = .engineError then
        { p with state := s, stop := some (.ended false detail .engineError) }
      -- The inventory is full: what is carried is handed over.
      else if 0 < carriedCount s.payload.ledger then
        { p with
          state := { s with runtime := { s.runtime with exhausted := true } }
          stop := some .working }
      else { p with state := s }

/-! ## The update -/

/-- What an update meets. -/
structure Engine where
  /-- `playerFor`. -/
  online : Bool
  reads : ℕ → EntryReads
  handing : Handing
  /-- The base is there. -/
  scope : Bool
  /-- `findSource`. -/
  found : Option Found
  /-- `Support.work`. -/
  work : Bool
  picks : ℕ → Pick

/-- The candidates of a source, with the calls for each. -/
def Engine.queue (e : Engine) (source : Found) : List (Item × Pick) :=
  source.items.zipIdx.map fun (item, n) => (item, e.picks n)

/-- The ledger against the world, once for a runtime: how many entries are
lost. -/
def settle (e : Engine) (s : State) : ℕ × State :=
  if s.runtime.reconciled then (0, s)
  else
    let found := reconcile e.reads s.hold.goods s.payload.ledger
    (found.2.1,
      { s with
        payload := { s.payload with delivered := s.payload.delivered + found.2.2, ledger := found.1 }
        runtime := { s.runtime with reconciled := true } })

/-- How many items are still to be picked up. -/
def State.want (s : State) : ℤ :=
  s.payload.count - s.payload.delivered - carriedCount s.payload.ledger

/-- The end of an update that has nothing more to pick up. -/
def conclude (e : Engine) (now : ℕ) (s : State) : Result × State :=
  match handOverCarried e.handing now s with
  | (some result, s) => (result, s)
  | (none, s) =>
    if 0 < s.payload.delivered ∨ s.payload.count ≤ s.payload.delivered then (verdict s.payload, s)
    else
      (.ended false ("no " ++ s.payload.label ++ " found in the base") .missingMaterial, s)

/-- The way to a source. -/
def seek (e : Engine) (now : ℕ) (s : State) : (Result ⊕ Found) × State :=
  if !e.scope then (.inl (.ended false "base house changed or unloaded" .targetUnloaded), s)
  else
    match s.runtime.source.or e.found with
    | none => (.inl .working, { s with runtime := { s.runtime with exhausted := true } })
    | some source =>
      let sourceAt := if s.runtime.source.isSome then s.runtime.sourceAt else now
      let kept := { s.runtime with source := some source, sourceAt := sourceAt }
      if !e.work then
        if sourceTimeout < now - sourceAt then
          (.inl .working, { s with runtime := { kept with
            skippedSquares := source.square :: kept.skippedSquares, source := none } })
        else (.inl .working, { s with runtime := kept })
      else (.inr source, { s with runtime := { kept with source := none } })

/-- `Fetch.update` as far as the pickups. -/
def approach (e : Engine) (now : ℕ) (s : State) : (Result ⊕ Found) × State :=
  if !e.online then
    (.inl (.ended false ("owner logged out; " ++ toString (carriedCount s.payload.ledger)
      ++ " fetched item(s) remain with Goblin") .interrupted), s)
  else
    let (lost, s) := settle e s
    if 0 < lost then
      (.inl (.ended false (toString lost
        ++ " fetched item(s) could not be located after interruption") .engineError), s)
    else if s.want ≤ 0 ∨ s.runtime.exhausted then
      let result := conclude e now s
      (.inl result.1, result.2)
    else seek e now s

/-- `Fetch.update`. -/
def update (e : Engine) (now : ℕ) (s : State) : Result × State :=
  match approach e now s with
  | (.inl result, s) => (result, s)
  | (.inr source, s) =>
    let picked := Machine.run (pickOne source) ⟨s, s.want, none⟩ (e.queue source)
    (picked.stop.getD .working, picked.state)

/-! ## The ledger stays complete -/

/-- No item of the ledger is overlooked when the inventory is read for it. -/
def Sees (reads : ℕ → EntryReads) (g : Goods) (ledger : List Entry) : Prop :=
  ∀ n entry, ledger[n]? = some entry →
    ¬ (reads n).carried.Overlooks (g.holds .goblin) entry.id

/-- The ledger of the job is complete. -/
def Complete (s : State) : Prop := Covers s.payload.ledger s.hold

theorem reconcile_covers {reads : ℕ → EntryReads} {h : Hold} {ledger : List Entry}
    (hc : Covers ledger h) (hsees : Sees reads h.goods ledger) :
    Covers (reconcile reads h.goods ledger).1 h := by
  refine hc.reconcileAll fun n e hn hi hstage => ?_
  -- The item is there, so the read finds it or does not come back.
  rw [reconcileEntry, if_pos (Or.inl hstage)]
  rcases hf : findById (reads n).carried (h.goods.holds .goblin) e.id with _ | _ | _
  · exact ⟨e, rfl, rfl, hstage⟩
  · exact absurd ⟨h.inside _ hi, hf⟩ (hsees n e hn)
  · exact ⟨_, rfl, rfl, rfl⟩

/-- **The hand-overs** lose no entry of an item that stays. -/
theorem handAll_covers (e : Handing) (ledger : List Entry) (given : Hold × ℕ)
    (hc : Covers ledger given.1) :
    Covers (handAll e ledger given).2.1 (handAll e ledger given).2.2.1 := by
  refine Covers.sweep Prod.fst (fun n entry given => ?_) 0 ledger given hc
  have hmoved (g : Goods) : ∀ i ∈ (given.1.move g).brought, i ∈ given.1.brought :=
    fun i hi => (Hold.mem_move.mp hi).1
  have hsame : (∀ i ∈ given.1.brought, i ∈ given.1.brought) ∧
      (entry.id ∈ given.1.brought → entry.stage = .carried →
        entry.id = entry.id ∧ entry.stage = .carried) :=
    ⟨fun i hi => hi, fun _ hstage => ⟨rfl, hstage⟩⟩
  rw [handOne]
  split
  · split
    · rcases hd : handOver (e.gives n) given.1.goods entry.id true with ⟨detail | ⟨code, detail⟩, g⟩
      · refine ⟨hmoved g, fun hin _ => absurd (Hold.mem_move.mp hin).2 ?_⟩
        have hout := handOver_out (congrArg Prod.fst hd)
        rw [hd] at hout
        exact hout
      · exact ⟨hmoved g, fun _ hstage => ⟨rfl, hstage⟩⟩
    · exact hsame
  · exact hsame

/-- **Handing over keeps the ledger complete.** -/
theorem handOverCarried_complete (e : Handing) (now : ℕ) {s : State} (hs : Complete s) :
    Complete (handOverCarried e now s).2 := by
  unfold handOverCarried
  dsimp only
  split
  · exact hs
  split
  · exact hs
  split
  · exact hs
  split
  · split
    · exact hs
    · exact hs
  have hgiven := handAll_covers e s.payload.ledger (s.hold, s.payload.delivered) hs
  split
  · exact hgiven
  · exact hgiven.mono fun c hc hstage => List.mem_filter.mpr ⟨hc, decide_eq_true hstage⟩

/-- The round comes to a pickup, and the pickup slips. -/
def Slipping (source : Found) (p : Gathering) (candidate : Item × Pick) : Prop :=
  let (item, e) := candidate
  p.stop = none ∧ 0 < p.want ∧ e.idReads = true ∧
    item ∉ p.state.hold.goods.holds .goblin ∧
    e.picking.Slips p.state.hold.goods item source.place

/-- **A round of the pickups keeps the ledger complete**, unless it slips. -/
theorem pickOne_complete {source : Found} {p : Gathering} {candidate : Item × Pick}
    (hp : Complete p.state) (hslip : ¬ Slipping source p candidate) :
    Complete (pickOne source p candidate).state := by
  obtain ⟨item, e⟩ := candidate
  unfold pickOne
  dsimp only
  split
  · exact hp
  rename_i hstop
  split
  · exact hp
  rename_i hwant
  split
  · exact hp
  rename_i hid
  have hpick := @Covers.attempt Unit _ _ e.picking source.place
    ⟨item, e.type, (), source.square, .pending⟩ hp
    fun hnot hslips => hslip ⟨by simpa using hstop, not_le.mp hwant, by simpa using hid, hnot, hslips⟩
  split
  · rename_i heq
    rw [heq] at hpick
    exact hpick
  · rename_i heq
    rw [heq] at hpick
    split
    · exact hpick
    split
    · exact hpick
    · exact hpick

/-- The ledger is read against the inventory in this update. -/
def Engine.reconciles (e : Engine) (s : State) : Bool :=
  e.online && !s.runtime.reconciled

theorem settle_complete {e : Engine} {s : State} (hs : Complete s)
    (hsees : s.runtime.reconciled = false → Sees e.reads s.hold.goods s.payload.ledger) :
    Complete (settle e s).2 := by
  unfold settle
  split
  · exact hs
  · rename_i hfresh
    exact reconcile_covers hs (hsees (Bool.eq_false_iff.mpr hfresh))

theorem conclude_complete (e : Engine) (now : ℕ) {s : State} (hs : Complete s) :
    Complete (conclude e now s).2 := by
  have hhand := handOverCarried_complete e.handing now hs
  unfold conclude
  split
  · rename_i heq
    rw [heq] at hhand
    exact hhand
  · rename_i heq
    rw [heq] at hhand
    split
    · exact hhand
    · exact hhand

theorem seek_complete (e : Engine) (now : ℕ) {s : State} (hs : Complete s) :
    Complete (seek e now s).2 := by
  unfold seek
  split
  · exact hs
  split
  · exact hs
  · dsimp only
    generalize (if s.runtime.source.isSome then s.runtime.sourceAt else now) = sourceAt
    split
    · split
      · exact hs
      · exact hs
    · exact hs

theorem approach_complete {e : Engine} {now : ℕ} {s : State} (hs : Complete s)
    (hsees : e.reconciles s = true → Sees e.reads s.hold.goods s.payload.ledger) :
    Complete (approach e now s).2 := by
  unfold approach
  split
  · exact hs
  rename_i honline
  have hsettle := @settle_complete e s hs fun hfresh => hsees (by
    rw [Engine.reconciles, hfresh]
    simpa using honline)
  dsimp only
  split
  · exact hsettle
  split
  · exact conclude_complete e now hsettle
  · exact seek_complete e now hsettle

/-- No read of the ledger overlooks an item and no pickup slips. -/
def Engine.Faithful (e : Engine) (now : ℕ) (s : State) : Prop :=
  (e.reconciles s = true → Sees e.reads s.hold.goods s.payload.ledger) ∧
    ∀ source s', approach e now s = (.inr source, s') →
      Machine.Meets (pickOne source) (fun p c => ¬ Slipping source p c) ⟨s', s'.want, none⟩
        (e.queue source)

/-- **An update keeps the ledger complete.** -/
theorem update_complete {e : Engine} {now : ℕ} {s : State} (hs : Complete s)
    (hf : e.Faithful now s) : Complete (update e now s).2 := by
  have happroach := @approach_complete e now s hs hf.1
  unfold update
  split
  · rename_i heq
    rw [heq] at happroach
    exact happroach
  · rename_i source s' heq
    rw [heq] at happroach
    exact @Machine.invariant_of_meets _ _ (pickOne source) _ (fun p => Complete p.state)
      (fun p c hp hc => pickOne_complete hp hc) _ _ happroach (hf.2 source s' heq)

/-! ## Runs -/

/-- Fetching as a kind of job. -/
def kind : Kind State Engine where
  update := update
  others g s := { s with hold := s.hold.move g }
  restart s := { s with runtime := .fresh }

/-- A job as `Fetch.prepare` makes it. -/
def prepared (g : Goods) (label : String) (count : ℕ) : State :=
  ⟨⟨g, [], Hold.inside_nil g⟩, ⟨label, count, 0, []⟩, .fresh⟩

/-- **A run of a fetching job keeps its ledger complete.** -/
theorem run_complete (g : Goods) (label : String) (count : ℕ) {events : List (Event Engine)}
    (h : Machine.Meets kind.step (Kind.Asks Engine.Faithful) ⟨prepared g label count, false⟩
      events) :
    Complete (Machine.run kind.step ⟨prepared g label count, false⟩ events).state :=
  @Kind.run_keeps State Engine kind Engine.Faithful Complete
    (fun _ _ _ hs hf => update_complete hs hf) (fun g _ hs => hs.move g) (fun _ hs => hs) _
    (fun _ hi => absurd hi List.not_mem_nil) _ h

/-! ## Both jobs -/

/-- An update that finds one item in a crate. -/
def crate (picking : Picking) : Engine where
  online := true
  reads _ := ⟨.clear, ⟨true, [], fun _ => true⟩, none⟩
  handing := ⟨true, true, true, fun _ => .clear, fun _ => ⟨true, true, some true,
    ⟨.clear, .ok, .ok, .clear⟩, .ok, .clear, ⟨.clear, .ok, .clear⟩, true, some 0,
    ⟨true, ⟨.clear, .ok, .ok, .clear⟩, .ok, ⟨.clear, .ok, .clear⟩⟩⟩⟩
  scope := true
  found := some ⟨0, .container 0, [1]⟩
  work := true
  picks _ := ⟨true, none, picking⟩

/-- **The ledgers are complete**: in every run of a sorting or a fetching job
in which no pickup brings an item in without reporting success, and no item in
the inventory is overlooked when the ledger is reconciled, every item that the
job brought in and that is still there is in its ledger as carried. -/
theorem ledgers_complete (g : Goods) (label : String) (count : ℕ) :
    (∀ events events' : List (Event Sorting.Engine),
      Machine.Meets Sorting.kind.step (Kind.Asks Sorting.Engine.Faithful)
        ⟨Sorting.prepared g, false⟩ events → events' <+: events →
      Sorting.Complete (Machine.run Sorting.kind.step ⟨Sorting.prepared g, false⟩ events').state) ∧
    (∀ events events' : List (Event Engine),
      Machine.Meets kind.step (Kind.Asks Engine.Faithful) ⟨prepared g label count, false⟩ events →
      events' <+: events →
      Complete (Machine.run kind.step ⟨prepared g label count, false⟩ events').state) := by
  constructor
  · rintro _ events' h ⟨rest, rfl⟩
    exact Sorting.run_complete g (Machine.meets_append.mp h).1
  · rintro _ events' h ⟨rest, rfl⟩
    exact run_complete g label count (Machine.meets_append.mp h).1

theorem ledgers_complete_crate :
    Sorting.Complete (Machine.run Sorting.kind.step ⟨Sorting.prepared stocked, false⟩
      [.update (Sorting.crate smooth) 0]).state ∧
    Complete (Machine.run kind.step ⟨prepared stocked "Base.Nails" 1, false⟩
      [.update (crate smooth) 0]).state := by
  have hnone {p : Goods} {i : Item} : ¬ smooth.Slips p i (.container 0) :=
    fun hslips => hslips.2 smooth_confirms
  constructor
  · refine (ledgers_complete stocked "Base.Nails" 1).1 [.update (Sorting.crate smooth) 0] _
      ⟨fun _ => ⟨fun _ => nofun, fun live source s' h => ?_⟩, trivial⟩ List.prefix_rfl
    obtain ⟨-, rfl⟩ := Prod.mk.inj (Sum.inr.inj (Prod.mk.inj h).1)
    exact ⟨fun hslip => hnone hslip.2.2.2.2.2.2.2, trivial⟩
  · refine (ledgers_complete stocked "Base.Nails" 1).2 [.update (crate smooth) 0] _
      ⟨fun _ => ⟨fun _ => nofun, fun source s' h => ?_⟩, trivial⟩ List.prefix_rfl
    obtain rfl := Sum.inr.inj (Prod.mk.inj h).1
    exact ⟨fun hslip => hnone hslip.2.2.2.2, trivial⟩

/-- **An item is forgotten**: a pickup that brings the item in and cannot tell
the other peers takes its entry out of the ledger. -/
theorem untold_forgotten :
    ¬ (∀ (g : Goods) (events : List (Event Sorting.Engine)),
      Sorting.Complete (Machine.run Sorting.kind.step ⟨Sorting.prepared g, false⟩ events).state) ∧
    ¬ (∀ (g : Goods) (label : String) (count : ℕ) (events : List (Event Engine)),
      Complete (Machine.run kind.step ⟨prepared g label count, false⟩ events).state) := by
  constructor
  · intro h
    have hbrought : 1 ∈ (Machine.run Sorting.kind.step ⟨Sorting.prepared stocked, false⟩
        [.update (Sorting.crate untold) 0]).state.hold.brought := by decide
    have hledger : (Machine.run Sorting.kind.step ⟨Sorting.prepared stocked, false⟩
        [.update (Sorting.crate untold) 0]).state.payload.ledger.length = 0 := by decide
    obtain ⟨e, he, -⟩ := h stocked [.update (Sorting.crate untold) 0] 1 hbrought
    rw [List.length_eq_zero_iff.mp hledger] at he
    exact List.not_mem_nil he
  · intro h
    have hbrought : 1 ∈ (Machine.run kind.step ⟨prepared stocked "Base.Nails" 1, false⟩
        [.update (crate untold) 0]).state.hold.brought := by decide
    have hledger : (Machine.run kind.step ⟨prepared stocked "Base.Nails" 1, false⟩
        [.update (crate untold) 0]).state.payload.ledger.length = 0 := by decide
    obtain ⟨e, he, -⟩ := h stocked "Base.Nails" 1 [.update (crate untold) 0] 1 hbrought
    rw [List.length_eq_zero_iff.mp hledger] at he
    exact List.not_mem_nil he

end Fetching

end GoblinZomboid
