import GoblinZomboid.Server.Fetching
import GoblinZomboid.Server.Quarantine
/-!
# What sorting and fetching do to the goods

An update of a logistics job reads the world many times and changes the goods
by transfers and pickups only. So a run of its transfers and pickups leads to
the same goods, and the law of the conjured items covers the job.
-/

namespace GoblinZomboid

namespace Quarantine

open Custody

/-- Transfers and pickups. -/
def Op.carries : Op → Bool
  | .transfer .. => true
  | .pickup .. => true
  | _ => false

/-- Transfers, and pickups of items older than `next`, lead from here to
there. -/
inductive Trail (next : ℕ) (g : Goods) : Goods → Prop
  | refl : Trail next g g
  | transfer {g' : Goods} (o : Order) (i : Item) (h : Trail next g g') :
      Trail next g (o.run g' i).2
  | pickup {g' : Goods} (e : Picking) (s : Source) {i : Item} (hi : i < next)
      (h : Trail next g g') : Trail next g (pickup e g' i s).2

namespace Trail

variable {next : ℕ} {g g' g'' : Goods}

theorem trans (h : Trail next g g') (h' : Trail next g' g'') : Trail next g g'' := by
  induction h' with
  | refl => exact h
  | transfer o i _ ih => exact ih.transfer o i
  | pickup e s hi _ ih => exact ih.pickup e s hi

/-- **A trail is a run** of transfers and pickups. -/
theorem exists_run (limit : ℕ) {l : Log} (h : Trail l.state.next l.state.goods g) :
    ∃ ops : List Op, ops.all Op.carries = true ∧
      Machine.run (Log.step limit) l ops = l.withGoods g := by
  have hsnoc : ∀ {ops : List Op} {op : Op}, ops.all Op.carries = true → op.carries = true →
      (ops ++ [op]).all Op.carries = true := by
    intro ops op hops hop
    rw [List.all_append, hops, List.all_cons, hop]
    rfl
  induction h with
  | refl => exact ⟨[], rfl, rfl⟩
  | transfer o i _ ih =>
    obtain ⟨ops, hops, hrun⟩ := ih
    refine ⟨ops ++ [.transfer o i], hsnoc hops rfl, ?_⟩
    rw [Machine.run_snoc, hrun]
    rfl
  | @pickup g' e s i hi _ ih =>
    obtain ⟨ops, hops, hrun⟩ := ih
    refine ⟨ops ++ [.pickup e i s], hsnoc hops rfl, ?_⟩
    have hnext : i < (l.withGoods g').state.next := hi
    rw [Machine.run_snoc, hrun, Log.step, if_pos hnext]
    rfl

/-- A loop over a ledger, when each of its rounds leaves a trail. -/
theorem sweep {Note σ ρ : Type}
    {round : ℕ → Custody.Entry Note → σ → Option ρ × Custody.Entry Note × σ}
    (hold : σ → Hold)
    (hround : ∀ n e s, Trail next (hold s).goods (hold (round n e s).2.2).goods)
    (n : ℕ) (ledger : List (Custody.Entry Note)) (s : σ) :
    Trail next (hold s).goods (hold (Custody.sweep round n ledger s).2.2).goods := by
  induction ledger generalizing n s with
  | nil => exact .refl
  | cons entry rest ih =>
    have hfirst := hround n entry s
    rw [Custody.sweep]
    rcases hr : round n entry s with ⟨_ | stop, entry', s'⟩
    · rw [hr] at hfirst
      exact hfirst.trans (ih (n + 1) s')
    · rw [hr] at hfirst
      exact hfirst

/-- A loop over candidates, when each of its rounds leaves a trail. -/
theorem run {σ α : Type} {round : σ → α → σ} {cond : α → Prop} (hold : σ → Hold)
    (hround : ∀ p c, cond c → Trail next (hold p).goods (hold (round p c)).goods)
    (p : σ) {candidates : List α} (hcond : ∀ c ∈ candidates, cond c) :
    Trail next (hold p).goods (hold (Machine.run round p candidates)).goods := by
  exact @Machine.invariant_of_meets _ _ round (fun _ c => cond c)
    (fun p' => Trail next (hold p).goods (hold p').goods) (fun p' c h hc => h.trans (hround p' c hc))
    p candidates .refl (Machine.meets_of_forall (fun _ c hc => hcond c hc) p)

theorem deposit (e : Depositing) (i : Item) (c : ℕ) :
    Trail next g (Custody.deposit e g i c).2 := .transfer (.deposit e c) i .refl

theorem handOver (e : HandingOver) (i : Item) (allowFloor : Bool) :
    Trail next g (Custody.handOver e g i allowFloor).2 := .transfer (.handOver e allowFloor) i .refl

theorem attempt {Note : Type} {entry : Custody.Entry Note} (e : Picking) (s : Source)
    (ledger : List (Custody.Entry Note)) (h : Hold) (hi : entry.id < next) :
    Trail next h.goods (Custody.attempt e s entry ledger h).2.2.goods := by
  unfold Custody.attempt
  dsimp only
  split <;> exact .pickup e s hi .refl

end Trail

/-! ## `Sort.update` -/

section

open Sorting

variable {next : ℕ}

theorem trail_giveBack (item : Item) (shelves : List Shelf) (h : Hold) :
    Trail next h.goods (giveBack item shelves h).2.goods := by
  induction shelves generalizing h with
  | nil => exact .refl
  | cons shelf rest ih =>
    rw [giveBack]
    split
    · have hput := @Trail.deposit next h.goods shelf.depositing item shelf.container
      split
      · rename_i heq
        rw [heq] at hput
        exact hput
      · rename_i heq
        rw [heq] at hput
        exact hput.trans (ih (h.move _))
    · exact ih h

theorem trail_depositOne (e : Delivering) (target : Target) (k n : ℕ) (other : Sorting.Entry)
    (load : Load) :
    Trail next load.hold.goods (depositOne e target k n other load).2.2.hold.goods := by
  have hput := @Trail.deposit next load.hold.goods (e.deposits n) other.id target.container
  rw [depositOne]
  split
  · split
    · split
      · rename_i heq
        rw [heq] at hput
        exact hput
      · rename_i heq
        rw [heq] at hput
        exact hput
      · rename_i heq
        rw [heq] at hput
        exact hput
    · exact .refl
  · exact .refl

theorem trail_deliverCarried (e : Delivering) (live : List Target) (s : Sorting.State) :
    Trail next s.hold.goods (deliverCarried e live s).2.hold.goods := by
  unfold deliverCarried
  dsimp only
  split
  · exact .refl
  rename_i entry hentry
  split
  · exact .refl
  · exact .refl
  split
  · split
    · exact .refl
    split
    · exact .refl
    have hback := @trail_giveBack next entry.id e.shelves s.hold
    split <;> exact hback
  · rename_i target _
    split
    · exact .refl
    split
    · exact .refl
    have hall : ∀ ledger load, Trail next load.hold.goods (depositAll e target
        ((s.withLedger (s.payload.ledger.filter fun c =>
          c.stage = .carried ∨ c.stage = .pending)).payload.ledger.findIdx Custody.Entry.carried)
        ledger load).2.2.hold.goods :=
      fun ledger load => Trail.sweep Load.hold (trail_depositOne e target _) 0 ledger load
    split <;> exact hall _ ⟨s.hold, s.payload.moved, s.runtime.full⟩

theorem trail_pickOne {live : List Target} {source : Sorting.Found} {p : Sorting.Gathering}
    {candidate : (Item × Delivery.Category) × Sorting.Pick} (hi : candidate.1.1 < next) :
    Trail next p.state.hold.goods (Sorting.pickOne live source p candidate).state.hold.goods := by
  obtain ⟨⟨item, category⟩, e⟩ := candidate
  unfold Sorting.pickOne
  dsimp only
  split
  · exact .refl
  split
  · exact .refl
  split
  · exact .refl
  rename_i target _
  split
  · exact .refl
  split
  · exact .refl
  have hpick := @Trail.attempt next Way
    ⟨item, e.type, ⟨category, some target.id⟩, source.square, .pending⟩ e.picking source.place
    p.state.payload.ledger p.state.hold hi
  split
  · rename_i heq
    rw [heq] at hpick
    exact hpick
  · rename_i heq
    rw [heq] at hpick
    split <;> exact hpick

theorem trail_approach (e : Sorting.Engine) (now : ℕ) (s : Sorting.State) :
    Trail next s.hold.goods (Sorting.approach e now s).2.hold.goods := by
  have hsettle : ∀ live, (Sorting.settle e live s).2.hold = s.hold := by
    intro live
    unfold Sorting.settle
    split <;> rfl
  have hseek : ∀ partly s, (Sorting.seek e now partly s).2.hold = s.hold := by
    intro partly s
    unfold Sorting.seek
    split
    · rfl
    split
    · split
      · rfl
      split <;> rfl
    · dsimp only
      generalize (if s.runtime.source.isSome then s.runtime.sourceAt else now) = sourceAt
      split
      · split <;> rfl
      · rfl
  unfold Sorting.approach
  split
  · exact .refl
  split
  · exact .refl
  · exact .refl
  rename_i partly live _ _
  dsimp only
  split
  · rw [hsettle]
    exact .refl
  have hdeliver := @trail_deliverCarried next e.delivering live (Sorting.settle e live s).2
  rw [hsettle] at hdeliver
  split
  · rename_i heq
    rw [heq] at hdeliver
    exact hdeliver
  rename_i s' heq
  rw [heq] at hdeliver
  have hgoods := hseek partly s'
  split
  · rename_i heq'
    rw [heq'] at hgoods
    rw [hgoods]
    exact hdeliver
  · rename_i heq'
    rw [heq'] at hgoods
    rw [hgoods]
    exact hdeliver

/-- **An update of a sorting job** changes the goods by transfers and pickups,
when the source it comes to lists items that are there to be picked up. -/
theorem sorting_trail (e : Sorting.Engine) (now : ℕ) (s : Sorting.State)
    (hsource : ∀ live source s', Sorting.approach e now s = (.inr (live, source), s') →
      ∀ c ∈ source.items, c.1 < next) :
    Trail next s.hold.goods (Sorting.update e now s).2.hold.goods := by
  have happroach := @trail_approach next e now s
  unfold Sorting.update
  split
  · rename_i heq
    rw [heq] at happroach
    exact happroach
  · rename_i live source s' heq
    rw [heq] at happroach
    refine happroach.trans ?_
    have hqueue : ∀ c ∈ e.queue source, c.1.1 < next := by
      intro c hc
      obtain ⟨⟨candidate, n⟩, hin, rfl⟩ := List.mem_map.mp hc
      exact hsource live source s' heq candidate (List.fst_mem_of_mem_zipIdx hin)
    exact @Trail.run next Sorting.Gathering _ (Sorting.pickOne live source) (fun c => c.1.1 < next)
      (fun p => p.state.hold) (fun p _ hc => @trail_pickOne next live source p _ hc)
      ⟨s', 0, none⟩ _ hqueue

end

/-! ## `Fetch.update` -/

section

open Fetching

variable {next : ℕ}

theorem trail_handOne (e : Handing) (n : ℕ) (entry : Fetching.Entry) (given : Hold × ℕ) :
    Trail next given.1.goods (handOne e n entry given).2.2.1.goods := by
  have hgive := @Trail.handOver next given.1.goods (e.gives n) entry.id true
  rw [handOne]
  split
  · split
    · split
      · rename_i heq
        rw [heq] at hgive
        exact hgive
      · rename_i heq
        rw [heq] at hgive
        exact hgive
    · exact .refl
  · exact .refl

theorem trail_conclude (e : Fetching.Engine) (now : ℕ) (s : Fetching.State) :
    Trail next s.hold.goods (conclude e now s).2.hold.goods := by
  have hhand : Trail next s.hold.goods (handOverCarried e.handing now s).2.hold.goods := by
    unfold handOverCarried
    dsimp only
    split
    · exact .refl
    split
    · exact .refl
    split
    · exact .refl
    split
    · split <;> exact .refl
    have hall := Trail.sweep Prod.fst (@trail_handOne next e.handing) 0 s.payload.ledger
      (s.hold, s.payload.delivered)
    split <;> exact hall
  unfold conclude
  split
  · rename_i heq
    rw [heq] at hhand
    exact hhand
  · rename_i heq
    rw [heq] at hhand
    split <;> exact hhand

theorem trail_pickOne_fetching {source : Fetching.Found} {p : Fetching.Gathering}
    {candidate : Item × Fetching.Pick} (hi : candidate.1 < next) :
    Trail next p.state.hold.goods (Fetching.pickOne source p candidate).state.hold.goods := by
  obtain ⟨item, e⟩ := candidate
  unfold Fetching.pickOne
  dsimp only
  split
  · exact .refl
  split
  · exact .refl
  split
  · exact .refl
  have hpick := @Trail.attempt next Unit ⟨item, e.type, (), source.square, .pending⟩ e.picking
    source.place p.state.payload.ledger p.state.hold hi
  split
  · rename_i heq
    rw [heq] at hpick
    exact hpick
  · rename_i heq
    rw [heq] at hpick
    split
    · exact hpick
    split <;> exact hpick

theorem trail_approach_fetching (e : Fetching.Engine) (now : ℕ) (s : Fetching.State) :
    Trail next s.hold.goods (Fetching.approach e now s).2.hold.goods := by
  have hsettle : (Fetching.settle e s).2.hold = s.hold := by
    unfold Fetching.settle
    split <;> rfl
  have hseek : ∀ s, (Fetching.seek e now s).2.hold = s.hold := by
    intro s
    unfold Fetching.seek
    split
    · rfl
    split
    · rfl
    · dsimp only
      generalize (if s.runtime.source.isSome then s.runtime.sourceAt else now) = sourceAt
      split
      · split <;> rfl
      · rfl
  unfold Fetching.approach
  split
  · exact .refl
  dsimp only
  split
  · rw [hsettle]
    exact .refl
  split
  · have hconclude := @trail_conclude next e now (Fetching.settle e s).2
    rw [hsettle] at hconclude
    exact hconclude
  · rw [hseek, hsettle]
    exact .refl

/-- **An update of a fetching job** changes the goods by transfers and pickups
too. -/
theorem fetching_trail (e : Fetching.Engine) (now : ℕ) (s : Fetching.State)
    (hsource : ∀ source s', Fetching.approach e now s = (.inr source, s') →
      ∀ i ∈ source.items, i < next) :
    Trail next s.hold.goods (Fetching.update e now s).2.hold.goods := by
  have happroach := @trail_approach_fetching next e now s
  unfold Fetching.update
  split
  · rename_i heq
    rw [heq] at happroach
    exact happroach
  · rename_i source s' heq
    rw [heq] at happroach
    refine happroach.trans ?_
    have hqueue : ∀ c ∈ e.queue source, c.1 < next := by
      intro c hc
      obtain ⟨⟨item, n⟩, hin, rfl⟩ := List.mem_map.mp hc
      exact hsource source s' heq item (List.fst_mem_of_mem_zipIdx hin)
    exact @Trail.run next Fetching.Gathering _ (Fetching.pickOne source) (fun c => c.1 < next)
      (fun p => p.state.hold) (fun p _ hc => @trail_pickOne_fetching next source p _ hc)
      ⟨s', s'.want, none⟩ _ hqueue

end

end Quarantine

end GoblinZomboid
