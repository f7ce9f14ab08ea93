import GoblinZomboid.Lib.LuaValue
import GoblinZomboid.Lib.Run
import GoblinZomboid.Server.Custody
import Mathlib.Algebra.Order.Floor.Ring
import Mathlib.Data.Rat.Floor
/-!
# `GoblinProvision.lua`: conjured supplies

Goblin makes what a job of his needs, marked as conjured, and at most so much
of it a minute. The minute is counted from its first call: when it is over a
new one starts from nothing, whatever was made just before.
-/

namespace GoblinZomboid

namespace Provision

open Custody

/-- What the engine answers while one item is made: whether a factory gives
one, whether its metadata can be written, what `AddItem` does and answers,
what the inventory answers afterwards. -/
structure Making where
  instantiated : Bool
  marks : Bool
  added : Outcome
  returned : Bool
  held : Reading

/-- A call of `Provision.create`; `count` is what `tonumber` reads of it,
`now` is `nowMs`. -/
structure Creating where
  enabled : Bool
  fullType : String
  count : Option LuaNum
  validType : Bool
  now : ℤ
  inventory : Bool
  making : ℕ → Making

/-- `state` of `budget`: when the minute started, and what it was charged. -/
structure Window where
  since : ℤ
  used : ℕ
  deriving DecidableEq

/-- `Provision.recent[body]`, the goods around the body, and the identity the
engine gives next. -/
structure State where
  recent : Option Window
  goods : Goods
  next : ℕ

/-- `Provision.MAX_PER_CALL`. -/
def maxPerCall : ℕ := 20

/-- `budget`. -/
def budget (limit : ℕ) (now : ℤ) (recent : Option Window) (count : ℕ) : Bool × Window :=
  let state :=
    match recent with
    | some w => if now - w.since ≥ 60000 then ⟨now, 0⟩ else w
    | none => ⟨now, 0⟩
  if state.used + count > limit then (false, state)
  else (true, { state with used := state.used + count })

/-- `Provision.taint`. -/
def taint (answers : Bool) (g : Goods) (i : Item) : Goods :=
  if answers then { g with conjured := Function.update g.conjured i true } else g

/-- The loop of `Provision.create`: the items it answers, and what it leaves. -/
def make (making : ℕ → Making) : ℕ → ℕ → Goods × ℕ → List Item × (Goods × ℕ)
  | _, 0, s => ([], s)
  | k, n + 1, (g, next) =>
    if !(making k).instantiated then ([], g, next)
    else
      let put := (making k).added.run (Goods.add .goblin next) (taint (making k).marks g next)
      if !put.1 || !(making k).returned
          || containsExact (making k).held (put.2.holds .goblin) next ≠ some true then
        ([], put.2, next + 1)
      else
        let rest := make making (k + 1) n (put.2, next + 1)
        (next :: rest.1, rest.2)

/-- The count a call may ask for. -/
def counted (count : Option LuaNum) : Option ℕ :=
  match count.getD (.finite 1) with
  | .finite q => if q ≠ ⌊q⌋ ∨ q < 1 ∨ q > maxPerCall then none else some ⌊q⌋.toNat
  | _ => none

/-- `Provision.create`. -/
def create (limit : ℕ) (e : Creating) (s : State) : Except String (List Item) × State :=
  if !e.enabled then (.error "conjuring is disabled on this server", s)
  else
    match counted e.count with
    | none => (.error "conjure 1 to 20 items at a time", s)
    | some count =>
      if !e.validType then (.error ("not an installed item: " ++ e.fullType), s)
      else
        match budget limit e.now s.recent count with
        | (false, w) =>
          (.error "conjuring limit reached; wait a minute", { s with recent := some w })
        | (true, w) =>
          if !e.inventory then
            (.error "Goblin inventory unavailable", { s with recent := some w })
          else
            let made := make e.making 0 count (s.goods, s.next)
            (if made.1 = [] then .error ("the engine could not create " ++ e.fullType)
              else .ok made.1, ⟨some w, made.2.1, made.2.2⟩)

/-! ## What a call makes -/

section

variable {limit : ℕ} {e : Creating} {s : State}

/-- The loop makes no more than it is asked for. -/
theorem make_next (making : ℕ → Making) (k n : ℕ) (s : Goods × ℕ) :
    s.2 ≤ (make making k n s).2.2 ∧ (make making k n s).2.2 ≤ s.2 + n := by
  induction n generalizing k s with
  | zero => exact ⟨le_rfl, le_rfl⟩
  | succ n ih =>
    obtain ⟨g, next⟩ := s
    unfold make
    split
    · exact ⟨le_rfl, Nat.le_add_right _ _⟩
    · dsimp only
      split
      · exact ⟨Nat.le_succ _, by dsimp only; omega⟩
      · obtain ⟨hlow, hhigh⟩ := ih (k + 1) (((making k).added.run (Goods.add .goblin next)
          (taint (making k).marks g next)).2, next + 1)
        dsimp only at hlow hhigh ⊢
        exact ⟨by omega, by omega⟩

/-- The items a call makes, those of them included that it cannot answer for. -/
def made (limit : ℕ) (e : Creating) (s : State) : ℕ := (create limit e s).2.next - s.next

/-- The call gets as far as the budget. -/
def Creating.asks (e : Creating) : Bool := e.enabled && (counted e.count).isSome && e.validType

/-- **What a call does to the budget**: nothing, or it makes nothing, or it is
charged for all it makes. -/
theorem create_cases (limit : ℕ) (e : Creating) (s : State) :
    (made limit e s = 0 ∧ (create limit e s).2.recent = s.recent) ∨
    ∃ count, e.asks = true ∧ (create limit e s).2.recent = some (budget limit e.now s.recent count).2 ∧
      made limit e s ≤ count ∧
      ((budget limit e.now s.recent count).1 = false → made limit e s = 0) := by
  unfold made create
  split
  · exact .inl ⟨Nat.sub_self _, rfl⟩
  rename_i henabled
  cases hcount : counted e.count with
  | none => exact .inl ⟨Nat.sub_self _, rfl⟩
  | some count =>
    dsimp only
    split
    · exact .inl ⟨Nat.sub_self _, rfl⟩
    rename_i hvalid
    have hasks : e.asks = true := by
      unfold Creating.asks
      rw [hcount]
      rw [Bool.not_eq_true', Bool.not_eq_false] at henabled hvalid
      rw [henabled, hvalid]
      rfl
    refine .inr ⟨count, hasks, ?_⟩
    cases hbudget : budget limit e.now s.recent count with
    | mk granted w =>
      cases granted with
      | false => exact ⟨rfl, by simp, fun _ => Nat.sub_self _⟩
      | true =>
        dsimp only
        split
        · exact ⟨rfl, by simp, nofun⟩
        · have hnext := (make_next e.making 0 count (s.goods, s.next)).2
          exact ⟨rfl, by dsimp only at hnext ⊢; omega, nofun⟩

end

/-! ## The law of the minute -/

/-- A Goblin's calls so far, with what each of them made. -/
structure Log where
  state : State
  made : List (ℤ × ℕ)

/-- One more call. -/
def Log.step (limit : ℕ) (l : Log) (e : Creating) : Log where
  state := (create limit e l.state).2
  made := l.made ++ [(e.now, Provision.made limit e l.state)]

/-- Before the first call. -/
def Log.start (g : Goods) (next : ℕ) : Log := ⟨⟨none, g, next⟩, []⟩

/-- What was made in the minute from `t` on. -/
def within (t : ℤ) : List (ℤ × ℕ) → ℕ
  | [] => 0
  | m :: rest => (if t ≤ m.1 ∧ m.1 < t + 60000 then m.2 else 0) + within t rest

/-- The law: no minute sees more than the limit. -/
def Law (limit : ℕ) (l : Log) : Prop := ∀ t, within t l.made ≤ limit

/-- The counter runs out at this call. -/
def runsOut (s : State) (e : Creating) : Bool :=
  e.asks && s.recent.any fun w => e.now - w.since ≥ 60000

/-- The counter may run out only when what was made is a minute old. -/
def Aged (l : Log) (e : Creating) : Prop :=
  runsOut l.state e = true → ∀ m ∈ l.made, 0 < m.2 → m.1 + 60000 ≤ e.now

instance (l : Log) (e : Creating) : Decidable (Aged l e) :=
  inferInstanceAs (Decidable (runsOut l.state e = true → _))

section

variable {limit : ℕ} {l : Log} {e : Creating} {made : List (ℤ × ℕ)}

theorem within_append (t : ℤ) (made made' : List (ℤ × ℕ)) :
    within t (made ++ made') = within t made + within t made' := by
  induction made with
  | nil => rw [List.nil_append, within, Nat.zero_add]
  | cons m made ih => rw [List.cons_append, within, within, ih, Nat.add_assoc]

theorem within_le (t : ℤ) (made : List (ℤ × ℕ)) : within t made ≤ (made.map Prod.snd).sum := by
  induction made with
  | nil => exact le_rfl
  | cons m made ih =>
    rw [within, List.map_cons, List.sum_cons]
    split <;> omega

/-- What was made before the minute does not count. -/
theorem within_eq_zero {t : ℤ} (h : ∀ m ∈ made, 0 < m.2 → m.1 < t) : within t made = 0 := by
  induction made with
  | nil => rfl
  | cons m made ih =>
    obtain ⟨hm, hrest⟩ := List.forall_mem_cons.mp h
    rw [within, ih hrest, Nat.add_zero]
    split
    · rename_i hin
      by_contra hpos
      have hbefore := hm (Nat.pos_of_ne_zero hpos)
      omega
    · rfl

/-- What holds between two calls: what was made before the counter's minute is
a minute older than it, and the counter has been charged for the rest. -/
structure Charged (limit : ℕ) (l : Log) : Prop where
  law : Law limit l
  idle : l.state.recent = none → ∀ m ∈ l.made, m.2 = 0
  split : ∀ w, l.state.recent = some w → w.used ≤ limit ∧ (∃ m ∈ l.made, m.1 = w.since) ∧
    ∃ old young, l.made = old ++ young ∧ (∀ m ∈ old, 0 < m.2 → m.1 + 60000 ≤ w.since) ∧
      (young.map Prod.snd).sum ≤ w.used

/-- A call that makes nothing, and leaves the counter. -/
theorem Charged.idle_call (h : Charged limit l) (hmade : Provision.made limit e l.state = 0)
    (hrecent : (create limit e l.state).2.recent = l.state.recent) :
    Charged limit (l.step limit e) := by
  unfold Log.step
  rw [hmade]
  refine ⟨fun t => ?_, fun hnone m hm => ?_, fun w hw => ?_⟩
  · dsimp only
    rw [within_append]
    have hlaw := h.law t
    have hzero : within t [(e.now, 0)] = 0 := within_eq_zero (by simp)
    omega
  · dsimp only at hnone hm
    rw [hrecent] at hnone
    rcases List.mem_append.mp hm with hm | hm
    · exact h.idle hnone m hm
    · rw [List.mem_singleton.mp hm]
  · dsimp only at hw ⊢
    rw [hrecent] at hw
    obtain ⟨hused, ⟨m, hm, hsince⟩, old, young, hsplit, hold, hyoung⟩ := h.split w hw
    refine ⟨hused, ⟨m, List.mem_append_left _ hm, hsince⟩, old, young ++ [(e.now, 0)], ?_, hold, ?_⟩
    · rw [hsplit, List.append_assoc]
    · rw [List.map_append, List.sum_append]
      simpa using hyoung

/-- The counter a call finds, and what was made since its start. -/
theorem Charged.counter (h : Charged limit l) (haged : Aged l e) (hasks : e.asks = true)
    (hclock : ∀ m ∈ l.made, m.1 ≤ e.now) (count : ℕ) :
    ∃ since used, since ≤ e.now ∧ (since = e.now ∨ ∃ m ∈ l.made, m.1 = since) ∧ used ≤ limit ∧
      budget limit e.now l.state.recent count =
        (if used + count > limit then (false, ⟨since, used⟩) else (true, ⟨since, used + count⟩)) ∧
      ∃ old young, l.made = old ++ young ∧
        (∀ m ∈ old, 0 < m.2 → m.1 + 60000 ≤ since) ∧ (young.map Prod.snd).sum ≤ used := by
  -- A counter that starts at this call.
  have hstart : (∀ m ∈ l.made, 0 < m.2 → m.1 + 60000 ≤ e.now) → ∃ old young, l.made = old ++ young ∧
      (∀ m ∈ old, 0 < m.2 → m.1 + 60000 ≤ e.now) ∧ (young.map Prod.snd).sum ≤ 0 :=
    fun hold => ⟨l.made, [], (List.append_nil _).symm, hold, le_rfl⟩
  unfold budget
  cases hrecent : l.state.recent with
  | none =>
    refine ⟨e.now, 0, le_rfl, .inl rfl, Nat.zero_le _, rfl, hstart fun m hm hpos => ?_⟩
    rw [h.idle hrecent m hm] at hpos
    exact absurd hpos (Nat.lt_irrefl 0)
  | some w =>
    dsimp only
    by_cases hout : e.now - w.since ≥ 60000
    · rw [if_pos hout]
      exact ⟨e.now, 0, le_rfl, .inl rfl, Nat.zero_le _, rfl,
        hstart (haged (by simp [runsOut, hasks, hrecent, hout]))⟩
    · rw [if_neg hout]
      obtain ⟨hused, ⟨m, hm, hsince⟩, hsplit⟩ := h.split w hrecent
      exact ⟨w.since, w.used, hsince ▸ hclock m hm, .inr ⟨m, hm, hsince⟩, hused, rfl, hsplit⟩

/-- **One call keeps the law**, when the counter does not run out too early. -/
theorem Charged.step (h : Charged limit l) (haged : Aged l e)
    (hclock : ∀ m ∈ l.made, m.1 ≤ e.now) : Charged limit (l.step limit e) := by
  rcases create_cases limit e l.state with ⟨hmade, hrecent⟩ | ⟨count, hasks, hrecent, hle, hrefused⟩
  · exact h.idle_call hmade hrecent
  obtain ⟨since, used, hsince, hfrom, hused, hbudget, old, young, hsplit, hold, hyoung⟩ :=
    h.counter haged hasks hclock count
  -- What the counter is charged after the call covers what is made in its minute.
  obtain ⟨used', hwindow, hcharged, hlimit⟩ : ∃ used',
      (create limit e l.state).2.recent = some ⟨since, used'⟩ ∧
        used + Provision.made limit e l.state ≤ used' ∧ used' ≤ limit := by
    rw [hbudget] at hrecent hrefused
    split at hrecent
    · rename_i hover
      rw [if_pos hover] at hrefused
      exact ⟨used, hrecent, by rw [hrefused rfl, Nat.add_zero], hused⟩
    · exact ⟨used + count, hrecent, by omega, by omega⟩
  have hsum : ((young ++ [(e.now, Provision.made limit e l.state)]).map Prod.snd).sum ≤ used' := by
    rw [List.map_append, List.sum_append, List.map_singleton, List.sum_singleton]
    omega
  unfold Log.step
  refine ⟨fun t => ?_, fun hnone => ?_, fun w hw => ?_⟩
  · dsimp only
    by_cases hin : t ≤ e.now ∧ e.now < t + 60000
    · have hpast : within t old = 0 := by
        refine within_eq_zero fun m hm hpos => ?_
        have hlong := hold m hm hpos
        omega
      have hyounger := within_le t (young ++ [(e.now, Provision.made limit e l.state)])
      rw [hsplit, List.append_assoc, within_append, hpast]
      omega
    · have hlaw := h.law t
      rw [within_append, within, if_neg hin, within]
      omega
  · dsimp only at hnone
    rw [hwindow] at hnone
    cases hnone
  · dsimp only at hw ⊢
    rw [hwindow] at hw
    obtain rfl := Option.some.inj hw
    refine ⟨hlimit, ?_, old, young ++ [(e.now, Provision.made limit e l.state)],
      by rw [hsplit, List.append_assoc], hold, hsum⟩
    rcases hfrom with rfl | ⟨m, hm, hfrom⟩
    · exact ⟨_, List.mem_append_right _ List.mem_cons_self, rfl⟩
    · exact ⟨m, List.mem_append_left _ hm, hfrom⟩

/-- A log dates its calls. -/
theorem map_fst_made (limit : ℕ) (l : Log) (calls : List Creating) :
    (Machine.run (Log.step limit) l calls).made.map Prod.fst =
      l.made.map Prod.fst ++ calls.map Creating.now := by
  induction calls generalizing l with
  | nil => rw [Machine.run_nil, List.map_nil, List.append_nil]
  | cons e calls ih =>
    rw [Machine.run_cons, ih, Log.step, List.map_append, List.map_cons, List.append_assoc]
    rfl

/-- **The law of the minute**: over calls in the order of the clock, when the
counter never runs out before what was made is a minute old, no minute sees
more than the limit, wherever it starts. -/
theorem law_of_aged (limit : ℕ) (g : Goods) (next : ℕ) (calls : List Creating)
    (hclock : (calls.map Creating.now).Pairwise (· ≤ ·))
    (haged : Machine.Meets (Log.step limit) Aged (Log.start g next) calls) :
    Law limit (Machine.run (Log.step limit) (Log.start g next) calls) := by
  suffices h : Charged limit (Machine.run (Log.step limit) (Log.start g next) calls) from h.law
  induction calls using List.reverseRecOn with
  | nil =>
    refine ⟨fun _ => Nat.zero_le _, fun _ m hm => ?_, fun w hw => ?_⟩
    · cases hm
    · cases hw
  | append_singleton calls e ih =>
    rw [List.map_append, List.pairwise_append] at hclock
    obtain ⟨hbefore, -, hnow⟩ := hclock
    obtain ⟨hfront, hlast⟩ := Machine.meets_append.mp haged
    rw [Machine.run_snoc]
    refine (ih hbefore hfront).step hlast.1 fun m hm => hnow m.1 ?_ e.now List.mem_cons_self
    have htimes := map_fst_made limit (Log.start g next) calls
    have hmem := List.mem_map_of_mem (f := Prod.fst) hm
    rw [htimes] at hmem
    exact hmem

/-- A call for one item, which goes well. -/
def single (now : ℤ) : Creating where
  enabled := true
  fullType := "Base.Nails"
  count := none
  validType := true
  now := now
  inventory := true
  making := fun _ => ⟨true, true, .ok, true, .clear⟩

/-- What it makes, within the budget. -/
theorem step_single {now : ℤ} {used : ℕ} (hbudget : budget limit now l.state.recent 1 =
    (true, ⟨now, used⟩)) : (l.step limit (single now)).state.recent = some ⟨now, used⟩ ∧
      (l.step limit (single now)).made = l.made ++ [(now, 1)] := by
  obtain ⟨⟨recent, g, next⟩, made⟩ := l
  have hin : containsExact .clear (((taint true g next).add .goblin next).holds .goblin) next =
      some true := containsExact_eq_true.mpr ⟨rfl, Goods.mem_add.mpr (.inl ⟨rfl, rfl⟩)⟩
  have hcount : counted none = some 1 := by decide
  have hmake : make (single now).making 0 1 (g, next) =
      ([next], (taint true g next).add .goblin next, next + 1) := by
    unfold make make single
    dsimp only [Outcome.run]
    rw [hin]
    rfl
  have hcreate : create limit (single now) ⟨recent, g, next⟩ =
      (.ok [next], ⟨some ⟨now, used⟩, (taint true g next).add .goblin next, next + 1⟩) := by
    unfold create
    rw [show (single now).count = none from rfl, hcount]
    dsimp only
    rw [show (single now).now = now from rfl, hbudget]
    dsimp only
    rw [hmake]
    rfl
  unfold Log.step Provision.made
  rw [hcreate]
  exact ⟨rfl, by simp [single]⟩

/-- **The condition is needed**: where the counter has run out and something is
not a minute old, calls at that moment break the law. -/
theorem not_law_of_early {now : ℤ} {w : Window} (hw : l.state.recent = some w)
    (hout : now - w.since ≥ 60000) {m : ℤ × ℕ} (hm : m ∈ l.made) (hpos : 0 < m.2)
    (hyoung : m.1 ≤ now ∧ now < m.1 + 60000) :
    ¬ Law limit (Machine.run (Log.step limit) l (List.replicate limit (single now))) := by
  have hrun : ∀ n ≤ limit, ∃ l' : Log,
      Machine.run (Log.step limit) l (List.replicate n (single now)) = l' ∧
      l'.made = l.made ++ List.replicate n (now, 1) ∧
      ((n = 0 ∧ l'.state.recent = some w) ∨ l'.state.recent = some ⟨now, n⟩) := by
    intro n hn
    induction n with
    | zero => exact ⟨l, rfl, (List.append_nil _).symm, .inl ⟨rfl, hw⟩⟩
    | succ n ih =>
      obtain ⟨l', hl', hmade, hrecent⟩ := ih (by omega)
      have hbudget : budget limit now l'.state.recent 1 = (true, ⟨now, n + 1⟩) := by
        unfold budget
        rcases hrecent with ⟨rfl, hrecent⟩ | hrecent
        · rw [hrecent]
          dsimp only
          rw [if_pos hout, if_neg (by dsimp only; omega)]
        · have hsame : ¬ now - now ≥ 60000 := by omega
          rw [hrecent]
          dsimp only
          rw [if_neg hsame, if_neg (by dsimp only; omega)]
      obtain ⟨hnext, hmade'⟩ := step_single hbudget
      refine ⟨_, ?_, ?_, .inr hnext⟩
      · rw [List.replicate_succ', Machine.run_snoc, hl']
      · rw [hmade', hmade, List.replicate_succ', List.append_assoc]
  obtain ⟨l', hl', hmade, -⟩ := hrun limit le_rfl
  rw [hl']
  intro hlaw
  have hall : ∀ n, within m.1 (List.replicate n (now, 1)) = n := by
    intro n
    induction n with
    | zero => rfl
    | succ n ih => rw [List.replicate_succ, within, if_pos hyoung, ih, Nat.add_comm]
  have hself : 0 < within m.1 l.made := by
    obtain ⟨front, rest, hsplit⟩ := List.append_of_mem hm
    rw [hsplit, within_append, within, if_pos ⟨le_rfl, by omega⟩]
    omega
  have hbound := hlaw m.1
  rw [hmade, within_append, hall] at hbound
  omega

end

/-- A limit of two: one item at once, one later, and after a minute one more. -/
theorem law_of_aged_single : Law 2 (Machine.run (Log.step 2) (Log.start ⟨fun _ => [], fun _ => false⟩ 0)
    [single 0, single 100, single 60100]) :=
  law_of_aged 2 _ 0 _ (by decide) (by decide)

/-- And two more when the minute of the first is over, right after the second. -/
theorem not_law_of_late : ¬ Law 2 (Machine.run (Log.step 2)
    (Log.start ⟨fun _ => [], fun _ => false⟩ 0) [single 0, single 59000, single 60000, single 60000]) := by
  intro h
  exact absurd (h 59000) (by decide)

end Provision

end GoblinZomboid
