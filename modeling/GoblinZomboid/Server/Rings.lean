import Mathlib.Algebra.Order.Floor.Ring
import Mathlib.Data.Rat.Floor
import Mathlib.Data.List.Nodup
import Mathlib.Data.List.Pairwise
import Mathlib.Tactic.IntervalCases
import Mathlib.Tactic.Linarith
import Mathlib.Tactic.Ring
/-!
# `World.rings`: squares from the middle outward

The squares around a centre are visited ring by ring. A cursor of ring and
position is what is left of a call that ran out of its budget; the next
call goes on from it.
-/

namespace GoblinZomboid

namespace Rings

/-- Where a square lies, seen from the centre. -/
abbrev Offset := ℤ × ℤ

/-- What `World.rings` keeps between calls. -/
structure Cursor where
  r : ℕ
  i : ℕ
  hit : Bool
  done : Bool

/-- A search that starts. -/
def Cursor.start : Cursor := ⟨0, 0, false, false⟩

/-- `World.ringOffset`. -/
def ringOffset (r i : ℕ) : Offset :=
  if r = 0 then (0, 0)
  else
    let pos : ℤ := ↑(i % (2 * r))
    match i / (2 * r) with
    | 0 => (-r + pos, -r)
    | 1 => (r, -r + pos)
    | 2 => (r - pos, r)
    | _ => (-r, r - pos)

/-- How many squares a ring has. -/
def perimeter (r : ℕ) : ℕ := if r = 0 then 1 else 8 * r

/-- `World.BAND`. -/
def band : ℕ := 4

/-- The budget is used up; none stands for `math.huge`. -/
def spent : Option ℚ → Bool
  | none => false
  | some b => b ≤ 0

/-- What a square tells: it is loaded, and `visit` says yes. -/
abbrev Visit := Offset → Bool

/-- What the loop over a ring comes to. -/
structure Round where
  /-- The budget ended within the ring. -/
  stopped : Bool
  cursor : Cursor
  budget : Option ℚ
  visited : List Offset

/-- The inner loop of `World.rings`. -/
def walk (visit : Visit) (c : Cursor) (budget : Option ℚ) : Round :=
  if c.i < perimeter c.r then
    let o := ringOffset c.r c.i
    let next := { c with i := c.i + 1, hit := c.hit || visit o }
    let budget := budget.map (· - 1)
    if spent budget && next.i < perimeter next.r then ⟨true, next, budget, [o]⟩
    else
      let rest := walk visit next budget
      { rest with visited := o :: rest.visited }
  else ⟨false, c, budget, []⟩
termination_by perimeter c.r - c.i

/-- `World.rings`: whether the search is over, the cursor, and the squares it
went to. -/
def rings (visit : Visit) (maxRadius : ℚ) (c : Cursor) (budget : Option ℚ) :
    Bool × Cursor × List Offset :=
  if (c.r : ℚ) ≤ maxRadius then
    let round := walk visit c budget
    if round.stopped then (false, round.cursor, round.visited)
    else
      let next := { round.cursor with r := c.r + 1, i := 0 }
      if next.hit && next.r % band = 0 then (true, { next with done := true }, round.visited)
      else if spent round.budget then (false, next, round.visited)
      else
        let rest := rings visit maxRadius next round.budget
        (rest.1, rest.2.1, round.visited ++ rest.2.2)
  else (true, { c with done := true }, [])
termination_by (⌊maxRadius⌋ + 1 - c.r).toNat
decreasing_by
  have hr : (c.r : ℤ) ≤ ⌊maxRadius⌋ := Int.le_floor.2 (by exact_mod_cast ‹_›)
  push_cast
  omega

/-- The calls of a search, each with its own budget, up to the one that says
it is over; none if none of them does. -/
def calls (visit : Visit) (maxRadius : ℚ) : Cursor → List (Option ℚ) → Option (Cursor × List Offset)
  | _, [] => none
  | c, budget :: rest =>
    let call := rings visit maxRadius c budget
    if call.1 then some (call.2.1, call.2.2)
    else (calls visit maxRadius call.2.1 rest).map fun r => (r.1, call.2.2 ++ r.2)

/-! ## One ring -/

variable {visit : Visit} {maxRadius : ℚ}

/-- The squares of a ring from one position to another. -/
def stretch (r i n : ℕ) : List Offset := (List.range' i n).map (ringOffset r)

/-- The cursor after some squares of a ring. -/
def Cursor.pass (c : Cursor) (visit : Visit) (n : ℕ) : Cursor :=
  { c with i := c.i + n, hit := c.hit || (stretch c.r c.i n).any visit }

theorem stretch_append (r i m n : ℕ) :
    stretch r i (m + n) = stretch r i m ++ stretch r (i + m) n := by
  unfold stretch
  rw [← List.map_append, List.range'_append_1]

theorem pass_pass (c : Cursor) (visit : Visit) (m n : ℕ) :
    (c.pass visit m).pass visit n = c.pass visit (m + n) := by
  unfold Cursor.pass
  rw [stretch_append, List.any_append, Bool.or_assoc, Nat.add_assoc]

/-- One round of the loop over a ring. -/
theorem walk_eq {c : Cursor} {budget : Option ℚ} (h : c.i < perimeter c.r) :
    walk visit c budget =
      if spent (budget.map (· - 1)) && decide (c.i + 1 < perimeter c.r) then
        ⟨true, c.pass visit 1, budget.map (· - 1), [ringOffset c.r c.i]⟩
      else
        { walk visit (c.pass visit 1) (budget.map (· - 1)) with
          visited :=
            ringOffset c.r c.i :: (walk visit (c.pass visit 1) (budget.map (· - 1))).visited } := by
  have hone : c.pass visit 1 =
      { c with i := c.i + 1, hit := c.hit || visit (ringOffset c.r c.i) } := by
    simp [Cursor.pass, stretch]
  rw [walk, if_pos h, hone]

/-- **The loop over a ring** goes on from the cursor, and stops within the
ring or at its end. -/
theorem walk_spec (visit : Visit) (c : Cursor) (budget : Option ℚ) (hc : c.i ≤ perimeter c.r) :
    ∃ n, (walk visit c budget).cursor = c.pass visit n ∧
      (walk visit c budget).visited = stretch c.r c.i n ∧
      if (walk visit c budget).stopped then 0 < n ∧ c.i + n < perimeter c.r ∧ budget ≠ none
      else c.i + n = perimeter c.r := by
  induction hleft : perimeter c.r - c.i generalizing c budget with
  | zero =>
    have hend : ¬c.i < perimeter c.r := by omega
    unfold walk
    rw [if_neg hend]
    refine ⟨0, ?_, rfl, ?_⟩
    · simp [Cursor.pass, stretch]
    · simp only [Bool.false_eq_true, ↓reduceIte]
      omega
  | succ k ih =>
    have hlt : c.i < perimeter c.r := by omega
    rw [walk_eq hlt]
    by_cases hstop : (spent (budget.map (· - 1)) && decide (c.i + 1 < perimeter c.r)) = true
    · rw [if_pos hstop]
      rw [Bool.and_eq_true, decide_eq_true_eq] at hstop
      refine ⟨1, rfl, rfl, ?_⟩
      rw [if_pos rfl]
      refine ⟨Nat.one_pos, hstop.2, ?_⟩
      rintro rfl
      cases hstop.1
    · rw [if_neg hstop]
      have hnext : (c.pass visit 1).i ≤ perimeter (c.pass visit 1).r := hlt
      have hcount : perimeter (c.pass visit 1).r - (c.pass visit 1).i = k := by
        show perimeter c.r - (c.i + 1) = k
        omega
      obtain ⟨n, hcursor, hvisited, hend⟩ := ih (c.pass visit 1) (budget.map (· - 1)) hnext hcount
      refine ⟨1 + n, ?_, ?_, ?_⟩
      · rw [hcursor, pass_pass]
      · rw [hvisited, stretch_append]
        rfl
      · have hi : (c.pass visit 1).i + n = c.i + (1 + n) := Nat.add_assoc _ _ _
        have hr : perimeter (c.pass visit 1).r = perimeter c.r := rfl
        rw [hi, hr] at hend
        dsimp only
        split
        · rename_i hstopped
          rw [if_pos hstopped] at hend
          refine ⟨by omega, hend.2.1, ?_⟩
          rintro rfl
          exact hend.2.2 rfl
        · rename_i hstopped
          rw [if_neg hstopped] at hend
          exact hend

/-- Without a budget the loop ends with the ring. -/
theorem walk_unbounded (visit : Visit) (c : Cursor) (hc : c.i ≤ perimeter c.r) :
    walk visit c none =
      ⟨false, c.pass visit (perimeter c.r - c.i), none, stretch c.r c.i (perimeter c.r - c.i)⟩ := by
  have hbudget : ∀ c, (walk visit c none).budget = none := by
    intro c
    induction hleft : perimeter c.r - c.i generalizing c with
    | zero =>
      unfold walk
      rw [if_neg (by omega)]
    | succ k ih =>
      have hcount : perimeter (c.pass visit 1).r - (c.pass visit 1).i = k := by
        show perimeter c.r - (c.i + 1) = k
        omega
      rw [walk_eq (by omega), Option.map_none, if_neg (by simp [spent])]
      exact ih _ hcount
  obtain ⟨n, hcursor, hvisited, hend⟩ := walk_spec visit c none hc
  cases hstopped : (walk visit c none).stopped with
  | true =>
    rw [hstopped, if_pos rfl] at hend
    exact absurd rfl hend.2.2
  | false =>
    rw [hstopped, if_neg (by simp)] at hend
    obtain rfl : n = perimeter c.r - c.i := by omega
    have hbudget' := hbudget c
    generalize walk visit c none = round at hcursor hvisited hstopped hbudget' ⊢
    obtain ⟨stopped, cursor, budget, visited⟩ := round
    rw [Round.mk.injEq]
    exact ⟨hstopped, hcursor, hbudget', hvisited⟩

/-! ## Calls that go on from each other -/

/-- A cursor within its ring. -/
def Cursor.Within (c : Cursor) : Prop := c.i < perimeter c.r

theorem perimeter_pos (r : ℕ) : 0 < perimeter r := by
  unfold perimeter
  split <;> omega

/-- The cursor at the end of its ring. -/
def Cursor.turn (c : Cursor) : Cursor := { c with r := c.r + 1, i := 0 }

theorem within_turn (c : Cursor) : c.turn.Within := perimeter_pos _

/-- The rest of a search without a budget. -/
theorem rings_unbounded {c : Cursor} (hc : c.Within) (hr : (c.r : ℚ) ≤ maxRadius) :
    rings visit maxRadius c none =
      let next := (c.pass visit (perimeter c.r - c.i)).turn
      let seen := stretch c.r c.i (perimeter c.r - c.i)
      if next.hit && next.r % band = 0 then (true, { next with done := true }, seen)
      else
        let rest := rings visit maxRadius next none
        (rest.1, rest.2.1, seen ++ rest.2.2) := by
  rw [rings, if_pos hr, walk_unbounded visit c hc.le]
  rfl

/-- **One call** is a beginning of the search without a budget: what is left
goes on from the cursor. -/
theorem rings_split (visit : Visit) (maxRadius : ℚ) (c : Cursor) (budget : Option ℚ)
    (hc : c.Within) :
    if (rings visit maxRadius c budget).1 = true then
      rings visit maxRadius c none = rings visit maxRadius c budget
    else
      (rings visit maxRadius c budget).2.1.Within ∧
        (rings visit maxRadius c budget).2.2 ≠ [] ∧
        rings visit maxRadius c none =
          ((rings visit maxRadius (rings visit maxRadius c budget).2.1 none).1,
            (rings visit maxRadius (rings visit maxRadius c budget).2.1 none).2.1,
            (rings visit maxRadius c budget).2.2 ++
              (rings visit maxRadius (rings visit maxRadius c budget).2.1 none).2.2) := by
  induction hleft : (⌊maxRadius⌋ + 1 - c.r).toNat generalizing c budget with
  | zero =>
    have hr : ¬(c.r : ℚ) ≤ maxRadius := by
      intro hr
      have := Int.le_floor.2 (show ((c.r : ℤ) : ℚ) ≤ maxRadius by exact_mod_cast hr)
      omega
    have hover (b : Option ℚ) : rings visit maxRadius c b = (true, { c with done := true }, []) := by
      rw [rings, if_neg hr]
    rw [hover, hover, if_pos rfl]
  | succ k ih =>
    by_cases hr : (c.r : ℚ) ≤ maxRadius
    · obtain ⟨n, hcursor, hvisited, hend⟩ := walk_spec visit c budget hc.le
      have hwhole := @rings_unbounded visit maxRadius c hc hr
      cases hstopped : (walk visit c budget).stopped with
      | true =>
        -- The call ends within the ring, and the next goes on there.
        rw [hstopped, if_pos rfl] at hend
        obtain ⟨hpos, hlt, -⟩ := hend
        have hcall : rings visit maxRadius c budget = (false, c.pass visit n, stretch c.r c.i n) := by
          rw [rings, if_pos hr]
          dsimp only
          rw [if_pos hstopped, hcursor, hvisited]
        have hwithin : (c.pass visit n).Within := hlt
        have hrest : n + (perimeter c.r - (c.i + n)) = perimeter c.r - c.i := by omega
        have hgoes := @rings_unbounded visit maxRadius _ hwithin hr
        have hpass : (c.pass visit n).pass visit
            (perimeter (c.pass visit n).r - (c.pass visit n).i) =
              c.pass visit (perimeter c.r - c.i) := by
          show (c.pass visit n).pass visit (perimeter c.r - (c.i + n)) = _
          rw [pass_pass, hrest]
        have hstretch : stretch c.r c.i n ++ stretch (c.pass visit n).r (c.pass visit n).i
            (perimeter (c.pass visit n).r - (c.pass visit n).i) =
              stretch c.r c.i (perimeter c.r - c.i) := by
          show stretch c.r c.i n ++ stretch c.r (c.i + n) (perimeter c.r - (c.i + n)) = _
          rw [← stretch_append, hrest]
        rw [hcall, if_neg (by simp)]
        refine ⟨hwithin, ?_, ?_⟩
        · intro hnil
          have hlen := congrArg List.length hnil
          simp [stretch] at hlen
          omega
        · rw [hwhole, hgoes, hpass, ← hstretch]
          dsimp only
          split
          · rfl
          · rw [List.append_assoc]
      | false =>
        rw [hstopped, if_neg (by simp)] at hend
        obtain rfl : n = perimeter c.r - c.i := by omega
        have hcall : rings visit maxRadius c budget =
            let next := (c.pass visit (perimeter c.r - c.i)).turn
            let seen := stretch c.r c.i (perimeter c.r - c.i)
            if next.hit && next.r % band = 0 then (true, { next with done := true }, seen)
            else if spent (walk visit c budget).budget then (false, next, seen)
            else
              let rest := rings visit maxRadius next (walk visit c budget).budget
              (rest.1, rest.2.1, seen ++ rest.2.2) := by
          rw [rings, if_pos hr]
          dsimp only
          rw [if_neg (by simp [hstopped]), hcursor, hvisited]
          rfl
        have hnonempty : stretch c.r c.i (perimeter c.r - c.i) ≠ [] := by
          intro hnil
          have hlen := congrArg List.length hnil
          have hpos : c.i < perimeter c.r := hc
          simp [stretch] at hlen
          omega
        have hcount : (⌊maxRadius⌋ + 1 - ((c.pass visit (perimeter c.r - c.i)).turn.r : ℤ)).toNat = k := by
          have hfloor : (c.r : ℤ) ≤ ⌊maxRadius⌋ := Int.le_floor.2 (by exact_mod_cast hr)
          show (⌊maxRadius⌋ + 1 - ((c.r + 1 : ℕ) : ℤ)).toNat = k
          push_cast
          omega
        have hnext := ih _ (walk visit c budget).budget
          (within_turn (c.pass visit (perimeter c.r - c.i))) hcount
        have hwithin := within_turn (c.pass visit (perimeter c.r - c.i))
        rw [hcall, hwhole]
        generalize (c.pass visit (perimeter c.r - c.i)).turn = next at hnext hwithin ⊢
        generalize (walk visit c budget).budget = left at hnext ⊢
        dsimp only
        by_cases hband : (next.hit && decide (next.r % band = 0)) = true
        · rw [if_pos hband, if_pos rfl, if_pos hband]
        · rw [if_neg hband, if_neg hband]
          by_cases hspent : spent left = true
          · rw [if_pos hspent, if_neg (by simp)]
            exact ⟨hwithin, hnonempty, rfl⟩
          · rw [if_neg hspent]
            dsimp only
            cases hover : (rings visit maxRadius next left).1 with
            | true =>
              rw [hover, if_pos rfl] at hnext
              rw [if_pos rfl, hnext, hover]
            | false =>
              rw [hover, if_neg (by simp)] at hnext
              obtain ⟨hwithin', -, hsplit⟩ := hnext
              rw [if_neg (by simp), hsplit]
              refine ⟨hwithin', fun hnil => hnonempty (List.append_eq_nil_iff.1 hnil).1, ?_⟩
              rw [List.append_assoc]
    · have hover (b : Option ℚ) : rings visit maxRadius c b = (true, { c with done := true }, []) := by
        rw [rings, if_neg hr]
      rw [hover, hover, if_pos rfl]

/-- **The calls of a search** come to what one call without a budget does. -/
theorem calls_eq {budgets : List (Option ℚ)} {c c' : Cursor} {seen : List Offset} (hc : c.Within)
    (h : calls visit maxRadius c budgets = some (c', seen)) :
    rings visit maxRadius c none = (true, c', seen) := by
  induction budgets generalizing c c' seen with
  | nil => cases h
  | cons budget rest ih =>
    have hsplit := rings_split visit maxRadius c budget hc
    unfold calls at h
    dsimp only at h
    by_cases hover : (rings visit maxRadius c budget).1 = true
    · rw [if_pos hover] at h hsplit
      obtain ⟨rfl, rfl⟩ := Prod.mk.inj (Option.some_inj.1 h)
      rw [hsplit, ← hover]
    · rw [if_neg hover] at h hsplit
      obtain ⟨hwithin, -, hsplit⟩ := hsplit
      obtain ⟨⟨c'', seen'⟩, hcalls, heq⟩ := Option.map_eq_some_iff.1 h
      obtain ⟨rfl, rfl⟩ := Prod.mk.inj heq
      rw [hsplit, ih hwithin hcalls]

/-- **A search ends**: every call that does not end it goes to a square, and
there are so many squares. -/
theorem calls_isSome {budgets : List (Option ℚ)} {c : Cursor} (hc : c.Within)
    (h : (rings visit maxRadius c none).2.2.length < budgets.length) :
    (calls visit maxRadius c budgets).isSome = true := by
  induction budgets generalizing c with
  | nil => cases h
  | cons budget rest ih =>
    have hsplit := rings_split visit maxRadius c budget hc
    unfold calls
    dsimp only
    by_cases hover : (rings visit maxRadius c budget).1 = true
    · rw [if_pos hover]
      rfl
    · rw [if_neg hover] at hsplit ⊢
      obtain ⟨hwithin, hnonempty, hsplit⟩ := hsplit
      rw [Option.isSome_map]
      refine ih hwithin ?_
      have hpos := List.length_pos_iff.2 hnonempty
      rw [hsplit, List.length_append, List.length_cons] at h
      omega

/-! ## What a budget pays for -/

/-- The loop over a ring pays for each square, and goes to the last one with
something left. -/
theorem walk_budget (visit : Visit) (c : Cursor) (b : ℚ) (hc : c.i ≤ perimeter c.r) (hlow : -1 < b)
    (hpay : 0 < b ∨ c.i = perimeter c.r) :
    (walk visit c (some b)).budget = some (b - (walk visit c (some b)).visited.length) ∧
      ((walk visit c (some b)).visited.length : ℚ) < b + 1 ∧
      ((walk visit c (some b)).stopped = true →
        b ≤ (walk visit c (some b)).visited.length) := by
  induction hleft : perimeter c.r - c.i generalizing c b with
  | zero =>
    unfold walk
    rw [if_neg (by omega)]
    refine ⟨by simp, ?_, by simp⟩
    simp only [List.length_nil, Nat.cast_zero]
    linarith
  | succ k ih =>
    have hb : 0 < b := hpay.resolve_right (by omega)
    rw [walk_eq (by omega)]
    by_cases hstop : (spent ((some b).map (· - 1)) && decide (c.i + 1 < perimeter c.r)) = true
    · rw [if_pos hstop]
      rw [Bool.and_eq_true] at hstop
      have hle : b - 1 ≤ 0 := of_decide_eq_true hstop.1
      refine ⟨by simp, ?_, fun _ => ?_⟩
      · simp only [List.length_singleton, Nat.cast_one]
        linarith
      · simp only [List.length_singleton, Nat.cast_one]
        linarith
    · rw [if_neg hstop]
      have hcount : perimeter (c.pass visit 1).r - (c.pass visit 1).i = k := by
        show perimeter c.r - (c.i + 1) = k
        omega
      have hpay' : 0 < b - 1 ∨ (c.pass visit 1).i = perimeter (c.pass visit 1).r := by
        by_contra hnot
        rw [not_or, not_lt] at hnot
        refine hstop ?_
        rw [Bool.and_eq_true, decide_eq_true_eq]
        have hne : c.i + 1 ≠ perimeter c.r := hnot.2
        exact ⟨decide_eq_true hnot.1, by omega⟩
      obtain ⟨hbudget, hless, hmore⟩ := ih (c.pass visit 1) (b - 1)
        (show c.i + 1 ≤ perimeter c.r by omega) (by linarith) hpay' hcount
      rw [Option.map_some]
      refine ⟨?_, ?_, fun hstopped => ?_⟩
      · simp only [hbudget, List.length_cons, Nat.cast_add, Nat.cast_one, Option.some.injEq]
        ring
      · simp only [List.length_cons, Nat.cast_add, Nat.cast_one]
        linarith
      · have hle := hmore hstopped
        simp only [List.length_cons, Nat.cast_add, Nat.cast_one]
        linarith

theorem rings_budget (visit : Visit) (maxRadius : ℚ) (c : Cursor) (b : ℚ) (hc : c.Within)
    (hb : 0 < b) :
    ((rings visit maxRadius c (some b)).2.2.length : ℚ) < b + 1 ∧
      ((rings visit maxRadius c (some b)).1 = false →
        b ≤ (rings visit maxRadius c (some b)).2.2.length) := by
  induction hleft : (⌊maxRadius⌋ + 1 - c.r).toNat generalizing c b with
  | zero =>
    have hr : ¬(c.r : ℚ) ≤ maxRadius := by
      intro hr
      have := Int.le_floor.2 (show ((c.r : ℤ) : ℚ) ≤ maxRadius by exact_mod_cast hr)
      omega
    rw [rings, if_neg hr]
    refine ⟨?_, by simp⟩
    simp only [List.length_nil, Nat.cast_zero]
    linarith
  | succ k ih =>
    by_cases hr : (c.r : ℚ) ≤ maxRadius
    · obtain ⟨hbudget, hless, hmore⟩ :=
        walk_budget visit c b hc.le (by linarith) (.inl hb)
      rw [rings, if_pos hr]
      dsimp only
      by_cases hstopped : (walk visit c (some b)).stopped = true
      · rw [if_pos hstopped]
        exact ⟨hless, fun _ => hmore hstopped⟩
      rw [if_neg hstopped, hbudget]
      generalize (walk visit c (some b)).visited = seen at hless ⊢
      split
      · exact ⟨hless, by simp⟩
      split
      · rename_i hspent
        have hle : b - seen.length ≤ 0 := of_decide_eq_true hspent
        exact ⟨hless, fun _ => by linarith⟩
      · rename_i hspent
        have hlt : 0 < b - seen.length := not_le.1 fun hle => hspent (decide_eq_true hle)
        have hfloor : (c.r : ℤ) ≤ ⌊maxRadius⌋ := Int.le_floor.2 (by exact_mod_cast hr)
        obtain ⟨hless', hmore'⟩ :=
          ih { (walk visit c (some b)).cursor with r := c.r + 1, i := 0 } _ (perimeter_pos _) hlt
            (by push_cast; omega)
        rw [List.length_append, Nat.cast_add]
        exact ⟨by linarith, fun hover => by linarith [hmore' hover]⟩
    · rw [rings, if_neg hr]
      refine ⟨?_, by simp⟩
      simp only [List.length_nil, Nat.cast_zero]
      linarith

/-- The squares a budget pays for; none pays for all. -/
def paid {α : Type} (budget : Option ℚ) (l : List α) : List α × List α :=
  match budget with
  | none => (l, [])
  | some b => (l.take ⌈b⌉₊, l.drop ⌈b⌉₊)

/-- **A call goes to the squares its budget pays for**, of those that are left
of the search. -/
theorem rings_paid (visit : Visit) (maxRadius : ℚ) (c : Cursor) (budget : Option ℚ)
    (hc : c.Within) (hb : ∀ b ∈ budget, 0 < b) :
    (rings visit maxRadius c budget).2.2 =
        (paid budget (rings visit maxRadius c none).2.2).1 ∧
      (paid budget (rings visit maxRadius c none).2.2).2 =
        if (rings visit maxRadius c budget).1 then []
        else (rings visit maxRadius (rings visit maxRadius c budget).2.1 none).2.2 := by
  have hsplit := rings_split visit maxRadius c budget hc
  cases budget with
  | none =>
    by_cases hover : (rings visit maxRadius c none).1 = true
    · exact ⟨rfl, by rw [if_pos hover]; rfl⟩
    · rw [if_neg hover] at hsplit
      obtain ⟨-, hnonempty, hwhole⟩ := hsplit
      have hlen := congrArg (fun r => r.2.2.length) hwhole
      simp only [List.length_append] at hlen
      have hnil : (rings visit maxRadius (rings visit maxRadius c none).2.1 none).2.2 = [] :=
        List.eq_nil_of_length_eq_zero (by omega)
      exact ⟨rfl, by rw [if_neg hover, hnil]; rfl⟩
  | some b =>
    obtain ⟨hless, hmore⟩ := rings_budget visit maxRadius c b hc (hb b rfl)
    by_cases hover : (rings visit maxRadius c (some b)).1 = true
    · rw [if_pos hover] at hsplit ⊢
      rw [hsplit]
      have hle : (rings visit maxRadius c (some b)).2.2.length ≤ ⌈b⌉₊ := by
        have hceil := Nat.le_ceil b
        have hlt : ((rings visit maxRadius c (some b)).2.2.length : ℚ) < (⌈b⌉₊ + 1 : ℕ) := by
          push_cast
          linarith
        exact Nat.lt_succ_iff.1 (by exact_mod_cast hlt)
      exact ⟨(List.take_of_length_le hle).symm, List.drop_eq_nil_of_le hle⟩
    · rw [if_neg hover] at hsplit ⊢
      obtain ⟨-, -, hwhole⟩ := hsplit
      have hle := hmore (by simpa using hover)
      have hceil : ⌈b⌉₊ = (rings visit maxRadius c (some b)).2.2.length := by
        refine le_antisymm (Nat.ceil_le.2 hle) (Nat.lt_succ_iff.1 ?_)
        have hge := Nat.le_ceil b
        have hlt : ((rings visit maxRadius c (some b)).2.2.length : ℚ) < (⌈b⌉₊ + 1 : ℕ) := by
          push_cast
          linarith
        exact_mod_cast hlt
      unfold paid
      dsimp only
      rw [hceil, hwhole]
      exact ⟨List.take_left.symm, List.drop_left⟩

/-! ## The squares of a search -/

/-- A ring. -/
def ringList (r : ℕ) : List Offset := stretch r 0 (perimeter r)

/-- Some rings, one after the other. -/
def ringsList (r n : ℕ) : List Offset := (List.range' r n).flatMap ringList

theorem ringsList_succ (r n : ℕ) : ringsList r (n + 1) = ringList r ++ ringsList (r + 1) n := by
  unfold ringsList
  rw [List.range'_succ, List.flatMap_cons]

/-- What a search without a budget covers: whole rings up to the radius, or
up to the end of the first band after a hit. -/
structure Covers (visit : Visit) (maxRadius : ℚ) (c : Cursor) (n : ℕ) : Prop where
  within : ∀ k < n, ((c.r + k : ℕ) : ℚ) ≤ maxRadius
  ends : maxRadius < ((c.r + n : ℕ) : ℚ) ∨
    0 < n ∧ (c.r + n) % band = 0 ∧ (c.hit || (ringsList c.r n).any visit) = true
  first : ∀ k, 0 < k → k < n → (c.r + k) % band = 0 →
    (c.hit || (ringsList c.r k).any visit) = false

/-- A search past its radius. -/
theorem rings_past {c : Cursor} (hi : c.i = 0) (hr : ¬(c.r : ℚ) ≤ maxRadius) :
    ∃ n, rings visit maxRadius c none =
        (true, ⟨c.r + n, 0, c.hit || (ringsList c.r n).any visit, true⟩, ringsList c.r n) ∧
      Covers visit maxRadius c n := by
  obtain ⟨r, i, hit, done⟩ := c
  obtain rfl : i = 0 := hi
  refine ⟨0, ?_, fun k hk => absurd hk (Nat.not_lt_zero k), Or.inl ?_, fun k _ hk =>
    absurd hk (Nat.not_lt_zero k)⟩
  · rw [rings, if_neg hr]
    simp [ringsList]
  · simpa using hr

theorem rings_covers (visit : Visit) (maxRadius : ℚ) (c : Cursor) (hi : c.i = 0) :
    ∃ n, rings visit maxRadius c none =
        (true, ⟨c.r + n, 0, c.hit || (ringsList c.r n).any visit, true⟩, ringsList c.r n) ∧
      Covers visit maxRadius c n := by
  induction hleft : (⌊maxRadius⌋ + 1 - c.r).toNat generalizing c with
  | zero =>
    have hr : ¬(c.r : ℚ) ≤ maxRadius := by
      intro hr
      have := Int.le_floor.2 (show ((c.r : ℤ) : ℚ) ≤ maxRadius by exact_mod_cast hr)
      omega
    exact rings_past hi hr
  | succ k ih =>
    by_cases hr : (c.r : ℚ) ≤ maxRadius
    · have hwithin : c.Within := by
        unfold Cursor.Within
        rw [hi]
        exact perimeter_pos _
      have hwhole := @rings_unbounded visit maxRadius c hwithin hr
      have hnext : (c.pass visit (perimeter c.r - c.i)).turn =
          ⟨c.r + 1, 0, c.hit || (ringList c.r).any visit, c.done⟩ := by
        unfold Cursor.pass Cursor.turn ringList
        rw [hi]
        rfl
      have hseen : stretch c.r c.i (perimeter c.r - c.i) = ringList c.r := by
        rw [hi]
        rfl
      have hone : ringsList c.r 1 = ringList c.r := by simp [ringsList]
      rw [hnext, hseen] at hwhole
      dsimp only at hwhole
      by_cases hband : ((c.hit || (ringList c.r).any visit) && decide ((c.r + 1) % band = 0)) = true
      · rw [if_pos hband] at hwhole
        rw [Bool.and_eq_true, decide_eq_true_eq] at hband
        refine ⟨1, ?_, fun k hk => ?_, Or.inr ⟨Nat.one_pos, hband.2, ?_⟩, fun k hpos hk => ?_⟩
        · rw [hwhole, hone]
        · obtain rfl : k = 0 := by omega
          exact hr
        · rw [hone]
          exact hband.1
        · omega
      · rw [if_neg hband] at hwhole
        have hcount : (⌊maxRadius⌋ + 1 - ((c.r + 1 : ℕ) : ℤ)).toNat = k := by
          have hfloor : (c.r : ℤ) ≤ ⌊maxRadius⌋ := Int.le_floor.2 (by exact_mod_cast hr)
          push_cast
          omega
        obtain ⟨n, hrest, hcovers⟩ :=
          ih ⟨c.r + 1, 0, c.hit || (ringList c.r).any visit, c.done⟩ rfl hcount
        have hadd (m : ℕ) : c.r + 1 + m = c.r + (m + 1) := by omega
        have hany (m : ℕ) : (c.hit || (ringList c.r).any visit || (ringsList (c.r + 1) m).any visit) =
            (c.hit || (ringsList c.r (m + 1)).any visit) := by
          rw [ringsList_succ, List.any_append, Bool.or_assoc]
        obtain ⟨hin, hends, hfirst⟩ := hcovers
        dsimp only at hrest hin hends hfirst
        simp only [hadd, hany] at hrest hin hends hfirst
        refine ⟨n + 1, ?_, fun k hk => ?_, ?_, fun k hpos hk hdvd => ?_⟩
        · rw [hwhole, hrest, ← ringsList_succ]
        · cases k with
          | zero => exact hr
          | succ k => exact hin k (by omega)
        · exact hends.imp id fun h => ⟨Nat.succ_pos n, h.2⟩
        · cases k with
          | zero => exact absurd hpos (Nat.lt_irrefl 0)
          | succ k =>
            cases k with
            | zero =>
              have hone' : ringsList c.r (0 + 1) = ringList c.r := hone
              rw [hone', ← Bool.not_eq_true]
              intro hhit
              refine hband ?_
              rw [hhit, Bool.true_and, decide_eq_true_eq]
              exact hdvd
            | succ k => exact hfirst (k + 1) (Nat.succ_pos k) (by omega) hdvd
    · exact rings_past hi hr

/-- The ring of a square. -/
def Offset.ring (o : Offset) : ℕ := max o.1.natAbs o.2.natAbs

/-- A square of a ring, by its side and its position on it. -/
def side (r q pos : ℕ) : Offset :=
  match q with
  | 0 => (-r + pos, -r)
  | 1 => (r, -r + pos)
  | 2 => (r - pos, r)
  | _ => (-r, r - pos)

theorem ringOffset_side {r pos : ℕ} (q : ℕ) (hpos : pos < 2 * r) :
    ringOffset r (2 * r * q + pos) = side r q pos := by
  have hr : r ≠ 0 := by omega
  unfold ringOffset side
  rw [if_neg hr, Nat.mul_add_div (by omega), Nat.div_eq_of_lt hpos, Nat.add_zero,
    Nat.mul_add_mod, Nat.mod_eq_of_lt hpos]

/-- The positions on the four sides. -/
theorem mem_ringList_side {r : ℕ} (hr : 0 < r) {o : Offset} :
    o ∈ ringList r ↔ ∃ q pos, q < 4 ∧ pos < 2 * r ∧ side r q pos = o := by
  have hperimeter : perimeter r = 2 * r * 4 := by
    unfold perimeter
    rw [if_neg (by omega)]
    omega
  unfold ringList stretch
  rw [hperimeter, List.mem_map]
  constructor
  · rintro ⟨i, hi, rfl⟩
    rw [List.mem_range'_1] at hi
    have hpos := Nat.mod_lt i (show 0 < 2 * r by omega)
    refine ⟨i / (2 * r), i % (2 * r), ?_, hpos, ?_⟩
    · exact Nat.div_lt_of_lt_mul (by omega)
    · rw [← ringOffset_side _ hpos, Nat.div_add_mod]
  · rintro ⟨q, pos, hq, hpos, rfl⟩
    refine ⟨2 * r * q + pos, ?_, ringOffset_side q hpos⟩
    rw [List.mem_range'_1]
    refine ⟨Nat.zero_le _, ?_⟩
    calc 2 * r * q + pos < 2 * r * q + 2 * r := by omega
      _ = 2 * r * (q + 1) := by ring
      _ ≤ 0 + 2 * r * 4 := by
        rw [Nat.zero_add]
        exact Nat.mul_le_mul_left _ (by omega)

/-- **A ring has the squares at its distance.** -/
theorem mem_ringList {r : ℕ} {o : Offset} : o ∈ ringList r ↔ Offset.ring o = r := by
  obtain ⟨x, y⟩ := o
  unfold Offset.ring
  rcases Nat.eq_zero_or_pos r with rfl | hr
  · show (x, y) ∈ [((0 : ℤ), (0 : ℤ))] ↔ max x.natAbs y.natAbs = 0
    rw [List.mem_singleton, Prod.mk.injEq]
    omega
  · rw [mem_ringList_side hr]
    constructor
    · rintro ⟨q, pos, hq, hpos, hside⟩
      unfold side at hside
      split at hside
      all_goals
        obtain ⟨rfl, rfl⟩ := Prod.mk.inj hside
        dsimp only
        omega
    · intro hring
      dsimp only at hring
      -- The sides in their order; each ends before the corner of the next.
      by_cases hnorth : y = -r ∧ x < r
      · exact ⟨0, (x + r).toNat, by omega, by omega, Prod.ext (by simp only [side]; omega)
          (by simp only [side]; omega)⟩
      by_cases heast : x = r ∧ y < r
      · exact ⟨1, (y + r).toNat, by omega, by omega, Prod.ext (by simp only [side]; omega)
          (by simp only [side]; omega)⟩
      by_cases hsouth : y = r ∧ -r < x
      · exact ⟨2, (r - x).toNat, by omega, by omega, Prod.ext (by simp only [side]; omega)
          (by simp only [side]; omega)⟩
      · exact ⟨3, (r - y).toNat, by omega, by omega, Prod.ext (by simp only [side]; omega)
          (by simp only [side]; omega)⟩

/-- Each of them once. -/
theorem nodup_ringList (r : ℕ) : (ringList r).Nodup := by
  rcases Nat.eq_zero_or_pos r with rfl | hr
  · exact List.nodup_singleton _
  · have hperimeter : perimeter r = 2 * r * 4 := by
      unfold perimeter
      rw [if_neg (by omega)]
      omega
    unfold ringList stretch
    refine List.Nodup.map_on ?_ List.nodup_range'
    intro i hi j hj heq
    rw [List.mem_range'_1, hperimeter] at hi hj
    have hposi := Nat.mod_lt i (show 0 < 2 * r by omega)
    have hposj := Nat.mod_lt j (show 0 < 2 * r by omega)
    have hqi : i / (2 * r) < 4 := Nat.div_lt_of_lt_mul (by omega)
    have hqj : j / (2 * r) < 4 := Nat.div_lt_of_lt_mul (by omega)
    rw [← Nat.div_add_mod i (2 * r), ← Nat.div_add_mod j (2 * r), ringOffset_side _ hposi,
      ringOffset_side _ hposj] at heq
    rw [← Nat.div_add_mod i (2 * r), ← Nat.div_add_mod j (2 * r)]
    generalize i / (2 * r) = q at hqi heq ⊢
    generalize j / (2 * r) = q' at hqj heq ⊢
    generalize i % (2 * r) = pos at hposi heq ⊢
    generalize j % (2 * r) = pos' at hposj heq ⊢
    have hsame : q = q' ∧ pos = pos' := by
      obtain ⟨hx, hy⟩ := Prod.ext_iff.1 heq
      interval_cases q <;> interval_cases q' <;> simp only [side] at hx hy <;> omega
    rw [hsame.1, hsame.2]

/-- What some rings hold. -/
theorem mem_ringsList {r n : ℕ} {o : Offset} :
    o ∈ ringsList r n ↔ r ≤ o.ring ∧ o.ring < r + n := by
  unfold ringsList
  rw [List.mem_flatMap]
  constructor
  · rintro ⟨s, hs, ho⟩
    rw [List.mem_range'_1] at hs
    rw [mem_ringList.1 ho]
    exact hs
  · intro h
    exact ⟨o.ring, List.mem_range'_1.2 h, mem_ringList.2 rfl⟩

/-- **Rings one after the other** have no square twice, and none before a
nearer ring. -/
theorem ringsList_ordered (r n : ℕ) :
    (ringsList r n).Nodup ∧ (ringsList r n).Pairwise fun a b => a.ring ≤ b.ring := by
  induction n generalizing r with
  | zero => exact ⟨List.nodup_nil, List.Pairwise.nil⟩
  | succ n ih =>
    obtain ⟨hnodup, hordered⟩ := ih (r + 1)
    rw [ringsList_succ]
    constructor
    · refine List.Nodup.append (nodup_ringList r) hnodup ?_
      intro o ho ho'
      have hring := mem_ringList.1 ho
      have hlater := (mem_ringsList.1 ho').1
      omega
    · refine List.pairwise_append.2 ⟨?_, hordered, ?_⟩
      · refine List.Pairwise.imp_of_mem ?_ (List.pairwise_of_forall fun _ _ => trivial)
        intro a b ha hb _
        rw [mem_ringList.1 ha, mem_ringList.1 hb]
      · intro a ha b hb
        have hlater := (mem_ringsList.1 hb).1
        rw [mem_ringList.1 ha]
        omega

/-- **Resuming loses nothing.** However the visits of a search are split over
calls, the squares they go to are those of one call without a budget, and the
cursor ends where its cursor does; the search is over after fewer calls than
it has squares and one more; and its squares are those of the rings it covers,
each once, ring after ring. -/
theorem rings_resumable (visit : Visit) (maxRadius : ℚ) :
    let whole := rings visit maxRadius .start none
    whole.1 = true ∧
    (∀ budgets c seen, calls visit maxRadius .start budgets = some (c, seen) →
      c = whole.2.1 ∧ seen = whole.2.2) ∧
    (∀ budgets, whole.2.2.length < budgets.length →
      (calls visit maxRadius .start budgets).isSome = true) ∧
    whole.2.2.Nodup ∧
    whole.2.2.Pairwise (fun a b => a.ring ≤ b.ring) ∧
    ∀ o, o ∈ whole.2.2 ↔ o.ring < whole.2.1.r := by
  have hstart : Cursor.start.Within := perimeter_pos 0
  obtain ⟨n, hwhole, -⟩ := rings_covers visit maxRadius .start rfl
  obtain ⟨hnodup, hordered⟩ := ringsList_ordered 0 n
  intro whole
  have hwhole' : whole = _ := hwhole
  refine ⟨by rw [hwhole'], ?_, ?_, ?_, ?_, ?_⟩
  · intro budgets c seen hcalls
    have hsame : whole = (true, c, seen) := calls_eq hstart hcalls
    rw [hsame]
    exact ⟨rfl, rfl⟩
  · intro budgets hlen
    exact calls_isSome hstart hlen
  · rw [hwhole']
    exact hnodup
  · rw [hwhole']
    exact hordered
  · intro o
    rw [hwhole']
    show o ∈ ringsList 0 n ↔ o.ring < 0 + n
    rw [mem_ringsList]
    omega

end Rings

end GoblinZomboid
