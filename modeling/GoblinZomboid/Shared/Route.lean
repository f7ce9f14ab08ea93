import GoblinZomboid.Lib.BestFirst
import GoblinZomboid.Lib.BinaryHeap
import GoblinZomboid.Server.Body
import Mathlib.Algebra.Order.Floor.Semiring
import Mathlib.Data.NNRat.Floor
import Mathlib.Data.Rat.Floor
/-!
# `Motion.planRoute`: the door-aware route

The planner searches the loaded squares of one floor in a box around the start
and the goal. Tiles are pairs of coordinates, where the source joins the two
in a key, and costs are exact numbers.
-/

namespace GoblinZomboid

namespace Motion

open BestFirst

variable {Square : Type}

/-- A column of the grid. -/
abbrev Tile := ℤ × ℤ

/-- `Motion.ROUTE_MAX_EXPANSIONS`. -/
def routeMaxExpansions : ℕ := 5000

/-- `tileOf`. -/
def tileOf (point : Point) : ℤ × ℤ × ℤ :=
  (⌊point.x⌋, ⌊point.y⌋, ⌊point.z⌋)

/-- The middle of a tile. -/
def centre (sz : ℤ) (t : Tile) : Point where
  x := t.1 + 1 / 2
  y := t.2 + 1 / 2
  z := sz

/-- `squareAt`, over what the cell's `getGridSquare` answers. -/
def squareAt (getGridSquare : ℤ → ℤ → ℤ → Option Square) (point : Point) : Option Square :=
  getGridSquare ⌊point.x⌋ ⌊point.y⌋ ⌊point.z⌋

/-- An entry of the heap: a tile, the cost of reaching it and that cost with
the least there is still to come. -/
structure Node where
  x : ℤ
  y : ℤ
  g : ℚ≥0
  f : ℚ≥0
  deriving DecidableEq

def Node.tile (node : Node) : Tile :=
  (node.x, node.y)

/-- The tile an offset leads to. -/
def Node.step (node : Node) (offset : ℤ × ℤ) : Tile :=
  (node.x + offset.1, node.y + offset.2)

/-- `heapPush`. -/
def heapPush (heap : Array Node) (node : Node) : Array Node :=
  BinaryHeap.push Node.f heap node

/-- `heapPop`. -/
def heapPop (heap : Array Node) : Option Node × Array Node :=
  BinaryHeap.pop Node.f heap

/-- What stays the same during one search: the world, what may be crossed
and at what extra cost, the goal and the box. -/
structure Area (Square : Type) where
  getGridSquare : ℤ → ℤ → ℤ → Option Square
  edge : Square → Square → Square → Bool × Option ℚ≥0
  gx : ℤ
  gy : ℤ
  sz : ℤ
  minX : ℤ
  maxX : ℤ
  minY : ℤ
  maxY : ℤ
  goalSquare : Square

namespace Area

/-- The local function `h`. -/
def h (a : Area Square) (x y : ℤ) : ℚ≥0 :=
  (((x - a.gx).natAbs + (y - a.gy).natAbs : ℕ) : ℚ≥0)

def square (a : Area Square) (t : Tile) : Option Square :=
  squareAt a.getGridSquare (centre a.sz t)

def inBox (a : Area Square) (t : Tile) : Bool :=
  t.1 ≥ a.minX && t.1 ≤ a.maxX && t.2 ≥ a.minY && t.2 ≤ a.maxY

end Area

/-- The tables of a search. -/
structure Plan (Square : Type) where
  heap : Array Node
  cost : Tile → Option ℚ≥0
  parent : Tile → Option Tile
  squares : Tile → Option (Option Square)
  expanded : ℕ

def offsets : List (ℤ × ℤ) :=
  [(1, 0), (-1, 0), (0, 1), (0, -1)]

namespace Plan

/-- The square of a tile, looked up once. -/
def lookup (a : Area Square) (plan : Plan Square) (t : Tile) : Option Square × Plan Square :=
  match plan.squares t with
  | some known => (known, plan)
  | none =>
    (a.square t, { plan with squares := Function.update plan.squares t (some (a.square t)) })

/-- A tile is reached from `node` at cost `g`: kept when that is cheaper. -/
def offer (a : Area Square) (node : Node) (plan : Plan Square) (t : Tile) (g : ℚ≥0) :
    Plan Square :=
  if (plan.cost t).all (fun c => g < c) then
    { plan with
      cost := Function.update plan.cost t (some g)
      parent := Function.update plan.parent t (some node.tile)
      heap := heapPush plan.heap { x := t.1, y := t.2, g := g, f := g + a.h t.1 t.2 } }
  else plan

/-- One round of the loop over the offsets. -/
def visit (a : Area Square) (node : Node) (here : Square) (plan : Plan Square)
    (offset : ℤ × ℤ) : Plan Square :=
  if a.inBox (node.step offset) then
    match lookup a plan (node.step offset) with
    | (none, plan) => plan
    | (some nextSquare, plan) =>
      match a.edge here nextSquare a.goalSquare with
      | (true, extra) => offer a node plan (node.step offset) (node.g + 1 + extra.getD 0)
      | (false, _) => plan
  else plan

/-- The loop over the offsets. -/
def expand (a : Area Square) (node : Node) (plan : Plan Square) : Plan Square :=
  match plan.squares node.tile with
  | some (some here) => offsets.foldl (visit a node here) plan
  | _ => plan

end Plan

/-- What `planRoute` gives back: the points with the number of tiles
expanded, or nothing and the reason. -/
inductive Planned
  | route (points : List Point) (expanded : ℕ)
  | refused (reason : String)
  deriving DecidableEq

/-- The points of the route to a node. Each step back takes off at least one
of the cost, so there are steps enough. -/
def readRoute (a : Area Square) (plan : Plan Square) (node : Node) : List Point :=
  (Search.readBack plan.parent ⌊node.g⌋₊ node.tile []).map (centre a.sz)

namespace Plan

theorem size_lookup (a : Area Square) (plan : Plan Square) (t : Tile) :
    (lookup a plan t).2.heap = plan.heap ∧ (lookup a plan t).2.expanded = plan.expanded := by
  rw [lookup]
  split
  · exact ⟨rfl, rfl⟩
  · exact ⟨rfl, rfl⟩

theorem size_offer (a : Area Square) (node : Node) (plan : Plan Square) (t : Tile) (g : ℚ≥0) :
    (offer a node plan t g).heap.size ≤ plan.heap.size + 1 ∧
      (offer a node plan t g).expanded = plan.expanded := by
  rw [offer]
  split
  · exact ⟨(BinaryHeap.size_push plan.heap _).le, rfl⟩
  · exact ⟨Nat.le_succ _, rfl⟩

theorem size_visit (a : Area Square) (node : Node) (here : Square) (plan : Plan Square)
    (offset : ℤ × ℤ) :
    (visit a node here plan offset).heap.size ≤ plan.heap.size + 1 ∧
      (visit a node here plan offset).expanded = plan.expanded := by
  have hlookup := size_lookup a plan (node.step offset)
  rw [visit]
  split
  · split
    · rename_i looked heq
      rw [heq] at hlookup
      exact ⟨hlookup.1 ▸ Nat.le_succ _, hlookup.2⟩
    · rename_i nextSquare looked heq
      rw [heq] at hlookup
      split
      · rename_i extra _
        have hoffer := size_offer a node looked (node.step offset) (node.g + 1 + extra.getD 0)
        rw [hlookup.1, hlookup.2] at hoffer
        exact hoffer
      · exact ⟨hlookup.1 ▸ Nat.le_succ _, hlookup.2⟩
  · exact ⟨Nat.le_succ _, rfl⟩

/-- An expansion adds at most four entries. -/
theorem size_expand (a : Area Square) (node : Node) (plan : Plan Square) :
    (expand a node plan).heap.size ≤ plan.heap.size + 4 ∧
      (expand a node plan).expanded = plan.expanded := by
  have hfold : ∀ (here : Square) (os : List (ℤ × ℤ)) (plan : Plan Square),
      (os.foldl (visit a node here) plan).heap.size ≤ plan.heap.size + os.length ∧
        (os.foldl (visit a node here) plan).expanded = plan.expanded := by
    intro here os
    induction os with
    | nil => exact fun plan => ⟨le_rfl, rfl⟩
    | cons o os ih =>
      intro plan
      obtain ⟨hsize, hexp⟩ := size_visit a node here plan o
      obtain ⟨hsize', hexp'⟩ := ih (visit a node here plan o)
      rw [List.foldl_cons, List.length_cons]
      exact ⟨by omega, hexp'.trans hexp⟩
  rw [expand]
  split
  · exact hfold _ offsets plan
  · exact ⟨Nat.le_add_right _ 4, rfl⟩

end Plan

/-- The loop of `planRoute`. -/
def search (a : Area Square) (plan : Plan Square) : Planned :=
  if _hgo : 0 < plan.heap.size ∧ plan.expanded < routeMaxExpansions then
    match hpop : heapPop plan.heap with
    | (none, _) => .refused "no route" -- the heap is not empty
    | (some node, heap) =>
      if (plan.cost node.tile).all (fun c => node.g ≤ c) then
        if node.x = a.gx ∧ node.y = a.gy then
          .route (readRoute a plan node) (plan.expanded + 1)
        else search a (Plan.expand a node { plan with heap := heap, expanded := plan.expanded + 1 })
      else search a { plan with heap := heap }
  else
    .refused (if routeMaxExpansions ≤ plan.expanded then "search budget exhausted" else "no route")
  termination_by 5 * (routeMaxExpansions - plan.expanded) + plan.heap.size
  decreasing_by
    all_goals
      have hsize : heap.size = plan.heap.size - 1 := by
        rw [← @BinaryHeap.size_pop _ _ Node.f, ← heapPop, hpop]
    · obtain ⟨hle, hexp⟩ := Plan.size_expand a node
        { plan with heap := heap, expanded := plan.expanded + 1 }
      simp only at hle hexp
      omega
    · omega

end Motion

end GoblinZomboid
