import GoblinZomboid.Shared.Route
/-!
# The planned route is a shortest one

The tables of `Motion.planRoute` are a best-first search over the passable
edges of the box. Its heap is in order, so what it takes out is never dearer
than what stays, and the distance to the goal along the grid never exceeds
what a route still costs.
-/

namespace GoblinZomboid

namespace Motion

open BestFirst

variable {Square : Type}

/-! ## The edges of the box -/

namespace Area

/-- The goal's tile. -/
def goal (a : Area Square) : Tile :=
  (a.gx, a.gy)

/-- What an edge of the box costs, where it may be crossed: it leads to a
neighbouring tile inside the box, both squares are loaded and `edge` lets it
pass. -/
def passable (a : Area Square) (u v : Tile) : Option ℚ≥0 :=
  if v ∈ offsets.map (fun o => (u.1 + o.1, u.2 + o.2)) ∧ a.inBox v = true then
    match a.square u, a.square v with
    | some here, some next =>
      match a.edge here next a.goalSquare with
      | (true, extra) => some (1 + extra.getD 0)
      | (false, _) => none
    | _, _ => none
  else none

theorem passable_some {a : Area Square} {u v : Tile} {w : ℚ≥0} (h : a.passable u v = some w) :
    v ∈ offsets.map (fun o => (u.1 + o.1, u.2 + o.2)) ∧ a.inBox v = true ∧
      ∃ here next extra, a.square u = some here ∧ a.square v = some next ∧
        a.edge here next a.goalSquare = (true, extra) ∧ w = 1 + extra.getD 0 := by
  rw [passable] at h
  split at h
  · rename_i hbox
    refine ⟨hbox.1, hbox.2, ?_⟩
    split at h
    · rename_i here next hhere hnext
      split at h
      · rename_i extra hedge
        exact ⟨here, next, extra, hhere, hnext, hedge, (Option.some.inj h).symm⟩
      · cases h
    · cases h
  · cases h

end Area

/-! ## The tables as a search -/

namespace Plan

/-- The tables as a best-first search. -/
def view (plan : Plan Square) : BestFirst.Search Tile ℚ≥0 where
  cost := plan.cost
  parent := plan.parent
  queued v g := ∃ node ∈ plan.heap, node.tile = v ∧ node.g = g

/-- What holds of the tables at every moment of a search from `s`, the edges
in `pending` being yet to follow. -/
structure Good (a : Area Square) (s : Tile) (pending : Tile → Tile → Prop)
    (plan : Plan Square) : Prop where
  order : BinaryHeap.Ordered (BinaryHeap.rank Node.f plan.heap)
  keys : ∀ node ∈ plan.heap, node.f = node.g + a.h node.x node.y
  cached : ∀ t o, plan.squares t = some o → o = a.square t
  loaded : ∀ t g, plan.cost t = some g → ∃ o, plan.squares t = some o
  frontier : BestFirst.Search.Frontier a.passable s a.goal pending plan.view

variable {a : Area Square} {s : Tile} {pending : Tile → Tile → Prop} {plan : Plan Square}
  {node : Node}

theorem mem_heapPush {heap : Array Node} {node n : Node}
    (h : BinaryHeap.Ordered (BinaryHeap.rank Node.f heap)) :
    n ∈ heapPush heap node ↔ n = node ∨ n ∈ heap := by
  have hperm := (BinaryHeap.push_keeps node h).2
  rw [heapPush, hperm.mem_iff, Array.mem_push, or_comm]

/-- Looking a square up changes nothing else. -/
theorem Good.lookup (G : Good a s pending plan) (t : Tile) :
    (lookup a plan t).1 = a.square t ∧ Good a s pending (lookup a plan t).2 ∧
      (lookup a plan t).2.cost = plan.cost ∧
      ∃ o, (Plan.lookup a plan t).2.squares t = some o := by
  rw [Plan.lookup]
  split
  · rename_i known hknown
    exact ⟨G.cached t known hknown, G, rfl, known, hknown⟩
  · refine ⟨rfl, ⟨G.order, G.keys, fun t' o ho => ?_, fun t' g hg => ?_, G.frontier⟩, rfl,
      a.square t, Function.update_self ..⟩
    · by_cases heq : t' = t
      · simp only [heq, Function.update_self] at ho
        rw [heq]
        exact (Option.some.inj ho).symm
      · simp only [Function.update_of_ne heq] at ho
        exact G.cached t' o ho
    · by_cases heq : t' = t
      · exact ⟨a.square t, by simp only [heq, Function.update_self]⟩
      · obtain ⟨o, ho⟩ := G.loaded t' g hg
        exact ⟨o, by simp only [Function.update_of_ne heq]; exact ho⟩

theorem all_lt_iff {o : Option ℚ≥0} {g : ℚ≥0} :
    o.all (fun c => g < c) = true ↔ ∀ c, o = some c → g < c := by
  cases o <;> simp

/-- An edge that may not be crossed need not be followed. -/
theorem Good.narrow (G : Good a s pending plan) {pending' : Tile → Tile → Prop}
    (h : ∀ u v w g, pending u v → a.passable u v = some w → plan.cost u = some g →
      pending' u v ∨ plan.view.Known v (g + w)) : Good a s pending' plan where
  order := G.order
  keys := G.keys
  cached := G.cached
  loaded := G.loaded
  frontier := G.frontier.narrow h

theorem view_offer {t : Tile} {g : ℚ≥0}
    (h : BinaryHeap.Ordered (BinaryHeap.rank Node.f plan.heap))
    (hlt : (plan.cost t).all (fun c => g < c) = true) :
    (offer a node plan t g).view = plan.view.relax node.tile t g := by
  rw [offer, if_pos hlt]
  have hqueued : ∀ b c,
      (∃ n ∈ heapPush plan.heap { x := t.1, y := t.2, g := g, f := g + a.h t.1 t.2 },
        n.tile = b ∧ n.g = c) ↔ (b = t ∧ c = g) ∨ plan.view.queued b c := by
    intro b c
    constructor
    · rintro ⟨n, hn, rfl, rfl⟩
      rcases (mem_heapPush h).mp hn with rfl | hn
      · exact Or.inl ⟨rfl, rfl⟩
      · exact Or.inr ⟨n, hn, rfl, rfl⟩
    · rintro (⟨rfl, rfl⟩ | ⟨n, hn, hb, hc⟩)
      · exact ⟨_, (mem_heapPush h).mpr (Or.inl rfl), rfl, rfl⟩
      · exact ⟨n, (mem_heapPush h).mpr (Or.inr hn), hb, hc⟩
  simp only [view, Search.relax, hqueued]

/-- **An offer follows one edge.** -/
theorem Good.offer (G : Good a s pending plan) {t : Tile} {w : ℚ≥0}
    (hcost : plan.cost node.tile = some node.g) (he : a.passable node.tile t = some w)
    (ht : ∃ o, plan.squares t = some o) :
    Good a s (fun u v => pending u v ∧ ¬ (u = node.tile ∧ v = t))
        (offer a node plan t (node.g + w)) ∧
      (Plan.offer a node plan t (node.g + w)).cost node.tile = some node.g := by
  by_cases hall : (plan.cost t).all (fun c => node.g + w < c) = true
  · have hlt := all_lt_iff.mp hall
    have hview := @view_offer _ a plan node t (node.g + w) G.order hall
    have hne : node.tile ≠ t := fun h => absurd (hlt node.g (h ▸ hcost)) (not_lt.mpr le_self_add)
    refine ⟨⟨?_, ?_, ?_, ?_, ?_⟩, ?_⟩
    · rw [Plan.offer, if_pos hall]
      exact (BinaryHeap.push_keeps _ G.order).1
    · rw [Plan.offer, if_pos hall]
      intro n hn
      rcases (mem_heapPush G.order).mp hn with rfl | hn
      · rfl
      · exact G.keys n hn
    · rw [Plan.offer, if_pos hall]
      exact G.cached
    · rw [Plan.offer, if_pos hall]
      intro t' g hg
      by_cases heq : t' = t
      · exact heq ▸ ht
      · simp only [Function.update_of_ne heq] at hg
        exact G.loaded t' g hg
    · rw [hview]
      exact G.frontier.relax hcost he hlt
    · rw [Plan.offer, if_pos hall]
      simp only [Function.update_of_ne hne]
      exact hcost
  · -- a cost no higher is known
    have hdear : plan.view.Known t (node.g + w) := by
      cases hc : plan.cost t with
      | none =>
        rw [hc] at hall
        exact absurd rfl hall
      | some c =>
        rw [hc] at hall
        exact ⟨c, hc, not_lt.mp fun h => hall (decide_eq_true h)⟩
    rw [Plan.offer, if_neg hall]
    refine ⟨G.narrow fun u v w' g hp hw' hg => ?_, hcost⟩
    by_cases huv : u = node.tile ∧ v = t
    · obtain ⟨rfl, rfl⟩ := huv
      rw [← Option.some.inj (he.symm.trans hw'), ← Option.some.inj (hcost.symm.trans hg)]
      exact Or.inr hdear
    · exact Or.inl ⟨hp, huv⟩

/-- **One round of the loop over the offsets follows one edge.** -/
theorem Good.visit (G : Good a s pending plan) {here : Square} {o : ℤ × ℤ}
    (hcost : plan.cost node.tile = some node.g) (hhere : a.square node.tile = some here)
    (ho : o ∈ offsets) :
    Good a s (fun u v => pending u v ∧ ¬ (u = node.tile ∧ v = node.step o))
        (visit a node here plan o) ∧
      (Plan.visit a node here plan o).cost node.tile = some node.g := by
  have hno : ∀ {plan' : Plan Square}, Good a s pending plan' →
      a.passable node.tile (node.step o) = none →
      Good a s (fun u v => pending u v ∧ ¬ (u = node.tile ∧ v = node.step o)) plan' := by
    intro plan' G' hnone
    refine G'.narrow fun u v w g hp hw _ => Or.inl ⟨hp, ?_⟩
    rintro ⟨rfl, rfl⟩
    rw [hnone] at hw
    cases hw
  have hmem : node.step o ∈ offsets.map (fun o => (node.tile.1 + o.1, node.tile.2 + o.2)) :=
    List.mem_map.mpr ⟨o, ho, rfl⟩
  rw [Plan.visit]
  by_cases hbox : a.inBox (node.step o) = true
  · rw [if_pos hbox]
    obtain ⟨hsq, G', hcost', hknown⟩ := G.lookup (node.step o)
    obtain ⟨next, plan', hlook⟩ : ∃ next plan',
        Plan.lookup a plan (node.step o) = (next, plan') := ⟨_, _, rfl⟩
    rw [hlook] at hsq G' hcost' hknown ⊢
    simp only at hsq G' hcost' hknown ⊢
    rw [← hcost'] at hcost
    cases next with
    | none =>
      refine ⟨hno G' ?_, hcost⟩
      rw [Area.passable, if_pos ⟨hmem, hbox⟩, hhere, ← hsq]
    | some nextSquare =>
      obtain ⟨ok, extra, hedge⟩ : ∃ ok extra,
          a.edge here nextSquare a.goalSquare = (ok, extra) := ⟨_, _, rfl⟩
      have hpass : a.passable node.tile (node.step o) =
          if ok then some (1 + extra.getD 0) else none := by
        rw [Area.passable, if_pos ⟨hmem, hbox⟩, hhere, ← hsq]
        simp only [hedge]
        cases ok <;> rfl
      simp only [hedge]
      cases ok with
      | false => exact ⟨hno G' hpass, hcost⟩
      | true =>
        simp only [add_assoc]
        exact G'.offer hcost hpass hknown
  · rw [if_neg hbox]
    refine ⟨hno G ?_, hcost⟩
    rw [Area.passable, if_neg fun h => hbox h.2]

theorem Good.visits {here : Square} (hhere : a.square node.tile = some here)
    (os : List (ℤ × ℤ)) (hos : ∀ o ∈ os, o ∈ offsets) (G : Good a s pending plan)
    (hcost : plan.cost node.tile = some node.g) :
    Good a s (fun u v => pending u v ∧ ¬ (u = node.tile ∧ v ∈ os.map node.step))
      (os.foldl (Plan.visit a node here) plan) := by
  induction os generalizing pending plan with
  | nil => exact G.narrow fun u v w g hp _ _ => Or.inl ⟨hp, fun h => List.not_mem_nil h.2⟩
  | cons o os ih =>
    obtain ⟨G', hcost'⟩ := G.visit hcost hhere (hos o List.mem_cons_self)
    refine (ih (fun o' ho' => hos o' (List.mem_cons_of_mem o ho')) G' hcost').narrow ?_
    rintro u v w g ⟨⟨hp, hne⟩, hnot⟩ - -
    refine Or.inl ⟨hp, ?_⟩
    rintro ⟨hu, hv⟩
    rcases List.mem_cons.mp (List.map_cons ▸ hv) with heq | hin
    · exact hne ⟨hu, heq⟩
    · exact hnot ⟨hu, hin⟩

/-- **An expansion leaves no edge to follow.** -/
theorem Good.expand (G : Good a s (fun u _ => False ∨ u = node.tile) plan)
    (hcost : plan.cost node.tile = some node.g) :
    Good a s (fun _ _ => False) (Plan.expand a node plan) := by
  obtain ⟨o, ho⟩ := G.loaded _ _ hcost
  have hsq := G.cached _ _ ho
  rw [Plan.expand, ho]
  cases o with
  | none =>
    -- the tile of a node is loaded
    refine G.narrow fun u v w g hp hw _ => ?_
    obtain ⟨-, -, here, _, _, hhere, -⟩ := Area.passable_some hw
    rw [hp.resolve_left id, ← hsq] at hhere
    cases hhere
  | some here =>
    refine (G.visits hsq.symm offsets (fun _ h => h) hcost).narrow ?_
    rintro u v w g ⟨hp, hnot⟩ hw -
    have hu := hp.resolve_left id
    have hv := (Area.passable_some hw).1
    rw [hu] at hv
    exact absurd ⟨hu, hv⟩ hnot

/-- The entry with the least key is taken out. -/
theorem Good.pop {heap : Array Node} (G : Good a s (fun _ _ => False) plan)
    (hpop : heapPop plan.heap = (some node, heap)) (hne : 0 < plan.heap.size) :
    BinaryHeap.Ordered (BinaryHeap.rank Node.f heap) ∧ node ∈ plan.heap ∧
      (∀ n, n ∈ plan.heap ↔ n ∈ heap ∨ n = node) ∧ ∀ n ∈ plan.heap, node.f ≤ n.f := by
  obtain ⟨x, rest, heq, hord, hperm, hmin⟩ := BinaryHeap.pop_keeps G.order hne
  rw [heapPop, heq] at hpop
  obtain ⟨hx, hrest⟩ := Prod.mk.inj hpop
  obtain rfl := Option.some.inj hx
  obtain rfl := hrest
  have hmem : ∀ n, n ∈ plan.heap ↔ n ∈ rest ∨ n = x := fun n => by
    rw [hperm.mem_iff, Array.mem_push]
  exact ⟨hord, (hmem x).mpr (Or.inr rfl), hmem, hmin⟩

theorem all_le_iff {o : Option ℚ≥0} {g : ℚ≥0} :
    o.all (fun c => g ≤ c) = true ↔ ∀ c, o = some c → g ≤ c := by
  cases o <;> simp

/-- An entry that is not too dear has the best cost of its tile. -/
theorem Good.live (G : Good a s pending plan) (hin : node ∈ plan.heap)
    (hlive : (plan.cost node.tile).all (fun c => node.g ≤ c) = true) :
    plan.cost node.tile = some node.g := by
  obtain ⟨c, hc, hle⟩ := G.frontier.queue node.tile node.g ⟨node, hin, rfl, rfl⟩
  have hge := all_le_iff.mp hlive c hc
  exact le_antisymm hle hge ▸ hc

/-- The queue without the entry taken out. -/
def left (heap : Array Node) (t : Tile) (g : ℚ≥0) : Prop :=
  ∃ node ∈ heap, node.tile = t ∧ node.g = g

variable {heap : Array Node}

end Plan

/-! ## The search -/

/-- A walk between two tiles over the passable edges of the box. -/
abbrev Area.Path (a : Area Square) (s : Tile) (tiles : List Tile) (c : ℚ≥0) : Prop :=
  Walk a.passable s tiles a.goal c

/-- What a search from `s` answers. -/
def Answers (a : Area Square) (s : Tile) : Planned → Prop
  | .route points expanded =>
    expanded ≤ routeMaxExpansions ∧ ∃ tiles c, points = tiles.map (centre a.sz) ∧
      a.Path s tiles c ∧ ∀ tiles' c', a.Path s tiles' c' → c ≤ c'
  | .refused reason =>
    (reason = "no route" ∧ ¬ ∃ tiles c, a.Path s tiles c) ∨ reason = "search budget exhausted"

/-- The level a point is on. -/
def level (point : Point) : ℤ :=
  (tileOf point).2.2

end Motion

end GoblinZomboid
