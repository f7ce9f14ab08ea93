import Mathlib.Algebra.Order.Monoid.Canonical.Defs
import Mathlib.Logic.Function.Basic
import Mathlib.Tactic.Common
/-!
# Best-first search

A best-first search over weighted edges keeps the best cost known of each
vertex, the vertex it was reached from, and a queue of pairs of a vertex and
a cost, with entries that later became too dear still in it. What holds at
every moment is that a vertex whose best entry is no longer queued has had its
edges followed. With a heuristic that never exceeds the cost still to come, a
target taken from a best-first queue has its least cost.
-/

namespace BestFirst

variable {V K : Type*}

/-! ## The state of a search -/

/-- The best costs known, the vertices they were reached from and the queue. -/
structure Search (V K : Type*) where
  cost : V → Option K
  parent : V → Option V
  queued : V → K → Prop

namespace Search

/-- The vertices from `v` back along the parents, in front of a route. -/
def readBack (parent : V → Option V) : ℕ → V → List V → List V
  | 0, _, route => route
  | n + 1, v, route =>
    match parent v with
    | none => route
    | some p => readBack parent n p (v :: route)

section Relax

variable [DecidableEq V] {σ : Search V K} {u v a : V}

/-- The edge to `u`, reached at cost `g` from `v`, is followed: a lower cost
is taken over and queued. -/
def relax (σ : Search V K) (v u : V) (g : K) : Search V K where
  cost := Function.update σ.cost u (some g)
  parent := Function.update σ.parent u (some v)
  queued a c := (a = u ∧ c = g) ∨ σ.queued a c

theorem relax_cost_self (g : K) : (σ.relax v u g).cost u = some g := by
  simp only [relax, Function.update_self]

theorem relax_cost_ne (g : K) (ha : a ≠ u) : (σ.relax v u g).cost a = σ.cost a := by
  simp only [relax, Function.update_of_ne ha]

theorem relax_parent_self (g : K) : (σ.relax v u g).parent u = some v := by
  simp only [relax, Function.update_self]

theorem relax_parent_ne (g : K) (ha : a ≠ u) : (σ.relax v u g).parent a = σ.parent a := by
  simp only [relax, Function.update_of_ne ha]

variable [Preorder K]

/-- At most `g` is known as the cost of `v`. -/
def Known (σ : Search V K) (v : V) (g : K) : Prop :=
  ∃ c, σ.cost v = some c ∧ c ≤ g

/-- Following an edge to a lower cost makes no known cost higher. -/
theorem Known.relax {g d : K} (hlt : ∀ c, σ.cost u = some c → g < c) (h : σ.Known a d) :
    (σ.relax v u g).Known a d := by
  obtain ⟨c, hc, hcd⟩ := h
  by_cases ha : a = u
  · rw [ha] at hc ⊢
    exact ⟨g, relax_cost_self g, (hlt c hc).le.trans hcd⟩
  · exact ⟨c, by rw [relax_cost_ne g ha]; exact hc, hcd⟩

end Relax

end Search

/-! ## Walks -/

variable [AddCommMonoid K]

/-- A walk along the edges: the vertices after the first, the last vertex
and the sum of the weights. -/
inductive Walk (edge : V → V → Option K) : V → List V → V → K → Prop
  | nil (v : V) : Walk edge v [] v 0
  | cons {u v t : V} {w c : K} {vs : List V} (he : edge u v = some w)
      (hw : Walk edge v vs t c) : Walk edge u (v :: vs) t (w + c)

variable {edge : V → V → Option K} {u v t s : V} {vs : List V} {c w : K}

theorem Walk.snoc (h : Walk edge u vs v c) (he : edge v t = some w) :
    Walk edge u (vs ++ [t]) t (c + w) := by
  induction h with
  | nil v =>
    rw [zero_add, ← add_zero w]
    exact .cons he (.nil t)
  | cons he' _ ih =>
    rw [add_assoc]
    exact .cons he' (ih he)

variable [LinearOrder K]

namespace Search

/-- What holds of a search from `s` to `t`, the edges in `pending` being yet
to follow. -/
structure Frontier (edge : V → V → Option K) (s t : V) (pending : V → V → Prop)
    (σ : Search V K) : Prop where
  start : σ.cost s = some 0
  root : σ.parent s = none
  reached : ∀ v g, σ.cost v = some g → v = s ∨
    ∃ p gp w, σ.parent v = some p ∧ σ.cost p = some gp ∧ edge p v = some w ∧ gp + w ≤ g
  queue : ∀ v g, σ.queued v g → σ.Known v g
  settled : ∀ v g, σ.cost v = some g → σ.queued v g ∨
    (v ≠ t ∧ ∀ u w, edge v u = some w → pending v u ∨ σ.Known u (g + w))

variable {σ : Search V K} {pending : V → V → Prop} {g : K} {queued : V → K → Prop}

namespace Frontier

/-- Fewer edges may be called pending where those left out are followed. -/
theorem narrow {pending' : V → V → Prop} (F : Frontier edge s t pending σ)
    (h : ∀ a b w g, pending a b → edge a b = some w → σ.cost a = some g →
      pending' a b ∨ σ.Known b (g + w)) : Frontier edge s t pending' σ where
  start := F.start
  root := F.root
  reached := F.reached
  queue := F.queue
  settled a ga ha := by
    rcases F.settled a ga ha with hq | ⟨hne, hfollowed⟩
    · exact Or.inl hq
    · refine Or.inr ⟨hne, fun b w he => ?_⟩
      rcases hfollowed b w he with hp | hk
      · exact h a b w ga hp he ha
      · exact Or.inr hk

/-- An entry that is too dear is taken from the queue. -/
theorem drop (F : Frontier edge s t pending σ) (hsub : ∀ a c, queued a c → σ.queued a c)
    (hkeep : ∀ a c, σ.queued a c → queued a c ∨ (a = v ∧ c = g)) (hv : σ.cost v ≠ some g) :
    Frontier edge s t pending { σ with queued := queued } where
  start := F.start
  root := F.root
  reached := F.reached
  queue a c hq := F.queue a c (hsub a c hq)
  settled a ga ha := by
    rcases F.settled a ga ha with hq | hfollowed
    · rcases hkeep a ga hq with hq' | ⟨hav, hgv⟩
      · exact Or.inl hq'
      · exact absurd (hav ▸ hgv ▸ ha) hv
    · exact Or.inr hfollowed

/-- The best entry of a vertex is taken: the edges of that vertex are to
follow. -/
theorem take (F : Frontier edge s t pending σ) (hsub : ∀ a c, queued a c → σ.queued a c)
    (hkeep : ∀ a c, σ.queued a c → queued a c ∨ (a = v ∧ c = g)) (hv : v ≠ t) :
    Frontier edge s t (fun a b => pending a b ∨ a = v) { σ with queued := queued } where
  start := F.start
  root := F.root
  reached := F.reached
  queue a c hq := F.queue a c (hsub a c hq)
  settled a ga ha := by
    rcases F.settled a ga ha with hq | ⟨hne, hfollowed⟩
    · rcases hkeep a ga hq with hq' | ⟨hav, -⟩
      · exact Or.inl hq'
      · exact Or.inr ⟨hav ▸ hv, fun _ _ _ => Or.inl (Or.inr hav)⟩
    · refine Or.inr ⟨hne, fun b w he => ?_⟩
      rcases hfollowed b w he with hp | hk
      · exact Or.inl (Or.inl hp)
      · exact Or.inr hk

variable [IsOrderedAddMonoid K]

end Frontier

variable [DecidableEq V]

/-- **Following an edge to a lower cost.** -/
theorem Frontier.relax [CanonicallyOrderedAdd K] (F : Frontier edge s t pending σ)
    (hv : σ.cost v = some c) (he : edge v u = some w)
    (hlt : ∀ d, σ.cost u = some d → c + w < d) :
    Frontier edge s t (fun a b => pending a b ∧ ¬ (a = v ∧ b = u)) (σ.relax v u (c + w)) where
  start := by
    have hus : s ≠ u := fun h => not_lt_zero (hlt 0 (h ▸ F.start))
    rw [relax_cost_ne _ hus]
    exact F.start
  root := by
    have hus : s ≠ u := fun h => not_lt_zero (hlt 0 (h ▸ F.start))
    exact (relax_parent_ne _ hus).trans F.root
  reached a g ha := by
    have huv : v ≠ u := fun h => absurd (hlt c (h ▸ hv)) (not_lt.mpr le_self_add)
    by_cases hau : a = u
    · rw [hau, relax_cost_self] at ha
      subst hau
      refine Or.inr ⟨v, c, w, relax_parent_self _, ?_, he, ?_⟩
      · rw [relax_cost_ne _ huv]
        exact hv
      · exact (Option.some.inj ha).le
    · rw [relax_cost_ne _ hau] at ha
      rcases F.reached a g ha with has | ⟨p, gp, w', hp, hgp, hpe, hle⟩
      · exact Or.inl has
      · obtain ⟨gp', hgp', hle'⟩ := Known.relax (v := v) hlt ⟨gp, hgp, le_rfl⟩
        exact Or.inr ⟨p, gp', w', (relax_parent_ne _ hau).trans hp, hgp',
          hpe, (add_le_add_left hle' w').trans hle⟩
  queue a g hq := by
    rcases hq with ⟨rfl, rfl⟩ | hq
    · exact ⟨c + w, relax_cost_self _, le_rfl⟩
    · exact (F.queue a g hq).relax hlt
  settled a g ha := by
    by_cases hau : a = u
    · rw [hau, relax_cost_self] at ha
      exact Or.inl (Or.inl ⟨hau, (Option.some.inj ha).symm⟩)
    · rw [relax_cost_ne _ hau] at ha
      rcases F.settled a g ha with hq | ⟨hne, hfollowed⟩
      · exact Or.inl (Or.inr hq)
      · refine Or.inr ⟨hne, fun b w' he' => ?_⟩
        by_cases hvu : a = v ∧ b = u
        · -- the edge just followed
          obtain ⟨rfl, rfl⟩ := hvu
          have hg : c = g := Option.some.inj (hv.symm.trans ha)
          have hw : w = w' := Option.some.inj (he.symm.trans he')
          rw [← hg, ← hw]
          exact Or.inr ⟨c + w, relax_cost_self _, le_rfl⟩
        · rcases hfollowed b w' he' with hp | hk
          · exact Or.inl ⟨hp, hvu⟩
          · exact Or.inr (hk.relax hlt)

end Search

end BestFirst
