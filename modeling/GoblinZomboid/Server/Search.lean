import GoblinZomboid.Server.Rings
import Mathlib.Data.List.Sort
import Mathlib.Tactic.Linarith
/-!
# `World.search`: the nearest item sources

The search gathers what the squares of the rings hold and hands it back
sorted by distance. The rings end by the larger of the two coordinates, the
order is by the straight line.
-/

namespace GoblinZomboid

namespace Search

open Rings

variable {Item : Type}

/-- What a method that tells a lock comes to. -/
inductive LockMethod
  | unreadable
  | missing
  | answers (locked : Option Bool)

/-- An object on a square. -/
structure Object (Item : Type) where
  isLockedToCharacter : LockMethod
  isLocked : LockMethod
  container : Option (List Item)

/-- `World.containerAccessible`. -/
def containerAccessible (body : Bool) (object : Object Item) : Bool :=
  match object.isLockedToCharacter with
  | .unreadable => false
  | .answers locked => body && locked == some false
  | .missing =>
    match object.isLocked with
    | .unreadable => false
    | .answers locked => locked == some false
    | .missing => true

/-- A loaded square: what the policy says of it, the items of its world
objects and its other objects. -/
structure Square (Item : Type) where
  access : Bool
  worldObjects : List (Option Item)
  objects : List (Object Item)

/-- Which of the world objects or of the objects of a square. -/
inductive Holder
  | world (i : ℕ)
  | object (i : ℕ)
  deriving DecidableEq

/-- Where an item can be taken from. -/
structure Source (Item : Type) where
  square : ℤ × ℤ
  holder : Holder
  item : Item
  deriving DecidableEq

/-- `squareSources`. -/
def squareSources (point : ℤ × ℤ) (square : Square Item) (accept : Item → Bool) (body : Bool) :
    List (Source Item) :=
  if body && !square.access then []
  else
    square.worldObjects.zipIdx.filterMap (fun (item, i) =>
        (item.filter accept).map fun item => ⟨point, .world i, item⟩) ++
      square.objects.zipIdx.flatMap fun (object, i) =>
        match object.container with
        | none => []
        | some items =>
          if containerAccessible body object then
            (items.filter accept).map fun item => ⟨point, .object i, item⟩
          else []

/-- The arguments of a search, and the level of the world it goes over. -/
structure Query (Item : Type) where
  world : ℤ × ℤ → Option (Square Item)
  center : ℚ × ℚ
  maxRadius : ℚ
  accept : Item → Bool
  body : Bool
  skip : ℤ × ℤ → Bool

/-- The square at an offset. -/
def Query.point (q : Query Item) (o : Offset) : ℤ × ℤ :=
  (⌊q.center.1⌋ + o.1, ⌊q.center.2⌋ + o.2)

/-- What `visit` finds at an offset. -/
def Query.sourcesAt (q : Query Item) (o : Offset) : List (Source Item) :=
  match q.world (q.point o) with
  | none => []
  | some square =>
    if q.skip (q.point o) then [] else squareSources (q.point o) square q.accept q.body

/-- `visit`. -/
def Query.visit (q : Query Item) (o : Offset) : Bool := !(q.sourcesAt o).isEmpty

/-- The distance `nearestFirst` compares, from the middle of the square. -/
def Query.distance (q : Query Item) (s : Source Item) : ℚ :=
  (s.square.1 + 1 / 2 - q.center.1) ^ 2 + (s.square.2 + 1 / 2 - q.center.2) ^ 2

/-- What `table.sort` promises: the same elements, none before a smaller one.
Equal ones may come in any order. -/
structure TableSort {α : Type} (key : α → ℚ) where
  sort : List α → List α
  perm : ∀ l, (sort l).Perm l
  sorted : ∀ l, (sort l).Pairwise fun a b => key a ≤ key b

/-- What a search keeps between calls. -/
structure State (Item : Type) where
  cursor : Cursor
  found : List (Source Item)

/-- A search that starts. -/
def State.start : State Item := ⟨.start, []⟩

/-- `World.search`. -/
def Query.search (q : Query Item) (nearestFirst : TableSort q.distance) (state : State Item)
    (budget : Option ℚ) : Option (List (Source Item)) × State Item :=
  let call := rings q.visit q.maxRadius state.cursor budget
  let found := state.found ++ call.2.2.flatMap q.sourcesAt
  if call.1 then (some (nearestFirst.sort found), ⟨call.2.1, nearestFirst.sort found⟩)
  else (none, ⟨call.2.1, found⟩)

/-- The calls of a search up to the one that hands back what it found. -/
def Query.searches (q : Query Item) (nearestFirst : TableSort q.distance) :
    State Item → List (Option ℚ) → Option (List (Source Item))
  | _, [] => none
  | state, budget :: rest =>
    match q.search nearestFirst state budget with
    | (some found, _) => some found
    | (none, state) => q.searches nearestFirst state rest

/-! ## What a search hands back -/

variable {q : Query Item} {nearestFirst : TableSort q.distance}

/-- **The calls of a search** hand back what their squares hold. -/
theorem searches_eq (budgets : List (Option ℚ)) (state : State Item) :
    q.searches nearestFirst state budgets =
      (calls q.visit q.maxRadius state.cursor budgets).map fun r =>
        nearestFirst.sort (state.found ++ r.2.flatMap q.sourcesAt) := by
  induction budgets generalizing state with
  | nil => rfl
  | cons budget rest ih =>
    unfold Query.searches calls Query.search
    dsimp only
    by_cases hover : (rings q.visit q.maxRadius state.cursor budget).1 = true
    · rw [if_pos hover, if_pos hover]
      rfl
    · rw [if_neg hover, if_neg hover]
      dsimp only
      rw [ih, Option.map_map]
      congr 1
      funext r
      simp only [Function.comp_apply, List.flatMap_append, List.append_assoc]

/-- Where a source lies, seen from the centre. -/
def Query.offset (q : Query Item) (s : Source Item) : Offset :=
  (s.square.1 - ⌊q.center.1⌋, s.square.2 - ⌊q.center.2⌋)

/-- The ring a source lies on. -/
def Query.ring (q : Query Item) (s : Source Item) : ℕ := (q.offset s).ring

/-- A source within the radius that the search accepts. -/
def Query.Matches (q : Query Item) (s : Source Item) : Prop :=
  (q.ring s : ℚ) ≤ q.maxRadius ∧ s ∈ q.sourcesAt (q.offset s)

theorem squareSources_square {point : ℤ × ℤ} {square : Square Item} {accept : Item → Bool}
    {body : Bool} {s : Source Item} (h : s ∈ squareSources point square accept body) :
    s.square = point := by
  unfold squareSources at h
  split at h
  · cases h
  · rcases List.mem_append.1 h with hfloor | hobject
    · obtain ⟨⟨item, i⟩, -, hmap⟩ := List.mem_filterMap.1 hfloor
      obtain ⟨item', -, rfl⟩ := Option.map_eq_some_iff.1 hmap
      rfl
    · obtain ⟨⟨object, i⟩, -, hin⟩ := List.mem_flatMap.1 hobject
      dsimp only at hin
      split at hin
      · cases hin
      · split at hin
        · obtain ⟨item, -, rfl⟩ := List.mem_map.1 hin
          rfl
        · cases hin

/-- A source lies on the square it was found on. -/
theorem offset_of_mem {o : Offset} {s : Source Item} (h : s ∈ q.sourcesAt o) : q.offset s = o := by
  unfold Query.sourcesAt at h
  split at h
  · cases h
  · split at h
    · cases h
    · unfold Query.offset
      rw [squareSources_square h]
      unfold Query.point
      simp

/-- What some rings hold. -/
theorem mem_sources {n : ℕ} {s : Source Item} :
    s ∈ (ringsList 0 n).flatMap q.sourcesAt ↔ q.ring s < n ∧ s ∈ q.sourcesAt (q.offset s) := by
  rw [List.mem_flatMap]
  constructor
  · rintro ⟨o, ho, hs⟩
    have hoffset := offset_of_mem hs
    have hring := (mem_ringsList.1 ho).2
    unfold Query.ring
    rw [hoffset]
    exact ⟨by omega, hs⟩
  · rintro ⟨hring, hs⟩
    unfold Query.ring at hring
    exact ⟨q.offset s, mem_ringsList.2 ⟨by omega, by omega⟩, hs⟩

/-- A hit in some rings is a source there. -/
theorem any_visit {n : ℕ} :
    (ringsList 0 n).any q.visit = true ↔ ∃ s, q.ring s < n ∧ s ∈ q.sourcesAt (q.offset s) := by
  rw [List.any_eq_true]
  constructor
  · rintro ⟨o, ho, hvisit⟩
    unfold Query.visit at hvisit
    rw [Bool.not_eq_true', List.isEmpty_eq_false_iff_exists_mem] at hvisit
    obtain ⟨s, hs⟩ := hvisit
    exact ⟨s, mem_sources.1 (List.mem_flatMap.2 ⟨o, ho, hs⟩)⟩
  · rintro ⟨s, hs⟩
    obtain ⟨o, ho, hmem⟩ := List.mem_flatMap.1 (mem_sources.2 hs)
    refine ⟨o, ho, ?_⟩
    unfold Query.visit
    rw [Bool.not_eq_true', List.isEmpty_eq_false_iff_exists_mem]
    exact ⟨s, hmem⟩

/-- **What a search finds**: every match of the rings up to a band's end or
the radius, and no match lies before the last band of these. -/
theorem searches_spec {budgets : List (Option ℚ)} {found : List (Source Item)}
    (h : q.searches nearestFirst .start budgets = some found) :
    ∃ n, (∀ s, s ∈ found ↔ q.Matches s ∧ q.ring s < n) ∧
      (q.maxRadius < n ∨ n % band = 0 ∧ ∃ s, q.Matches s ∧ q.ring s < n) ∧
      ∀ s, q.Matches s → (n - 1) / band ≤ q.ring s / band := by
  rw [searches_eq] at h
  obtain ⟨⟨c, seen⟩, hcalls, hfound⟩ := Option.map_eq_some_iff.1 h
  have hstart : Cursor.start.Within := perimeter_pos 0
  have hwhole : rings q.visit q.maxRadius .start none = (true, c, seen) := calls_eq hstart hcalls
  obtain ⟨n, hrings, hcovers⟩ := rings_covers q.visit q.maxRadius .start rfl
  rw [hwhole] at hrings
  obtain rfl : seen = ringsList 0 n := congrArg (fun r => r.2.2) hrings
  obtain ⟨hwithin, hends, hfirst⟩ := hcovers
  have hr : Cursor.start.r = 0 := rfl
  have hhit : Cursor.start.hit = false := rfl
  simp only [hr, hhit, Nat.zero_add, Bool.false_or] at hwithin hends hfirst
  have hmatches {s : Source Item} (hs : q.ring s < n ∧ s ∈ q.sourcesAt (q.offset s)) :
      q.Matches s := ⟨hwithin _ hs.1, hs.2⟩
  refine ⟨n, fun s => ?_, ?_, fun s hs => ?_⟩
  · rw [← hfound, (nearestFirst.perm _).mem_iff]
    show s ∈ [] ++ (ringsList 0 n).flatMap q.sourcesAt ↔ _
    rw [List.nil_append, mem_sources]
    exact ⟨fun hs => ⟨hmatches hs, hs.1⟩, fun hs => ⟨hs.2, hs.1.2⟩⟩
  · refine hends.imp id ?_
    rintro ⟨-, hband, hany⟩
    obtain ⟨s, hs⟩ := any_visit.1 hany
    exact ⟨hband, s, hmatches hs, hs.1⟩
  · by_contra hbefore
    -- A match before the last band would have ended the rings there.
    have hearly : q.ring s < (n - 1) / band * band := by
      unfold band at hbefore ⊢
      omega
    have hlast : (n - 1) / band * band < n := by
      have hpos : 0 < n := by
        rcases Nat.eq_zero_or_pos n with rfl | hpos
        · simp at hearly
        · exact hpos
      unfold band
      omega
    have hnone := hfirst _ (by omega) hlast (Nat.mul_mod_left _ _)
    rw [any_visit.2 ⟨s, hearly, hs.2⟩] at hnone
    cases hnone

/-- A match is found when there is one. -/
theorem searches_ne_nil {budgets : List (Option ℚ)} {found : List (Source Item)} {s : Source Item}
    (h : q.searches nearestFirst .start budgets = some found) (hs : q.Matches s) : found ≠ [] := by
  obtain ⟨n, hmem, hends, -⟩ := searches_spec h
  rcases hends with hradius | ⟨-, t, ht⟩
  · have hring : (q.ring s : ℚ) < n := lt_of_le_of_lt hs.1 hradius
    exact List.ne_nil_of_mem ((hmem s).2 ⟨hs, by exact_mod_cast hring⟩)
  · exact List.ne_nil_of_mem ((hmem t).2 ht)

/-- What is handed back is sorted. -/
theorem searches_sorted {budgets : List (Option ℚ)} {found : List (Source Item)}
    (h : q.searches nearestFirst .start budgets = some found) :
    found.Pairwise fun a b => q.distance a ≤ q.distance b := by
  rw [searches_eq] at h
  obtain ⟨r, -, hfound⟩ := Option.map_eq_some_iff.1 h
  rw [← hfound]
  exact nearestFirst.sorted _

/-! ## Nearest first -/

/-- The first source is at the least distance among the matches within the
radius. -/
def Query.NearestFirst (q : Query Item) (found : List (Source Item)) : Prop :=
  ∀ first, found.head? = some first → ∀ s, q.Matches s → q.distance first ≤ q.distance s

/-- No match is nearer than all those of the first band of rings with a match. -/
def Query.NearestInBand (q : Query Item) : Prop :=
  ∀ s, q.Matches s →
    ∃ t, q.Matches t ∧ (∀ u, q.Matches u → q.ring t / band ≤ q.ring u / band) ∧
      q.distance t ≤ q.distance s

/-- **Nearest first, exactly when** a nearest match lies in the first band of
rings with a match. -/
theorem search_nearest_iff {budgets : List (Option ℚ)} {found : List (Source Item)}
    (h : q.searches nearestFirst .start budgets = some found) :
    q.NearestFirst found ↔ q.NearestInBand := by
  obtain ⟨n, hmem, hends, hbands⟩ := searches_spec h
  constructor
  · intro hnearest s hs
    obtain ⟨first, rest, rfl⟩ := List.exists_cons_of_ne_nil (searches_ne_nil h hs)
    obtain ⟨hfirst, hring⟩ := (hmem first).1 List.mem_cons_self
    refine ⟨first, hfirst, fun u hu => ?_, hnearest first rfl s hs⟩
    have hband := hbands u hu
    unfold band at hband ⊢
    omega
  · intro hband first hhead s hs
    obtain ⟨t, ht, hleast, hdistance⟩ := hband s hs
    have htn : q.ring t < n := by
      rcases hends with hradius | ⟨hmod, u, hu, hun⟩
      · have hring : (q.ring t : ℚ) < n := lt_of_le_of_lt ht.1 hradius
        exact_mod_cast hring
      · have hle := hleast u hu
        unfold band at hle hmod
        omega
    have hfound : t ∈ found := (hmem t).2 ⟨ht, htn⟩
    have hsorted := searches_sorted h
    obtain ⟨rest, rfl⟩ := List.head?_eq_some_iff.1 hhead
    rcases List.mem_cons.1 hfound with rfl | hrest
    · exact hdistance
    · exact le_trans ((List.pairwise_cons.1 hsorted).1 t hrest) hdistance

/-- `table.sort`, as a stable sort. -/
def TableSort.stable {α : Type} (key : α → ℚ) : TableSort key where
  sort l := l.mergeSort fun a b => key a ≤ key b
  perm l := List.mergeSort_perm l _
  sorted l := by
    have h := @List.pairwise_mergeSort _ (fun a b => decide (key a ≤ key b))
      (fun a b c hab hbc => by
        rw [decide_eq_true_eq] at hab hbc ⊢
        exact le_trans hab hbc)
      (fun a b => by
        rw [Bool.or_eq_true, decide_eq_true_eq, decide_eq_true_eq]
        exact le_total _ _) l
    exact h.imp fun hab => of_decide_eq_true hab

/-- An item on the floor at `(3, 3)` and one at `(4, 0)`, with the centre in
the middle of a square. -/
def corner : Query ℕ where
  world point :=
    if point = (3, 3) then some ⟨true, [some 0], []⟩
    else if point = (4, 0) then some ⟨true, [some 1], []⟩
    else none
  center := (1 / 2, 1 / 2)
  maxRadius := 150
  accept _ := true
  body := true
  skip _ := false

/-- One call finds the item in the corner of the first band. -/
theorem search_corner :
    corner.searches (TableSort.stable corner.distance) .start [none] =
      some [⟨(3, 3), .world 0, 0⟩] := by
  decide +kernel

/-- The iff on that search. -/
theorem search_nearest_iff_corner :
    corner.NearestFirst [⟨(3, 3), .world 0, 0⟩] ↔ corner.NearestInBand :=
  search_nearest_iff search_corner

/-- **The square ahead is nearer than the corner**, and the rings end before
it. -/
theorem corner_is_farther :
    ∃ (q : Query ℕ) (nearestFirst : TableSort q.distance) (budgets : List (Option ℚ))
      (found : List (Source ℕ)),
      q.searches nearestFirst .start budgets = some found ∧ ¬q.NearestFirst found := by
  refine ⟨corner, .stable _, [none], _, search_corner, ?_⟩
  intro hnearest
  have hahead : corner.Matches ⟨(4, 0), .world 0, 1⟩ := by
    unfold Query.Matches
    decide +kernel
  have hle := hnearest _ rfl _ hahead
  revert hle
  decide +kernel

end Search

end GoblinZomboid
