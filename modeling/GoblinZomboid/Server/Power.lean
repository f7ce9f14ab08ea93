import GoblinZomboid.Server.Rings
import Mathlib.Data.List.MinMax
import Mathlib.Data.Int.ConditionallyCompleteOrder
/-!
# `Power.findGenerator`: the nearest generator

A search spread over calls keeps the best generator of the first call that has
one, and compares none of a later call with it. It is the nearest one exactly
when that call goes to a nearest one.
-/

namespace GoblinZomboid

namespace Power

open Rings

variable {Gen : Type}

/-- A square of the world. -/
abbrev Point := ℤ × ℤ × ℤ

/-- A loaded square: its objects, those that are generators, and what the
policy says. -/
structure Square (Gen : Type) where
  objects : List (Option Gen)
  access : Bool

/-- `generatorOn`. -/
def Square.generatorOn (square : Square Gen) : Option Gen := square.objects.findSome? id

/-- The arguments of `Power.findGenerator` that do not change, and the world. -/
structure Query (Gen : Type) where
  world : Point → Option (Square Gen)
  anchor : Point
  radius : ℚ
  /-- The position of a generator's square. -/
  squareOf : Gen → Option Point

/-- A generator, and where it is found, seen from the anchor. -/
structure Hit (Gen : Type) where
  generator : Gen
  offset : Offset
  deriving DecidableEq

def Hit.distance (h : Hit Gen) : ℤ := h.offset.1 * h.offset.1 + h.offset.2 * h.offset.2

variable (q : Query Gen)

/-- The generator at an offset, where the policy allows it. -/
def Query.hitAt (o : Offset) : Option (Hit Gen) :=
  match q.world (q.anchor.1 + o.1, q.anchor.2.1 + o.2, q.anchor.2.2) with
  | none => none
  | some square =>
    match square.generatorOn with
    | none => none
    | some generator => if square.access then some ⟨generator, o⟩ else none

/-- `visit`. -/
def Query.visit (o : Offset) : Bool := (q.hitAt o).isSome

/-- What `visit` leaves in `best`. -/
def Query.nearest (seen : List Offset) : Option (Hit Gen) :=
  (seen.filterMap q.hitAt).foldl
    (fun best hit =>
      match best with
      | none => some hit
      | some best => if hit.distance < best.distance then some hit else some best) none

/-- `Body.data`, with the generator that is remembered. -/
abbrev Data := Option (Option Point)

/-- The generator that is remembered, where it is still there and within the
radius. -/
def Query.remembered (data : Data) : Option (Hit Gen) :=
  match data.join with
  | none => none
  | some known =>
    let o : Offset := (known.1 - q.anchor.1, known.2.1 - q.anchor.2.1)
    if known.2.2 = q.anchor.2.2 ∧ ((o.1 ^ 2 + o.2 ^ 2 : ℤ) : ℚ) ≤ q.radius * q.radius then
      q.hitAt o
    else none

/-- The state table of a search. -/
structure State (Gen : Type) where
  cursor : Cursor
  best : Option (Hit Gen)

/-- What a call returns and leaves. -/
structure Answer (Gen : Type) where
  best : Option (Hit Gen)
  finished : Bool
  state : Option (State Gen)
  data : Data

/-- `Power.findGenerator`. -/
def Query.findGenerator (data : Data) (state : Option (State Gen)) (budget : Option ℚ) :
    Answer Gen :=
  match q.remembered data with
  | some known => ⟨some known, true, state, data⟩
  | none =>
    let call := rings q.visit q.radius ((state.map (·.cursor)).getD .start) budget
    let best := q.nearest call.2.2
    if state.isSome && !call.1 then
      ⟨none, false, state.map fun s => ⟨call.2.1, s.best.or best⟩, data⟩
    else
      let best := (state.bind (·.best)).or best
      let found := best.bind fun hit => q.squareOf hit.generator
      ⟨best, true, state.map fun s => ⟨call.2.1, s.best⟩,
        if data.isSome && found.isSome then some found else data⟩

/-- The calls with one state table, up to the one that reports finished. -/
def Query.searches (q : Query Gen) : Data → Option (State Gen) → List (Option ℚ) → Option (Option (Hit Gen))
  | _, _, [] => none
  | data, state, budget :: rest =>
    let answer := q.findGenerator data state budget
    if answer.finished then some answer.best else q.searches answer.data answer.state rest

/-- An empty state table. -/
def State.start : State Gen := ⟨.start, none⟩

/-! ## The nearest of some squares -/

variable {q}

theorem nearest_eq_argmin (seen : List Offset) :
    q.nearest seen = (seen.filterMap q.hitAt).argmin Hit.distance := by
  unfold Query.nearest List.argmin
  congr 1
  funext best hit
  cases best with
  | none => rfl
  | some best => rfl

theorem nearest_eq_none {seen : List Offset} :
    q.nearest seen = none ↔ seen.any q.visit = false := by
  rw [nearest_eq_argmin, List.argmin_eq_none, List.filterMap_eq_nil_iff, List.any_eq_false]
  simp only [Query.visit, Bool.not_eq_true, Option.isSome_eq_false_iff, Option.isNone_iff_eq_none]

theorem hitAt_offset {o : Offset} {h : Hit Gen} (hhit : q.hitAt o = some h) : h.offset = o := by
  unfold Query.hitAt at hhit
  split at hhit
  · cases hhit
  split at hhit
  · cases hhit
  split at hhit
  · cases hhit
    rfl
  · cases hhit

/-- The nearest of some squares is on one of them, and none is nearer. -/
theorem nearest_eq_some {seen : List Offset} {h : Hit Gen} (hn : q.nearest seen = some h) :
    (h.offset ∈ seen ∧ q.hitAt h.offset = some h) ∧
      ∀ o ∈ seen, ∀ h', q.hitAt o = some h' → h.distance ≤ h'.distance := by
  rw [nearest_eq_argmin] at hn
  have hmem : h ∈ (seen.filterMap q.hitAt).argmin Hit.distance := hn
  refine ⟨?_, fun o ho h' hh' => ?_⟩
  · obtain ⟨o, ho, hhit⟩ := List.mem_filterMap.1 (List.argmin_mem hmem)
    rw [hitAt_offset hhit]
    exact ⟨ho, hhit⟩
  · exact List.le_of_mem_argmin (List.mem_filterMap.2 ⟨o, ho, hh'⟩) hmem

/-! ## A search in portions -/

/-- The squares each call goes to, as the budgets pay for them. -/
def portions {α : Type} : List (Option ℚ) → List α → List (List α)
  | [], _ => []
  | budget :: rest, l => (paid budget l).1 :: portions rest (paid budget l).2

theorem portions_nil {α : Type} (budgets : List (Option ℚ)) :
    (portions budgets ([] : List α)).flatten = [] := by
  induction budgets with
  | nil => rfl
  | cons budget rest ih =>
    have hpaid : paid budget ([] : List α) = ([], []) := by
      cases budget <;> simp [paid]
    unfold portions
    rw [hpaid, List.flatten_cons, ih]
    rfl

theorem paid_append {α : Type} (budget : Option ℚ) (l : List α) :
    (paid budget l).1 ++ (paid budget l).2 = l := by
  cases budget with
  | none => exact List.append_nil l
  | some b => exact List.take_append_drop _ l

/-- The squares a search goes to, in their order. -/
def Query.order (q : Query Gen) (c : Cursor) : List Offset := (rings q.visit q.radius c none).2.2

/-- What is found in portions: what was carried, else the nearest of the first
portion that has one. -/
def Query.inPortions (q : Query Gen) (best : Option (Hit Gen)) (l : List (List Offset)) :
    Option (Hit Gen) := best.or (l.findSome? q.nearest)

variable {data : Data}

/-- One call, where none is remembered. -/
theorem findGenerator_eq (hknown : q.remembered data = none) (s : State Gen) (budget : Option ℚ) :
    q.findGenerator data (some s) budget =
      let call := rings q.visit q.radius s.cursor budget
      let best := s.best.or (q.nearest call.2.2)
      if call.1 then
        let found := best.bind fun hit => q.squareOf hit.generator
        ⟨best, true, some ⟨call.2.1, s.best⟩, if data.isSome && found.isSome then some found else data⟩
      else ⟨none, false, some ⟨call.2.1, best⟩, data⟩ := by
  unfold Query.findGenerator
  rw [hknown]
  dsimp only [Option.map_some, Option.getD_some, Option.isSome_some, Option.bind_some]
  cases (rings q.visit q.radius s.cursor budget).1 <;> rfl

/-- **What a search comes to**: what is found in the portions its budgets cut
the squares into, and they are all of them. -/
theorem searches_eq_inPortions (hknown : q.remembered data = none) {budgets : List (Option ℚ)}
    (hb : ∀ budget ∈ budgets, ∀ b ∈ budget, 0 < b) {s : State Gen} (hc : s.cursor.Within)
    {found : Option (Hit Gen)} (h : q.searches data (some s) budgets = some found) :
    found = q.inPortions s.best (portions budgets (q.order s.cursor)) ∧
      (portions budgets (q.order s.cursor)).flatten = q.order s.cursor := by
  induction budgets generalizing s with
  | nil => cases h
  | cons budget rest ih =>
    obtain ⟨hseen, hleft⟩ :=
      rings_paid q.visit q.radius s.cursor budget hc (hb budget List.mem_cons_self)
    have hsplit := rings_split q.visit q.radius s.cursor budget hc
    unfold Query.searches at h
    dsimp only at h
    rw [findGenerator_eq hknown] at h
    dsimp only at h
    unfold portions Query.inPortions
    rw [List.findSome?_cons, List.flatten_cons]
    change _ = (paid budget (q.order s.cursor)).1 at hseen
    change (paid budget (q.order s.cursor)).2 = _ at hleft
    by_cases hover : (rings q.visit q.radius s.cursor budget).1 = true
    · -- The last call: nothing is left for the rest of the budgets.
      rw [if_pos hover] at h hleft
      rw [if_pos rfl] at h
      obtain rfl := Option.some_inj.1 h
      have hrest : portions rest (paid budget (q.order s.cursor)).2 =
          portions rest ([] : List Offset) := by rw [hleft]
      have hnone : (portions rest ([] : List Offset)).findSome? q.nearest = none := by
        rw [List.findSome?_eq_none_iff]
        intro portion hportion
        have hnil : portion = [] :=
          List.flatten_eq_nil_iff.1 (portions_nil rest) portion hportion
        rw [hnil]
        rfl
      rw [hrest, hnone, portions_nil]
      refine ⟨?_, ?_⟩
      · rw [hseen]
        cases q.nearest (paid budget (q.order s.cursor)).1 <;> simp
      · have hall := paid_append budget (q.order s.cursor)
        rw [hleft] at hall
        exact hall
    · rw [if_neg hover] at h hleft hsplit
      rw [if_neg (by simp)] at h
      obtain ⟨hfound, hall⟩ := ih (fun b hmem => hb b (List.mem_cons_of_mem _ hmem)) hsplit.1 h
      change (paid budget (q.order s.cursor)).2 = q.order _ at hleft
      dsimp only at hfound hall
      rw [hseen] at hfound
      rw [hleft]
      refine ⟨?_, ?_⟩
      · rw [hfound]
        unfold Query.inPortions
        cases s.best <;> cases q.nearest (paid budget (q.order s.cursor)).1 <;> simp
      · rw [hall, ← hleft]
        exact paid_append budget _

/-- A search ends when the calls of `World.rings` do. -/
theorem isSome_searches (hknown : q.remembered data = none) (budgets : List (Option ℚ))
    (s : State Gen) :
    (q.searches data (some s) budgets).isSome =
      (calls q.visit q.radius s.cursor budgets).isSome := by
  induction budgets generalizing s with
  | nil => rfl
  | cons budget rest ih =>
    unfold Query.searches calls
    dsimp only
    rw [findGenerator_eq hknown]
    dsimp only
    by_cases hover : (rings q.visit q.radius s.cursor budget).1 = true
    · rw [if_pos hover, if_pos hover]
      rfl
    · rw [if_neg hover, if_neg hover, Option.isSome_map]
      exact ih _

/-! ## The nearest generator -/

/-- One call without a state and a budget. -/
theorem oneShot_best (hknown : q.remembered data = none) :
    (q.findGenerator data none none).best = q.nearest (q.order .start) := by
  unfold Query.findGenerator
  rw [hknown]
  rfl

/-- **In time**: the first portion with a generator has one as near as any that
the search goes to. -/
def Query.InTime (q : Query Gen) (budgets : List (Option ℚ)) : Prop :=
  ∀ portion, (portions budgets (q.order .start)).find? (·.any q.visit) = some portion →
    ∃ o ∈ portion, ∃ h, q.hitAt o = some h ∧
      ∀ o' ∈ q.order .start, ∀ h', q.hitAt o' = some h' → h.distance ≤ h'.distance

/-- Where the first that has a nearest is, is the first that has a hit. -/
theorem findSome?_nearest (l : List (List Offset)) :
    l.findSome? q.nearest = (l.find? (·.any q.visit)).bind q.nearest := by
  induction l with
  | nil => rfl
  | cons portion l ih =>
    rw [List.findSome?_cons, List.find?_cons]
    cases hany : portion.any q.visit with
    | false =>
      rw [nearest_eq_none.2 hany]
      exact ih
    | true =>
      cases hn : q.nearest portion with
      | none =>
        rw [nearest_eq_none, hany] at hn
        cases hn
      | some h => exact hn.symm

/-- **A search over calls comes to an end**, and to a generator as near as one
call without a state finds exactly when the first portion with a generator has
a nearest one. -/
theorem budgeted_iff_inTime (hknown : q.remembered data = none) (budgets : List (Option ℚ))
    (hb : ∀ budget ∈ budgets, ∀ b ∈ budget, 1 ≤ b) :
    ((q.order .start).length < budgets.length →
      (q.searches data (some .start) budgets).isSome = true) ∧
    ∀ found, q.searches data (some .start) budgets = some found →
      (found.map Hit.distance = (q.findGenerator data none none).best.map Hit.distance ↔
        q.InTime budgets) := by
  have hwithin : (State.start : State Gen).cursor.Within := perimeter_pos 0
  refine ⟨fun hlen => ?_, fun found h => ?_⟩
  · rw [isSome_searches hknown]
    exact calls_isSome hwithin hlen
  obtain ⟨hfound, hall⟩ := searches_eq_inPortions hknown
    (fun budget hmem b hbudget => one_pos.trans_le (hb budget hmem b hbudget)) hwithin h
  change found = (portions budgets (q.order .start)).findSome? q.nearest at hfound
  change (portions budgets (q.order .start)).flatten = q.order .start at hall
  rw [oneShot_best hknown, hfound, findSome?_nearest]
  cases hfind : (portions budgets (q.order .start)).find? (·.any q.visit) with
  | none =>
    have hnone : q.nearest (q.order .start) = none := by
      rw [nearest_eq_none, ← hall, List.any_flatten]
      rw [List.find?_eq_none] at hfind
      exact List.any_eq_false.2 hfind
    rw [hnone]
    refine iff_of_true rfl fun portion hportion => ?_
    rw [hfind] at hportion
    cases hportion
  | some portion =>
    have hany := List.find?_some hfind
    have hsub : ∀ o ∈ portion, o ∈ q.order .start := fun o ho => by
      rw [← hall]
      exact List.mem_flatten.2 ⟨portion, List.mem_of_find?_eq_some hfind, ho⟩
    obtain ⟨h, hn⟩ : ∃ h, q.nearest portion = some h := by
      refine Option.ne_none_iff_exists'.1 fun hn => ?_
      rw [nearest_eq_none, hany] at hn
      cases hn
    obtain ⟨⟨hmem, hhit⟩, hleast⟩ := nearest_eq_some hn
    obtain ⟨w, hw⟩ : ∃ w, q.nearest (q.order .start) = some w := by
      refine Option.ne_none_iff_exists'.1 fun hn' => ?_
      rw [nearest_eq_none, List.any_eq_false] at hn'
      exact hn' h.offset (hsub _ hmem) (by rw [Query.visit, hhit]; rfl)
    obtain ⟨⟨hmemw, hhitw⟩, hleastw⟩ := nearest_eq_some hw
    rw [Option.bind_some, hn, hw, Option.map_some, Option.map_some, Option.some_inj]
    constructor
    · intro heq portion' hportion'
      rw [hfind] at hportion'
      obtain rfl := Option.some_inj.1 hportion'
      exact ⟨h.offset, hmem, h, hhit, fun o' ho' h' hh' => heq.le.trans (hleastw o' ho' h' hh')⟩
    · intro hin
      obtain ⟨o, ho, h', hh', hmin⟩ := hin portion hfind
      refine le_antisymm ?_ (hleastw _ (hsub _ hmem) h hhit)
      exact (hleast o ho h' hh').trans (hmin _ hmemw w hhitw)

/-- A generator at a corner, and the next square has a nearer one. -/
def twoGenerators : Query ℕ where
  world point :=
    if point = (-1, -1, 0) then some ⟨[none, some 0], true⟩
    else if point = (0, -1, 0) then some ⟨[none, some 1], true⟩
    else none
  anchor := (0, 0, 0)
  radius := 8
  squareOf g := if g = 0 then some (-1, -1, 0) else some (0, -1, 0)

/-- The law of the search on them, cut between the two. -/
theorem budgeted_iff_inTime_twoGenerators :
    (some ⟨0, -1, -1⟩ : Option (Hit ℕ)).map Hit.distance =
        (twoGenerators.findGenerator (some none) none none).best.map Hit.distance ↔
      twoGenerators.InTime [some 2, some 60] :=
  (budgeted_iff_inTime (by decide) [some 2, some 60] (by decide)).2 _ (by decide +kernel)

/-- **The nearer generator is not taken**: it comes one call too late. -/
theorem budgeted_ne_oneShot :
    ∃ (q : Query ℕ) (data : Data) (budgets : List (Option ℚ)) (found : Option (Hit ℕ)),
      q.remembered data = none ∧ (∀ budget ∈ budgets, ∀ b ∈ budget, 1 ≤ b) ∧
        q.searches data (some .start) budgets = some found ∧
        found.map Hit.distance ≠ (q.findGenerator data none none).best.map Hit.distance :=
  ⟨twoGenerators, some none, [some 2, some 60], some ⟨0, -1, -1⟩, by decide, by decide,
    by decide +kernel, by decide +kernel⟩

end Power

end GoblinZomboid
