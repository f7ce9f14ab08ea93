import GoblinZomboid.Server.Materials
/-!
# `GoblinWork.lua`: boards, blueprints and their materials

The engine is asked to board a window or to build on a square. Where that
fails, the structures are counted once more: as many as before, and the
materials are given back; more, and they are not. Boards are counted or not;
an object of a square that cannot be read counts as none.
-/

namespace GoblinZomboid

namespace Custody

namespace Boards

open Materials

/-! ## Lists of the engine -/

/-- What a list answers. -/
structure Listing where
  size : Bool
  get : ℕ → Bool
  iterator : Bool
  /-- `hasNext` and `next`. -/
  next : ℕ → Bool

/-- A list that answers everything. -/
def Listing.clear : Listing := ⟨true, fun _ => true, true, fun _ => true⟩

/-- What can be read item by item. -/
def indexed (get : ℕ → Bool) : ℕ → List Item → List Item
  | _, [] => []
  | n, i :: rest => if get n then i :: indexed get (n + 1) rest else indexed get (n + 1) rest

/-- What can be read one after the other. -/
def iterated (next : ℕ → Bool) : ℕ → List Item → List Item
  | _, [] => []
  | n, i :: rest => if next n then i :: iterated next (n + 1) rest else []

/-- `World.values`: a size that cannot be read is none. -/
def values (e : Listing) (list : List Item) : List Item :=
  if !e.size || list.isEmpty then []
  else if e.get 0 then indexed e.get 0 list
  else if e.iterator then iterated e.next 0 list
  else []

/-! ## The site -/

/-- The window's barricade on Goblin's side, by its planks, and the objects of
the square. -/
structure Site where
  boards : Option ℕ
  objects : List Item

/-- The reads of a count. -/
structure Counting where
  /-- `getBarricadeForCharacter`. -/
  looked : Bool
  /-- `getNumPlanks`. -/
  counted : Bool
  /-- `getObjects`. -/
  listed : Bool
  list : Listing

/-- `boardCount`. -/
def boardCount (e : Counting) (s : Site) : Option ℕ :=
  if !e.looked then none
  else
    match s.boards with
    | none => some 0
    | some planks => if e.counted then some planks else none

/-- `objectCount`. -/
def objectCount (e : Counting) (s : Site) : Option ℕ :=
  if !e.listed then none else some (values e.list s.objects).length

/-! ## The work -/

/-- The calls of `barricade`; the engine leaves what boards it will. -/
structure Boarding where
  looked : Bool
  /-- `getNumPlanks` of the barricade there is. -/
  numbered : Except String Unit
  /-- `AddBarricadeToObject`: whether it returns one, and what it leaves. -/
  offered : Except String Bool
  framed : Option ℕ
  /-- `addPlank`, and what it leaves. -/
  planked : Except String Unit
  boards : Option ℕ
  checked : Except String Unit
  /-- `IsoObjectChange.STATE`. -/
  told : Except String Unit

/-- `barricade` under `pcall`: done, or why not. -/
def barricade (e : Boarding) (s : Site) : Except String Unit × Site :=
  let existing := if e.looked then s.boards else none
  match if existing.isSome then e.numbered else .ok () with
  | .error raised => (.error raised, s)
  | .ok () =>
    let before := existing.getD 0
    if 4 ≤ before then (.error "already boarded", s)
    else
      let s := if existing.isSome then s else { s with boards := e.framed }
      match if existing.isSome then .ok true else e.offered with
      | .error raised => (.error raised, s)
      | .ok false => (.error "barricade unavailable", s)
      | .ok true =>
        let s := { s with boards := e.boards }
        match e.planked with
        | .error raised => (.error raised, s)
        | .ok () =>
          match e.checked with
          | .error raised => (.error raised, s)
          | .ok () =>
            if s.boards.getD 0 ≠ before + 1 then (.error "plank was not added", s)
            else (if before = 0 then .ok () else e.told, s)

/-- The calls of `build`; the engine leaves what objects it will. -/
structure Construction where
  /-- `isFree`. -/
  free : Except String Bool
  /-- `getWall` and `getDoorOrWindow`. -/
  edged : Except String Bool
  /-- The new object and what is set of it. -/
  made : Except String Unit
  /-- `AddSpecialObject`, and what it leaves. -/
  added : Except String Unit
  objects : List Item
  /-- `getObjectIndex` is one of the square. -/
  placed : Except String Bool

/-- `build` under `pcall`: done, or why not. -/
def build (kind : String) (e : Construction) (s : Site) : Except String Unit × Site :=
  match e.free with
  | .error raised => (.error raised, s)
  | .ok false => (.error "building square is occupied", s)
  | .ok true =>
    match if kind = "crate" then .ok false else e.edged with
    | .error raised => (.error raised, s)
    | .ok true => (.error "this edge already has a wall, door, or window", s)
    | .ok false =>
      match e.made with
      | .error raised => (.error raised, s)
      | .ok () =>
        let s := { s with objects := e.objects }
        match e.added with
        | .error raised => (.error raised, s)
        | .ok () =>
          match e.placed with
          | .error raised => (.error raised, s)
          | .ok false => (.error "false", s)
          | .ok true => (.ok (), s)

/-- What the engine is asked for. -/
inductive Act
  | barricade (e : Boarding)
  | build (kind : String) (e : Construction)

/-- `Work.blueprints`: planks and nails. -/
def blueprints : List (String × ℕ × ℕ) := [("crate", 3, 3), ("wall", 3, 3), ("fence", 2, 2)]

namespace Act

def run : Act → Site → Except String Unit × Site
  | .barricade e, s => Boards.barricade e s
  | .build kind e, s => Boards.build kind e s

/-- The count `Work.update` reads. -/
def count : Act → Counting → Site → Option ℕ
  | .barricade _, e, s => boardCount e s
  | .build _ _, e, s => objectCount e s

/-- The structures there are. -/
def structures : Act → Site → ℕ
  | .barricade _, s => s.boards.getD 0
  | .build _ _, s => s.objects.length

def isTarget : Act → Bool
  | .barricade _ => true
  | .build _ _ => false

def kind : Act → String
  | .barricade _ => ""
  | .build kind _ => kind

/-- The planks and nails of one piece of work. -/
def spec : Act → Option (ℕ × ℕ)
  | .barricade _ => some (1, 2)
  | .build kind _ => blueprints.lookup kind

end Act

/-! ## The materials -/

/-- One item of the loop of `World.materials`: it is wanted, or not. -/
def want (kind : Option String) : List (String × ℕ) → Option (List (String × ℕ))
  | [] => none
  | (name, n) :: rest =>
    if kind = some name then if 0 < n then some ((name, n - 1) :: rest) else none
    else (want kind rest).map fun rest => (name, n) :: rest

/-- The loop of `World.materials`: what is selected, and what is still wanted. -/
def select (fullType : Item → Option String) :
    List (String × ℕ) → List Item → List Item × List (String × ℕ)
  | remaining, [] => ([], remaining)
  | remaining, i :: rest =>
    match want (fullType i) remaining with
    | some remaining =>
      let others := select fullType remaining rest
      (i :: others.1, others.2)
    | none => select fullType remaining rest

/-- `World.materials`. -/
def materials (fullType : Item → Option String) (requirements : List (String × ℕ))
    (items : List Item) : Option (List Item) :=
  let selected := select fullType requirements items
  if selected.2.any fun entry => decide (0 < entry.2) then none else some selected.1

/-! ## The update -/

/-- What one update meets, from its materials on. -/
structure Job where
  act : Act
  fullType : Item → Option String
  inventory : Listing
  before : Counting
  reserving : Reserving
  still : Bool
  inScope : Bool
  permitted : Except String Unit
  refunding : ℕ → Restoring
  after : Counting

namespace Job

variable (e : Job) (site : Site) (s : Store) (chosen : List Item)

/-- The materials selected, if they are at hand. -/
def selected : Option (List Item) :=
  e.act.spec.bind fun spec =>
    materials e.fullType [("Base.Plank", spec.1), ("Base.Nails", spec.2)]
      (values e.inventory (s.goods.holds .goblin))

/-- The material phase as it is met at this site. -/
def working : Working where
  target := e.act.isTarget
  kind := e.act.kind
  before := e.act.count e.before site
  reserving := e.reserving
  still := e.still
  inScope := e.inScope
  permitted := e.permitted
  refunding := e.refunding
  built := (e.act.run site).1
  after := e.act.count e.after (e.act.run site).2

/-- The engine is asked: the count was read, the materials are reserved, and
the window is where it was. -/
def Asks : Prop :=
  (e.act.count e.before site).isSome ∧ (reserve e.reserving s chosen).1 = true ∧
    (e.act.isTarget = true → e.still = true ∧ e.inScope = true) ∧ e.permitted = .ok ()

instance Asks.decidable : Decidable (e.Asks site s chosen) :=
  inferInstanceAs (Decidable ((e.act.count e.before site).isSome ∧
    (reserve e.reserving s chosen).1 = true ∧
    (e.act.isTarget = true → e.still = true ∧ e.inScope = true) ∧ e.permitted = .ok ()))

/-- `Work.update`, from the materials on: what is announced, who holds the
materials, and what stands at the site. -/
def update : Option (Bool × Option String) × Store × Site :=
  match e.selected s with
  | none => (none, s, site)
  | some selected =>
    let worked := work (e.working site) s selected
    (some worked.1, worked.2, if e.Asks site s selected then (e.act.run site).2 else site)

/-- None of it is. -/
def Gone (chosen : List Item) (s : Store) : Prop :=
  ∀ i ∈ chosen, i ∉ s.goods.holds .goblin ∧ i ∉ s.pending.getD []

/-- The action is not seen to work, so that the structures are counted again. -/
def Recounts : Prop := e.Asks site s chosen ∧ (e.act.run site).1 ≠ .ok ()

/-- **Built unseen**: the action fails after it has built, and as many
structures are read as before. -/
def Unseen : Prop :=
  ∃ chosen, e.selected s = some chosen ∧ e.Recounts site s chosen ∧
    e.act.structures site < e.act.structures (e.act.run site).2 ∧
    e.act.count e.after (e.act.run site).2 = e.act.count e.before site

end Job

/-! ## What is selected -/

namespace Job

variable {e : Job} {site : Site} {s : Store} {chosen : List Item}

end Job

/-! ## Where nothing is built unseen -/

/-- Boards are read as they are, or not at all. -/
theorem boardCount_eq_some {e : Counting} {s : Site} {n : ℕ} (h : boardCount e s = some n) :
    n = s.boards.getD 0 := by
  unfold boardCount at h
  split at h
  · cases h
  cases hboards : s.boards with
  | none =>
    rw [hboards] at h
    exact (Option.some.inj h).symm
  | some planks =>
    rw [hboards] at h
    dsimp only at h
    split at h
    · exact (Option.some.inj h).symm
    · cases h

/-- **No board goes unseen.** -/
theorem not_unseen_barricade {e : Job} {boarding : Boarding} (h : e.act = .barricade boarding)
    (site : Site) (s : Store) : ¬ e.Unseen site s := by
  rintro ⟨chosen, -, ⟨⟨hbefore, -⟩, -⟩, hbuilt, hcount⟩
  obtain ⟨n, hn⟩ := Option.isSome_iff_exists.1 hbefore
  rw [hn] at hcount
  rw [h] at hn hcount hbuilt
  have hold := boardCount_eq_some hn
  have hnew := boardCount_eq_some hcount
  have hlt : site.boards.getD 0 < (Boards.barricade boarding site).2.boards.getD 0 := hbuilt
  have hsame : n = (Boards.barricade boarding site).2.boards.getD 0 := hnew
  omega

/-- Every object of the list answers. -/
def Listing.Answers (e : Listing) : Prop := e.size = true ∧ ∀ n, e.get n = true

theorem indexed_eq {get : ℕ → Bool} (h : ∀ n, get n = true) (n : ℕ) (list : List Item) :
    indexed get n list = list := by
  induction list generalizing n with
  | nil => rfl
  | cons i rest ih => rw [indexed, if_pos (h n), ih]

theorem values_eq {e : Listing} (h : e.Answers) (list : List Item) : values e list = list := by
  unfold values
  rw [h.1, h.2 0, if_pos rfl, indexed_eq h.2]
  cases list <;> rfl

/-- **No object goes unseen that can be read.** -/
theorem not_unseen_of_answers {e : Job} (hbefore : e.before.list.Answers)
    (hafter : e.after.list.Answers) (site : Site) (s : Store) : ¬ e.Unseen site s := by
  cases hact : e.act with
  | barricade boarding => exact not_unseen_barricade hact site s
  | build kind construction =>
    rintro ⟨chosen, -, ⟨⟨hread, -⟩, -⟩, hbuilt, hcount⟩
    rw [hact] at hread hbuilt hcount
    simp only [Act.count, objectCount, values_eq hbefore, values_eq hafter] at hread hcount
    split at hread
    · cases hread
    rename_i hlisted
    rw [if_neg hlisted] at hcount
    split at hcount
    · cases hcount
    · exact absurd (Option.some.inj hcount) (Nat.ne_of_gt hbuilt)

/-! ## A crate that is not seen -/

/-- A square with its floor. -/
def yard : Site := ⟨none, [10]⟩

/-- A crate is added to the square, the engine raises, and the crate cannot
be read. -/
def crate : Job where
  act := .build "crate" ⟨.ok true, .ok false, .ok (), .ok (), [10, 11], .error "index"⟩
  fullType := fun i => some (if i ≤ 3 then "Base.Plank" else "Base.Nails")
  inventory := .clear
  before := ⟨true, true, true, .clear⟩
  reserving := Materials.smooth
  still := true
  inScope := true
  permitted := .ok ()
  refunding := fun _ => ⟨.clear, .ok, .clear⟩
  after := ⟨true, true, true, ⟨true, fun n => decide (n < 1), true, fun _ => true⟩⟩

end Boards

end Custody

end GoblinZomboid
