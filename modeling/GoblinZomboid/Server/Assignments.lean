import GoblinZomboid.Lib.LuaPattern
import GoblinZomboid.Lib.LuaValue
import GoblinZomboid.Server.Spawner
import Mathlib.Data.Finmap
import Mathlib.Data.List.Sort
import Mathlib.Data.Rat.Floor
/-!
# `GoblinStockpiles.lua`, `GoblinStorage.lua`: assigned containers

The owner's rules and storage categories stand in two places: the container's
mod data carries who assigned it and under which identity, and the owner's
record what it is for. An assignment marks the container, has the spawner
write the record, and takes the marks back where that fails. The record itself
is never taken back.
-/

namespace GoblinZomboid

open Spawner (ownerKey)

namespace Assignments

/-! ## What is saved -/

/-- The mod data of a container. -/
structure Metadata where
  id : LuaValue
  owner : LuaValue
  category : LuaValue

/-- The container a rule or a category is recorded for. -/
structure Target where
  x : ℤ
  y : ℤ
  z : ℤ
  id : Bytes
  buildingId : Bytes
  deriving DecidableEq

structure Rule where
  item : Bytes
  minimum : ℤ
  target : Target
  deriving DecidableEq

structure Assignment where
  category : Bytes
  target : Target
  deriving DecidableEq

/-- `record.stockpile_rules`, by full type. -/
abbrev Rules := Finmap fun _ : Bytes => Rule

/-- `record.storage_assignments`, by container identity. -/
abbrev Stored := Finmap fun _ : Bytes => Assignment

/-- An owner's record; `base` is what `tonumber` reads of the saved square. -/
structure Record where
  baseSet : Bool
  base : Bool
  rules : Option Rules
  assignments : Option Stored
  deriving DecidableEq

/-- The containers of the world, the records under their keys, and the two
counters of `newId`. -/
structure State where
  metadata : ℕ → Metadata
  records : Bytes → Option Record
  stockpiles : ℕ
  storage : ℕ

def State.mark (s : State) (ref : ℕ) (m : Metadata) : State :=
  { s with metadata := Function.update s.metadata ref m }

/-! ## What the engine answers -/

/-- The places where `Body.owner` is read. -/
inductive Reading
  | caller
  | base
  | held
  | identity
  | mark
  | record
  deriving DecidableEq

/-- A call raises. -/
inductive Raised
  | raised
  deriving DecidableEq

/-- An object of a square, as the checks on it answer. -/
structure Box where
  ref : ℕ
  container : Bool
  accessible : Bool
  identified : Bool
  allowed : Bool

/-- One of the nine squares: whether it is in the scope, its middle, its
objects. -/
structure Spot where
  within : Bool
  x : ℚ
  y : ℚ
  boxes : List Box

/-- What the engine answers during one call. An `Except` is a call that is
not protected; a protected one answers nothing where it raises. -/
structure Engine where
  isGoblin : Bool
  /-- The owner that the body's mod data names. -/
  name : Bytes
  /-- Whether the mod data is answered at a reading of it. -/
  reads : Reading → Bool
  /-- What `getUsername` answers, its error included. -/
  username : Option Bytes
  /-- The script that `FindItem` answers: its full name, and whether it is
  obsolete. -/
  script : Option (Option Bytes × Option Bool)
  /-- Whether `recordFor` answers. -/
  recordFor : Reading → Bool
  /-- `Body.position(owner)`. -/
  point : Option (ℚ × ℚ)
  /-- `Curtains.scopeAt(base)`: the identity of the building. -/
  scope : Except Raised (Option Bytes)
  /-- Whether the owner's square is in the scope. -/
  inside : Except Raised Bool
  spots : List (Except Raised (Option Spot))
  /-- Whether the container's `getModData` answers a table. -/
  modData : Bool
  /-- The time and the object as `newId` prints them. -/
  stamp : Except Raised (Bytes × Bytes)
  /-- `World.point(target.square)`. -/
  place : Except Raised (ℚ × ℚ × ℚ)
  /-- Whether the cached body of the owner is a live one of his. -/
  cached : Bool
  /-- Whether `discoverBodies` finds one. -/
  discovers : Except Raised Bool
  /-- Whether the base report of the body can be told that it is stale. -/
  report : Except Raised Unit

/-- `Body.owner(body)`. -/
def Engine.owner (e : Engine) (r : Reading) : Option Bytes :=
  if e.reads r then some e.name else none

/-! ## The checks before an assignment -/

/-- How a call stops early: it raises, or it refuses. -/
inductive Stop
  | raised
  | refused (detail : Bytes)
  deriving DecidableEq

def refuse (c : Bool) (detail : String) : Except Stop Unit :=
  if c then .error (.refused (Bytes.lit detail)) else .ok ()

/-- The answer of a call that is not protected. -/
def answer {α : Type} : Except Raised α → Except Stop α
  | .ok a => .ok a
  | .error _ => .error .raised

/-- `Spawner.baseForOwner`. -/
def baseForOwner (e : Engine) (owner : Option Bytes) (records : Bytes → Option Record) :
    Except Stop Bool :=
  if e.recordFor .base then
    .ok (((owner.bind ownerKey).bind records).any fun r => r.baseSet && r.base)
  else .error .raised

/-- A container that passed the checks, and its distance to the owner squared. -/
structure Found where
  ref : ℕ
  distance : ℚ
  deriving DecidableEq

/-- `candidates`, `nearestContainer`: the one closest eligible container. -/
def candidates (eligible : Box → Bool) (point : ℚ × ℚ)
    (spots : List (Except Raised (Option Spot))) : Except Stop ℕ := do
  let spots ← spots.mapM answer
  let found : List Found := spots.flatMap fun spot => match spot with
    | some spot =>
      if spot.within then
        (spot.boxes.filter eligible).map fun b =>
          ⟨b.ref, (spot.x - point.1) ^ 2 + (spot.y - point.2) ^ 2⟩
      else []
    | none => []
  match found.insertionSort fun a b => a.distance ≤ b.distance with
  | [] => .error (.refused (Bytes.lit "no eligible base container is within one tile"))
  | [a] => .ok a.ref
  | a :: b :: _ =>
    if b.distance - a.distance < 1 / 4 then
      .error (.refused (Bytes.lit "more than one container is equally close; stand beside one"))
    else .ok a.ref

/-- A Lua value is the text, or is `nil` where there is none. -/
def isOwner (v : LuaValue) (owner : Option Bytes) : Bool :=
  match v, owner with
  | .str a, some b => a = b
  | .nil, none => true
  | _, _ => false

/-- The container's mod data, if it may be assigned. -/
def assignable (e : Engine) (ref : ℕ) (s : State) : Except Stop Unit := do
  refuse (!e.modData) "container identity cannot be saved"
  refuse ((s.metadata ref).owner.truthy && !isOwner (s.metadata ref).owner (e.owner .held))
    "this container is assigned to another player"

/-- What stands when an assignment begins: the container, and the identity of
the building around it. -/
structure Site where
  ref : ℕ
  scope : Bytes
  deriving DecidableEq

/-- The checks around the base that the two callers share. -/
def ownerContext (e : Engine) (s : State) : Except Stop (Bytes × (ℚ × ℚ)) := do
  let base ← baseForOwner e (e.owner .base) s.records
  match base, e.point with
  | true, some point => do
    match ← answer e.scope with
    | some scope => do
      let inside ← answer e.inside
      refuse (!inside) "stand inside your saved base"
      return (scope, point)
    | none => .error (.refused (Bytes.lit "stand inside your saved base"))
  | _, _ => .error (.refused (Bytes.lit "set a base and stand by its container"))

/-! ## The two stores -/

/-- How a call ends. -/
inductive Ending
  | raised
  | returned (ok : Bool) (detail : Bytes)
  deriving DecidableEq

/-- `Spawner.findForOwner`: whether the owner has a live body. -/
def findForOwner (e : Engine) : Except Raised Bool :=
  if e.cached then .ok true else e.discovers

/-- The saved base report is told that it is stale. -/
def tell (e : Engine) : Except Raised Unit := do
  if ← findForOwner e then e.report else .ok ()

/-- A saved coordinate. -/
def whole (n : ℤ) : Bool := |n| ≤ 10000000

/-- The target of a rule, unless it is invalid. -/
def targetOf (id : LuaValue) (buildingId : Bytes) (p : ℚ × ℚ × ℚ) : Option Target :=
  match id with
  | .str id =>
    if id ≠ [] ∧ whole ⌊p.1⌋ ∧ whole ⌊p.2.1⌋ ∧ whole ⌊p.2.2⌋ then
      some ⟨⌊p.1⌋, ⌊p.2.1⌋, ⌊p.2.2⌋, id, buildingId⟩
    else none
  | _ => none

/-- The record of the owner and its key, where a base is set. -/
def basedRecord (owner : Option Bytes) (records : Bytes → Option Record) :
    Option (Bytes × Record) := do
  let key ← owner.bind ownerKey
  let record ← records key
  if record.baseSet then some (key, record) else none

/-- `oldId or newId(owner, object)`, and the counter afterwards. -/
def identify (e : Engine) (old : LuaValue) (sequence : ℕ) : Except Raised LuaValue × ℕ :=
  if old.truthy then (.ok old, sequence)
  else
    (do
      let (now, object) ← e.stamp
      return .str (List.intercalate (Bytes.lit ":") [Bytes.lit "goblin-storage",
        (e.owner .identity).getD (Bytes.lit "nil"), now, Bytes.decimal (sequence + 1), object]),
      sequence + 1)

end Assignments

/-! ## What an assignment owes -/

namespace Assignments

/-- Nothing has changed: no container's mod data and no owner's record. -/
def Kept (s s' : State) : Prop := s'.metadata = s.metadata ∧ s'.records = s.records

/-- The container carries the owner's name and this identity. -/
def Marked (s : State) (ref : ℕ) (owner id : Bytes) : Prop :=
  (s.metadata ref).owner = .str owner ∧ (s.metadata ref).id = .str id

/-- What was marked is marked as before. -/
theorem mark_mark (s : State) (ref : ℕ) (m : Metadata) :
    ((s.mark ref m).mark ref (s.metadata ref)).metadata = s.metadata := by
  show Function.update (Function.update s.metadata ref m) ref (s.metadata ref) = s.metadata
  rw [Function.update_idem, Function.update_eq_self]

/-- The owner whose record is written was read, and stands in its key. -/
theorem basedRecord_eq_some {e : Engine} {records : Bytes → Option Record} {key : Bytes}
    {record : Record} (h : basedRecord (e.owner .record) records = some (key, record)) :
    ownerKey e.name = some key ∧ records key = some record := by
  obtain ⟨key', hkey, h⟩ := Option.bind_eq_some_iff.mp h
  obtain ⟨record', hrecord, h⟩ := Option.bind_eq_some_iff.mp h
  obtain ⟨owner, howner, hkey⟩ := Option.bind_eq_some_iff.mp hkey
  have hname : owner = e.name := by
    unfold Engine.owner at howner
    split at howner
    · exact (Option.some.inj howner).symm
    · cases howner
  split at h
  · obtain ⟨rfl, rfl⟩ := Prod.mk.inj (Option.some.inj h)
    exact ⟨hname ▸ hkey, hrecord⟩
  · cases h

/-- A target is for the identity the container is marked with. -/
theorem id_of_targetOf {id : LuaValue} {buildingId : Bytes} {p : ℚ × ℚ × ℚ} {target : Target}
    (h : targetOf id buildingId p = some target) : id = .str target.id := by
  unfold targetOf at h
  split at h
  · split at h
    · obtain rfl := Option.some.inj h
      rfl
    · cases h
  · cases h

/-- The owner's name as it is marked: all of it or nothing. -/
theorem elim_owner (e : Engine) (r : Reading) :
    (e.owner r).elim LuaValue.nil LuaValue.str = .str e.name ↔ e.reads r = true := by
  unfold Engine.owner
  split
  · rename_i h
    exact ⟨fun _ => h, fun _ => rfl⟩
  · rename_i h
    exact ⟨nofun, fun h' => absurd h' h⟩

end Assignments

/-! ## `Stockpiles.assign` -/

namespace Stockpiles

open Assignments

/-- `validItem`. -/
def validItem (e : Engine) (fullType : Bytes) : Bool :=
  LuaPattern.found "^[%w_]+%.[%w_]+$" fullType &&
    e.script = some (some fullType, some false)

/-- The minimum that is asked for, as `tonumber` reads it. -/
def threshold : Option LuaNum → Except Stop ℤ
  | some (.finite q) =>
    if q ≠ ⌊q⌋ ∨ q < 1 ∨ q > 1000 then
      .error (.refused (Bytes.lit "stockpile minimum must be an integer from 1 to 1000"))
    else .ok ⌊q⌋
  | _ => .error (.refused (Bytes.lit "stockpile minimum must be an integer from 1 to 1000"))

def eligible (b : Box) : Bool := b.container && b.accessible && b.identified && b.allowed

/-- `Stockpiles.assign` up to its first write. -/
def site (e : Engine) (fullType : Bytes) (minimum : Option LuaNum) (s : State) :
    Except Stop (ℤ × Site) := do
  refuse (!e.isGoblin || e.owner .caller ≠ e.username)
    "only this Goblin's online owner may set a stockpile rule"
  refuse (!validItem e fullType) "item must be an exact enabled installed full type"
  let minimum ← threshold minimum
  let (scope, point) ← ownerContext e s
  let ref ← candidates eligible point e.spots
  assignable e ref s
  return (minimum, ⟨ref, scope⟩)

/-- What `Spawner.setStockpileRuleForOwner` writes, once its checks pass. -/
structure Writing where
  key : Bytes
  record : Record
  rule : Rule
  deriving DecidableEq

/-- The checks of `Spawner.setStockpileRuleForOwner`. -/
def permit (owner : Option Bytes) (fullType : Bytes) (minimum : ℤ) (target : Option Target)
    (records : Bytes → Option Record) : Except Bytes Writing :=
  match basedRecord owner records, target with
  | some (key, record), some target =>
    let rules := record.rules.getD ∅
    if rules.keys.card ≥ 16 ∧ fullType ∉ rules then
      .error (Bytes.lit "stockpile rule limit reached")
    else .ok ⟨key, record, ⟨fullType, minimum, target⟩⟩
  | _, _ => .error (Bytes.lit "stockpile rule is invalid or the base is not set")

/-- The records with the rule in them. -/
def Writing.run (w : Writing) (records : Bytes → Option Record) : Bytes → Option Record :=
  Function.update records w.key
    (some { w.record with rules := some ((w.record.rules.getD ∅).insert w.rule.item w.rule) })

/-- `Spawner.setStockpileRuleForOwner`. -/
def setStockpileRuleForOwner (e : Engine) (owner : Option Bytes) (fullType : Bytes)
    (minimum : ℤ) (target : Option Target) (records : Bytes → Option Record) :
    Ending × (Bytes → Option Record) :=
  if !e.recordFor .record then (.raised, records)
  else
    match permit owner fullType minimum target records with
    | .error detail => (.returned false detail, records)
    | .ok w =>
      match tell e with
      | .error _ => (.raised, w.run records)
      | .ok _ =>
        (.returned true (Bytes.lit ("stockpile threshold recorded; Base.Nails collection " ++
          "requires a separate explicit stockpile order")), w.run records)

/-- `Stockpiles.assign`. -/
def assign (e : Engine) (fullType : Bytes) (minimum : Option LuaNum) (s : State) :
    Ending × State :=
  match site e fullType minimum s with
  | .error .raised => (.raised, s)
  | .error (.refused detail) => (.returned false detail, s)
  | .ok (minimum, t) =>
    let old := s.metadata t.ref
    match identify e old.id s.stockpiles with
    | (.error _, sequence) => (.raised, { s with stockpiles := sequence })
    | (.ok id, sequence) =>
      let marked := State.mark { s with stockpiles := sequence } t.ref
        { old with id := id, owner := (e.owner .mark).elim .nil .str }
      match e.place with
      | .error _ => (.raised, marked)
      | .ok p =>
        match setStockpileRuleForOwner e (e.owner .record) fullType minimum
            (targetOf id t.scope p) s.records with
        | (.returned true detail, records) =>
          (.returned true detail, { marked with records := records })
        | (.returned false detail, records) =>
          (.returned false detail, { marked.mark t.ref old with records := records })
        | (.raised, records) =>
          (.returned false (Bytes.lit "persistent stockpile store unavailable"),
            { marked.mark t.ref old with records := records })

/-- What a call writes into the owner's record, where it gets so far. -/
def writing (e : Engine) (fullType : Bytes) (minimum : Option LuaNum) (s : State) :
    Option (Site × Writing) :=
  match site e fullType minimum s with
  | .error _ => none
  | .ok (minimum, t) =>
    match (identify e (s.metadata t.ref).id s.stockpiles).1, e.place with
    | .ok id, .ok p =>
      if e.recordFor .record then
        (permit (e.owner .record) fullType minimum (targetOf id t.scope p) s.records).toOption.map
          fun w => (t, w)
      else none
    | _, _ => none

/-- **An assignment is atomic**: refused, it has changed nothing; accepted,
the container carries the owner's name and the identity that the rule in his
record is for. -/
def Atomic (e : Engine) (fullType : Bytes) (minimum : Option LuaNum) (s : State) : Prop :=
  match assign e fullType minimum s with
  | (.raised, _) => True
  | (.returned false _, s') => Kept s s'
  | (.returned true _, s') => ∃ n t key record rule, site e fullType minimum s = .ok (n, t) ∧
      ownerKey e.name = some key ∧ s'.records key = some record ∧
        record.rules.bind (Finmap.lookup fullType) = some rule ∧ rule.item = fullType ∧
          rule.minimum = n ∧ Marked s' t.ref e.name rule.target.id

/-- Nothing raises once the rule is written, and the container was marked
with the owner's name; or the record held that very rule already. -/
def Unbroken (e : Engine) (fullType : Bytes) (minimum : Option LuaNum) (s : State) : Prop :=
  ∀ t w, writing e fullType minimum s = some (t, w) →
    match tell e with
    | .ok _ => e.reads .mark = true
    | .error _ => w.record.rules.bind (Finmap.lookup fullType) = some w.rule

/-- What is written is the rule that was asked for, in the owner's record. -/
theorem permit_eq_ok {e : Engine} {fullType : Bytes} {n : ℤ} {target : Option Target}
    {records : Bytes → Option Record} {w : Writing}
    (h : permit (e.owner .record) fullType n target records = .ok w) :
    ownerKey e.name = some w.key ∧ records w.key = some w.record ∧ w.rule.item = fullType ∧
      w.rule.minimum = n ∧ target = some w.rule.target := by
  unfold permit at h
  split at h
  · rename_i key record target hrecord
    dsimp only at h
    split at h
    · cases h
    · obtain rfl := Except.ok.inj h
      obtain ⟨hkey, hrecord⟩ := basedRecord_eq_some hrecord
      exact ⟨hkey, hrecord, rfl, rfl, rfl⟩
  · cases h

/-- **What a call does**: short of the record it changes nothing that it does
not take back; at the record it depends on whether the body can be told. -/
theorem assign_cases (e : Engine) (fullType : Bytes) (minimum : Option LuaNum) (s : State) :
    (writing e fullType minimum s = none ∧ ((assign e fullType minimum s).1 = .raised ∨
      ∃ detail, (assign e fullType minimum s).1 = .returned false detail ∧
        Kept s (assign e fullType minimum s).2)) ∨
    ∃ n t w, site e fullType minimum s = .ok (n, t) ∧
      writing e fullType minimum s = some (t, w) ∧ ownerKey e.name = some w.key ∧
      s.records w.key = some w.record ∧ w.rule.item = fullType ∧ w.rule.minimum = n ∧
      (assign e fullType minimum s).2.records = w.run s.records ∧
      match tell e with
      | .ok _ => ∃ detail, (assign e fullType minimum s).1 = .returned true detail ∧
          ((assign e fullType minimum s).2.metadata t.ref).owner =
            (e.owner .mark).elim .nil .str ∧
          ((assign e fullType minimum s).2.metadata t.ref).id = .str w.rule.target.id
      | .error _ => ∃ detail, (assign e fullType minimum s).1 = .returned false detail ∧
          (assign e fullType minimum s).2.metadata = s.metadata := by
  unfold assign writing
  cases hsite : site e fullType minimum s with
  | error stop =>
    cases stop with
    | raised => exact .inl ⟨rfl, .inl rfl⟩
    | refused detail => exact .inl ⟨rfl, .inr ⟨detail, rfl, rfl, rfl⟩⟩
  | ok found =>
    obtain ⟨n, t⟩ := found
    dsimp only
    cases hid : identify e (s.metadata t.ref).id s.stockpiles with
    | mk id sequence =>
      cases id with
      | error => exact .inl ⟨rfl, .inl rfl⟩
      | ok id =>
        cases hplace : e.place with
        | error => exact .inl ⟨rfl, .inl rfl⟩
        | ok p =>
          have hback := mark_mark { s with stockpiles := sequence } t.ref
            { s.metadata t.ref with id := id, owner := (e.owner .mark).elim .nil .str }
          dsimp only at hback ⊢
          unfold setStockpileRuleForOwner
          cases e.recordFor .record with
          | false => exact .inl ⟨rfl, .inr ⟨_, rfl, hback, rfl⟩⟩
          | true =>
            simp only [Bool.not_true, Bool.false_eq_true, if_false, if_true]
            cases hw : permit (e.owner .record) fullType n (targetOf id t.scope p) s.records with
            | error detail => exact .inl ⟨rfl, .inr ⟨detail, rfl, hback, rfl⟩⟩
            | ok w =>
              obtain ⟨hkey, hrecord, hitem, hmin, htarget⟩ := permit_eq_ok hw
              have hmark : ∀ m, (State.mark { s with stockpiles := sequence } t.ref m).metadata
                  t.ref = m := fun m => Function.update_self _ _ _
              refine .inr ⟨n, t, w, rfl, rfl, hkey, hrecord, hitem, hmin, ?_⟩
              cases tell e with
              | error => exact ⟨rfl, _, rfl, hback⟩
              | ok =>
                refine ⟨rfl, _, rfl, ?_⟩
                dsimp only
                rw [hmark]
                exact ⟨rfl, id_of_targetOf htarget⟩

/-- A rule that reached the record stands in it. -/
theorem run_apply (w : Writing) (records : Bytes → Option Record) :
    ∃ record, w.run records w.key = some record ∧
      record.rules.bind (Finmap.lookup w.rule.item) = some w.rule :=
  ⟨_, Function.update_self _ _ _, Finmap.lookup_insert _⟩

/-- Writing a rule changes nothing exactly when the record held it already. -/
theorem run_eq_iff {w : Writing} {records : Bytes → Option Record}
    (h : records w.key = some w.record) :
    w.run records = records ↔ w.record.rules.bind (Finmap.lookup w.rule.item) = some w.rule := by
  constructor
  · intro hrun
    obtain ⟨record, hrecord, hlookup⟩ := run_apply w records
    rw [hrun, h] at hrecord
    rw [Option.some.inj hrecord]
    exact hlookup
  · intro hlookup
    obtain ⟨rules, hrules, hlookup⟩ := Option.bind_eq_some_iff.mp hlookup
    have hsame : rules.insert w.rule.item w.rule = rules := by
      refine Finmap.ext_lookup fun item => ?_
      by_cases hitem : item = w.rule.item
      · subst hitem
        rw [Finmap.lookup_insert, hlookup]
      · rw [Finmap.lookup_insert_of_ne _ hitem]
    have hrecord : { w.record with
        rules := some ((w.record.rules.getD ∅).insert w.rule.item w.rule) } = w.record := by
      rw [hrules, Option.getD_some, hsame, ← hrules]
    unfold Writing.run
    rw [hrecord, ← h, Function.update_eq_self]

/-- **A rule is set in both places or in neither** exactly when nothing raises
once it is written. -/
theorem atomic_iff_unbroken (e : Engine) (fullType : Bytes) (minimum : Option LuaNum)
    (s : State) : Atomic e fullType minimum s ↔ Unbroken e fullType minimum s := by
  rcases assign_cases e fullType minimum s with ⟨hnone, hend⟩ | ⟨n, t, w, hsite, hw, hkey,
    hrecord, hitem, hmin, hrecords, hend⟩
  · refine iff_of_true ?_ fun t w hw => by rw [hnone] at hw; cases hw
    unfold Atomic
    generalize assign e fullType minimum s = r at hend ⊢
    obtain ⟨ending, s'⟩ := r
    rcases hend with rfl | ⟨detail, rfl, hkept⟩
    · trivial
    · exact hkept
  · have hunbroken : Unbroken e fullType minimum s ↔ match tell e with
        | .ok _ => e.reads .mark = true
        | .error _ => w.record.rules.bind (Finmap.lookup fullType) = some w.rule := by
      refine ⟨fun h => h t w hw, fun h t' w' hw' => ?_⟩
      obtain ⟨rfl, rfl⟩ := Prod.mk.inj (Option.some.inj (hw.symm.trans hw'))
      exact h
    rw [hunbroken]
    unfold Atomic
    generalize assign e fullType minimum s = r at hend hrecords ⊢
    obtain ⟨ending, s'⟩ := r
    dsimp only at hend hrecords
    subst hitem
    cases htell : tell e with
    | error =>
      rw [htell] at hend
      obtain ⟨detail, rfl, hmetadata⟩ := hend
      show Kept s s' ↔ w.record.rules.bind (Finmap.lookup w.rule.item) = some w.rule
      rw [← run_eq_iff hrecord, ← hrecords]
      exact ⟨fun h => h.2, fun h => ⟨hmetadata, h⟩⟩
    | ok =>
      rw [htell] at hend
      obtain ⟨detail, rfl, howner, hid⟩ := hend
      dsimp only
      rw [← elim_owner, ← howner]
      constructor
      · rintro ⟨_, t', _, _, _, hsite', -, -, -, -, -, howner', -⟩
        obtain ⟨rfl, rfl⟩ := Prod.mk.inj (Except.ok.inj (hsite.symm.trans hsite'))
        exact howner'
      · intro hname
        obtain ⟨record, hrun, hlookup⟩ := run_apply w s.records
        exact ⟨n, t, w.key, record, w.rule, hsite, hkey, hrecords ▸ hrun, hlookup, rfl, hmin,
          hname, hid⟩

end Stockpiles

/-! ## `Storage.assign` -/

namespace Storage

open Assignments

def categories : List Bytes :=
  ["FOOD", "WATER", "MEDICAL", "TOOLS", "WEAPONS", "AMMO", "MATERIALS", "CLOTHING", "BOOKS",
    "ELECTRONICS", "FARMING", "COOKING", "SURVIVAL", "VEHICLE", "MISC", "INBOX",
    "OVERFLOW"].map Bytes.lit

def aliases : List (Bytes × Bytes) :=
  [("FOODS", "FOOD"), ("MEDS", "MEDICAL"), ("MEDICINE", "MEDICAL"), ("TOOL", "TOOLS"),
    ("WEAPON", "WEAPONS"), ("GUNS", "WEAPONS"), ("BULLETS", "AMMO"), ("MATERIAL", "MATERIALS"),
    ("BUILDING", "MATERIALS"), ("CLOTHES", "CLOTHING"), ("BOOK", "BOOKS"),
    ("LITERATURE", "BOOKS"), ("ELECTRONIC", "ELECTRONICS"), ("GARDENING", "FARMING"),
    ("SEEDS", "FARMING"), ("KITCHEN", "COOKING"), ("CAMPING", "SURVIVAL"),
    ("MECHANICS", "VEHICLE"), ("CAR", "VEHICLE"), ("JUNK", "MISC"), ("OTHER", "MISC"),
    ("DROPBOX", "INBOX"), ("UNSORTED", "INBOX"), ("SPARE", "OVERFLOW")].map
      fun e => (Bytes.lit e.1, Bytes.lit e.2)

/-- `Storage.normalize`. -/
def normalize (name : Bytes) : Option Bytes :=
  let key := Bytes.upper (LuaPattern.gsub name "[^%a]" [])
  let key := ((aliases.find? fun e => e.1 = key).map Prod.snd).getD key
  if key ∈ categories then some key else none

def eligible (b : Box) : Bool := b.container && b.identified && b.accessible && b.allowed

/-- `Storage.assign` up to its first write. -/
def site (e : Engine) (name : Bytes) (s : State) : Except Stop (Bytes × Site) := do
  match normalize name with
  | none => .error (.refused (Bytes.lit "unknown storage category"))
  | some category => do
    refuse (!e.isGoblin || e.owner .caller ≠ e.username)
      "only this Goblin's online owner may assign storage"
    let (scope, point) ← ownerContext e s
    let ref ← candidates eligible point e.spots
    assignable e ref s
    return (category, ⟨ref, scope⟩)

/-- What `Spawner.setStorageAssignmentForOwner` writes, once its checks pass. -/
structure Writing where
  key : Bytes
  record : Record
  assignment : Assignment
  deriving DecidableEq

/-- The checks of `Spawner.setStorageAssignmentForOwner`. -/
def permit (owner : Option Bytes) (category : Bytes) (target : Option Target)
    (records : Bytes → Option Record) : Except Bytes Writing :=
  match basedRecord owner records, target with
  | some (key, record), some target =>
    if target.id.length > 256 ∨ category.length > 32 then
      .error (Bytes.lit "storage assignment is invalid or the base is not set")
    else
      let assignments := record.assignments.getD ∅
      if assignments.keys.card ≥ 24 ∧ target.id ∉ assignments then
        .error (Bytes.lit "storage assignment limit reached")
      else .ok ⟨key, record, ⟨category, target⟩⟩
  | _, _ => .error (Bytes.lit "storage assignment is invalid or the base is not set")

/-- The records with the assignment in them. -/
def Writing.run (w : Writing) (records : Bytes → Option Record) : Bytes → Option Record :=
  Function.update records w.key (some { w.record with
    assignments :=
      some ((w.record.assignments.getD ∅).insert w.assignment.target.id w.assignment) })

/-- `Spawner.setStorageAssignmentForOwner`. -/
def setStorageAssignmentForOwner (e : Engine) (owner : Option Bytes) (category : Bytes)
    (target : Option Target) (records : Bytes → Option Record) :
    Ending × (Bytes → Option Record) :=
  if !e.recordFor .record then (.raised, records)
  else
    match permit owner category target records with
    | .error detail => (.returned false detail, records)
    | .ok w => (.returned true (Bytes.lit "storage category recorded"), w.run records)

/-- `persistAssignment`, once its checks have passed. -/
def persistAssignment (e : Engine) (t : Site) (category : Bytes) (s : State) : Ending × State :=
  let old := s.metadata t.ref
  match identify e old.id s.storage with
  | (.error _, sequence) => (.raised, { s with storage := sequence })
  | (.ok id, sequence) =>
    let marked := State.mark { s with storage := sequence } t.ref
      ⟨id, (e.owner .mark).elim .nil .str, .str category⟩
    match e.place with
    | .error _ => (.raised, marked)
    | .ok p =>
      match setStorageAssignmentForOwner e (e.owner .record) category
          (targetOf id t.scope p) s.records with
      | (.returned true _, records) =>
        (.returned true (Bytes.lit "container assigned to " ++ category),
          { marked with records := records })
      | (.returned false detail, records) =>
        (.returned false detail, { marked.mark t.ref old with records := records })
      | (.raised, records) =>
        (.returned false (Bytes.lit "persistent storage store unavailable"),
          { marked.mark t.ref old with records := records })

/-- `Storage.assign`. -/
def assign (e : Engine) (name : Bytes) (s : State) : Ending × State :=
  match site e name s with
  | .error .raised => (.raised, s)
  | .error (.refused detail) => (.returned false detail, s)
  | .ok (category, t) => persistAssignment e t category s

/-- What a call writes into the owner's record, where it gets so far. -/
def writing (e : Engine) (name : Bytes) (s : State) : Option (Site × Writing) :=
  match site e name s with
  | .error _ => none
  | .ok (category, t) =>
    match (identify e (s.metadata t.ref).id s.storage).1, e.place with
    | .ok id, .ok p =>
      if e.recordFor .record then
        (permit (e.owner .record) category (targetOf id t.scope p) s.records).toOption.map
          fun w => (t, w)
      else none
    | _, _ => none

/-- **An assignment is atomic**: refused, it has changed nothing; accepted,
the container carries the owner's name, the category and the identity under
which his record has the same category. -/
def Atomic (e : Engine) (name : Bytes) (s : State) : Prop :=
  match assign e name s with
  | (.raised, _) => True
  | (.returned false _, s') => Kept s s'
  | (.returned true _, s') => ∃ category t key record assignment,
      site e name s = .ok (category, t) ∧ ownerKey e.name = some key ∧
        s'.records key = some record ∧
          record.assignments.bind (Finmap.lookup assignment.target.id) = some assignment ∧
            assignment.category = category ∧ Marked s' t.ref e.name assignment.target.id ∧
              (s'.metadata t.ref).category = .str category

/-- Where the category gets as far as the record, the container was marked
with the owner's name. -/
def Named (e : Engine) (name : Bytes) (s : State) : Prop :=
  ∀ t w, writing e name s = some (t, w) → e.reads .mark = true

/-- What is written is the category that was asked for, in the owner's record. -/
theorem permit_eq_ok {e : Engine} {category : Bytes} {target : Option Target}
    {records : Bytes → Option Record} {w : Writing}
    (h : permit (e.owner .record) category target records = .ok w) :
    ownerKey e.name = some w.key ∧ records w.key = some w.record ∧
      w.assignment.category = category ∧ target = some w.assignment.target := by
  unfold permit at h
  split at h
  · rename_i key record target hrecord
    dsimp only at h
    split at h
    · cases h
    · split at h
      · cases h
      · obtain rfl := Except.ok.inj h
        obtain ⟨hkey, hrecord⟩ := basedRecord_eq_some hrecord
        exact ⟨hkey, hrecord, rfl, rfl⟩
  · cases h

/-- **What a call does**: short of the record it changes nothing that it does
not take back, and past it nothing fails. -/
theorem assign_cases (e : Engine) (name : Bytes) (s : State) :
    (writing e name s = none ∧ ((assign e name s).1 = .raised ∨
      ∃ detail, (assign e name s).1 = .returned false detail ∧ Kept s (assign e name s).2)) ∨
    ∃ category t w, site e name s = .ok (category, t) ∧ writing e name s = some (t, w) ∧
      ownerKey e.name = some w.key ∧ w.assignment.category = category ∧
      (assign e name s).2.records = w.run s.records ∧
      (∃ detail, (assign e name s).1 = .returned true detail) ∧
      (assign e name s).2.metadata t.ref =
        ⟨.str w.assignment.target.id, (e.owner .mark).elim .nil .str, .str category⟩ := by
  unfold assign writing persistAssignment
  cases hsite : site e name s with
  | error stop =>
    cases stop with
    | raised => exact .inl ⟨rfl, .inl rfl⟩
    | refused detail => exact .inl ⟨rfl, .inr ⟨detail, rfl, rfl, rfl⟩⟩
  | ok found =>
    obtain ⟨category, t⟩ := found
    dsimp only
    cases hid : identify e (s.metadata t.ref).id s.storage with
    | mk id sequence =>
      cases id with
      | error => exact .inl ⟨rfl, .inl rfl⟩
      | ok id =>
        cases hplace : e.place with
        | error => exact .inl ⟨rfl, .inl rfl⟩
        | ok p =>
          have hback := mark_mark { s with storage := sequence } t.ref
            ⟨id, (e.owner .mark).elim .nil .str, .str category⟩
          dsimp only at hback ⊢
          unfold setStorageAssignmentForOwner
          cases e.recordFor .record with
          | false => exact .inl ⟨rfl, .inr ⟨_, rfl, hback, rfl⟩⟩
          | true =>
            simp only [Bool.not_true, Bool.false_eq_true, if_false, if_true]
            cases hw : permit (e.owner .record) category (targetOf id t.scope p) s.records with
            | error detail => exact .inl ⟨rfl, .inr ⟨detail, rfl, hback, rfl⟩⟩
            | ok w =>
              obtain ⟨hkey, -, hcategory, htarget⟩ := permit_eq_ok hw
              have hmark : ∀ m, (State.mark { s with storage := sequence } t.ref m).metadata
                  t.ref = m := fun m => Function.update_self _ _ _
              refine .inr ⟨category, t, w, rfl, rfl, hkey, hcategory, rfl, ⟨_, rfl⟩, ?_⟩
              dsimp only
              rw [hmark, id_of_targetOf htarget]

/-- A category that reached the record stands in it. -/
theorem run_apply (w : Writing) (records : Bytes → Option Record) :
    ∃ record, w.run records w.key = some record ∧
      record.assignments.bind (Finmap.lookup w.assignment.target.id) = some w.assignment :=
  ⟨_, Function.update_self _ _ _, Finmap.lookup_insert _⟩

/-- **A category is assigned in both places or in neither** exactly when the
owner's name can be read as the container is marked. -/
theorem atomic_iff_named (e : Engine) (name : Bytes) (s : State) :
    Atomic e name s ↔ Named e name s := by
  rcases assign_cases e name s with ⟨hnone, hend⟩ | ⟨category, t, w, hsite, hw, hkey, hcategory,
    hrecords, ⟨detail, hend⟩, hmetadata⟩
  · refine iff_of_true ?_ fun t w hw => by rw [hnone] at hw; cases hw
    unfold Atomic
    generalize assign e name s = r at hend ⊢
    obtain ⟨ending, s'⟩ := r
    rcases hend with rfl | ⟨detail, rfl, hkept⟩
    · trivial
    · exact hkept
  · have hnamed : Named e name s ↔ e.reads .mark = true := by
      refine ⟨fun h => h t w hw, fun h t' w' _ => h⟩
    rw [hnamed, ← elim_owner]
    unfold Atomic
    generalize assign e name s = r at hend hmetadata hrecords ⊢
    obtain ⟨ending, s'⟩ := r
    dsimp only at hend hmetadata hrecords
    subst hend
    constructor
    · rintro ⟨_, t', _, _, _, hsite', -, -, -, -, ⟨howner, -⟩, -⟩
      obtain ⟨rfl, rfl⟩ := Prod.mk.inj (Except.ok.inj (hsite.symm.trans hsite'))
      rw [hmetadata] at howner
      exact howner
    · intro howner
      obtain ⟨record, hrecord, hlookup⟩ := run_apply w s.records
      refine ⟨category, t, w.key, record, w.assignment, hsite, hkey, hrecords ▸ hrecord, hlookup,
        hcategory, ⟨?_, ?_⟩, ?_⟩
      · rw [hmetadata]
        exact howner
      · rw [hmetadata]
      · rw [hmetadata]

end Storage

/-! ## Both -/

namespace Assignments

/-- **Assignments are atomic** exactly when nothing raises between the record
and the answer, and the owner's name can be read as the container is marked. -/
theorem atomic_iff (e : Engine) (s : State) :
    (∀ fullType minimum, Stockpiles.Atomic e fullType minimum s ↔
      Stockpiles.Unbroken e fullType minimum s) ∧
    (∀ name, Storage.Atomic e name s ↔ Storage.Named e name s) :=
  ⟨fun fullType minimum => Stockpiles.atomic_iff_unbroken e fullType minimum s,
    fun name => Storage.atomic_iff_named e name s⟩

/-- A crate beside the owner, and a search for his body that raises. -/
def raising : Engine where
  isGoblin := true
  name := Bytes.lit "bob"
  reads := fun _ => true
  username := some (Bytes.lit "bob")
  script := some (some (Bytes.lit "Base.Nails"), some false)
  recordFor := fun _ => true
  point := some (0, 0)
  scope := .ok (some (Bytes.lit "0:0:9:9:0:0"))
  inside := .ok true
  spots := [.ok (some ⟨true, 1 / 2, 1 / 2, [⟨0, true, true, true, true⟩]⟩)]
  modData := true
  stamp := .ok (Bytes.lit "1", Bytes.lit "crate")
  place := .ok (1 / 2, 1 / 2, 0)
  cached := false
  discovers := .error .raised
  report := .ok ()

/-- A container nobody has marked, and a record with a base and no rules. -/
def unmarked : State where
  metadata := fun _ => ⟨.nil, .nil, .nil⟩
  records := fun key => if key = Bytes.lit "bob" then some ⟨true, true, none, none⟩ else none
  stockpiles := 0
  storage := 0

/-- The call says that the store is unavailable, and the rule is in it. -/
theorem not_atomic_raising : ¬ Stockpiles.Atomic raising (Bytes.lit "Base.Nails")
    (some (.finite 100)) unmarked := by
  have hrefused : (Stockpiles.assign raising (Bytes.lit "Base.Nails") (some (.finite 100))
      unmarked).1 = .returned false (Bytes.lit "persistent stockpile store unavailable") := by
    decide +kernel
  have hwritten : (Stockpiles.assign raising (Bytes.lit "Base.Nails") (some (.finite 100))
      unmarked).2.records (Bytes.lit "bob") ≠ unmarked.records (Bytes.lit "bob") := by
    decide +kernel
  unfold Stockpiles.Atomic
  generalize Stockpiles.assign raising (Bytes.lit "Base.Nails") (some (.finite 100)) unmarked = r
    at hrefused hwritten ⊢
  obtain ⟨ending, s'⟩ := r
  dsimp only at hrefused hwritten
  subst hrefused
  exact fun hkept => hwritten (congrFun hkept.2 _)

end Assignments

end GoblinZomboid
