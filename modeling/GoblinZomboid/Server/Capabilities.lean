import GoblinZomboid.Server.Situation
/-!
# `GoblinCapabilities.lua`: job results

A capability reports its progress as a structured result. One that is
done either succeeded, and its code is `COMPLETE`, or carries one of the
standard failure codes.
-/

namespace GoblinZomboid

namespace Capabilities

/-- `failureCodes`. -/
def failureCodes : List Bytes :=
  ["NO_TARGET", "NO_PATH", "BLOCKED", "LOCKED", "MISSING_MATERIAL", "MISSING_TOOL",
    "TARGET_UNLOADED", "TARGET_CHANGED", "UNSUPPORTED", "PERMISSION_DENIED", "INTERRUPTED",
    "TIMEOUT", "ENGINE_ERROR"].map Bytes.lit

/-- `activeCodes`. -/
def activeCodes : List Bytes :=
  ["MOVING_TO_TARGET", "WORKING", "WAITING_FOR_MATERIAL", "WAITING_FOR_TARGET"].map Bytes.lit

def complete : Bytes := Bytes.lit "COMPLETE"

/-- What `Capabilities.result` checks before it builds a result. -/
def ValidCode (done success : Bool) (code : Bytes) : Prop :=
  match done, success with
  | true, true => code = complete
  | true, false => code ∈ failureCodes
  | false, true => code ∈ activeCodes
  | false, false => code ∈ failureCodes ∨ code ∈ activeCodes

instance (done success : Bool) (code : Bytes) : Decidable (ValidCode done success code) := by
  cases done <;> cases success <;> unfold ValidCode <;> infer_instance

/-- The pairs in a value and in the tables inside it, down to a depth:
`none` for a value `primitive` refuses. -/
def pairs : ℕ → LuaValue → Option ℕ
  | _, .num (.finite _) => some 0
  | _, .num _ => none
  | 0, .table _ => none
  | depth + 1, .table entries =>
    entries.foldl (fun count e =>
      match count, e.1, pairs depth e.2 with
      | some _, .bool _, _ => none
      | some _, .num (.huge _), _ => none
      | some _, .num .nan, _ => none
      | some n, _, some m => some (n + 1 + m)
      | _, _, _ => none) (some 0)
  | _, _ => some 0

/-- `Capabilities.serializable`: primitive values, at most nine tables deep
and 256 pairs in all. -/
def serializable (v : LuaValue) : Bool := (pairs 9 v).any (· ≤ 256)

/-- A capability result. -/
structure Result where
  done : Bool
  success : Bool
  code : Bytes
  detail : Bytes
  valid : ValidCode done success code

/-- `Capabilities.result`: an error for a code that does not fit, and at
most 512 bytes of detail. -/
def result (done success : Bool) (code detail : Bytes) : Option Result :=
  if h : ValidCode done success code then some ⟨done, success, code, detail.take 512, h⟩ else none

/-- **A finished job succeeded exactly when its code is `COMPLETE`.** -/
theorem success_iff_complete {r : Result} (h : r.done = true) :
    r.success = true ↔ r.code = complete := by
  have hvalid := r.valid
  rw [h] at hvalid
  constructor
  · intro hs
    rw [hs] at hvalid
    exact hvalid
  · intro hcode
    by_contra hs
    rw [Bool.not_eq_true] at hs
    rw [hs, hcode] at hvalid
    exact absurd hvalid (by decide)

/-- The code of a finished job is one of these. -/
theorem code_mem {r : Result} (h : r.done = true) : r.code ∈ complete :: failureCodes := by
  have hvalid := r.valid
  rw [h] at hvalid
  cases hs : r.success with
  | true => rw [hs] at hvalid; exact List.mem_cons.2 (Or.inl hvalid)
  | false => rw [hs] at hvalid; exact List.mem_cons_of_mem _ hvalid

end Capabilities

/-- The tasks `GoblinJobs.lua` registers as capabilities. -/
def Jobs.tasks : List Task :=
  [.prepareFoodStorage, .moveCorpse, .farm, .craft, .repairVehicle, .closeCurtains, .inspectBase,
    .maintainBase, .dismantle, .stockpile, .sortStorage, .fetchItem, .deliver, .repairStructure,
    .vehicleInspect, .refuelVehicle, .installPart, .removePart, .replacePart, .changeTire,
    .vehicleService, .chopWood, .treatPlayer, .forage, .checkTraps, .cook, .restorePower,
    .gainAccess]

/-- `Jobs.CARETAKER`. -/
def Jobs.caretaker (t : Task) : Bool :=
  t = .restorePower || t = .farm || t = .closeCurtains || t = .checkTraps

/-- `Jobs.handles`. -/
def Jobs.handles (t : Task) : Bool := t ∈ Jobs.tasks

/-- The note `Brain.update` makes of a finished job: the task, the code and
the detail as text, and the body's free-will flag and the payload's goal id
as metadata. -/
def Brain.noteJob (log : Situation.Log) (task : Task) (r : Capabilities.Result) (freewill : Bool)
    (goalId : Option Bytes) (now : ℕ) : Situation.Log :=
  Situation.note log (Bytes.lit "job")
    (task.bytes ++ Bytes.lit " " ++ r.code ++ Bytes.lit ": " ++ r.detail)
    (some ⟨freewill, goalId⟩) now

end GoblinZomboid
