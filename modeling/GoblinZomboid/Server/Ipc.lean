import GoblinZomboid.Server.Net
/-!
# `IPC.lua`: the command folder

The server's end of the bridge works on files that it can write and not
delete. A command is ready while its file can be read and neither of its
two markers holds anything; archiving one writes a copy and the markers.
-/

namespace GoblinZomboid

namespace IPC

def protocol : ℚ := 2

/-- `Config.maxMessageBytes`. -/
def maxMessageBytes : ℕ := 262144

/-- `safeStem`: `^[%w]`, and nothing outside `[%w%._:%-]`. -/
def safeStem (stem : LuaValue) : Option Bytes :=
  match stem with
  | .str s =>
    if s.length < 1 || 128 < s.length then none
    else if !s.head?.any Bytes.isAlnum then none
    else if s.any fun b => !Net.idByte b then none
    else some s
  | _ => none

/-- A number of which `<= 0` does not hold. -/
def positive : LuaValue → Bool
  | .num (.finite q) => 0 < q
  | .num (.huge negative) => !negative
  | .num .nan => true
  | _ => false

/-- `^[%a][%w%._:%-]*$`. -/
def typeName : LuaValue → Bool
  | .str (b :: rest) => Bytes.isAlpha b && rest.all Net.idByte
  | _ => false

/-- `message.protocol == Config.protocol`. -/
def isProtocol : LuaValue → Bool
  | .num n => n == .finite protocol
  | _ => false

/-- `validateMessage`, given the length of the encoded text. -/
def validateMessage (message : LuaValue) (encoded : ℕ) : Bool :=
  match message with
  | .table _ =>
    encoded ≤ maxMessageBytes && isProtocol (message.field "protocol")
      && (safeStem (message.field "request_id")).isSome
      && positive (message.field "timestamp_ms") && typeName (message.field "type")
  | _ => false

/-! ## Files -/

/-- A file that can be read: its length, and what `JSON.decode` makes of
it. -/
structure File where
  size : ℕ
  decoded : LuaValue

inductive Destination
  | archive
  | deadletter
  deriving DecidableEq

/-- The command folder, with the copies made of its files. -/
structure Folder where
  /-- What `ipairs` finds in `.ready-index.json`. -/
  index : List LuaValue
  json : Bytes → Option File
  /-- The stems whose `.done` holds something. -/
  done : List Bytes
  /-- The stems whose `.processed.json` holds something. -/
  processed : List Bytes
  /-- Each copy with its reason, the latest first. -/
  copies : List (Destination × Bytes × String)

variable (f : Folder)

/-- One of the two markers holds something. -/
def Folder.marked (stem : Bytes) : Bool := f.done.contains stem || f.processed.contains stem

/-- `IPC.readReady`. -/
def readReady (stem : Bytes) : Option LuaValue :=
  match safeStem (.str stem) with
  | none => none
  | some safe =>
    match f.json safe with
    | none => none
    | some file =>
      if maxMessageBytes < file.size then none
      else if validateMessage file.decoded file.size then some file.decoded
      else none

/-- The stems of `listReady`, in the order of the index. -/
def candidates : List Bytes :=
  (f.index.filterMap safeStem).filter fun stem =>
    (f.json stem).any (fun file => 0 < file.size) && !f.marked stem

/-- `IPC.listReady`. -/
def listReady : List Bytes := (candidates f).mergeSort fun a b => a ≤ b

/-- `archiveReady`, with every copy and the processed marker written;
whether the `.done` file is, is not said. -/
def archiveReady (stem : Bytes) (destination : Destination) (reason : String)
    (doneWritten : Bool) : Folder :=
  match safeStem (.str stem) with
  | none => f
  | some safe =>
    if (f.json safe).isNone then f
    else
      { f with
        copies := (destination, safe, reason) :: f.copies
        done := if doneWritten then safe :: f.done else f.done
        processed := safe :: f.processed }

/-! ## What the operations do -/

variable {f}

theorem safeStem_eq_some {v : LuaValue} {s : Bytes} (h : safeStem v = some s) : v = .str s := by
  unfold safeStem at h
  split at h
  · split at h
    · cases h
    · split at h
      · cases h
      · split at h
        · cases h
        · rw [Option.some_inj.1 h]
  · cases h

/-- **A ready command** has a safe stem, is there, and names a request. -/
theorem readReady_spec {stem : Bytes} {message : LuaValue}
    (h : readReady f stem = some message) :
    safeStem (.str stem) = some stem ∧
      (∃ file, f.json stem = some file ∧ file.decoded = message) ∧
      ∃ id, message.field "request_id" = .str id := by
  unfold readReady at h
  split at h
  · cases h
  · rename_i safe hsafe
    obtain rfl := LuaValue.str.inj (safeStem_eq_some hsafe)
    split at h
    · cases h
    · rename_i file hfile
      split at h
      · cases h
      · split at h
        · rename_i hvalid
          obtain rfl := Option.some_inj.1 h
          refine ⟨hsafe, ⟨file, hfile, rfl⟩, ?_⟩
          unfold validateMessage at hvalid
          split at hvalid
          · simp only [Bool.and_eq_true] at hvalid
            obtain ⟨id, hid⟩ := Option.isSome_iff_exists.1 hvalid.1.1.2
            exact ⟨id, safeStem_eq_some hid⟩
          · exact absurd hvalid Bool.false_ne_true
        · cases h

theorem not_marked_of_mem_listReady {stem : Bytes} (h : stem ∈ listReady f) :
    f.marked stem = false := by
  have hready := (List.mem_filter.1 (List.mem_mergeSort.1 h)).2
  rw [Bool.and_eq_true, Bool.not_eq_true'] at hready
  exact hready.2

/-- The stems are listed in order. -/
theorem pairwise_listReady (f : Folder) : (listReady f).Pairwise (· ≤ ·) := by
  have htrans (a b c : Bytes) (hab : decide (a ≤ b) = true) (hbc : decide (b ≤ c) = true) :
      decide (a ≤ c) = true :=
    decide_eq_true (List.le_trans (of_decide_eq_true hab) (of_decide_eq_true hbc))
  have htotal (a b : Bytes) : (decide (a ≤ b) || decide (b ≤ a)) = true := by
    rw [Bool.or_eq_true, decide_eq_true_eq, decide_eq_true_eq]
    exact List.le_total a b
  exact (List.pairwise_mergeSort htrans htotal (candidates f)).imp fun h => of_decide_eq_true h

/-- **Archiving** touches no command file and marks no other stem. -/
structure Archived (f : Folder) (stem : Bytes) (f' : Folder) : Prop where
  json : f'.json = f.json
  index : f'.index = f.index
  kept : ∀ id, f.marked id = true → f'.marked id = true
  others : ∀ id, id ≠ stem → f'.marked id = f.marked id

theorem Archived.refl (f : Folder) (stem : Bytes) : Archived f stem f :=
  ⟨rfl, rfl, fun _ h => h, fun _ _ => rfl⟩

theorem archived_archiveReady (f : Folder) (stem : Bytes) (destination : Destination)
    (reason : String) (doneWritten : Bool) :
    Archived f stem (archiveReady f stem destination reason doneWritten) := by
  unfold archiveReady
  split
  · exact .refl f stem
  · rename_i safe hsafe
    obtain rfl := LuaValue.str.inj (safeStem_eq_some hsafe)
    split
    · exact .refl f stem
    · refine ⟨rfl, rfl, fun id h => ?_, fun id hne => ?_⟩
      · simp only [Folder.marked, Bool.or_eq_true, List.contains_iff_mem] at h ⊢
        refine h.imp (fun hdone => ?_) (List.mem_cons_of_mem _)
        split
        · exact List.mem_cons_of_mem _ hdone
        · exact hdone
      · rw [Bool.eq_iff_iff]
        simp only [Folder.marked, Bool.or_eq_true, List.contains_iff_mem]
        split <;> simp [hne]

end IPC

end GoblinZomboid
