import GoblinZomboid.Server.Body
import Mathlib.Logic.Function.Basic
/-!
# `GoblinSpawner.lua`: records and bodies by owner

One record and one body per owner, both found under the owner's key: the
name in lower case with every byte outside `[a-z0-9_-]` made an
underscore. The record table persists; the body table is rebuilt from the
cell's zombies by `discoverBodies`.
-/

namespace GoblinZomboid

namespace Spawner

/-! ## Keys -/

/-- The fold of one byte: `[^a-z0-9_%-]` becomes an underscore. -/
def keyByte (b : UInt8) : UInt8 :=
  if Bytes.isLower b || Bytes.isDigit b || b == 95 || b == 45 then b else 95

/-- `ownerKey`. -/
def ownerKey (owner : Bytes) : Option Bytes :=
  if owner.isEmpty then none else some ((Bytes.lower owner).map keyByte)

/-- `Spawner.npcIdForOwner`. -/
def npcIdForOwner (owner : Bytes) : Option Bytes :=
  (ownerKey owner).map fun key => Config.npcPrefix ++ key

/-! ## The registry -/

/-- A persistent owner record. `createdFor` is the user name it was created
for, which the code does not keep. -/
structure Record where
  createdFor : Bytes
  owner : Bytes
  npcId : Bytes
  generation : ℕ
  bodyPresent : Bool
  task : Task
  taskPayload : LuaValue
  baseSet : Bool
  base : Option Point
  freewill : Bool

/-- A managed zombie. `markedFor` is the user name its body was made for,
which the code does not keep; `restored` is its entry in `restoredBodies`;
`listed` says the cell has it loaded. -/
structure Zombie where
  markedFor : Bytes
  data : Data
  present : Bool
  listed : Bool
  restored : Bool

/-- The state: the record table, every managed zombie there has been, and
the body table, which holds indices into the zombies. -/
structure Registry where
  records : Bytes → Option Record
  zombies : List Zombie
  bodies : Bytes → Option ℕ

namespace Registry

/-- Nothing stored, nobody spawned. -/
def empty : Registry where
  records := fun _ => none
  zombies := []
  bodies := fun _ => none

def setRecord (s : Registry) (key : Bytes) (r : Record) : Registry :=
  { s with records := Function.update s.records key (some r) }

def setBody (s : Registry) (key : Bytes) (ref : Option ℕ) : Registry :=
  { s with bodies := Function.update s.bodies key ref }

def addZombie (s : Registry) (z : Zombie) : Registry :=
  { s with zombies := s.zombies ++ [z] }

def modifyZombie (s : Registry) (ref : ℕ) (f : Zombie → Zombie) : Registry :=
  { s with zombies := s.zombies.modify ref f }

end Registry

/-- `bodyLive`. -/
def bodyLive (z : Zombie) : Bool := z.present && Body.isGoblin ⟨z.data, z.present⟩

/-- The zombie an index stands for, if it is live. -/
def live? (s : Registry) (ref : ℕ) : Option Zombie :=
  s.zombies[ref]?.filter bodyLive

/-- The record `recordFor` creates. -/
def newRecord (owner npcId : Bytes) : Record where
  createdFor := owner
  owner := owner
  npcId := npcId
  generation := 0
  bodyPresent := false
  task := .follow
  taskPayload := Body.ownerPayload owner
  baseSet := false
  base := none
  freewill := true

/-- What `recordFor` writes into the record it returns. -/
def refresh (owner npcId : Bytes) (r : Record) : Record :=
  let idle := r.task == .speak || r.task == .equip
  { r with
    owner := owner
    npcId := npcId
    task := if idle then .follow else r.task
    taskPayload := if idle then Body.ownerPayload owner else r.taskPayload }

/-- `recordFor`: the record under the owner's key, and the registry with it
written back. -/
def recordFor (owner : Bytes) (create : Bool) (s : Registry) : Option Record × Registry :=
  match ownerKey owner with
  | none => (none, s)
  | some key =>
    let npcId := Config.npcPrefix ++ key
    match s.records key with
    | some r => (some (refresh owner npcId r), s.setRecord key (refresh owner npcId r))
    | none =>
      if create then
        (some (refresh owner npcId (newRecord owner npcId)),
          s.setRecord key (refresh owner npcId (newRecord owner npcId)))
      else (none, s)

/-- A change of the record under the owner's key, as the callers of
`recordFor` make it. -/
def updateRecord (owner : Bytes) (create : Bool) (f : Record → Record) (s : Registry) : Registry :=
  match ownerKey owner, recordFor owner create s with
  | some key, (some r, s) => s.setRecord key (f r)
  | _, (_, s) => s

/-- `removeBody`. -/
def removeBody (s : Registry) (ref : ℕ) : Registry :=
  s.modifyZombie ref fun z => { z with present := false, listed := false }

/-- What `applyRecord` writes on a body whose inventory could be restored.
The task is set once per session, and no ride survives a reload. -/
def applyRecord (r : Record) (z : Zombie) : Zombie :=
  let data := { z.data with
    goblinBase := if r.baseSet then r.base else none
    goblinOwner := r.owner
    goblinID := r.npcId
    goblinFreewillEnabled := r.freewill }
  if z.restored then { z with data := data }
  else
    let ride := r.task == .enterVehicle || r.task == .exitVehicle
    let task := if ride then .follow else r.task
    let payload := if ride then Body.ownerPayload r.owner else r.taskPayload
    { z with
      restored := true
      data := { Body.setTask data task payload with
        goblinAutonomous := (payload.field "autonomous").isTrue } }

/-! ## Discovery -/

/-- The generation of a body. -/
def generationOf (s : Registry) (ref : ℕ) : ℕ :=
  (s.zombies[ref]?.map fun z => z.data.goblinGeneration).getD 0

/-- The first pass of `discoverBodies`: the best body of each key, and the
duplicates. -/
structure Scan where
  registry : Registry
  best : Bytes → Option ℕ
  duplicates : List ℕ

/-- The first pass on one zombie of the cell. -/
def scanOne (scan : Scan) (ref : ℕ) : Scan :=
  match scan.registry.zombies[ref]? with
  | none => scan
  | some z =>
    if !(z.listed && bodyLive z) then scan
    else
      match ownerKey z.data.goblinOwner, recordFor z.data.goblinOwner true scan.registry with
      | some key, (some r, s) =>
        let scan := { scan with registry := s }
        if z.data.goblinGeneration < r.generation then
          { scan with duplicates := scan.duplicates ++ [ref] }
        else
          match scan.best key with
          | none => { scan with best := Function.update scan.best key (some ref) }
          | some existing =>
            if generationOf s existing < z.data.goblinGeneration then
              { scan with
                best := Function.update scan.best key (some ref)
                duplicates := scan.duplicates ++ [existing] }
            else { scan with duplicates := scan.duplicates ++ [ref] }
      | _, _ => { scan with duplicates := scan.duplicates ++ [ref] }

/-- The last pass on one zombie: the body of its key gets its record
applied, or is removed when its inventory cannot be restored. -/
def settleOne (restore : ℕ → Bool) (s : Registry) (ref : ℕ) : Registry :=
  match s.zombies[ref]? with
  | none => s
  | some z =>
    match ownerKey z.data.goblinOwner with
    | none => s
    | some key =>
      if s.bodies key ≠ some ref then s
      else
        match recordFor z.data.goblinOwner true s with
        | (none, s) => s
        | (some r, s) =>
          let r := { r with
            generation := max r.generation z.data.goblinGeneration
            bodyPresent := true }
          if restore ref then (s.setRecord key r).modifyZombie ref (applyRecord r)
          else (removeBody (s.setRecord key { r with bodyPresent := false }) ref).setBody key none

/-- `discoverBodies`; `restore` is what `Persistence.restore` returns for
each body. The bodies are settled in the order of the cell's list. -/
def discoverBodies (restore : ℕ → Bool) (s : Registry) : Registry :=
  let refs := List.range s.zombies.length
  let scan := refs.foldl scanOne ⟨s, fun _ => none, []⟩
  let s := scan.duplicates.foldl removeBody scan.registry
  refs.foldl (settleOne restore) { s with bodies := scan.best }

/-- `Spawner.findForOwner`. -/
def findForOwner (restore : ℕ → Bool) (owner : Bytes) (s : Registry) : Option ℕ × Registry :=
  match ownerKey owner with
  | none => (none, s)
  | some key =>
    let cached := (s.bodies key).filter fun ref => (live? s ref).any fun z =>
      Bytes.lower z.data.goblinOwner == Bytes.lower owner
    match cached with
    | some ref => (some ref, s)
    | none =>
      let s := discoverBodies restore (s.setBody key none)
      ((s.bodies key).filter fun ref => (live? s ref).isSome, s)

/-! ## Spawning and dying -/

/-- `ensureForPlayer` for an owner whose body is there. -/
def keepBody (restore : ℕ → Bool) (key : Bytes) (ref : ℕ) (s : Registry) : Registry :=
  match s.records key with
  | none => s
  | some r =>
    let r := { r with bodyPresent := true }
    let s := s.setRecord key r
    if restore ref then s.modifyZombie ref (applyRecord r) else s

/-- `ensureForPlayer` for an owner the engine has made a body for: it is
marked, gets the record applied, and is removed when that fails. -/
def spawnBody (restore : ℕ → Bool) (owner key : Bytes) (s : Registry) : Registry :=
  match s.records key with
  | none => s
  | some r =>
    let ref := s.zombies.length
    let r := { r with generation := r.generation + 1, bodyPresent := true }
    let s := s.addZombie ⟨owner, Body.mark r.generation owner r.npcId, true, true, false⟩
    if restore ref then
      ((s.setRecord key r).modifyZombie ref (applyRecord r)).setBody key (some ref)
    else removeBody (s.setRecord key { r with bodyPresent := false }) ref

/-- `Spawner.ensureForPlayer`: `spawn` says the cooldown is over and the
engine made a body on a free square. -/
def ensureForPlayer (restore : ℕ → Bool) (owner : Bytes) (ownerDead spawn : Bool) (s : Registry) :
    Registry :=
  match ownerKey owner with
  | none => s
  | some key =>
    let (found, s) := findForOwner restore owner (recordFor owner true s).2
    if ownerDead then s
    else
      match found with
      | some ref => keepBody restore key ref s
      | none => if spawn then spawnBody restore owner key s else s

/-- `onZombieCreate` for a body that takes its key. -/
def takeBody (restore : ℕ → Bool) (key : Bytes) (ref : ℕ) (r : Record) (s : Registry) :
    Registry :=
  if restore ref then
    ((s.setRecord key { r with bodyPresent := true }).setBody key (some ref)).modifyZombie ref
      (applyRecord { r with bodyPresent := true })
  else removeBody ((s.setRecord key { r with bodyPresent := false }).setBody key none) ref

/-- `Spawner.onZombieCreate`: the engine loads a managed zombie. -/
def onZombieCreate (restore : ℕ → Bool) (ref : ℕ) (s : Registry) : Registry :=
  match s.zombies[ref]? with
  | none => s
  | some z =>
    if !Body.isGoblin ⟨z.data, z.present⟩ then s
    else
      match ownerKey z.data.goblinOwner, recordFor z.data.goblinOwner true s with
      | some key, (some r, s) =>
        if z.data.goblinGeneration < r.generation then removeBody s ref
        else
          let r := { r with generation := max r.generation z.data.goblinGeneration }
          match (s.bodies key).filter fun e => (live? s e).isSome && e != ref with
          | none => takeBody restore key ref r s
          | some existing =>
            if z.data.goblinGeneration ≤ generationOf s existing then removeBody s ref
            else takeBody restore key ref r (removeBody s existing)
      | _, (_, s) => s

/-- `Spawner.onZombieDead`. -/
def onZombieDead (ref : ℕ) (s : Registry) : Registry :=
  match s.zombies[ref]? with
  | none => s
  | some z =>
    if !Body.isGoblin ⟨z.data, z.present⟩ then s
    else
      let owner := z.data.goblinOwner
      let s := updateRecord owner true (fun r =>
        { r with bodyPresent := false, task := .follow, taskPayload := Body.ownerPayload owner }) s
      match ownerKey owner with
      | some key => if s.bodies key = some ref then s.setBody key none else s
      | none => s

/-- `Spawner.removeForPlayer`. -/
def removeForPlayer (restore : ℕ → Bool) (owner : Bytes) (s : Registry) : Registry :=
  match ownerKey owner with
  | none => s
  | some key =>
    match findForOwner restore owner s with
    | (found, s) =>
      let s := match found with
        | some ref => removeBody s ref
        | none => s
      updateRecord owner true (fun r => { r with bodyPresent := false }) (s.setBody key none)

/-- `Spawner.setTask`. -/
def setTask (ref : ℕ) (task : Task) (payload : LuaValue) (s : Registry) : Bool × Registry :=
  match s.zombies[ref]? with
  | none => (false, s)
  | some z =>
    if !Body.isGoblin ⟨z.data, z.present⟩ then (false, s)
    else
      match ownerKey z.data.goblinOwner, recordFor z.data.goblinOwner true s with
      | some key, (some r, s) =>
        (true, (s.setRecord key { r with task := task, taskPayload := payload }).modifyZombie ref
          fun z => { z with data := Body.setTask z.data task payload })
      | _, (_, s) => (false, s)

/-- `Spawner.setBaseForOwnerAt`: no point clears the base. -/
def setBaseForOwnerAt (restore : ℕ → Bool) (owner : Bytes) (point : Option Point) (s : Registry) :
    Registry :=
  let s := updateRecord owner true (fun r => { r with baseSet := point.isSome, base := point }) s
  match findForOwner restore owner s with
  | (some ref, s) =>
    s.modifyZombie ref fun z => { z with data := { z.data with goblinBase := point } }
  | (none, s) => s

end Spawner

end GoblinZomboid
