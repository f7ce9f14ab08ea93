import GoblinZomboid.Agent.Controllers
/-!
# `npc.py`: commands for a body

The driver holds the body selected last. An action for that body becomes a
command message, with the owner's name and the grant the caller passes.
-/

namespace GoblinZomboid

namespace Npc

open Protocol (Dict Message)
open Controllers (SafeAction)

/-- `NPC_ID`. -/
def npcId : PyText := PyText.lit "goblin.primary"

/-- `PRIVILEGED_ACTIONS`. -/
def privileged : List Action :=
  [.formSquad, .dismissSquad, .assignJob, .secureBase, .build, .openDoor, .openWindow,
    .gainAccess, .closeCurtains, .farm, .craft, .repairVehicle, .enterVehicle, .exitVehicle,
    .inspectBase, .maintainBase, .repairStructure, .dismantle, .stockpile, .sortStorage,
    .fetchItem, .deliver, .vehicleInspect, .refuelVehicle, .vehicleService, .installPart,
    .removePart, .replacePart, .changeTire, .chopWood, .treatPlayer, .forage, .checkTraps,
    .cook, .restorePower, .moveCorpse]

/-- `OFFLINE_ACTIONS`; none of them is called `WAIT`. -/
def offline : List Action := [.lootArea, .returnToBase, .secureBase, .equip]

/-! ## Speech -/

def speechLimit : ℕ := 140

/-- The longest prefix that takes no more bytes. -/
def bounded (room : ℕ) : PyText → PyText
  | [] => []
  | c :: t => if c.utf8Size ≤ room then c :: bounded (room - c.utf8Size) t else []

def isQuote (c : Char) : Bool := c == '"' || c == '\u201d' || c == '\u2019' || c == '\''

/-- A blank or the end comes next. -/
def atBlank : PyText → Bool
  | [] => true
  | c :: _ => PyText.isSpace c

/-- Where the last sentence ends that is followed by a blank or the end. -/
def lastEnd (position : ℕ) : PyText → Option ℕ
  | [] => none
  | c :: t =>
    match lastEnd (position + 1) t with
    | some n => some n
    | none =>
      if c == '.' || c == '!' || c == '?' then
        match t with
        | q :: rest =>
          if isQuote q && atBlank rest then some (position + 2)
          else if atBlank t then some (position + 1)
          else none
        | [] => some (position + 1)
      else none

/-- `prefix.rsplit(" ", 1)[0]`, or nothing where there is no blank. -/
def beforeLastBlank (t : PyText) : PyText := (t.reverse.dropWhile (· != ' ')).tail.reverse

/-- `compact_speech`. -/
def compactSpeech (t : PyText) : PyText :=
  let text := [' '].intercalate (PyText.split t)
  if PyValue.size text ≤ speechLimit then text
  else
    match lastEnd 0 (bounded speechLimit text) with
    | some n => text.take n
    | none =>
      PyText.rstripWhere (fun c => c == ',' || c == ';' || c == ':' || c == '-')
        (beforeLastBlank (bounded (speechLimit - 3) text)) ++ PyText.lit "..."

/-! ## Fields -/

/-- A key with its value, where there is one. -/
def optional (name : String) (value : Option PyValue) : Dict :=
  value.toList.map fun v => (PyText.lit name, v)

def texts (t : List PyText) : PyValue := .list (t.map .str)

/-- `as_dict`. -/
def asDict (a : SafeAction) : Dict :=
  [(PyText.lit "action", .str (PyText.lit a.action.value)), (PyText.lit "priority", .int a.priority),
      (PyText.lit "reason", .str a.reason), (PyText.lit "npc_id", .str a.npcId)]
    ++ optional "target" (a.targetKind.map fun kind =>
      .dict [(PyText.lit "kind", .str kind), (PyText.lit "label", .str (a.targetLabel.getD []))])
    ++ optional "item" (a.itemName.map fun name =>
      .dict [(PyText.lit "name", .str name), (PyText.lit "count", .int (itemCount a))])
    ++ optional "leader" (a.leader.map .str)
    ++ (if a.members.isEmpty then [] else [(PyText.lit "members", texts a.members)])
    ++ optional "job" (a.job.map .str) ++ optional "formation" (a.formation.map .str)
    ++ optional "text" (a.text.map .str) ++ optional "squad_id" (a.squadId.map .str)
    ++ optional "loot_focus" (a.lootFocus.map .str)
where
  /-- `item_count or 1`. -/
  itemCount (a : SafeAction) : ℤ :=
    match a.itemCount with
    | some n => if n = 0 then 1 else n
    | none => 1

/-- What `execute` is told besides the action. -/
structure Orders where
  authorityToken : PyValue
  owner : PyValue
  autonomous : Bool
  freewill : Bool

/-- The owner a command names: a name that is not empty, cut to 96
characters. -/
def ownerName (owner : PyValue) : Option PyText :=
  match owner with
  | .str (c :: t) => some ((c :: t).take 96)
  | _ => none

/-- The action needs a grant. -/
def needsToken (a : SafeAction) (o : Orders) : Bool := o.autonomous || privileged.contains a.action

/-- The fields of a command for this body. -/
def fields (npcId : PyText) (a : SafeAction) (o : Orders) : Dict :=
  [(PyText.lit "npc_id", .str npcId), (PyText.lit "action", .str (PyText.lit a.action.value)),
      (PyText.lit "priority", .int a.priority), (PyText.lit "reason", .str (a.reason.take 240)),
      (PyText.lit "controller_action", .dict (asDict a))]
    ++ optional "owner" ((ownerName o.owner).map .str)
    ++ (if needsToken a o then [(PyText.lit "authority_token", o.authorityToken)] else [])
    ++ (if o.autonomous then [(PyText.lit "autonomous", .bool true)] else [])
    ++ (if o.freewill && !o.autonomous then [(PyText.lit "freewill", .bool true)] else [])
    ++ optional "target" (a.targetKind.map fun kind =>
      .dict [(PyText.lit "kind", .str kind),
        (PyText.lit "label", .str ((a.targetLabel.getD []).take 96))])
    ++ optional "item" (a.itemName.map fun name =>
      .dict [(PyText.lit "name", .str (name.take 64)), (PyText.lit "count", .int (asDict.itemCount a))])
    ++ optional "text" (a.text.map fun t => .str (compactSpeech t))
    ++ optional "loot_focus" (a.lootFocus.map .str) ++ optional "leader" (a.leader.map .str)
    ++ optional "job" (a.job.map .str) ++ optional "formation" (a.formation.map .str)
    ++ optional "squad_id" (a.squadId.map .str)
    ++ (if a.members.isEmpty then [] else [(PyText.lit "members", texts a.members)])

/-- The body a driver has selected. -/
structure Driver where
  npcId : PyText
  controlReady : Bool
  npcEngineReady : Bool

/-- A grant token is a text of at most 128 characters. -/
def validToken : PyValue → Bool
  | .str t => !t.isEmpty && t.length ≤ 128
  | _ => false

/-- The checks of `execute`: the status of a refusal, if there is one. -/
def Driver.refusal (u : Unicode) (d : Driver) (a : SafeAction) (o : Orders) : Option String :=
  if (Controllers.refusal u a).isSome then some "rejected"
  else if a.npcId ≠ d.npcId then some "rejected"
  else if o.autonomous && !offline.contains a.action then some "rejected"
  else if needsToken a o && !validToken o.authorityToken then some "rejected"
  else if !(d.controlReady && d.npcEngineReady) then some "sensor_only"
  else none

/-! ## The fields of a command -/

/-- The names of the fields a command can have. -/
def fieldNames : List String :=
  ["npc_id", "action", "priority", "reason", "controller_action", "owner", "authority_token",
    "autonomous", "freewill", "target", "item", "text", "loot_focus", "leader", "job",
    "formation", "squad_id", "members"]

theorem mem_optional {name : String} {v : Option PyValue} {e : PyText × PyValue}
    (h : e ∈ optional name v) : e.1 = PyText.lit name := by
  obtain ⟨v', -, rfl⟩ := List.mem_map.1 h
  rfl

theorem get_optional_self (name : String) (v : Option PyValue) :
    Protocol.get (optional name v) name = v := by
  cases v with
  | none => rfl
  | some v => simp [optional, Protocol.get]

theorem get_optional_ne {name name' : String} (h : PyText.lit name' ≠ PyText.lit name)
    (v : Option PyValue) : Protocol.get (optional name' v) name = none :=
  Protocol.get_eq_none fun _ he => by rw [mem_optional he]; exact h

/-- The fields after the owner. -/
def laterFields (a : SafeAction) (o : Orders) : Dict :=
  (if needsToken a o then [(PyText.lit "authority_token", o.authorityToken)] else [])
    ++ (if o.autonomous then [(PyText.lit "autonomous", .bool true)] else [])
    ++ (if o.freewill && !o.autonomous then [(PyText.lit "freewill", .bool true)] else [])
    ++ optional "target" (a.targetKind.map fun kind =>
      .dict [(PyText.lit "kind", .str kind),
        (PyText.lit "label", .str ((a.targetLabel.getD []).take 96))])
    ++ optional "item" (a.itemName.map fun name =>
      .dict [(PyText.lit "name", .str (name.take 64)), (PyText.lit "count", .int (asDict.itemCount a))])
    ++ optional "text" (a.text.map fun t => .str (compactSpeech t))
    ++ optional "loot_focus" (a.lootFocus.map .str) ++ optional "leader" (a.leader.map .str)
    ++ optional "job" (a.job.map .str) ++ optional "formation" (a.formation.map .str)
    ++ optional "squad_id" (a.squadId.map .str)
    ++ (if a.members.isEmpty then [] else [(PyText.lit "members", texts a.members)])

theorem fields_eq (npcId : PyText) (a : SafeAction) (o : Orders) :
    fields npcId a o =
      [(PyText.lit "npc_id", .str npcId), (PyText.lit "action", .str (PyText.lit a.action.value)),
        (PyText.lit "priority", .int a.priority), (PyText.lit "reason", .str (a.reason.take 240)),
        (PyText.lit "controller_action", .dict (asDict a))]
      ++ (optional "owner" ((ownerName o.owner).map .str) ++ laterFields a o) := by
  simp only [fields, laterFields, List.append_assoc]

theorem name_mem_laterFields {a : SafeAction} {o : Orders} {e : PyText × PyValue}
    (h : e ∈ laterFields a o) : ∃ name ∈ fieldNames, name ≠ "owner" ∧ e.1 = PyText.lit name := by
  have hif {c : Prop} [Decidable c] {name : String} {v : PyValue}
      (h : e ∈ if c then [(PyText.lit name, v)] else []) : e.1 = PyText.lit name := by
    split at h
    · rw [List.mem_singleton.1 h]
    · cases h
  unfold laterFields at h
  simp only [List.mem_append] at h
  rcases h with ((((((((((h | h) | h) | h) | h) | h) | h) | h) | h) | h) | h) | h
  · exact ⟨"authority_token", by decide, by decide, hif h⟩
  · exact ⟨"autonomous", by decide, by decide, hif h⟩
  · exact ⟨"freewill", by decide, by decide, hif h⟩
  · exact ⟨"target", by decide, by decide, mem_optional h⟩
  · exact ⟨"item", by decide, by decide, mem_optional h⟩
  · exact ⟨"text", by decide, by decide, mem_optional h⟩
  · exact ⟨"loot_focus", by decide, by decide, mem_optional h⟩
  · exact ⟨"leader", by decide, by decide, mem_optional h⟩
  · exact ⟨"job", by decide, by decide, mem_optional h⟩
  · exact ⟨"formation", by decide, by decide, mem_optional h⟩
  · exact ⟨"squad_id", by decide, by decide, mem_optional h⟩
  · refine ⟨"members", by decide, by decide, ?_⟩
    split at h
    · cases h
    · rw [List.mem_singleton.1 h]

/-- No field of a command is named like one of the envelope. -/
theorem name_of_mem_fields {npcId : PyText} {a : SafeAction} {o : Orders} {e : PyText × PyValue}
    (h : e ∈ fields npcId a o) :
    Protocol.isRequired e.1 = false ∧ e.1 ≠ PyText.lit "payload" := by
  have hall : ∀ name ∈ fieldNames, Protocol.isRequired (PyText.lit name) = false ∧
      PyText.lit name ≠ PyText.lit "payload" := by decide
  have hname : ∃ name ∈ fieldNames, e.1 = PyText.lit name := by
    rw [fields_eq] at h
    rcases List.mem_append.1 h with h | h
    · simp only [List.mem_cons, List.not_mem_nil, or_false] at h
      rcases h with rfl | rfl | rfl | rfl | rfl
      · exact ⟨"npc_id", by decide, rfl⟩
      · exact ⟨"action", by decide, rfl⟩
      · exact ⟨"priority", by decide, rfl⟩
      · exact ⟨"reason", by decide, rfl⟩
      · exact ⟨"controller_action", by decide, rfl⟩
    · rcases List.mem_append.1 h with h | h
      · exact ⟨"owner", by decide, mem_optional h⟩
      · obtain ⟨name, hmem, -, heq⟩ := name_mem_laterFields h
        exact ⟨name, hmem, heq⟩
  obtain ⟨name, hmem, heq⟩ := hname
  rw [heq]
  exact hall name hmem

/-- **The owner a command names**, if it names one. -/
theorem get_owner_fields (npcId : PyText) (a : SafeAction) (o : Orders) :
    Protocol.get (fields npcId a o) "owner" = (ownerName o.owner).map .str := by
  have hlater : Protocol.get (laterFields a o) "owner" = none := by
    refine Protocol.get_eq_none fun e he heq => ?_
    obtain ⟨name, hmem, hne, hname⟩ := name_mem_laterFields he
    have hall : ∀ name ∈ fieldNames, name ≠ "owner" → PyText.lit name ≠ PyText.lit "owner" := by
      decide
    exact hall name hmem hne (hname.symm.trans heq)
  rw [fields_eq, Protocol.get_append, Protocol.get_append, hlater, Option.or_none]
  cases ownerName o.owner <;> rfl

theorem get_npcId_fields (npcId : PyText) (a : SafeAction) (o : Orders) :
    Protocol.get (fields npcId a o) "npc_id" = some (.str npcId) := by
  rw [fields_eq]
  rfl

theorem get_action_fields (npcId : PyText) (a : SafeAction) (o : Orders) :
    Protocol.get (fields npcId a o) "action" = some (.str (PyText.lit a.action.value)) := by
  rw [fields_eq]
  rfl

end Npc

end GoblinZomboid
