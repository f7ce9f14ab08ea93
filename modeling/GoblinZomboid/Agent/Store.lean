import GoblinZomboid.Agent.Protocol
import Mathlib.Data.Char
import Mathlib.Data.List.AList
import Mathlib.Data.List.Lex
import Mathlib.Data.List.Sort
/-!
# `ipc.py`: the store and its index

A message lies in its channel as two entries, a `.json` file and a `.ready`
marker. The game cannot list a folder, so the stems of the commands stand in
an index file that is written anew after every change to them. Archiving
renames both entries and puts a reason beside them.
-/

namespace GoblinZomboid

namespace BridgeStore

open Protocol (validRequestId)

/-! ## The folders -/

/-- `CHANNELS`. -/
inductive Channel
  | state
  | events
  | commands
  | responses
  | acks
  | runtime
  | archive
  | deadletter
  deriving DecidableEq

/-- `_DESTINATIONS`. -/
inductive Destination
  | archive
  | deadletter
  deriving DecidableEq

def Destination.channel : Destination → Channel
  | .archive => .archive
  | .deadletter => .deadletter

/-- What a file holds: text, or the stems of the index. -/
inductive Data
  | text (t : PyText)
  | index (stems : List PyText)
  deriving DecidableEq

inductive Node
  | file (data : Data)
  | folder
  deriving DecidableEq

/-- A folder: its entries under their names. -/
abbrev Folder := AList fun _ : PyText => Node

/-- The bridge root. -/
structure Store where
  folder : Channel → Folder
  marker : Option Node

def jsonName (stem : PyText) : PyText := stem ++ PyText.lit ".json"

def readyName (stem : PyText) : PyText := stem ++ PyText.lit ".ready"

def reasonName (stem : PyText) : PyText := stem ++ PyText.lit ".reason.json"

/-- `READY_INDEX_NAME`. -/
def indexName : PyText := PyText.lit ".ready-index.json"

namespace Store

/-- The entry under a name. -/
def look (s : Store) (c : Channel) (name : PyText) : Option Node := (s.folder c).lookup name

def put (s : Store) (c : Channel) (name : PyText) (n : Node) : Store :=
  { s with folder := Function.update s.folder c ((s.folder c).insert name n) }

def drop (s : Store) (c : Channel) (name : PyText) : Store :=
  { s with folder := Function.update s.folder c ((s.folder c).erase name) }

/-- `_atomic_write`: no folder may lie under the name. -/
def write (s : Store) (c : Channel) (name : PyText) (data : Data) : Option Store :=
  if s.look c name = some .folder then none else some (s.put c name (.file data))

/-- `os.replace`: only a file goes in place of a file. -/
def replace (s : Store) (c : Channel) (name : PyText) (c' : Channel) (name' : PyText) :
    Option Store :=
  match s.look c name, s.look c' name' with
  | none, _ => none
  | some n, none => some ((s.drop c name).put c' name' n)
  | some (.file data), some (.file _) => some ((s.drop c name).put c' name' (.file data))
  | _, _ => none

/-- Neither entry of a message exists under the stem. -/
def free (s : Store) (c : Channel) (stem : PyText) : Bool :=
  s.look c (jsonName stem) = none ∧ s.look c (readyName stem) = none

end Store

/-! ## The operations -/

/-- `path.stem` of a name that ends with `.ready`. -/
def stemOf (name : PyText) : PyText :=
  let stem := name.take (name.length - 6)
  if stem.isEmpty then name else stem

/-- `sorted(directory.glob("*.ready"))`. -/
def readyPaths (d : Folder) : List PyText :=
  (d.keys.filter fun name => (PyText.lit ".ready").isSuffixOf name).insertionSort (· ≤ ·)

/-- `json_path.is_file()`. -/
def hasJson (d : Folder) (stem : PyText) : Bool :=
  match d.lookup (jsonName stem) with
  | some (.file _) => true
  | _ => false

/-- The stems of `_refresh_ready_index`. -/
def stems (d : Folder) : List PyText :=
  ((readyPaths d).map stemOf).filter fun stem => validRequestId stem && hasJson d stem

/-- `_refresh_ready_index`. -/
def refreshReadyIndex (s : Store) : Option Store :=
  s.write .commands indexName (.index (stems (s.folder .commands)))

/-- `BridgeStore.__init__`: a folder that is missing is an empty one. -/
def initialise (s : Store) : Option Store :=
  match s.marker with
  | some (.file _) => refreshReadyIndex s
  | some .folder => none
  | none =>
    refreshReadyIndex { s with marker := some (.file (.text (PyText.lit "goblin-bridge-v1\n"))) }

/-- The stem a message is published under. -/
def safeStem (requestId : PyText) (stem : Option PyText) : PyText :=
  if (stem.getD []).isEmpty then requestId else stem.getD []

/-- `publish`, of a message that is encoded and whose id was checked. -/
def publish (c : Channel) (encoded requestId : PyText) (stem : Option PyText) (ready : Bool)
    (s : Store) : Option Store := do
  let safe := safeStem requestId stem
  if !validRequestId safe || !s.free c safe then none
  else
    let s ← s.write c (jsonName safe) (.text encoded)
    if ready then
      let s ← s.write c (readyName safe) (.text [])
      if c = .commands then refreshReadyIndex s else some s
    else some s

/-- `ReadyItem`. -/
structure Item where
  channel : Channel
  stem : PyText

/-- The stem that `_move` falls back to; `suffix` is of `uuid.uuid4().hex`. -/
def suffixed (stem suffix : PyText) : PyText := stem ++ PyText.lit "-" ++ suffix

/-- The stem an item is moved to. -/
def targetOf (item : Item) (destination : Destination) (suffix : PyText) (s : Store) : PyText :=
  if s.free destination.channel item.stem then item.stem else suffixed item.stem suffix

/-- `_move`, which `archive` and `deadletter` are. -/
def move (item : Item) (destination : Destination) (suffix reason : PyText) (s : Store) :
    Option Store := do
  let target := targetOf item destination suffix s
  let s ← s.replace item.channel (jsonName item.stem) destination.channel (jsonName target)
  let s ← s.replace item.channel (readyName item.stem) destination.channel (readyName target)
  let s ← s.write destination.channel (reasonName target) (.text reason)
  if item.channel = .commands then refreshReadyIndex s else some s

inductive Op
  | initialise
  | publish (c : Channel) (encoded requestId : PyText) (stem : Option PyText) (ready : Bool)
  | move (item : Item) (destination : Destination) (suffix reason : PyText)

/-- The store after an operation that completes: none where it raises. -/
def Op.run : Op → Store → Option Store
  | .initialise, s => BridgeStore.initialise s
  | .publish c encoded requestId stem ready, s =>
    BridgeStore.publish c encoded requestId stem ready s
  | .move item destination suffix reason, s => BridgeStore.move item destination suffix reason s

/-- The operation writes the index. -/
def Op.refreshes : Op → Bool
  | .initialise => true
  | .publish c _ _ _ ready => c = .commands && ready
  | .move item _ _ _ => item.channel = .commands

/-! ## The entries -/

section

variable {s s' : Store} {c c' : Channel} {name name' : PyText}

theorem look_put (n : Node) :
    (s.put c name n).look c' name' = if c' = c ∧ name' = name then some n else s.look c' name' := by
  unfold Store.put Store.look
  dsimp only
  by_cases hc : c' = c
  · subst hc
    rw [Function.update_self]
    by_cases hname : name' = name
    · subst hname
      rw [if_pos ⟨rfl, rfl⟩, AList.lookup_insert]
    · rw [if_neg (fun h => hname h.2), AList.lookup_insert_ne hname]
  · rw [if_neg (fun h => hc h.1), Function.update_of_ne hc]

theorem look_drop :
    (s.drop c name).look c' name' = if c' = c ∧ name' = name then none else s.look c' name' := by
  unfold Store.drop Store.look
  dsimp only
  by_cases hc : c' = c
  · subst hc
    rw [Function.update_self]
    by_cases hname : name' = name
    · subst hname
      rw [if_pos ⟨rfl, rfl⟩, AList.lookup_erase]
    · rw [if_neg (fun h => hname h.2), AList.lookup_erase_ne hname]
  · rw [if_neg (fun h => hc h.1), Function.update_of_ne hc]

theorem write_eq_some {data : Data} (h : s.write c name data = some s') :
    s' = s.put c name (.file data) := by
  unfold Store.write at h
  split at h
  · cases h
  · exact (Option.some.inj h).symm

theorem replace_eq_some (h : s.replace c name c' name' = some s') :
    ∃ n, s.look c name = some n ∧ s' = (s.drop c name).put c' name' n := by
  unfold Store.replace at h
  split at h
  · cases h
  · rename_i n hn _
    exact ⟨n, hn, (Option.some.inj h).symm⟩
  · rename_i data _ hn _
    exact ⟨_, hn, (Option.some.inj h).symm⟩
  · cases h

theorem free_iff {stem : PyText} : s.free c stem = true ↔
    s.look c (jsonName stem) = none ∧ s.look c (readyName stem) = none := decide_eq_true_iff

end

/-! ## The names -/

theorem jsonName_injective {a b : PyText} (h : jsonName a = jsonName b) : a = b :=
  List.append_cancel_right h

theorem readyName_injective {a b : PyText} (h : readyName a = readyName b) : a = b :=
  List.append_cancel_right h

/-- A name ends with one letter. -/
theorem append_lit_ne {a b : PyText} {u v : String}
    (h : (PyText.lit u).getLast? ≠ (PyText.lit v).getLast?)
    (hu : (PyText.lit u).getLast?.isSome) (hv : (PyText.lit v).getLast?.isSome) :
    a ++ PyText.lit u ≠ b ++ PyText.lit v := by
  intro heq
  have hlast := congrArg List.getLast? heq
  rw [List.getLast?_append, List.getLast?_append, Option.or_of_isSome hu,
    Option.or_of_isSome hv] at hlast
  exact h hlast

theorem jsonName_ne_readyName (a b : PyText) : jsonName a ≠ readyName b :=
  append_lit_ne (by decide) (by decide) (by decide)

theorem reasonName_ne_readyName (a b : PyText) : reasonName a ≠ readyName b :=
  append_lit_ne (by decide) (by decide) (by decide)

theorem indexName_ne_readyName (a : PyText) : indexName ≠ readyName a :=
  @append_lit_ne [] a ".ready-index.json" ".ready" (by decide) (by decide) (by decide)

theorem reasonName_ne_jsonName (a : PyText) : reasonName a ≠ jsonName a := by
  intro h
  exact absurd (List.append_cancel_left h) (by decide)

/-- A request id does not start with a dot, so the index is no message. -/
theorem indexName_ne_jsonName {a : PyText} (h : validRequestId a = true) :
    indexName ≠ jsonName a := by
  intro heq
  have hdot : a = PyText.lit ".ready-index" :=
    (jsonName_injective (a := PyText.lit ".ready-index") heq).symm
  rw [hdot] at h
  exact absurd h (by decide)

/-! ## What is ready -/

/-- The stem is a request id, and both entries of a message lie under it. -/
def Ready (s : Store) (t : PyText) : Prop :=
  validRequestId t = true ∧ (∃ data, s.look .commands (jsonName t) = some (.file data)) ∧
    (s.look .commands (readyName t)).isSome

/-- **The index is faithful**: it lists what is ready, in the order of the
markers' names. -/
def Faithful (s : Store) : Prop :=
  ∃ l, s.look .commands indexName = some (.file (.index l)) ∧
    (l.map readyName).Pairwise (· < ·) ∧ ∀ t, t ∈ l ↔ Ready s t

/-- What a name that ends with `.ready` is the marker of. -/
theorem readyName_stemOf {name : PyText} (hsuffix : PyText.lit ".ready" <:+ name)
    (hvalid : validRequestId (stemOf name) = true) : readyName (stemOf name) = name := by
  obtain ⟨stem, rfl⟩ := hsuffix
  have htake : (stem ++ PyText.lit ".ready").take ((stem ++ PyText.lit ".ready").length - 6)
      = stem := by
    rw [List.length_append]
    show (stem ++ PyText.lit ".ready").take (stem.length + 6 - 6) = stem
    rw [Nat.add_sub_cancel, List.take_left]
  unfold stemOf at hvalid ⊢
  rw [htake] at hvalid ⊢
  by_cases hempty : stem.isEmpty = true
  · rw [List.isEmpty_iff.mp hempty] at hvalid
    exact absurd hvalid (by decide)
  · dsimp only
    rw [if_neg hempty]
    rfl

theorem stemOf_readyName {t : PyText} (h : validRequestId t = true) :
    stemOf (readyName t) = t := by
  have htake : (readyName t).take ((readyName t).length - 6) = t := by
    unfold readyName
    rw [List.length_append]
    show (t ++ PyText.lit ".ready").take (t.length + 6 - 6) = t
    rw [Nat.add_sub_cancel, List.take_left]
  unfold stemOf
  rw [htake]
  cases t with
  | nil => exact absurd h (by decide)
  | cons => rfl

theorem mem_stems {s : Store} {t : PyText} : t ∈ stems (s.folder .commands) ↔ Ready s t := by
  have hjson : hasJson (s.folder .commands) t = true ↔
      ∃ data, s.look .commands (jsonName t) = some (.file data) := by
    unfold hasJson Store.look
    cases (s.folder .commands).lookup (jsonName t) with
    | none => exact ⟨nofun, nofun⟩
    | some n =>
      cases n with
      | file data => exact ⟨fun _ => ⟨data, rfl⟩, fun _ => rfl⟩
      | folder => exact ⟨nofun, nofun⟩
  have hkeys (name : PyText) : name ∈ (s.folder .commands).keys ↔
      (s.look .commands name).isSome := by
    rw [← AList.mem_keys, ← AList.lookup_isSome]
    rfl
  simp only [stems, readyPaths, List.mem_filter, List.mem_map, List.mem_insertionSort,
    Bool.and_eq_true, List.isSuffixOf_iff_suffix, hkeys, hjson]
  constructor
  · rintro ⟨⟨name, ⟨hmem, hsuffix⟩, rfl⟩, hvalid, hfile⟩
    rw [← readyName_stemOf hsuffix hvalid] at hmem
    exact ⟨hvalid, hfile, hmem⟩
  · rintro ⟨hvalid, hfile, hmem⟩
    exact ⟨⟨readyName t, ⟨hmem, List.suffix_append _ _⟩, stemOf_readyName hvalid⟩, hvalid, hfile⟩

theorem pairwise_stems (d : Folder) : ((stems d).map readyName).Pairwise (· < ·) := by
  have hsorted : (readyPaths d).Pairwise (· < ·) := by
    have hle : (readyPaths d).Pairwise (· ≤ ·) := List.pairwise_insertionSort _ _
    have hne : (readyPaths d).Nodup :=
      (List.perm_insertionSort _ _).nodup_iff.mpr (d.nodupKeys.filter _)
    exact (hle.and hne).imp fun h => lt_of_le_of_ne h.1 h.2
  have hsub : ((stems d).map readyName).Sublist (readyPaths d) := by
    unfold stems
    rw [List.filter_map, List.map_map]
    have hid : ((readyPaths d).filter
        ((fun stem => validRequestId stem && hasJson d stem) ∘ stemOf)).map (readyName ∘ stemOf) =
          (readyPaths d).filter
            ((fun stem => validRequestId stem && hasJson d stem) ∘ stemOf) := by
      refine (List.map_congr_left fun name hname => ?_).trans (List.map_id _)
      obtain ⟨hmem, hkeep⟩ := List.mem_filter.mp hname
      have hsuffix : PyText.lit ".ready" <:+ name :=
        List.isSuffixOf_iff_suffix.mp (List.mem_filter.mp ((List.mem_insertionSort _).mp hmem)).2
      exact readyName_stemOf hsuffix (Bool.and_eq_true .. ▸ hkeep).1
    rw [hid]
    exact List.filter_sublist
  exact hsorted.sublist hsub

/-- Entries of other names do not matter to the index. -/
theorem Faithful.congr {s s' : Store} (h : Faithful s)
    (hindex : s'.look .commands indexName = s.look .commands indexName)
    (hready : ∀ t, Ready s' t ↔ Ready s t) : Faithful s' := by
  obtain ⟨l, hl, hsorted, hmem⟩ := h
  exact ⟨l, hindex.trans hl, hsorted, fun t => (hmem t).trans (hready t).symm⟩

/-- Writing the index makes it faithful, whatever lay there. -/
theorem faithful_refreshReadyIndex {s s' : Store} (h : refreshReadyIndex s = some s') :
    Faithful s' := by
  obtain rfl := write_eq_some h
  refine ⟨stems (s.folder .commands), ?_, pairwise_stems _, fun t => mem_stems.trans ?_⟩
  · rw [look_put, if_pos ⟨rfl, rfl⟩]
  · unfold Ready
    refine and_congr_right fun hvalid => ?_
    rw [look_put, look_put, if_neg fun h => indexName_ne_jsonName hvalid h.2.symm,
      if_neg fun h => indexName_ne_readyName t h.2.symm]

/-- What happens in other channels does not matter to the index. -/
theorem Faithful.of_look {s s' : Store} (h : Faithful s)
    (hlook : ∀ name, s'.look .commands name = s.look .commands name) : Faithful s' :=
  h.congr (hlook _) fun t => by unfold Ready; rw [hlook, hlook]

/-! ## What the operations do -/

/-- **Publishing** puts the message where nothing was, and its marker. -/
theorem publish_eq_some {c : Channel} {encoded requestId : PyText} {stem : Option PyText}
    {ready : Bool} {s s' : Store} (h : publish c encoded requestId stem ready s = some s') :
    validRequestId (safeStem requestId stem) = true ∧ s.free c (safeStem requestId stem) = true ∧
      ∃ s₁ s₂, s₁ = s.put c (jsonName (safeStem requestId stem)) (.file (.text encoded)) ∧
        s₂ = s₁.put c (readyName (safeStem requestId stem)) (.file (.text [])) ∧
        (ready = false ∧ s' = s₁ ∨ ready = true ∧ c = .commands ∧ refreshReadyIndex s₂ = some s' ∨
          ready = true ∧ c ≠ .commands ∧ s' = s₂) := by
  unfold publish at h
  dsimp only at h
  split at h
  · cases h
  · rename_i hsafe
    rw [Bool.or_eq_true, not_or, Bool.not_eq_true', Bool.not_eq_true', Bool.not_eq_false,
      Bool.not_eq_false] at hsafe
    obtain ⟨s₁, hs₁, h⟩ := Option.bind_eq_some_iff.mp h
    refine ⟨hsafe.1, hsafe.2, s₁, _, write_eq_some hs₁, rfl, ?_⟩
    cases ready with
    | false => exact .inl ⟨rfl, (Option.some.inj h).symm⟩
    | true =>
      obtain ⟨s₂, hs₂, h⟩ := Option.bind_eq_some_iff.mp h
      rw [← write_eq_some hs₂]
      split at h
      · rename_i hc
        exact .inr (.inl ⟨rfl, hc, h⟩)
      · rename_i hc
        exact .inr (.inr ⟨rfl, hc, (Option.some.inj h).symm⟩)

/-- **Moving** renames both entries and writes the reason. -/
theorem move_eq_some {item : Item} {destination : Destination} {suffix reason : PyText}
    {s s' : Store} (h : move item destination suffix reason s = some s') :
    ∃ n₁ n₂ s₁ s₂ s₃, s.look item.channel (jsonName item.stem) = some n₁ ∧
      s₁ = (s.drop item.channel (jsonName item.stem)).put destination.channel
        (jsonName (targetOf item destination suffix s)) n₁ ∧
      s₁.look item.channel (readyName item.stem) = some n₂ ∧
      s₂ = (s₁.drop item.channel (readyName item.stem)).put destination.channel
        (readyName (targetOf item destination suffix s)) n₂ ∧
      s₃ = s₂.put destination.channel (reasonName (targetOf item destination suffix s))
        (.file (.text reason)) ∧
      (item.channel = .commands ∧ refreshReadyIndex s₃ = some s' ∨
        item.channel ≠ .commands ∧ s' = s₃) := by
  unfold move at h
  obtain ⟨s₁, hs₁, h⟩ := Option.bind_eq_some_iff.mp h
  obtain ⟨s₂, hs₂, h⟩ := Option.bind_eq_some_iff.mp h
  obtain ⟨s₃, hs₃, h⟩ := Option.bind_eq_some_iff.mp h
  obtain ⟨n₁, hn₁, hs₁⟩ := replace_eq_some hs₁
  obtain ⟨n₂, hn₂, hs₂⟩ := replace_eq_some hs₂
  refine ⟨n₁, n₂, s₁, s₂, s₃, hn₁, hs₁, hn₂, hs₂, write_eq_some hs₃, ?_⟩
  split at h
  · rename_i hc
    exact .inl ⟨hc, h⟩
  · rename_i hc
    exact .inr ⟨hc, (Option.some.inj h).symm⟩

/-- A destination is not the commands. -/
theorem Destination.channel_ne (d : Destination) : d.channel ≠ .commands := by
  cases d <;> decide

/-! ## The index over a run -/

theorem look_put_of_ne {s : Store} {c c' : Channel} {name name' : PyText} {n : Node}
    (h : ¬ (c' = c ∧ name' = name)) : (s.put c name n).look c' name' = s.look c' name' := by
  rw [look_put, if_neg h]

theorem look_drop_of_ne {s : Store} {c c' : Channel} {name name' : PyText}
    (h : ¬ (c' = c ∧ name' = name)) : (s.drop c name).look c' name' = s.look c' name' := by
  rw [look_drop, if_neg h]

/-- A message without its marker is not ready, and publishing one changes
nothing about the others. -/
theorem Faithful.put_json {s : Store} (h : Faithful s) {c : Channel} {stem : PyText} {n : Node}
    (hvalid : validRequestId stem = true) (hfree : s.free c stem = true) :
    Faithful (s.put c (jsonName stem) n) := by
  by_cases hc : c = .commands
  · subst hc
    refine h.congr (look_put_of_ne fun h => indexName_ne_jsonName hvalid h.2) fun t => ?_
    have hready : (s.put .commands (jsonName stem) n).look .commands (readyName t) =
        s.look .commands (readyName t) :=
      look_put_of_ne fun h => jsonName_ne_readyName stem t h.2.symm
    unfold Ready
    rw [hready]
    by_cases ht : t = stem
    · subst ht
      rw [(free_iff.mp hfree).2]
      exact ⟨fun h => (Bool.noConfusion h.2.2), fun h => (Bool.noConfusion h.2.2)⟩
    · rw [look_put_of_ne fun h => ht (jsonName_injective h.2)]
  · exact h.of_look fun name => look_put_of_ne fun h => hc h.1.symm

/-- **An operation keeps the index faithful**, and one that writes it makes
it so. -/
theorem faithful_run {op : Op} {s s' : Store} (h : op.run s = some s')
    (hs : Faithful s ∨ op.refreshes = true) : Faithful s' := by
  cases op with
  | initialise =>
    change BridgeStore.initialise s = some s' at h
    unfold BridgeStore.initialise at h
    split at h
    · exact faithful_refreshReadyIndex h
    · cases h
    · exact faithful_refreshReadyIndex h
  | publish c encoded requestId stem ready =>
    obtain ⟨hvalid, hfree, s₁, s₂, rfl, rfl, ⟨rfl, rfl⟩ | ⟨-, -, h⟩ | ⟨rfl, hc, rfl⟩⟩ :=
      publish_eq_some h
    · have hs : Faithful s := hs.resolve_right fun h => by
        rw [Op.refreshes, Bool.and_false] at h
        cases h
      exact hs.put_json hvalid hfree
    · exact faithful_refreshReadyIndex h
    · have hs : Faithful s := hs.resolve_right fun h => hc (by
        rw [Op.refreshes, Bool.and_true, decide_eq_true_eq] at h
        exact h)
      exact (hs.put_json hvalid hfree).of_look fun name => look_put_of_ne fun h => hc h.1.symm
  | move item destination suffix reason =>
    obtain ⟨n₁, n₂, s₁, s₂, s₃, -, rfl, -, rfl, rfl, ⟨-, h⟩ | ⟨hc, rfl⟩⟩ := move_eq_some h
    · exact faithful_refreshReadyIndex h
    · have hs : Faithful s := hs.resolve_right fun h => hc (of_decide_eq_true h)
      have hdest : ¬ Channel.commands = destination.channel :=
        fun h => destination.channel_ne h.symm
      have hfrom : ¬ Channel.commands = item.channel := fun h => hc h.symm
      refine hs.of_look fun name => ?_
      rw [look_put_of_ne fun h => hdest h.1, look_put_of_ne fun h => hdest h.1,
        look_drop_of_ne fun h => hfrom h.1, look_put_of_ne fun h => hdest h.1,
        look_drop_of_ne fun h => hfrom h.1]

/-- The store after these operations, if every one of them completes. -/
def runAll (ops : List Op) (s : Store) : Option Store := ops.foldlM (fun s op => op.run s) s

/-- Whatever lay in the folders, the index is faithful from the first
operation that writes it. -/
theorem faithful_runAll {ops : List Op} {s s' : Store} (hs : Faithful s)
    (h : runAll ops s = some s') : Faithful s' := by
  induction ops generalizing s with
  | nil =>
    obtain rfl := Option.some.inj h
    exact hs
  | cons op ops ih =>
    obtain ⟨s₁, hs₁, h⟩ := Option.bind_eq_some_iff.mp h
    exact ih (faithful_run hs₁ (.inl hs)) h

/-! ## What a move leaves -/

/-- The message of `item` lies under a stem that was free, and of everything
else only the reason and the index have changed. -/
structure Moved (item : Item) (destination : Destination) (s s' : Store) (target : PyText) :
    Prop where
  free : s.free destination.channel target = true
  json : ∃ n, s.look item.channel (jsonName item.stem) = some n ∧
    s'.look destination.channel (jsonName target) = some n
  ready : ∃ n, s.look item.channel (readyName item.stem) = some n ∧
    s'.look destination.channel (readyName target) = some n
  others : ∀ c name n, s.look c name = some n →
    ¬ (c = item.channel ∧ (name = jsonName item.stem ∨ name = readyName item.stem)) →
    ¬ (c = destination.channel ∧ name = reasonName target) →
    ¬ (c = .commands ∧ name = indexName) → s'.look c name = some n

/-- The index is all that writing it changes. -/
theorem look_refreshReadyIndex {s s' : Store} (h : refreshReadyIndex s = some s') {c : Channel}
    {name : PyText} (hne : ¬ (c = .commands ∧ name = indexName)) :
    s'.look c name = s.look c name := by
  obtain rfl := write_eq_some h
  exact look_put_of_ne hne

/-- **A move overwrites no message and loses none**, as long as the suffix is
a new one and nothing lies under the name of the reason. -/
theorem moved_move {item : Item} {destination : Destination} {suffix reason : PyText}
    {s s' : Store} (h : move item destination suffix reason s = some s')
    (hsuffix : s.free destination.channel (suffixed item.stem suffix) = true) :
    Moved item destination s s' (targetOf item destination suffix s) := by
  have hfree : s.free destination.channel (targetOf item destination suffix s) = true := by
    unfold targetOf
    split
    · assumption
    · exact hsuffix
  obtain ⟨hfreeJson, hfreeReady⟩ := free_iff.mp hfree
  obtain ⟨n₁, n₂, s₁, s₂, s₃, hn₁, rfl, hn₂, rfl, rfl, hlast⟩ := move_eq_some h
  generalize targetOf item destination suffix s = target at *
  have hkept : ∀ c name, ¬ (c = .commands ∧ name = indexName) → s'.look c name =
      Store.look ((((((s.drop item.channel (jsonName item.stem)).put destination.channel
        (jsonName target) n₁).drop item.channel (readyName item.stem)).put destination.channel
          (readyName target) n₂).put destination.channel (reasonName target)
            (.file (.text reason)))) c name := by
    intro c name hne
    rcases hlast with ⟨-, hrefresh⟩ | ⟨-, rfl⟩
    · exact look_refreshReadyIndex hrefresh hne
    · rfl
  have hdest : ∀ name, ¬ (destination.channel = .commands ∧ name = indexName) :=
    fun name h => destination.channel_ne h.1
  refine ⟨hfree, ⟨n₁, hn₁, ?_⟩, ⟨n₂, ?_, ?_⟩, fun c name n hn hitem hreason hindex => ?_⟩
  · rw [hkept _ _ (hdest _), look_put_of_ne fun h => reasonName_ne_jsonName target h.2.symm,
      look_put_of_ne fun h => jsonName_ne_readyName _ _ h.2,
      look_drop_of_ne fun h => jsonName_ne_readyName _ _ h.2, look_put, if_pos ⟨rfl, rfl⟩]
  · rw [← hn₂, look_put_of_ne fun h => jsonName_ne_readyName _ _ h.2.symm,
      look_drop_of_ne fun h => jsonName_ne_readyName _ _ h.2.symm]
  · rw [hkept _ _ (hdest _), look_put_of_ne fun h => reasonName_ne_readyName _ _ h.2.symm,
      look_put, if_pos ⟨rfl, rfl⟩]
  · have hjson : ¬ (c = destination.channel ∧ name = jsonName target) := by
      rintro ⟨rfl, rfl⟩
      rw [hfreeJson] at hn
      cases hn
    have hready : ¬ (c = destination.channel ∧ name = readyName target) := by
      rintro ⟨rfl, rfl⟩
      rw [hfreeReady] at hn
      cases hn
    rw [hkept _ _ hindex, look_put_of_ne hreason, look_put_of_ne hready,
      look_drop_of_ne fun h => hitem ⟨h.1, .inr h.2⟩, look_put_of_ne hjson,
      look_drop_of_ne fun h => hitem ⟨h.1, .inl h.2⟩, hn]

/-- What lies under the name of the reason is replaced, a message as well. -/
theorem look_reasonName {item : Item} {destination : Destination} {suffix reason : PyText}
    {s s' : Store} (h : move item destination suffix reason s = some s') :
    s'.look destination.channel (reasonName (targetOf item destination suffix s)) =
      some (.file (.text reason)) := by
  obtain ⟨n₁, n₂, s₁, s₂, s₃, -, -, -, -, rfl, ⟨-, h⟩ | ⟨-, rfl⟩⟩ := move_eq_some h
  · rw [look_refreshReadyIndex h fun h => destination.channel_ne h.1, look_put, if_pos ⟨rfl, rfl⟩]
  · rw [look_put, if_pos ⟨rfl, rfl⟩]

/-- **The index is faithful, and no message is overwritten or lost**: an
operation that writes the index makes it faithful whatever lay in the folders,
every other one keeps it so, and a move puts its message where none was. -/
theorem index_and_moves :
    (∀ (op : Op) (s s' : Store), op.run s = some s' → op.refreshes = true → Faithful s') ∧
    (∀ (op : Op) (s s' : Store), op.run s = some s' → Faithful s → Faithful s') ∧
    (∀ (ops : List Op) (s₀ s s' : Store), initialise s₀ = some s → runAll ops s = some s' →
      Faithful s') ∧
    ∀ (item : Item) (destination : Destination) (suffix reason : PyText) (s s' : Store),
      move item destination suffix reason s = some s' →
        s.free destination.channel (suffixed item.stem suffix) = true →
          Moved item destination s s' (targetOf item destination suffix s) := by
  refine ⟨fun op s s' h hop => faithful_run h (.inr hop), fun op s s' h hs =>
    faithful_run h (.inl hs), fun ops s₀ s s' hinit h => ?_, fun _ _ _ _ _ _ h hsuffix =>
      moved_move h hsuffix⟩
  have hs : Faithful s := @faithful_run .initialise s₀ s hinit (.inr rfl)
  exact faithful_runAll hs h

/-- Three messages among the commands, one of them under a stem that is no
request id. -/
def leftovers : Store where
  folder := fun c =>
    if c = .commands then
      List.toAList (["a.json", "a.ready", "a-1.json", "a-1.ready", "_x.json", "_x.ready"].map
        fun name => ⟨PyText.lit name, .file (.text [])⟩)
    else ∅
  marker := none

/-- The second message is archived after the store is opened. -/
theorem index_and_moves_leftovers : ∃ s s', initialise leftovers = some s ∧
    move ⟨.commands, PyText.lit "a-1"⟩ .archive (PyText.lit "0123456789ab") [] s = some s' ∧
    Faithful s ∧ Faithful s' ∧
    Moved ⟨.commands, PyText.lit "a-1"⟩ .archive s s'
      (targetOf ⟨.commands, PyText.lit "a-1"⟩ .archive (PyText.lit "0123456789ab") s) := by
  obtain ⟨hwrites, hkeeps, hruns, hmoves⟩ := index_and_moves
  obtain ⟨s, hs⟩ : ∃ s, initialise leftovers = some s :=
    Option.isSome_iff_exists.mp (by decide)
  obtain ⟨s', hs'⟩ : ∃ s', move ⟨.commands, PyText.lit "a-1"⟩ .archive
      (PyText.lit "0123456789ab") [] s = some s' := by
    refine Option.isSome_iff_exists.mp ?_
    have hall : ((initialise leftovers).bind
        (move ⟨.commands, PyText.lit "a-1"⟩ .archive (PyText.lit "0123456789ab") [])).isSome := by
      decide
    rw [hs] at hall
    exact hall
  have hfree :
      s.free .archive (suffixed (PyText.lit "a-1") (PyText.lit "0123456789ab")) = true := by
    have hall : ((initialise leftovers).map fun s =>
        s.free .archive (suffixed (PyText.lit "a-1") (PyText.lit "0123456789ab"))) = some true := by
      decide
    rw [hs] at hall
    exact Option.some.inj hall
  refine ⟨s, s', hs, hs', hwrites .initialise leftovers s hs rfl, ?_, hmoves _ _ _ _ _ _ hs' hfree⟩
  exact hruns [.move ⟨.commands, PyText.lit "a-1"⟩ .archive (PyText.lit "0123456789ab") []] _ _ _ hs
    (by rw [runAll, List.foldlM_cons]; exact Option.bind_eq_some_iff.mpr ⟨s', hs', rfl⟩)

/-- The stems are not in order, and one that has both files is left out. -/
theorem not_sorted_leftovers :
    ∃ s l, initialise leftovers = some s ∧ s.look .commands indexName = some (.file (.index l)) ∧
      ¬ l.Pairwise (· < ·) ∧ PyText.lit "_x" ∉ l ∧
      s.look .commands (jsonName (PyText.lit "_x")) = some (.file (.text [])) ∧
      s.look .commands (readyName (PyText.lit "_x")) = some (.file (.text [])) := by
  obtain ⟨s, hs⟩ : ∃ s, initialise leftovers = some s :=
    Option.isSome_iff_exists.mp (by decide)
  have hall : (initialise leftovers).map (fun s => (s.look .commands indexName,
      s.look .commands (jsonName (PyText.lit "_x")),
      s.look .commands (readyName (PyText.lit "_x")))) = some (some (.file (.index [PyText.lit "a-1", PyText.lit "a"])),
        some (.file (.text [])), some (.file (.text []))) := by
    decide
  rw [hs] at hall
  obtain ⟨hindex, hlook⟩ := Prod.mk.inj (Option.some.inj hall)
  obtain ⟨hjson, hready⟩ := Prod.mk.inj hlook
  exact ⟨s, _, hs, hindex, by decide, by decide, hjson, hready⟩

end BridgeStore

end GoblinZomboid
