import GoblinZomboid.Lib.PyStr
import Mathlib.Data.List.Forall2
/-!
# Views without positions

`brain_view` is what the language model gets of the telemetry: keys that
tell a position are left out at every depth, and so is a distance given as a
number.
-/

namespace GoblinZomboid

namespace Redaction

/-! ## The code -/

/-- A key of a dictionary. -/
inductive Key
  | str (t : PyStr)
  | int (n : ℤ)
  deriving DecidableEq

/-- A telemetry value. -/
inductive Telemetry
  | none
  | bool (b : Bool)
  | int (n : ℤ)
  | float (text : PyText)
  | str (t : PyStr)
  | list (items : List Telemetry)
  | tuple (items : List Telemetry)
  | dict (entries : List (Key × Telemetry))

/-- `_DROP_KEYS`. -/
def dropKeys : List String :=
  ["x", "y", "z", "coord", "coords", "coordinates", "route", "routes", "waypoint", "waypoints",
    "cell", "chunk", "building_id", "raw_packet", "packet", "exact_distance", "location",
    "exact_location", "authority_token", "token"]

/-- What comes after a word. -/
def after (w : String) (t : PyStr) : Option PyStr :=
  if (PyStr.lit w).isPrefixOf t then some (t.drop w.length) else none

/-- `$`: the end, or a line break before it. -/
def atEnd (t : PyStr) : Bool := t == [] || t == PyStr.lit "\n"

/-- `_DROP_RE` after its `(?:^|_)`. -/
def dropsHere (t : PyStr) : Bool :=
  (["x", "y", "z"].any fun w => (after w t).any atEnd) ||
    ["coord", "coords", "coordinate", "route", "waypoint", "cell", "chunk"].any fun w =>
      (after w t).any fun rest => (after "_" rest).isSome || atEnd rest

/-- `_DROP_RE.search(t)`. -/
def dropRe (t : PyStr) : Bool :=
  dropsHere t || t.tails.any fun rest => (after "_" rest).any dropsHere

/-- `key.casefold().replace("-", "_")`. -/
def normalized (u : Unicode) (key : PyStr) : PyStr :=
  (PyStr.casefold u key).map fun c => if c == .char '-' then .char '_' else c

/-- `_is_sensitive_key`. -/
def isSensitiveKey (u : Unicode) (key : PyStr) : Bool :=
  dropKeys.any (fun w => normalized u key == PyStr.lit w) ||
    (PyStr.lit "token").isSuffixOf (normalized u key) ||
    ["coord", "coordinate"].any (fun w => (PyStr.lit w).isPrefixOf (normalized u key)) ||
    dropRe (normalized u key)

/-- `isinstance(v, (int, float)) and not isinstance(v, bool)`. -/
def Telemetry.numeric : Telemetry → Bool
  | .int _ | .float _ => true
  | _ => false

/-- An entry `_redact` leaves out. -/
def hidden (u : Unicode) : Key → Telemetry → Bool
  | .str key, v =>
    isSensitiveKey u key || (normalized u key == PyStr.lit "distance" && v.numeric)
  | .int _, _ => false

mutual

/-- `_redact`. -/
def redact (u : Unicode) : Telemetry → Telemetry
  | .dict entries => .dict (redactEntries u entries)
  | .list items => .list (redactItems u items)
  | .tuple items => .list (redactItems u items)
  | v => v

def redactItems (u : Unicode) : List Telemetry → List Telemetry
  | [] => []
  | v :: items => redact u v :: redactItems u items

def redactEntries (u : Unicode) : List (Key × Telemetry) → List (Key × Telemetry)
  | [] => []
  | (k, v) :: entries =>
    if hidden u k v then redactEntries u entries
    else (k, redact u v) :: redactEntries u entries

end

/-- `brain_view`, which raises on what is no mapping. -/
def brainView (u : Unicode) : Telemetry → Option Telemetry
  | .dict entries => some (redact u (.dict entries))
  | _ => none

/-! ## What a view shows -/

variable {u : Unicode}

/-- **Induction** over a value: what holds of the items of a list, or of the
values of a dictionary, holds of it. -/
theorem Telemetry.induction {P : Telemetry → Prop} (none : P .none) (bool : ∀ b, P (.bool b))
    (int : ∀ n, P (.int n)) (float : ∀ text, P (.float text)) (str : ∀ t, P (.str t))
    (list : ∀ items, (∀ v ∈ items, P v) → P (.list items))
    (tuple : ∀ items, (∀ v ∈ items, P v) → P (.tuple items))
    (dict : ∀ entries, (∀ e ∈ entries, P e.2) → P (.dict entries)) (v : Telemetry) : P v := by
  refine @Telemetry.rec P (fun items => ∀ v ∈ items, P v) (fun entries => ∀ e ∈ entries, P e.2)
    (fun e => P e.2) none bool int float str list tuple dict nofun ?_ nofun ?_ (fun _ _ h => h) v
  · intro head tail hhead htail v hv
    rcases List.mem_cons.1 hv with rfl | hv
    · exact hhead
    · exact htail v hv
  · intro head tail hhead htail e he
    rcases List.mem_cons.1 he with rfl | he
    · exact hhead
    · exact htail e he

theorem redactItems_eq (items : List Telemetry) : redactItems u items = items.map (redact u) := by
  induction items with
  | nil => rfl
  | cons v items ih =>
    unfold redactItems
    rw [ih]
    rfl

/-- The entries of a view are those that are not hidden. -/
theorem redactEntries_eq (entries : List (Key × Telemetry)) :
    redactEntries u entries =
      (entries.filter fun e => !hidden u e.1 e.2).map fun e => (e.1, redact u e.2) := by
  induction entries with
  | nil => rfl
  | cons e entries ih =>
    obtain ⟨k, v⟩ := e
    unfold redactEntries
    rw [ih]
    cases hhidden : hidden u k v with
    | true =>
      rw [if_pos rfl, List.filter_cons_of_neg (by simp [hhidden])]
    | false =>
      rw [if_neg (by simp), List.filter_cons_of_pos (by simp [hhidden]), List.map_cons]

/-- A step into a value. -/
inductive Step
  | item (i : ℕ)
  | key (k : Key)

/-- What lies in a value at the end of a path that no hidden entry is on. -/
inductive Shows (u : Unicode) : Telemetry → List Step → Telemetry → Prop
  | here (v : Telemetry) : Shows u v [] v
  | list {items : List Telemetry} {i : ℕ} {v w : Telemetry} {path : List Step} :
      items[i]? = some v → Shows u v path w → Shows u (.list items) (.item i :: path) w
  | tuple {items : List Telemetry} {i : ℕ} {v w : Telemetry} {path : List Step} :
      items[i]? = some v → Shows u v path w → Shows u (.tuple items) (.item i :: path) w
  | dict {entries : List (Key × Telemetry)} {k : Key} {v w : Telemetry} {path : List Step} :
      (k, v) ∈ entries → hidden u k v = false → Shows u v path w →
      Shows u (.dict entries) (.key k :: path) w

/-- What lies in a value, hidden or not. -/
inductive Reaches : Telemetry → List Step → Telemetry → Prop
  | here (v : Telemetry) : Reaches v [] v
  | list {items : List Telemetry} {i : ℕ} {v w : Telemetry} {path : List Step} :
      items[i]? = some v → Reaches v path w → Reaches (.list items) (.item i :: path) w
  | tuple {items : List Telemetry} {i : ℕ} {v w : Telemetry} {path : List Step} :
      items[i]? = some v → Reaches v path w → Reaches (.tuple items) (.item i :: path) w
  | dict {entries : List (Key × Telemetry)} {k : Key} {v w : Telemetry} {path : List Step} :
      (k, v) ∈ entries → Reaches v path w → Reaches (.dict entries) (.key k :: path) w

/-- What a view keeps of a value: of a scalar itself, of a list or a tuple
its length, of a dictionary the keys of its entries that are not hidden. -/
def Kept (u : Unicode) : Telemetry → Telemetry → Prop
  | .list items, w | .tuple items, w => ∃ items', w = .list items' ∧ items'.length = items.length
  | .dict entries, w => ∃ entries', w = .dict entries' ∧
      entries'.map Prod.fst = (entries.filter fun e => !hidden u e.1 e.2).map Prod.fst
  | v, w => w = v

theorem kept_redact (v : Telemetry) : Kept u v (redact u v) := by
  cases v with
  | list items | tuple items =>
    refine ⟨_, rfl, ?_⟩
    rw [redactItems_eq, List.length_map]
  | dict entries =>
    refine ⟨_, rfl, ?_⟩
    rw [redactEntries_eq, List.map_map]
    rfl
  | _ => rfl

/-- **A path that shows** something leads to its redaction in the view. -/
theorem reaches_redact {v w : Telemetry} {path : List Step} (h : Shows u v path w) :
    Reaches (redact u v) path (redact u w) := by
  induction h with
  | here v => exact .here _
  | list hitem _ ih | tuple hitem _ ih =>
    refine .list ?_ ih
    rw [redactItems_eq, List.getElem?_map, hitem]
    rfl
  | dict hentry hshown _ ih =>
    refine .dict ?_ ih
    rw [redactEntries_eq, List.mem_map]
    exact ⟨_, List.mem_filter.2 ⟨hentry, by simp [hshown]⟩, rfl⟩

/-- The items of a view's list are redactions. -/
theorem getElem?_redactItems {items : List Telemetry} {i : ℕ} {v' : Telemetry}
    (h : (redactItems u items)[i]? = some v') : ∃ v, items[i]? = some v ∧ redact u v = v' := by
  rw [redactItems_eq, List.getElem?_map] at h
  exact Option.map_eq_some_iff.1 h

/-- The entries of a view are redactions of entries that are not hidden. -/
theorem mem_redactEntries {entries : List (Key × Telemetry)} {k : Key} {v' : Telemetry}
    (h : (k, v') ∈ redactEntries u entries) :
    ∃ v, (k, v) ∈ entries ∧ hidden u k v = false ∧ redact u v = v' := by
  rw [redactEntries_eq] at h
  obtain ⟨⟨k', v⟩, hmem, heq⟩ := List.mem_map.1 h
  obtain ⟨rfl, rfl⟩ := Prod.mk.inj heq
  obtain ⟨hentry, hshown⟩ := List.mem_filter.1 hmem
  rw [Bool.not_eq_true'] at hshown
  exact ⟨v, hentry, hshown, rfl⟩

/-- **Nothing else is in a view.** -/
theorem shows_of_reaches {x w' : Telemetry} {path : List Step} (h : Reaches x path w') :
    ∀ v, x = redact u v → ∃ w, Shows u v path w ∧ w' = redact u w := by
  induction h with
  | here x =>
    intro v hv
    exact ⟨v, .here v, hv⟩
  | list hitem _ ih =>
    intro v hv
    cases v with
    | list items | tuple items =>
      obtain rfl := Telemetry.list.inj hv
      obtain ⟨v, hv, hredact⟩ := getElem?_redactItems hitem
      obtain ⟨w, hw, heq⟩ := ih v hredact.symm
      first
        | exact ⟨w, .list hv hw, heq⟩
        | exact ⟨w, .tuple hv hw, heq⟩
    | _ => cases hv
  | tuple _ _ _ =>
    -- A view has no tuple.
    intro v hv
    cases v <;> cases hv
  | dict hentry _ ih =>
    intro v hv
    cases v with
    | dict entries =>
      obtain rfl := Telemetry.dict.inj hv
      obtain ⟨v, hv, hshown, hredact⟩ := mem_redactEntries hentry
      obtain ⟨w, hw, heq⟩ := ih v hredact.symm
      exact ⟨w, .dict hv hshown hw, heq⟩
    | _ => cases hv

/-! ## What a view hides -/

theorem redact_list (items : List Telemetry) :
    redact u (.list items) = .list (items.map (redact u)) :=
  congrArg Telemetry.list (redactItems_eq items)

theorem redact_tuple (items : List Telemetry) :
    redact u (.tuple items) = .list (items.map (redact u)) :=
  congrArg Telemetry.list (redactItems_eq items)

theorem redact_dict (entries : List (Key × Telemetry)) :
    redact u (.dict entries) =
      .dict ((entries.filter fun e => !hidden u e.1 e.2).map fun e => (e.1, redact u e.2)) :=
  congrArg Telemetry.dict (redactEntries_eq entries)

/-- A value is a number in a view when it was one. -/
theorem numeric_redact (v : Telemetry) : (redact u v).numeric = v.numeric := by
  cases v <;> rfl

/-- Redacting changes nothing about which entries are hidden. -/
theorem hidden_redact (k : Key) (v : Telemetry) : hidden u k (redact u v) = hidden u k v := by
  cases k with
  | str key =>
    dsimp only [hidden]
    rw [numeric_redact]
  | int n => rfl

/-- **A view is its own view.** -/
theorem redact_redact (v : Telemetry) : redact u (redact u v) = redact u v := by
  induction v using Telemetry.induction with
  | list items ih =>
    rw [redact_list, redact_list, List.map_map]
    exact congrArg Telemetry.list (List.map_congr_left ih)
  | tuple items ih =>
    rw [redact_tuple, redact_list, List.map_map]
    exact congrArg Telemetry.list (List.map_congr_left ih)
  | dict entries ih =>
    rw [redact_dict, redact_dict, List.filter_map, List.map_map]
    have hstill : (entries.filter fun e => !hidden u e.1 e.2).filter
        ((fun e => !hidden u e.1 e.2) ∘ fun e => (e.1, redact u e.2)) =
          entries.filter fun e => !hidden u e.1 e.2 := by
      refine List.filter_eq_self.2 fun e he => ?_
      have hshown := (List.mem_filter.1 he).2
      show (!hidden u e.1 (redact u e.2)) = true
      rw [hidden_redact]
      exact hshown
    rw [hstill]
    refine congrArg Telemetry.dict (List.map_congr_left fun e he => ?_)
    show (e.1, redact u (redact u e.2)) = (e.1, redact u e.2)
    rw [ih e (List.mem_filter.1 he).1]
  | _ => rfl

mutual

/-- Two values that agree outside the entries that are hidden. -/
inductive Agree (u : Unicode) : Telemetry → Telemetry → Prop
  | same (v : Telemetry) : Agree u v v
  | list {a b : List Telemetry} : AgreeItems u a b → Agree u (.list a) (.list b)
  | tuple {a b : List Telemetry} : AgreeItems u a b → Agree u (.tuple a) (.tuple b)
  | dict {a b : List (Key × Telemetry)} : AgreeEntries u a b → Agree u (.dict a) (.dict b)

inductive AgreeItems (u : Unicode) : List Telemetry → List Telemetry → Prop
  | nil : AgreeItems u [] []
  | cons {v w : Telemetry} {a b : List Telemetry} :
      Agree u v w → AgreeItems u a b → AgreeItems u (v :: a) (w :: b)

inductive AgreeEntries (u : Unicode) : List (Key × Telemetry) → List (Key × Telemetry) → Prop
  | nil : AgreeEntries u [] []
  | left {k : Key} {v : Telemetry} {a b : List (Key × Telemetry)} :
      hidden u k v = true → AgreeEntries u a b → AgreeEntries u ((k, v) :: a) b
  | right {k : Key} {w : Telemetry} {a b : List (Key × Telemetry)} :
      hidden u k w = true → AgreeEntries u a b → AgreeEntries u a ((k, w) :: b)
  | both {k : Key} {v w : Telemetry} {a b : List (Key × Telemetry)} :
      Agree u v w → AgreeEntries u a b → AgreeEntries u ((k, v) :: a) ((k, w) :: b)

end

/-- **Values that agree have one view.** -/
theorem redact_of_agree {v w : Telemetry} (h : Agree u v w) : redact u v = redact u w := by
  refine @Agree.rec u (fun v w _ => redact u v = redact u w)
    (fun a b _ => redactItems u a = redactItems u b)
    (fun a b _ => redactEntries u a = redactEntries u b)
    (fun _ => rfl) (fun _ ih => congrArg Telemetry.list ih) (fun _ ih => congrArg Telemetry.list ih)
    (fun _ ih => congrArg Telemetry.dict ih) rfl ?_ rfl ?_ ?_ ?_ v w h
  · intro v w a b _ _ hhead htail
    rw [redactItems, redactItems, hhead, htail]
  · intro k v a b hhidden _ htail
    rw [redactEntries, if_pos hhidden, htail]
  · intro k w a b hhidden _ htail
    rw [htail, redactEntries, if_pos hhidden]
  · intro k v w a b _ _ hhead htail
    -- Which entries are hidden can be read off the views.
    rw [redactEntries, redactEntries, ← hidden_redact, hhead, htail, hidden_redact]

/-- **No entry of a view is hidden**, at any depth. -/
theorem shown_of_reaches {v : Telemetry} {path : List Step} {entries : List (Key × Telemetry)}
    (h : Reaches (redact u v) path (.dict entries)) :
    ∀ e ∈ entries, hidden u e.1 e.2 = false := by
  obtain ⟨w, -, hw⟩ := shows_of_reaches h v rfl
  intro e he
  cases w with
  | dict entries =>
    obtain rfl := Telemetry.dict.inj hw
    obtain ⟨v, -, hshown, hredact⟩ := mem_redactEntries he
    rw [← hredact, hidden_redact]
    exact hshown
  | _ => cases hw

/-- **Only mappings have a view.** -/
theorem brainView_eq_some {v view : Telemetry} :
    brainView u v = some view ↔ ∃ entries, v = .dict entries ∧ view = redact u v := by
  cases v with
  | dict entries =>
    rw [brainView, Option.some_inj]
    exact ⟨fun h => ⟨entries, rfl, h.symm⟩, fun ⟨_, _, h⟩ => h.symm⟩
  | _ => exact ⟨nofun, nofun⟩

/-- **The model sees no position.** In a view no entry is hidden, at any
depth; values that agree outside the hidden entries have the same view; a view
is its own view; and what lies at the end of a path without a hidden entry is
in the view at the same path, and nothing else is. -/
theorem brainView_hides (u : Unicode) (v view : Telemetry) (h : brainView u v = some view) :
    (∀ path entries, Reaches view path (.dict entries) →
      ∀ e ∈ entries, hidden u e.1 e.2 = false) ∧
    (∀ w, Agree u v w → brainView u w = some view) ∧
    brainView u view = some view ∧
    (∀ path w, Shows u v path w → ∃ w', Reaches view path w' ∧ Kept u w w') ∧
    ∀ path w', Reaches view path w' → ∃ w, Shows u v path w ∧ Kept u w w' := by
  obtain ⟨entries, rfl, rfl⟩ := brainView_eq_some.1 h
  refine ⟨fun path entries => shown_of_reaches, ?_, ?_, ?_, ?_⟩
  · intro w hw
    rw [redact_of_agree hw]
    cases hw with
    | same => rfl
    | dict => rfl
  · rw [brainView_eq_some]
    exact ⟨_, rfl, (redact_redact _).symm⟩
  · intro path w hw
    exact ⟨redact u w, reaches_redact hw, kept_redact w⟩
  · intro path w' hw'
    obtain ⟨w, hw, rfl⟩ := shows_of_reaches hw' _ rfl
    exact ⟨w, hw, kept_redact w⟩

/-- A report with a position, a distance as a number and a mood. -/
def report : Telemetry := .dict
  [(.str (PyStr.lit "last-X"), .int 3), (.str (PyStr.lit "distance"), .float (PyText.lit "2.5")),
    (.str (PyStr.lit "mood"), .str (PyStr.lit "calm"))]

/-- The mood is all of its view, and of the view's view. -/
theorem brainView_report :
    let view := Telemetry.dict [(.str (PyStr.lit "mood"), .str (PyStr.lit "calm"))]
    brainView .ascii report = some view ∧ brainView .ascii view = some view :=
  ⟨rfl, (brainView_hides .ascii report _ rfl).2.2.1⟩

end Redaction

end GoblinZomboid
