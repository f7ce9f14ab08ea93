import GoblinZomboid.Lib.PyJson
import Mathlib.Data.List.Perm.Basic
import Mathlib.Algebra.BigOperators.Group.List.Basic
/-!
# `sort_keys`

A value with the entries of every dictionary in the order of their keys.
Sorting changes neither what a key holds nor how long the text of the value
is.
-/

namespace PyValue

mutual

/-- The value as `json.dumps(v, sort_keys=True)` goes through it. -/
def sorted : PyValue → PyValue
  | .list items => .list (sortedItems items)
  | .dict entries => .dict ((sortedEntries entries).mergeSort fun a b => a.1 ≤ b.1)
  | .none => .none
  | .bool b => .bool b
  | .int n => .int n
  | .float text => .float text
  | .str t => .str t

def sortedItems : List PyValue → List PyValue
  | [] => []
  | v :: items => sorted v :: sortedItems items

def sortedEntries : List (PyText × PyValue) → List (PyText × PyValue)
  | [] => []
  | (k, v) :: entries => (k, sorted v) :: sortedEntries entries

end

theorem sortedItems_eq (items : List PyValue) : sortedItems items = items.map sorted := by
  induction items with
  | nil => rfl
  | cons v items ih => rw [sortedItems, ih, List.map_cons]

theorem sortedEntries_eq (entries : List (PyText × PyValue)) :
    sortedEntries entries = entries.map fun e => (e.1, sorted e.2) := by
  induction entries with
  | nil => rfl
  | cons e entries ih => rw [sortedEntries, ih, List.map_cons]

/-- The entries of a sorted dictionary. -/
def sortedDict (entries : List (PyText × PyValue)) : List (PyText × PyValue) :=
  (entries.map fun e => (e.1, sorted e.2)).mergeSort fun a b => a.1 ≤ b.1

theorem sorted_dict (entries : List (PyText × PyValue)) :
    sorted (.dict entries) = .dict (sortedDict entries) := by
  rw [sorted, sortedEntries_eq, sortedDict]

theorem sortedDict_perm (entries : List (PyText × PyValue)) :
    (sortedDict entries).Perm (entries.map fun e => (e.1, sorted e.2)) := List.mergeSort_perm _ _

/-- Sorting keeps the keys. -/
theorem keys_sortedDict (entries : List (PyText × PyValue)) :
    ((sortedDict entries).map Prod.fst).Perm (entries.map Prod.fst) := by
  have h := (sortedDict_perm entries).map Prod.fst
  rwa [List.map_map] at h

theorem dumpable_sorted (v : PyValue) : dumpable v.sorted = dumpable v := by
  rw [Bool.eq_iff_iff]
  induction v using PyValue.induction with
  | list items ih =>
    rw [sorted, dumpable, dumpable, dumpableItems_eq_true, dumpableItems_eq_true, sortedItems_eq]
    constructor
    · exact fun h v hv => (ih v hv).1 (h _ (List.mem_map_of_mem hv))
    · intro h v hv
      obtain ⟨w, hw, rfl⟩ := List.mem_map.1 hv
      exact (ih w hw).2 (h w hw)
  | dict entries ih =>
    rw [sorted_dict, dumpable, dumpable, dumpableEntries_eq_true, dumpableEntries_eq_true]
    constructor
    · exact fun h e he => (ih e he).1
        (h _ ((sortedDict_perm entries).mem_iff.2 (List.mem_map_of_mem he)))
    · intro h e he
      obtain ⟨f, hf, rfl⟩ := List.mem_map.1 ((sortedDict_perm entries).mem_iff.1 he)
      exact (ih f hf).2 (h f hf)
  | _ => rw [sorted]

theorem formed_sorted {v : PyValue} (h : PyJson.Formed v) : PyJson.Formed v.sorted := by
  induction v using PyValue.induction with
  | list items ih =>
    rw [PyJson.Formed, PyJson.formedItems_iff] at h
    rw [sorted, PyJson.Formed, PyJson.formedItems_iff, sortedItems_eq]
    intro v hv
    obtain ⟨w, hw, rfl⟩ := List.mem_map.1 hv
    exact ih w hw (h w hw)
  | dict entries ih =>
    rw [PyJson.Formed, PyJson.formedEntries_iff] at h
    rw [sorted_dict, PyJson.Formed, PyJson.formedEntries_iff]
    refine ⟨(keys_sortedDict entries).nodup_iff.2 h.1, fun e he => ?_⟩
    obtain ⟨f, hf, rfl⟩ := List.mem_map.1 ((sortedDict_perm entries).mem_iff.1 he)
    exact ih f hf (h.2 f hf)
  | _ => exact h

/-! ## Sizes -/

/-- The bytes of parts, with one for what comes before each. -/
def partsSize (parts : List PyText) : ℕ := (parts.map fun t => size t + 1).sum

theorem partsSize_perm {parts parts' : List PyText} (h : parts.Perm parts') :
    partsSize parts = partsSize parts' := (h.map _).sum_eq

theorem partsSize_append (parts parts' : List PyText) :
    partsSize (parts ++ parts') = partsSize parts + partsSize parts' := by
  unfold partsSize
  rw [List.map_append, List.sum_append]

theorem size_flatMap_comma (parts : List PyText) :
    size (parts.flatMap (',' :: ·)) = partsSize parts := by
  have hcomma : Char.utf8Size ',' = 1 := by decide
  unfold partsSize
  induction parts with
  | nil => rfl
  | cons t parts ih =>
    rw [List.flatMap_cons, size_append, size_cons, ih, List.map_cons, List.sum_cons, hcomma]
    omega

/-- Parts between brackets: with the brackets, a separator less than parts. -/
theorem size_enclose {left right : Char} (hleft : left.utf8Size = 1) (hright : right.utf8Size = 1)
    (part : PyText) (parts : List PyText) :
    size (enclose left "," right (part :: parts)) = partsSize (part :: parts) + 1 := by
  have hsum : partsSize (part :: parts) = size part + 1 + partsSize parts := by
    unfold partsSize
    rw [List.map_cons, List.sum_cons]
  rw [PyJson.enclose_cons, size_cons, size_append, size_append, size_flatMap_comma, size_cons,
    size_nil, hleft, hright, hsum]
  omega

theorem size_enclose_congr {left right : Char} (hleft : left.utf8Size = 1)
    (hright : right.utf8Size = 1) {parts parts' : List PyText} (hlen : parts.length = parts'.length)
    (h : partsSize parts = partsSize parts') :
    size (enclose left "," right parts) = size (enclose left "," right parts') := by
  cases parts with
  | nil =>
    cases parts' with
    | nil => rfl
    | cons t parts' => cases hlen
  | cons t parts =>
    cases parts' with
    | nil => cases hlen
    | cons t' parts' => rw [size_enclose hleft hright, size_enclose hleft hright, h]

/-- **Sorting keeps the size** of the text. -/
theorem size_json_sorted (v : PyValue) : size (json v.sorted) = size (json v) := by
  have hone : Char.utf8Size '[' = 1 ∧ Char.utf8Size ']' = 1 ∧ Char.utf8Size '{' = 1 ∧
      Char.utf8Size '}' = 1 := by decide
  obtain ⟨h1, h2, h3, h4⟩ := hone
  induction v using PyValue.induction with
  | list items ih =>
    rw [sorted, json, json, sortedItems_eq]
    have hitems (l : List PyValue) : jsonItems l = l.map json := by
      induction l with
      | nil => rfl
      | cons v l ihl => rw [jsonItems, ihl, List.map_cons]
    rw [hitems, hitems, List.map_map]
    refine size_enclose_congr h1 h2 (by simp only [List.length_map]) ?_
    unfold partsSize
    rw [List.map_map, List.map_map]
    exact congrArg List.sum (List.map_congr_left fun v hv => congrArg (· + 1) (ih v hv))
  | dict entries ih =>
    rw [sorted_dict, json, json, PyJson.jsonEntries_eq, PyJson.jsonEntries_eq]
    have hperm : ((sortedDict entries).map PyJson.entryText).Perm
        ((entries.map fun e => (e.1, sorted e.2)).map PyJson.entryText) :=
      (sortedDict_perm entries).map _
    refine size_enclose_congr h3 h4 (by simpa only [List.length_map] using hperm.length_eq) ?_
    rw [partsSize_perm hperm]
    unfold partsSize
    rw [List.map_map, List.map_map, List.map_map]
    refine congrArg List.sum (List.map_congr_left fun e he => ?_)
    show size (PyJson.entryText (e.1, sorted e.2)) + 1 = size (PyJson.entryText e) + 1
    unfold PyJson.entryText
    rw [size_append, size_append, size_cons, size_cons, ih e he]
  | _ => rw [sorted]

end PyValue
