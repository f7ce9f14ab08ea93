import GoblinZomboid.Lib.PyJson
import GoblinZomboid.Lib.PyStr
import Mathlib.Data.List.Nodup
/-!
# Data that can be written and read back

A value of Python is well formed when no key is there twice and its floats are
what `repr` writes. Where no string of it holds a lone surrogate, it is a value
of `json.loads`; and its weight is the length of its text.
-/

namespace PyData

mutual

/-- No key twice, and floats known by their `repr`. -/
def Formed : PyData → Prop
  | .float t => PyJson.IsFloat t
  | .list items => FormedItems items
  | .dict entries => (entries.map Prod.fst).Nodup ∧ FormedEntries entries
  | .none | .bool _ | .int _ | .str _ => True

def FormedItems : List PyData → Prop
  | [] => True
  | v :: items => Formed v ∧ FormedItems items

def FormedEntries : List (PyStr × PyData) → Prop
  | [] => True
  | (_, v) :: entries => Formed v ∧ FormedEntries entries

end

mutual

/-- No string and no key holds a lone surrogate. -/
def encodable : PyData → Bool
  | .str t => (PyStr.encode t).isSome
  | .list items => encodableItems items
  | .dict entries => encodableEntries entries
  | .none | .bool _ | .int _ | .float _ => true

def encodableItems : List PyData → Bool
  | [] => true
  | v :: items => encodable v && encodableItems items

def encodableEntries : List (PyStr × PyData) → Bool
  | [] => true
  | (k, v) :: entries => (PyStr.encode k).isSome && (encodable v && encodableEntries entries)

end

/-- The length of what is written of a code point: an escape has two or six
characters. -/
def charWeight : PyChar → ℕ
  | .char c =>
    if List.elem c ['"', '\\', '\n', '\r', '\t'] || c.toNat == 12 || c.toNat == 8 then 2
    else if c.toNat < 32 then 6
    else 1
  | .lone _ => 1

def strWeight (t : PyStr) : ℕ := 2 + (t.map charWeight).sum

mutual

/-- The length of the text of a value. -/
def weight : PyData → ℕ
  | .none => 4
  | .bool b => if b then 4 else 5
  | .int n => (toString n).length
  | .float t => t.length
  | .str t => strWeight t
  | .list items => 2 + weightItems items + (items.length - 1)
  | .dict entries => 2 + weightEntries entries + (entries.length - 1)

def weightItems : List PyData → ℕ
  | [] => 0
  | v :: items => weight v + weightItems items

def weightEntries : List (PyStr × PyData) → ℕ
  | [] => 0
  | (k, v) :: entries => strWeight k + 1 + weight v + weightEntries entries

end

/-! ## Weights -/

theorem length_jsonChar (c : PyChar) : (jsonChar c).length = charWeight c := by
  cases c with
  | lone n => rfl
  | char c =>
    show (PyStr.ofText (PyValue.jsonChar c)).length = _
    unfold PyStr.ofText PyValue.jsonChar charWeight
    rw [List.length_map]
    split
    · rename_i hc
      rw [Bool.or_eq_true, beq_iff_eq, beq_iff_eq] at hc
      rcases hc with rfl | rfl <;> rfl
    rename_i hquote
    split
    · rename_i hc
      rw [beq_iff_eq.1 hc]
      rfl
    rename_i hline
    split
    · rename_i hc
      rw [beq_iff_eq.1 hc]
      rfl
    rename_i hreturn
    split
    · rename_i hc
      rw [beq_iff_eq.1 hc]
      rfl
    rename_i htab
    rw [Bool.or_eq_true, not_or, beq_iff_eq, beq_iff_eq] at hquote
    rw [beq_iff_eq] at hline hreturn htab
    have hnot : List.elem c ['"', '\\', '\n', '\r', '\t'] = false := by
      rw [← Bool.not_eq_true, List.elem_iff]
      simp [hquote, hline, hreturn, htab]
    dsimp only
    rw [hnot, Bool.false_or]
    split
    · rename_i hc
      rw [hc, Bool.true_or]
      rfl
    rename_i hfeed
    rw [Bool.not_eq_true] at hfeed
    rw [hfeed, Bool.false_or]
    split
    · rfl
    split
    · rfl
    · rfl

theorem length_jsonStr (t : PyStr) : (jsonStr t).length = strWeight t := by
  have hbody : (t.flatMap jsonChar).length = (t.map charWeight).sum := by
    induction t with
    | nil => rfl
    | cons c t ih =>
      rw [List.flatMap_cons, List.length_append, ih, length_jsonChar, List.map_cons, List.sum_cons]
  unfold jsonStr strWeight
  rw [List.length_append, List.length_append, hbody]
  show 1 + _ + 1 = _
  omega

theorem length_enclose (left right : Char) (parts : List PyStr) :
    (enclose left right parts).length = 2 + (parts.map List.length).sum + (parts.length - 1) := by
  have hjoin : ((PyStr.lit ",").intercalate parts).length =
      (parts.map List.length).sum + (parts.length - 1) := by
    induction parts with
    | nil => rfl
    | cons t parts ih =>
      cases parts with
      | nil => simp
      | cons t' parts =>
        rw [List.intercalate_cons_cons, List.length_append, List.length_append, ih]
        show _ + 1 + _ = _
        simp only [List.map_cons, List.sum_cons, List.length_cons]
        omega
  unfold enclose
  rw [List.length_append, List.length_cons, hjoin]
  show _ + 1 = _
  omega

theorem jsonItems_eq (items : List PyData) : jsonItems items = items.map json := by
  induction items with
  | nil => rfl
  | cons v items ih => rw [jsonItems, ih, List.map_cons]

theorem jsonEntries_eq (entries : List (PyStr × PyData)) :
    jsonEntries entries = entries.map fun e => jsonStr e.1 ++ .char ':' :: json e.2 := by
  induction entries with
  | nil => rfl
  | cons e entries ih => rw [jsonEntries, ih, List.map_cons]

mutual

/-- **The weight of a value** is the length of what `json.dumps` writes. -/
theorem length_json : (v : PyData) → (json v).length = weight v
  | .none => rfl
  | .bool true => rfl
  | .bool false => rfl
  | .int n => by
    show (PyStr.lit (toString n)).length = (toString n).length
    unfold PyStr.lit PyStr.ofText
    rw [List.length_map]
    rfl
  | .float t => List.length_map _
  | .str t => length_jsonStr t
  | .list items => by
    rw [json, length_enclose, weight, length_jsonItems items, jsonItems_eq, List.length_map]
  | .dict entries => by
    rw [json, length_enclose, weight, length_jsonEntries entries,
      jsonEntries_eq, List.length_map]

theorem length_jsonItems : (items : List PyData) →
    ((jsonItems items).map List.length).sum = weightItems items
  | [] => rfl
  | v :: items => by
    rw [jsonItems, List.map_cons, List.sum_cons, length_json v, length_jsonItems items, weightItems]

theorem length_jsonEntries : (entries : List (PyStr × PyData)) →
    ((jsonEntries entries).map List.length).sum = weightEntries entries
  | [] => rfl
  | (k, v) :: entries => by
    rw [jsonEntries, List.map_cons, List.sum_cons, List.length_append, List.length_cons,
      length_jsonStr, length_json v, length_jsonEntries entries, weightEntries]
    omega

end

/-! ## Values and texts -/

mutual

/-- What can be encoded is a value of `json.loads`. -/
theorem exists_value : (v : PyData) → v.encodable = true → ∃ w, ofValue w = v
  | .none, _ => ⟨.none, rfl⟩
  | .bool b, _ => ⟨.bool b, rfl⟩
  | .int n, _ => ⟨.int n, rfl⟩
  | .float t, _ => ⟨.float t, rfl⟩
  | .str t, h => by
    obtain ⟨text, rfl⟩ := PyStr.isSome_encode.1 (show (PyStr.encode t).isSome = true from h)
    exact ⟨.str text, rfl⟩
  | .list items, h => by
    obtain ⟨values, rfl⟩ := exists_values items h
    exact ⟨.list values, rfl⟩
  | .dict entries, h => by
    obtain ⟨values, rfl⟩ := exists_entries entries h
    exact ⟨.dict values, rfl⟩

theorem exists_values : (items : List PyData) → encodableItems items = true →
    ∃ values, ofItems values = items
  | [], _ => ⟨[], rfl⟩
  | v :: items, h => by
    rw [encodableItems, Bool.and_eq_true] at h
    obtain ⟨w, rfl⟩ := exists_value v h.1
    obtain ⟨values, rfl⟩ := exists_values items h.2
    exact ⟨w :: values, rfl⟩

theorem exists_entries : (entries : List (PyStr × PyData)) → encodableEntries entries = true →
    ∃ values, ofEntries values = entries
  | [], _ => ⟨[], rfl⟩
  | (k, v) :: entries, h => by
    rw [encodableEntries, Bool.and_eq_true, Bool.and_eq_true] at h
    obtain ⟨key, rfl⟩ := PyStr.isSome_encode.1 h.1
    obtain ⟨w, rfl⟩ := exists_value v h.2.1
    obtain ⟨values, rfl⟩ := exists_entries entries h.2.2
    exact ⟨(key, w) :: values, rfl⟩

end

theorem jsonStr_ofText (t : PyText) : jsonStr (PyStr.ofText t) = PyStr.ofText (PyValue.jsonStr t) := by
  have hbody : (PyStr.ofText t).flatMap jsonChar = PyStr.ofText (t.flatMap PyValue.jsonChar) := by
    induction t with
    | nil => rfl
    | cons c t ih =>
      show jsonChar (.char c) ++ (PyStr.ofText t).flatMap jsonChar = _
      rw [ih, List.flatMap_cons, PyStr.ofText_append]
      rfl
  unfold jsonStr PyValue.jsonStr
  rw [hbody, List.cons_append, ← List.singleton_append, PyStr.ofText_append, PyStr.ofText_append,
    ← List.append_assoc]
  rfl

theorem enclose_ofText (left right : Char) (parts : List PyText) :
    enclose left right (parts.map PyStr.ofText) = PyStr.ofText (PyValue.enclose left "," right parts) := by
  have hjoin : (PyStr.lit ",").intercalate (parts.map PyStr.ofText) =
      PyStr.ofText ((PyText.lit ",").intercalate parts) := by
    induction parts with
    | nil => rfl
    | cons t parts ih =>
      cases parts with
      | nil => simp
      | cons t' parts =>
        rw [List.map_cons] at ih ⊢
        rw [List.map_cons, List.intercalate_cons_cons, List.intercalate_cons_cons, ih,
          PyStr.ofText_append, PyStr.ofText_append]
        rfl
  unfold enclose PyValue.enclose
  rw [hjoin, PyStr.ofText_append]
  rfl

mutual

/-- A value and what it is as data have one text. -/
theorem json_ofValue : (w : PyValue) → json (ofValue w) = PyStr.ofText (PyValue.json w)
  | .none => rfl
  | .bool true => rfl
  | .bool false => rfl
  | .int n => rfl
  | .float t => rfl
  | .str t => jsonStr_ofText t
  | .list items => by
    rw [ofValue, json, jsonItems_ofItems items, enclose_ofText, PyValue.json]
  | .dict entries => by
    rw [ofValue, json, jsonEntries_ofEntries entries, enclose_ofText, PyValue.json]

theorem jsonItems_ofItems : (items : List PyValue) →
    jsonItems (ofItems items) = (PyValue.jsonItems items).map PyStr.ofText
  | [] => rfl
  | w :: items => by
    rw [ofItems, jsonItems, json_ofValue w, jsonItems_ofItems items, PyValue.jsonItems, List.map_cons]

theorem jsonEntries_ofEntries : (entries : List (PyText × PyValue)) →
    jsonEntries (ofEntries entries) = (PyValue.jsonEntries entries).map PyStr.ofText
  | [] => rfl
  | (k, w) :: entries => by
    rw [ofEntries, jsonEntries, json_ofValue w, jsonEntries_ofEntries entries, PyValue.jsonEntries,
      List.map_cons, jsonStr_ofText, PyStr.ofText_append]
    rfl

end

/-- The text of a value with a lone surrogate holds it. -/
theorem isSome_encode_iff {t : PyStr} :
    (PyStr.encode t).isSome = true ↔ ∀ n, PyChar.lone n ∉ t := by
  rw [PyStr.isSome_encode]
  constructor
  · rintro ⟨text, rfl⟩ n hn
    obtain ⟨c, -, hc⟩ := List.mem_map.1 hn
    cases hc
  · intro h
    induction t with
    | nil => exact ⟨[], rfl⟩
    | cons c t ih =>
      obtain ⟨text, rfl⟩ := ih fun n hn => h n (List.mem_cons_of_mem _ hn)
      cases c with
      | char c => exact ⟨c :: text, rfl⟩
      | lone n => exact absurd List.mem_cons_self (h n)

theorem encode_of_jsonStr {t : PyStr} (h : ∀ n, PyChar.lone n ∉ jsonStr t) :
    (PyStr.encode t).isSome = true := by
  refine isSome_encode_iff.2 fun n hn => h n ?_
  unfold jsonStr
  refine List.mem_append_left _ (List.mem_append_right _ (List.mem_flatMap.2 ⟨_, hn, ?_⟩))
  exact List.mem_singleton_self _

/-- What stands between the brackets. -/
theorem mem_enclose {left right : Char} {parts : List PyStr} {t : PyStr} {c : PyChar}
    (ht : t ∈ parts) (hc : c ∈ t) : c ∈ enclose left right parts := by
  refine List.mem_append_left _ (List.mem_cons_of_mem _ ?_)
  induction parts with
  | nil => cases ht
  | cons t' parts ih =>
    cases parts with
    | nil =>
      rw [List.intercalate_singleton]
      rwa [List.mem_singleton.1 ht] at hc
    | cons t'' parts =>
      rw [List.intercalate_cons_cons]
      rcases List.mem_cons.1 ht with rfl | ht
      · exact List.mem_append_left _ (List.mem_append_left _ hc)
      · exact List.mem_append_right _ (ih ht)

mutual

/-- **A value whose text can be encoded** can. -/
theorem encodable_of_json : (v : PyData) → (∀ n, PyChar.lone n ∉ json v) → v.encodable = true
  | .none, _ => rfl
  | .bool _, _ => rfl
  | .int _, _ => rfl
  | .float _, _ => rfl
  | .str _, h => encode_of_jsonStr h
  | .list items, h =>
    encodable_of_jsonItems items fun _ ht n hn => h n (mem_enclose ht hn)
  | .dict entries, h =>
    encodable_of_jsonEntries entries fun _ ht n hn => h n (mem_enclose ht hn)

theorem encodable_of_jsonItems : (items : List PyData) →
    (∀ t ∈ jsonItems items, ∀ n, PyChar.lone n ∉ t) → encodableItems items = true
  | [], _ => rfl
  | v :: items, h => by
    obtain ⟨hv, hitems⟩ := List.forall_mem_cons.1 h
    rw [encodableItems, encodable_of_json v hv, encodable_of_jsonItems items hitems]
    rfl

theorem encodable_of_jsonEntries : (entries : List (PyStr × PyData)) →
    (∀ t ∈ jsonEntries entries, ∀ n, PyChar.lone n ∉ t) → encodableEntries entries = true
  | [], _ => rfl
  | (k, v) :: entries, h => by
    obtain ⟨he, hentries⟩ := List.forall_mem_cons.1 h
    have hk := encode_of_jsonStr fun n hn => he n (List.mem_append_left _ hn)
    have hv := encodable_of_json v fun n hn =>
      he n (List.mem_append_right _ (List.mem_cons_of_mem _ hn))
    rw [encodableEntries, hk, hv, encodable_of_jsonEntries entries hentries]
    rfl

end

theorem dumpable_float {t : PyText} (h : PyJson.IsFloat t) :
    PyValue.dumpable (.float t) = true := by
  obtain ⟨p, -, rfl⟩ := h.numeral
  obtain ⟨d, t, htext, hd⟩ := PyJson.text_eq p
  have hletters : ∀ c ∈ ['n', 'i'], c.isDigit = false := by simp
  rw [PyValue.dumpable, Bool.not_eq_true', ← Bool.not_eq_true, List.elem_iff, htext]
  unfold Numeral.Parts.minus
  intro hmem
  have hletter : d ∈ ['n', 'i'] := by
    revert hmem
    cases p.negative with
    | true => simp +contextual [PyValue.nonFinite, PyText.lit]
    | false =>
      simp only [PyValue.nonFinite, PyText.lit, List.mem_cons]
      rintro (hmem | hmem | hmem | hmem)
      · exact .inl (List.cons.inj hmem).1
      · exact .inr (.inl (List.cons.inj hmem).1)
      · rw [(List.cons.inj hmem).1] at hd
        exact absurd hd (by decide)
      · cases hmem
  rw [hletters d hletter] at hd
  cases hd

mutual

/-- A number that is short enough to be written does not make `json.dumps`
raise. -/
theorem dumpable_ofValue : (w : PyValue) → Formed (ofValue w) → writable (ofValue w) = true →
    PyValue.dumpable w = true
  | .none => fun _ _ => rfl
  | .bool _ => fun _ _ => rfl
  | .int _ => fun _ h => by
    rw [ofValue, writable] at h
    rw [PyValue.dumpable]
    exact h
  | .float _ => fun hformed _ => dumpable_float hformed
  | .str _ => fun _ _ => rfl
  | .list items => dumpable_ofItems items
  | .dict entries => fun hformed h => dumpable_ofEntries entries hformed.2 h

theorem dumpable_ofItems : (items : List PyValue) → FormedItems (ofItems items) →
    writableItems (ofItems items) = true → PyValue.dumpableItems items = true
  | [] => fun _ _ => rfl
  | w :: items => fun hformed h => by
    rw [ofItems, writableItems, Bool.and_eq_true] at h
    rw [PyValue.dumpableItems, dumpable_ofValue w hformed.1 h.1,
      dumpable_ofItems items hformed.2 h.2]
    rfl

theorem dumpable_ofEntries : (entries : List (PyText × PyValue)) →
    FormedEntries (ofEntries entries) → writableEntries (ofEntries entries) = true →
    PyValue.dumpableEntries entries = true
  | [] => fun _ _ => rfl
  | (k, w) :: entries => fun hformed h => by
    rw [ofEntries, writableEntries, Bool.and_eq_true] at h
    rw [PyValue.dumpableEntries, dumpable_ofValue w hformed.1 h.1,
      dumpable_ofEntries entries hformed.2 h.2]
    rfl

end

theorem keys_ofEntries (entries : List (PyText × PyValue)) :
    (ofEntries entries).map Prod.fst = (entries.map Prod.fst).map PyStr.ofText := by
  induction entries with
  | nil => rfl
  | cons e entries ih => rw [ofEntries, List.map_cons, ih, List.map_cons, List.map_cons]

mutual

/-- A value is as well formed as its data. -/
theorem formed_ofValue : (w : PyValue) → Formed (ofValue w) → PyJson.Formed w
  | .none, _ => trivial
  | .bool _, _ => trivial
  | .int _, _ => trivial
  | .str _, _ => trivial
  | .float _, h => fun _ => h
  | .list items, h => formed_ofItems items h
  | .dict entries, h => by
    refine ⟨?_, formed_ofEntries entries h.2⟩
    have hnodup : ((ofEntries entries).map Prod.fst).Nodup := h.1
    rw [keys_ofEntries] at hnodup
    exact List.Nodup.of_map _ hnodup

theorem formed_ofItems : (items : List PyValue) → FormedItems (ofItems items) →
    PyJson.FormedItems items
  | [], _ => trivial
  | w :: items, h => ⟨formed_ofValue w h.1, formed_ofItems items h.2⟩

theorem formed_ofEntries : (entries : List (PyText × PyValue)) →
    FormedEntries (ofEntries entries) → PyJson.FormedEntries entries
  | [], _ => trivial
  | (_, w) :: entries, h => ⟨formed_ofValue w h.1, formed_ofEntries entries h.2⟩

end

/-- **What `json.dumps` writes** of a value that can be encoded and written is
read back as it. -/
theorem loads_json {v : PyData} (hformed : v.Formed) (hencodable : v.encodable = true)
    (hwritable : v.writable = true) :
    ∃ w t, ofValue w = v ∧ json v = PyStr.ofText t ∧ PyJson.loads t = some w := by
  obtain ⟨w, rfl⟩ := exists_value v hencodable
  exact ⟨w, PyValue.json w, rfl, json_ofValue w, PyJson.loads_json (formed_ofValue w hformed)
    (dumpable_ofValue w hformed hwritable)⟩

end PyData
