import GoblinZomboid.Lib.JsonText
import GoblinZomboid.Lib.PySorted
import GoblinZomboid.Shared.RoundTrip
import GoblinZomboid.Lib.Near
import Mathlib.Data.List.Perm.Basic
import Mathlib.Data.List.Forall2
/-!
# Documents

What `json.dumps` writes of a value is a JSON text of the grammar that
`JSON.lua` reads, and the text stands for the same content.
-/

namespace GoblinZomboid

namespace Wire

open JsonText (Blanks Piece Pieces Padded Doc)
open JSON (bare piecesOf indexKey)

/-! ## The same content -/

/-- **A Lua value has the content of a Python value**: numbers are equal, strings
are their UTF-8 bytes, and a table has the values of a list under `1` to their
number or the values of a dictionary under its keys. -/
inductive Carries : PyValue → LuaValue → Prop
  | bool (b : Bool) : Carries (.bool b) (.bool b)
  | int (n : ℤ) : Carries (.int n) (.num (.finite n))
  | float (text : PyText) : Carries (.float text) (.num (Double.ofRat (Decimal.value text)))
  | str (t : PyText) : Carries (.str t) (.str (Utf8.encode t))
  | list {items : List PyValue} {table : List (LuaKey × LuaValue)}
      (keys : (table.map Prod.fst).Perm ((List.range' 1 items.length).map indexKey))
      (values : ∀ index v w, items[index]? = some v → (indexKey (index + 1), w) ∈ table →
        Carries v w) : Carries (.list items) (.table table)
  | dict {entries : List (PyText × PyValue)} {table : List (LuaKey × LuaValue)}
      (keys : (table.map Prod.fst).Perm (entries.map fun e => .str (Utf8.encode e.1)))
      (values : ∀ key v w, (key, v) ∈ entries → (.str (Utf8.encode key), w) ∈ table →
        Carries v w) : Carries (.dict entries) (.table table)

/-- The value by itself is no null, and a whole number is a double. -/
def Sendable : PyValue → Prop
  | .none => False
  | .int n => Double.IsDouble n
  | .bool _ | .float _ | .str _ | .list _ | .dict _ => True

/-! ## Strings -/

/-- A character is escaped as its bytes are. -/
theorem encode_jsonChar (c : Char) :
    Utf8.encode (PyValue.jsonChar c) = (String.utf8EncodeChar c).flatMap JSON.escapeByte := by
  by_cases hascii : c.toNat < 128
  · obtain ⟨b, rfl, hb, -⟩ := Utf8.exists_byte_of_ascii hascii
    rw [← hb] at hascii
    have hall := Bytes.forall_byte (p := fun b => b.toNat < 128 →
      Utf8.encode (PyValue.jsonChar (Utf8.char b)) =
        (String.utf8EncodeChar (Utf8.char b)).flatMap JSON.escapeByte) (by decide +kernel)
    exact hall b hascii
  · have hchar : PyValue.jsonChar c = [c] := by
      have hne (d : Char) (hd : d.toNat < 128) : (c == d) = false := by
        rw [beq_eq_false_iff_ne]
        rintro rfl
        exact hascii hd
      have hnat (n : ℕ) (hn : n < 128) : (c.toNat == n) = false := by
        rw [beq_eq_false_iff_ne]
        omega
      unfold PyValue.jsonChar
      rw [hne '"' (by decide), hne '\\' (by decide), hne '\n' (by decide), hne '\r' (by decide),
        hne '\t' (by decide), hnat 12 (by decide), hnat 8 (by decide)]
      simp only [Bool.or_self, Bool.false_eq_true, if_false]
      rw [if_neg (by omega)]
    have hbyte : ∀ b : UInt8, ¬b < 128 → JSON.escapeByte b = [b] :=
      Bytes.forall_byte (p := fun b => ¬b < 128 → JSON.escapeByte b = [b]) (by decide +kernel)
    have hbytes : ∀ b ∈ String.utf8EncodeChar c, JSON.escapeByte b = [b] := by
      intro b hb
      refine hbyte b fun hlow => ?_
      have hc := Utf8.eq_char_of_mem_utf8EncodeChar hb hlow
      have hnat : ∀ b : UInt8, b < 128 → (Utf8.char b).toNat < 128 :=
        Bytes.forall_byte (p := fun b => b < 128 → (Utf8.char b).toNat < 128) (by decide +kernel)
      have hsmall := hnat b hlow
      rw [hc] at hsmall
      exact hascii hsmall
    rw [hchar, Utf8.encode_cons, Utf8.encode_nil, List.append_nil]
    conv_lhs => rw [← List.flatMap_singleton' (String.utf8EncodeChar c)]
    exact (List.flatMap_congr fun b hb => hbytes b hb).symm

theorem quoted_piecesOf (t : PyText) :
    JsonText.quoted (piecesOf (Utf8.encode t)) = Utf8.encode (PyValue.jsonStr t) := by
  have hbody : Utf8.encode (t.flatMap PyValue.jsonChar) =
      (Utf8.encode t).flatMap JSON.escapeByte := by
    induction t with
    | nil => rfl
    | cons c t ih =>
      rw [List.flatMap_cons, Utf8.encode_append, ih, Utf8.encode_cons, List.flatMap_append,
        encode_jsonChar]
  rw [JsonText.quoted, JSON.text_piecesOf, PyValue.jsonStr, List.cons_append, Utf8.encode_cons,
    Utf8.encode_append, hbody]
  rfl

/-! ## Enclosed parts -/

theorem encode_intercalate (parts : List PyText) :
    Utf8.encode ((PyText.lit ",").intercalate parts) =
      ([44] : Bytes).intercalate (parts.map Utf8.encode) := by
  induction parts with
  | nil => rfl
  | cons part parts ih =>
    cases parts with
    | nil => rw [List.intercalate_singleton, List.map_cons, List.map_nil, List.intercalate_singleton]
    | cons part' parts =>
      rw [List.intercalate_cons_cons, Utf8.encode_append, Utf8.encode_append, ih]
      simp only [List.map_cons]
      rw [List.intercalate_cons_cons]
      rfl

/-- What is a permutation of an image is the image of a permutation. -/
theorem exists_perm_map {α β : Type} {f : α → β} {l : List β} {es : List α} (h : l.Perm (es.map f)) :
    ∃ es' : List α, es'.Perm es ∧ l = es'.map f := by
  have himage : List.Forall₂ (fun b a => b = f a) (es.map f) es := by
    rw [List.forall₂_map_left_iff]
    exact List.forall₂_same.2 fun _ _ => rfl
  obtain ⟨es', hes', hperm⟩ := List.perm_comp_forall₂ h himage
  refine ⟨es', hperm, ?_⟩
  clear hperm himage h
  induction hes' with
  | nil => rfl
  | cons hhead htail ih => rw [hhead, ih, List.map_cons]

/-! ## The document of a value -/

/-- **A document of a value**: the text that is written of it sorted, with its
content. -/
structure Written (v : PyValue) (d : Doc) : Prop where
  text : d.text = Utf8.encode (PyValue.json v.sorted)
  carries : Carries v d.value
  valid : d.Valid
  depth : d.depth ≤ v.depth
  nodes : d.nodes = v.nodes

theorem Carries.ne_nil {v : PyValue} {w : LuaValue} (h : Carries v w) : w ≠ .nil := by
  cases h <;> exact nofun

theorem encode_list (parts : List PyText) : Utf8.encode (PyValue.enclose '[' "," ']' parts) =
    91 :: (([44] : Bytes).intercalate (parts.map Utf8.encode) ++ [93]) := by
  rw [PyValue.enclose, List.cons_append, Utf8.encode_cons, Utf8.encode_append, encode_intercalate]
  rfl

theorem encode_dict (parts : List PyText) : Utf8.encode (PyValue.enclose '{' "," '}' parts) =
    123 :: (([44] : Bytes).intercalate (parts.map Utf8.encode) ++ [125]) := by
  rw [PyValue.enclose, List.cons_append, Utf8.encode_cons, Utf8.encode_append, encode_intercalate]
  rfl

theorem jsonItems_eq (items : List PyValue) : PyValue.jsonItems items = items.map PyValue.json := by
  induction items with
  | nil => rfl
  | cons v items ih => rw [PyValue.jsonItems, ih, List.map_cons]

theorem written_int {n : ℤ} (h : Double.IsDouble n) : Written (.int n) (.number (Numeral.ofInt n)) := by
  have hvalue : Decimal.value (Numeral.ofInt n).text = n := by
    have hpoint : Double.behindPoint (Numeral.ofInt n).fraction = [] := rfl
    rw [Double.value_text rfl, hpoint, List.append_nil, Numeral.signed_ofInt]
    simp
  have hnumber : JsonText.number (Numeral.ofInt n) = .finite n := by
    rw [JsonText.number, hvalue]
    exact h
  refine ⟨?_, ?_, ⟨n, hnumber⟩, Nat.zero_le _, rfl⟩
  · rw [Doc.text, PyValue.sorted, PyValue.json, Numeral.lit_toString]
  · rw [Doc.value, hnumber]
    exact .int n

theorem written_list {items : List PyValue} {f : PyValue → Doc}
    (h : ∀ v ∈ items, Written v (f v)) :
    Written (.list items) (if items = [] then .emptyArray .none
      else .array (items.map fun v => bare (f v))) := by
  have htext : Utf8.encode (PyValue.json (PyValue.sorted (.list items))) =
      91 :: (([44] : Bytes).intercalate (items.map fun v => (f v).text) ++ [93]) := by
    rw [PyValue.sorted, PyValue.json, encode_list, jsonItems_eq, PyValue.sortedItems_eq,
      List.map_map, List.map_map]
    have hparts : items.map (Utf8.encode ∘ PyValue.json ∘ PyValue.sorted) =
        items.map fun v => (f v).text := List.map_congr_left fun v hv => (h v hv).text.symm
    rw [← hparts]
    rfl
  by_cases hempty : items = []
  · subst hempty
    refine ⟨htext.symm, .list .rfl ?_, trivial, le_rfl, rfl⟩
    intro index v w hv
    cases hv
  rw [if_neg hempty]
  refine ⟨?_, ?_, ?_, ?_, ?_⟩
  · rw [htext, JSON.text_array]
  · rw [JSON.value_array fun v hv => (h v hv).carries.ne_nil]
    refine .list ?_ fun index v w hv hw => ?_
    · rw [List.map_map, ← List.zipIdx_map_snd 1 items, List.map_map]
      rfl
    · obtain ⟨e, he, heq⟩ := List.mem_map.1 hw
      obtain ⟨hindex, rfl⟩ := Prod.mk.inj heq
      have hplace := JSON.indexKey_injective hindex
      obtain ⟨-, hget⟩ := List.mk_mem_zipIdx_iff_le_and_getElem?_sub.1 he
      rw [hplace, Nat.add_sub_cancel, hv] at hget
      obtain rfl := Option.some_inj.1 hget
      exact (h _ (List.mem_of_getElem? hv)).carries
  · rw [Doc.Valid, JsonText.itemsValid_iff, List.forall_mem_map]
    exact fun v hv => (h v hv).valid
  · rw [Doc.depth, PyValue.depth, Nat.add_le_add_iff_left, JsonText.itemDepth_le_iff,
      List.forall_mem_map]
    intro v hv
    exact (h v hv).depth.trans (PyValue.depthItems_le_iff.1 le_rfl v hv)
  · rw [Doc.nodes, PyValue.nodes, JsonText.itemNodes_eq, PyValue.nodesItems_eq, List.map_map]
    exact congrArg (1 + List.sum ·) (List.map_congr_left fun v hv => (h v hv).nodes)

theorem written_dict {entries : List (PyText × PyValue)} {f : PyValue → Doc}
    (hnodup : (entries.map Prod.fst).Nodup) (h : ∀ e ∈ entries, Written e.2 (f e.2)) :
    ∃ d, Written (.dict entries) d := by
  -- The members stand in the order of the sorted keys.
  obtain ⟨es, hperm, hsorted⟩ := exists_perm_map (PyValue.sortedDict_perm entries)
  have hmem {e : PyText × PyValue} : e ∈ es ↔ e ∈ entries := hperm.mem_iff
  have htext : Utf8.encode (PyValue.json (PyValue.sorted (.dict entries))) =
      123 :: (([44] : Bytes).intercalate (es.map fun e =>
        JsonText.quoted (piecesOf (Utf8.encode e.1)) ++ 58 :: (f e.2).text) ++ [125]) := by
    rw [PyValue.sorted_dict, PyValue.json, encode_dict, PyJson.jsonEntries_eq, hsorted,
      List.map_map, List.map_map]
    have hparts : es.map (Utf8.encode ∘ PyJson.entryText ∘ fun e => (e.1, e.2.sorted)) =
        es.map fun e => JsonText.quoted (piecesOf (Utf8.encode e.1)) ++ 58 :: (f e.2).text := by
      refine List.map_congr_left fun e he => ?_
      rw [quoted_piecesOf, (h e (hmem.1 he)).text]
      exact Utf8.encode_append _ _
    rw [← hparts]
    rfl
  by_cases hempty : es = []
  · subst hempty
    obtain rfl := List.perm_nil.1 hperm.symm
    refine ⟨.emptyObject .none, htext.symm, .dict .rfl ?_, trivial, le_rfl, rfl⟩
    intro key v w hv
    cases hv
  refine ⟨.object (es.map fun e => (bare (piecesOf (Utf8.encode e.1)), bare (f e.2))),
    ?_, ?_, ?_, ?_, ?_⟩
  · rw [htext, JSON.text_object]
  · rw [JSON.value_object fun e he => (h e (hmem.1 he)).carries.ne_nil]
    refine .dict ?_ fun key v w hv hw => ?_
    · rw [List.map_map]
      exact hperm.map _
    · obtain ⟨e, he, heq⟩ := List.mem_map.1 hw
      obtain ⟨hkey, rfl⟩ := Prod.mk.inj heq
      have hsame : e.1 = key := Utf8.encode_injective (LuaKey.str.inj hkey)
      have hone : e = (key, v) := List.inj_on_of_nodup_map hnodup (hmem.1 he) hv hsame
      have hcarries := (h e (hmem.1 he)).carries
      rw [hone] at hcarries ⊢
      exact hcarries
  · have hkeys : (JsonText.memberValues (es.map fun e =>
        (bare (piecesOf (Utf8.encode e.1)), bare (f e.2)))).map Prod.fst =
        (es.map Prod.fst).map Utf8.encode := by
      rw [JsonText.memberValues_eq, List.map_map, List.map_map, List.map_map]
      exact List.map_congr_left fun e _ => JSON.bytes_piecesOf _
    rw [Doc.Valid, hkeys, JsonText.membersValid_iff, List.forall_mem_map]
    refine ⟨?_, fun e he => (h e (hmem.1 he)).valid⟩
    exact ((hperm.map Prod.fst).nodup_iff.2 hnodup).map Utf8.encode_injective
  · rw [Doc.depth, PyValue.depth, Nat.add_le_add_iff_left, JsonText.memberDepth_le_iff,
      List.forall_mem_map]
    intro e he
    exact (h e (hmem.1 he)).depth.trans (PyValue.depthEntries_le_iff.1 le_rfl e (hmem.1 he))
  · rw [Doc.nodes, PyValue.nodes, JsonText.memberNodes_eq, PyValue.nodesEntries_eq, List.map_map,
      ← (hperm.map fun e => e.2.nodes).sum_eq]
    exact congrArg (1 + List.sum ·) (List.map_congr_left fun e he => (h e (hmem.1 he)).nodes)

/-- **Every value that can be sent has a document.** -/
theorem exists_written {v : PyValue} (hformed : PyJson.Formed v)
    (hdump : PyValue.dumpable v = true) (hsend : ∀ w ∈ v.inside, Sendable w) :
    ∃ d, Written v d := by
  have : Inhabited Doc := ⟨.null⟩
  induction v using PyValue.induction with
  | none => exact (hsend _ (PyValue.self_mem_inside _)).elim
  | bool b => exact ⟨.bool b, by cases b <;> rfl, .bool b, trivial, Nat.zero_le _, rfl⟩
  | int n => exact ⟨_, written_int (hsend _ (PyValue.self_mem_inside _))⟩
  | float text =>
    have hfinite : List.elem text PyValue.nonFinite = false := by
      rw [PyValue.dumpable] at hdump
      simpa only [Bool.not_eq_true'] using hdump
    obtain ⟨⟨p, -, rfl⟩, hvalue, -⟩ := hformed hfinite
    exact ⟨.number p, rfl, .float _, hvalue, Nat.zero_le _, rfl⟩
  | str t =>
    refine ⟨.string (piecesOf (Utf8.encode t)), quoted_piecesOf t, ?_, trivial, Nat.zero_le _, rfl⟩
    rw [Doc.value, JSON.bytes_piecesOf]
    exact .str t
  | list items ih =>
    rw [PyJson.Formed, PyJson.formedItems_iff] at hformed
    rw [PyValue.dumpable, PyValue.dumpableItems_eq_true] at hdump
    have hsend := (PyValue.forall_inside_list.1 hsend).2
    choose! f hf using fun v hv => ih v hv (hformed v hv) (hdump v hv) (hsend v hv)
    exact ⟨_, written_list hf⟩
  | dict entries ih =>
    rw [PyJson.Formed, PyJson.formedEntries_iff] at hformed
    rw [PyValue.dumpable, PyValue.dumpableEntries_eq_true] at hdump
    have hsend := (PyValue.forall_inside_dict.1 hsend).2
    have hvalue : ∀ v, ∃ d, (∃ e ∈ entries, e.2 = v) → Written v d := by
      intro v
      by_cases hv : ∃ e ∈ entries, e.2 = v
      · obtain ⟨e, he, rfl⟩ := hv
        obtain ⟨d, hd⟩ := ih e he (hformed.2 e he) (hdump e he) (hsend e he)
        exact ⟨d, fun _ => hd⟩
      · exact ⟨.null, fun h => absurd h hv⟩
    choose f hf using hvalue
    exact written_dict hformed.1 fun e he => hf e.2 ⟨e, he, rfl⟩

end Wire

end GoblinZomboid
