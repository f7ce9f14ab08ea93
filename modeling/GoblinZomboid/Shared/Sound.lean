import GoblinZomboid.Shared.Leaves
import Mathlib.Data.List.Nodup
/-!
# What is read is a text

Whatever a call of the parser returns, a text of the grammar stands before
the position it returns, within the bounds on the depth and the values. A
call never needs more steps than twice the bytes it has before it.
-/

namespace GoblinZomboid

namespace JSON

open JsonText (Blanks Piece Pieces Padded Doc)

/-- The bounds a text keeps at a depth, behind so many values. -/
structure Fits (depth nodes : ℕ) (d : Doc) : Prop where
  valid : d.Valid
  nodes : nodes + d.nodes ≤ maxNodes
  depth : depth + d.depth ≤ maxDepth + 1

variable {limit : Limit}

/-! ## What is read is a text -/

theorem parseValue_skipWhitespace (n depth nodes : ℕ) (s : Bytes) :
    parseValue limit n depth nodes (skipWhitespace s) = parseValue limit n depth nodes s := by
  cases n with
  | zero => rw [parseValue, parseValue]
  | succ n => rw [parseValue, parseValue, skipWhitespace_skipWhitespace]

theorem parseItems_skipWhitespace (n depth nodes : ℕ) (s : Bytes) :
    parseItems limit n depth nodes (skipWhitespace s) = parseItems limit n depth nodes s := by
  cases n with
  | zero => rw [parseItems, parseItems]
  | succ n => rw [parseItems, parseItems, parseValue_skipWhitespace]

/-- A value that is read is a text. -/
def ValueRead (depth nodes : ℕ) (s : Bytes) (v : LuaValue) (nodes' : ℕ) (rest : Bytes) : Prop :=
  ∃ (w : Blanks) (d : Doc), s = w.bytes ++ (d.text ++ rest) ∧ d.value = v ∧
    nodes' = nodes + d.nodes ∧ Fits depth nodes d

/-- The items that are read are texts between commas. -/
def ItemsRead (depth nodes : ℕ) (s : Bytes) (values : List LuaValue) (nodes' : ℕ)
    (rest : Bytes) : Prop :=
  ∃ items, items ≠ [] ∧ s = ([44] : Bytes).intercalate (JsonText.itemTexts items) ++ 93 :: rest ∧
    JsonText.itemValues items = values ∧ nodes' = nodes + JsonText.itemNodes items ∧
    JsonText.ItemsValid items ∧ nodes + JsonText.itemNodes items ≤ maxNodes ∧
    depth + JsonText.itemDepth items ≤ maxDepth

/-- The members that are read are texts between commas, under new keys. -/
def MembersRead (depth nodes : ℕ) (keys : List Bytes) (s : Bytes)
    (entries : List (Bytes × LuaValue)) (nodes' : ℕ) (rest : Bytes) : Prop :=
  ∃ members, members ≠ [] ∧
    s = ([44] : Bytes).intercalate (JsonText.memberTexts members) ++ 125 :: rest ∧
    JsonText.memberValues members = entries ∧ nodes' = nodes + JsonText.memberNodes members ∧
    (keys ++ entries.map Prod.fst).Nodup ∧ JsonText.MembersValid members ∧
    nodes + JsonText.memberNodes members ≤ maxNodes ∧
    depth + JsonText.memberDepth members ≤ maxDepth

theorem reading_inj {α : Type} {v v' : α} {nodes nodes' : ℕ} {rest rest' : Bytes}
    (h : (.ok (v, nodes, rest) : Reading α) = .ok (v', nodes', rest')) :
    v = v' ∧ nodes = nodes' ∧ rest = rest' := by
  obtain ⟨hv, h⟩ := Prod.mk.inj (Except.ok.inj h)
  obtain ⟨hnodes, hrest⟩ := Prod.mk.inj h
  exact ⟨hv, hnodes, hrest⟩

theorem leaf_eq_ok {nodes nodes' : ℕ} {read : Option (LuaValue × Bytes)} {v : LuaValue}
    {rest : Bytes} (h : leaf nodes read = .ok (v, nodes', rest)) :
    read = some (v, rest) ∧ nodes' = nodes := by
  cases read with
  | none => cases h
  | some r =>
    obtain ⟨rfl, rfl, rfl⟩ := reading_inj h
    exact ⟨rfl, rfl⟩

theorem parseArray_eq_ok {items : Bytes → Reading (List LuaValue)} {depth nodes nodes' : ℕ}
    {s rest : Bytes} {v : LuaValue}
    (h : parseArray items depth nodes s = .ok (v, nodes', rest)) :
    depth ≤ maxDepth ∧ ((skipWhitespace s = 93 :: rest ∧ v = JsonText.ofItems [] ∧
      nodes' = nodes) ∨ ∃ values, items (skipWhitespace s) = .ok (values, nodes', rest) ∧
        v = JsonText.ofItems values) := by
  unfold parseArray at h
  split at h
  · cases h
  rename_i hdepth
  refine ⟨not_lt.1 hdepth, ?_⟩
  split at h
  · rename_i hclose
    obtain ⟨tail, htail⟩ := List.head?_eq_some_iff.1 hclose
    obtain ⟨rfl, rfl, rfl⟩ := reading_inj h
    refine .inl ⟨?_, rfl, rfl⟩
    rw [htail]
    rfl
  · split at h
    · rename_i values nodes'' rest' hitems
      obtain ⟨rfl, rfl, rfl⟩ := reading_inj h
      exact .inr ⟨values, hitems, rfl⟩
    · cases h

theorem parseObject_eq_ok {members : Bytes → Reading (List (Bytes × LuaValue))}
    {depth nodes nodes' : ℕ} {s rest : Bytes} {v : LuaValue}
    (h : parseObject members depth nodes s = .ok (v, nodes', rest)) :
    depth ≤ maxDepth ∧ ((skipWhitespace s = 125 :: rest ∧ v = JsonText.ofMembers [] ∧
      nodes' = nodes) ∨ ∃ entries, members (skipWhitespace s) = .ok (entries, nodes', rest) ∧
        v = JsonText.ofMembers entries) := by
  unfold parseObject at h
  split at h
  · cases h
  rename_i hdepth
  refine ⟨not_lt.1 hdepth, ?_⟩
  split at h
  · rename_i hclose
    obtain ⟨tail, htail⟩ := List.head?_eq_some_iff.1 hclose
    obtain ⟨rfl, rfl, rfl⟩ := reading_inj h
    refine .inl ⟨?_, rfl, rfl⟩
    rw [htail]
    rfl
  · split at h
    · rename_i entries nodes'' rest' hmembers
      obtain ⟨rfl, rfl, rfl⟩ := reading_inj h
      exact .inr ⟨entries, hmembers, rfl⟩
    · cases h

theorem eq_append_drop {s word : Bytes} {n : ℕ} (h : (s.take n == word) = true) :
    s = word ++ s.drop n := by
  rw [← beq_iff_eq.1 h, List.take_append_drop]

/-- **A value that is read is a text**, of what its loops read. -/
theorem parseValue_sound {n depth nodes nodes' : ℕ} {s rest : Bytes} {v : LuaValue}
    (hitems : ∀ {nodes s values nodes' rest},
      parseItems limit n depth nodes (skipWhitespace s) = .ok (values, nodes', rest) →
        depth ≤ maxDepth → ItemsRead depth nodes s values nodes' rest)
    (hmembers : ∀ {nodes s entries nodes' rest},
      parseMembers limit n depth nodes [] (skipWhitespace s) = .ok (entries, nodes', rest) →
        depth ≤ maxDepth → MembersRead depth nodes [] s entries nodes' rest)
    (hdepth : depth ≤ maxDepth + 1)
    (h : parseValue limit (n + 1) depth nodes s = .ok (v, nodes', rest)) :
    ValueRead depth nodes s v nodes' rest := by
  rw [parseValue] at h
  split at h
  · cases h
  rename_i hnodes
  have hnodes : nodes + 1 ≤ maxNodes := not_lt.1 hnodes
  obtain ⟨w, hw⟩ := skipWhitespace_eq s
  split at h
  · cases h
  rename_i b behind hskip
  rw [hskip] at hw
  -- The first byte tells which text it is.
  have hleaf {d : Doc} (htext : b :: behind = d.text ++ rest) (hv : d.value = v)
      (hcount : nodes' = nodes + 1) (hone : d.nodes = 1) (hflat : d.depth = 0) (hvalid : d.Valid) :
      ValueRead depth nodes s v nodes' rest := by
    refine ⟨w, d, by rw [hw, htext], hv, by rw [hone, hcount], hvalid, ?_, ?_⟩
    · rwa [hone]
    · rwa [hflat]
  split at h
  · rename_i hquote
    obtain rfl := beq_iff_eq.1 hquote
    obtain ⟨hread, rfl⟩ := leaf_eq_ok h
    obtain ⟨⟨t, rest'⟩, hstring, heq⟩ := Option.map_eq_some_iff.1 hread
    obtain ⟨rfl, rfl⟩ := Prod.mk.inj heq
    obtain ⟨p, rfl, rfl⟩ := parseString_sound hstring
    refine hleaf (d := .string p) ?_ rfl rfl rfl rfl trivial
    rw [Doc.text, JsonText.quoted, List.cons_append, List.append_assoc]
    rfl
  split at h
  · rename_i hbrace
    obtain rfl := beq_iff_eq.1 hbrace
    obtain ⟨hle, ⟨hclose, rfl, rfl⟩ | ⟨entries, hread, rfl⟩⟩ := parseObject_eq_ok h
    · obtain ⟨w', hw'⟩ := skipWhitespace_eq behind
      refine ⟨w, .emptyObject w', ?_, rfl, rfl, trivial, hnodes, Nat.add_le_add_right hle 1⟩
      rw [hw, hw', hclose, Doc.text, List.cons_append, List.append_assoc]
      rfl
    · obtain ⟨members, hne, htext, hvalues, hcount, hkeys, hvalid, hmax, hdeep⟩ :=
        hmembers hread hle
      refine ⟨w, .object members, ?_, by rw [Doc.value, hvalues], ?_, ⟨by rwa [hvalues], hvalid⟩, ?_,
        ?_⟩
      · rw [hw, htext, Doc.text, JsonText.enclose, List.cons_append, List.append_assoc]
        rfl
      · rw [Doc.nodes, hcount, Nat.add_assoc]
      · rwa [Doc.nodes, ← Nat.add_assoc]
      · rw [Doc.depth]
        omega
  split at h
  · rename_i hbracket
    obtain rfl := beq_iff_eq.1 hbracket
    obtain ⟨hle, ⟨hclose, rfl, rfl⟩ | ⟨values, hread, rfl⟩⟩ := parseArray_eq_ok h
    · obtain ⟨w', hw'⟩ := skipWhitespace_eq behind
      refine ⟨w, .emptyArray w', ?_, rfl, rfl, trivial, hnodes, Nat.add_le_add_right hle 1⟩
      rw [hw, hw', hclose, Doc.text, List.cons_append, List.append_assoc]
      rfl
    · obtain ⟨items, hne, htext, hvalues, hcount, hvalid, hmax, hdeep⟩ := hitems hread hle
      refine ⟨w, .array items, ?_, by rw [Doc.value, hvalues], ?_, hvalid, ?_, ?_⟩
      · rw [hw, htext, Doc.text, JsonText.enclose, List.cons_append, List.append_assoc]
        rfl
      · rw [Doc.nodes, hcount, Nat.add_assoc]
      · rwa [Doc.nodes, ← Nat.add_assoc]
      · rw [Doc.depth]
        omega
  split at h
  · obtain ⟨hread, rfl⟩ := leaf_eq_ok h
    obtain ⟨⟨m, rest'⟩, hnumber, heq⟩ := Option.map_eq_some_iff.1 hread
    obtain ⟨rfl, rfl⟩ := Prod.mk.inj heq
    obtain ⟨p, q, htext, hp, rfl⟩ := parseNumber_sound hnumber
    exact hleaf (d := .number p) htext (by rw [Doc.value, hp]) rfl rfl rfl ⟨q, hp⟩
  split at h
  · rename_i hword
    obtain ⟨rfl, rfl, rfl⟩ := reading_inj h
    exact hleaf (d := .bool true) (eq_append_drop hword) rfl rfl rfl rfl trivial
  split at h
  · rename_i hword
    obtain ⟨rfl, rfl, rfl⟩ := reading_inj h
    exact hleaf (d := .bool false) (eq_append_drop hword) rfl rfl rfl rfl trivial
  split at h
  · rename_i hword
    obtain ⟨rfl, rfl, rfl⟩ := reading_inj h
    exact hleaf (d := .null) (eq_append_drop hword) rfl rfl rfl rfl trivial
  · cases h

theorem itemTexts_cons (w w' : Blanks) (d : Doc) (items : List (Padded Doc)) :
    JsonText.itemTexts (⟨w, d, w'⟩ :: items) =
      (w.bytes ++ (d.text ++ w'.bytes)) :: JsonText.itemTexts items := rfl

/-- Items after a comma. -/
theorem intercalate_cons {text : Bytes} {texts : List Bytes} (h : texts ≠ []) :
    ([44] : Bytes).intercalate (text :: texts) = text ++ 44 :: ([44] : Bytes).intercalate texts := by
  obtain ⟨text', texts', rfl⟩ := List.exists_cons_of_ne_nil h
  rw [List.intercalate_cons_cons, List.append_assoc]
  rfl

theorem itemTexts_ne_nil {items : List (Padded Doc)} (h : items ≠ []) :
    JsonText.itemTexts items ≠ [] := by
  obtain ⟨⟨w, d, w'⟩, items, rfl⟩ := List.exists_cons_of_ne_nil h
  exact List.cons_ne_nil _ _

theorem memberTexts_ne_nil {members : List (Padded Pieces × Padded Doc)} (h : members ≠ []) :
    JsonText.memberTexts members ≠ [] := by
  obtain ⟨⟨key, ⟨w, d, w'⟩⟩, members, rfl⟩ := List.exists_cons_of_ne_nil h
  exact List.cons_ne_nil _ _

/-- **Items that are read are texts**, of the values they are. -/
theorem parseItems_sound {n depth nodes nodes' : ℕ} {s rest : Bytes} {values : List LuaValue}
    (hvalue : ∀ {nodes s v nodes' rest}, parseValue limit n (depth + 1) nodes s =
      .ok (v, nodes', rest) → ValueRead (depth + 1) nodes s v nodes' rest)
    (hitems : ∀ {nodes s values nodes' rest},
      parseItems limit n depth nodes (skipWhitespace s) = .ok (values, nodes', rest) →
        ItemsRead depth nodes s values nodes' rest)
    (h : parseItems limit (n + 1) depth nodes (skipWhitespace s) = .ok (values, nodes', rest)) :
    ItemsRead depth nodes s values nodes' rest := by
  rw [parseItems, parseValue_skipWhitespace] at h
  split at h
  · cases h
  rename_i v nodes₁ rest₁ hread
  obtain ⟨w, d, hs, rfl, rfl, hfits⟩ := hvalue hread
  have hdepth := hfits.depth
  obtain ⟨w', hw'⟩ := skipWhitespace_eq rest₁
  split at h
  · cases h
  rename_i b rest₂ hskip
  rw [hskip] at hw'
  split at h
  · -- The last item.
    rename_i hclose
    obtain rfl := beq_iff_eq.1 hclose
    obtain ⟨rfl, rfl, rfl⟩ := reading_inj h
    refine ⟨[⟨w, d, w'⟩], List.cons_ne_nil _ _, ?_, rfl, rfl, ⟨hfits.valid, trivial⟩, hfits.nodes,
      ?_⟩
    · rw [itemTexts_cons, hs, hw']
      show _ = ([44] : Bytes).intercalate [w.bytes ++ (d.text ++ w'.bytes)] ++ _
      rw [List.intercalate_singleton]
      simp only [List.append_assoc]
    · show depth + max d.depth 0 ≤ maxDepth
      omega
  split at h
  · rename_i hcomma
    obtain rfl := beq_iff_eq.1 hcomma
    split at h
    · rename_i values₁ nodes₂ rest₃ hmore
      obtain ⟨rfl, rfl, rfl⟩ := reading_inj h
      obtain ⟨items, hne, htext, rfl, rfl, hvalid, hmax, hdeep⟩ := hitems hmore
      refine ⟨⟨w, d, w'⟩ :: items, List.cons_ne_nil _ _, ?_, rfl, Nat.add_assoc _ _ _,
        ⟨hfits.valid, hvalid⟩, ?_, ?_⟩
      · rw [itemTexts_cons, intercalate_cons (itemTexts_ne_nil hne), hs, hw', htext]
        simp only [List.append_assoc, List.cons_append]
      · show nodes + (d.nodes + JsonText.itemNodes items) ≤ maxNodes
        omega
      · show depth + max d.depth (JsonText.itemDepth items) ≤ maxDepth
        omega
    · cases h
  · cases h

/-- **Members that are read are texts**, of the keys and values they are. -/
theorem parseMembers_sound {n depth nodes nodes' : ℕ} {keys : List Bytes} {s rest : Bytes}
    {entries : List (Bytes × LuaValue)} (hkeys : keys.Nodup)
    (hvalue : ∀ {nodes s v nodes' rest}, parseValue limit n (depth + 1) nodes s =
      .ok (v, nodes', rest) → ValueRead (depth + 1) nodes s v nodes' rest)
    (hmembers : ∀ {nodes keys s entries nodes' rest}, keys.Nodup →
      parseMembers limit n depth nodes keys (skipWhitespace s) = .ok (entries, nodes', rest) →
        MembersRead depth nodes keys s entries nodes' rest)
    (h : parseMembers limit (n + 1) depth nodes keys (skipWhitespace s) =
      .ok (entries, nodes', rest)) : MembersRead depth nodes keys s entries nodes' rest := by
  obtain ⟨before, hbefore⟩ := skipWhitespace_eq s
  rw [parseMembers] at h
  split at h
  · rename_i hquote
    obtain ⟨tail, htail⟩ := List.head?_eq_some_iff.1 hquote
    rw [htail] at hbefore h
    split at h
    · cases h
    rename_i key rest₁ hkey
    obtain ⟨p, htext, rfl⟩ := parseString_sound hkey
    have htext : tail = p.text ++ 34 :: rest₁ := htext
    split at h
    · cases h
    rename_i hnew
    have hnew : p.bytes ∉ keys := by simpa using hnew
    obtain ⟨w₁, hw₁⟩ := skipWhitespace_eq rest₁
    split at h
    · rename_i hcolon
      obtain ⟨tail₁, htail₁⟩ := List.head?_eq_some_iff.1 hcolon
      rw [htail₁] at hw₁ h
      rw [List.tail_cons, parseValue_skipWhitespace] at h
      split at h
      · cases h
      rename_i v nodes₁ rest₂ hread
      obtain ⟨w, d, hs, rfl, rfl, hfits⟩ := hvalue hread
      have hdepth := hfits.depth
      obtain ⟨w', hw'⟩ := skipWhitespace_eq rest₂
      split at h
      · cases h
      rename_i b rest₃ hskip
      rw [hskip] at hw'
      have hall : s = (before.bytes ++ (JsonText.quoted p ++ w₁.bytes)) ++
          58 :: (w.bytes ++ (d.text ++ w'.bytes)) ++ b :: rest₃ := by
        rw [hbefore, htext, hw₁, hs, hw', JsonText.quoted]
        simp only [List.append_assoc, List.cons_append, List.nil_append]
      split at h
      · -- The last member.
        rename_i hclose
        obtain rfl := beq_iff_eq.1 hclose
        obtain ⟨rfl, rfl, rfl⟩ := reading_inj h
        refine ⟨[(⟨before, p, w₁⟩, ⟨w, d, w'⟩)], List.cons_ne_nil _ _, ?_, rfl, rfl, ?_,
          ⟨hfits.valid, trivial⟩, hfits.nodes, ?_⟩
        · rw [hall]
          exact congrArg (· ++ _) List.intercalate_singleton.symm
        · refine List.nodup_append.2 ⟨hkeys, List.nodup_singleton _, fun key hkey key' hkey' heq => ?_⟩
          rw [heq, List.mem_singleton.1 hkey'] at hkey
          exact hnew hkey
        · show depth + max d.depth 0 ≤ maxDepth
          omega
      split at h
      · rename_i hcomma
        obtain rfl := beq_iff_eq.1 hcomma
        split at h
        · rename_i entries₁ nodes₂ rest₄ hmore
          obtain ⟨rfl, rfl, rfl⟩ := reading_inj h
          obtain ⟨members, hne, hmoreText, rfl, rfl, hnodup, hvalid, hmax, hdeep⟩ :=
            hmembers (List.nodup_cons.2 ⟨hnew, hkeys⟩) hmore
          refine ⟨(⟨before, p, w₁⟩, ⟨w, d, w'⟩) :: members, List.cons_ne_nil _ _, ?_, rfl,
            Nat.add_assoc _ _ _, ?_, ⟨hfits.valid, hvalid⟩, ?_, ?_⟩
          · show s = ([44] : Bytes).intercalate ((before.bytes ++ (JsonText.quoted p ++ w₁.bytes) ++
              58 :: (w.bytes ++ (d.text ++ w'.bytes))) :: JsonText.memberTexts members) ++ _
            rw [intercalate_cons (memberTexts_ne_nil hne), hall, hmoreText]
            simp only [List.append_assoc, List.cons_append]
          · exact (List.perm_middle.nodup_iff).2 hnodup
          · show nodes + (d.nodes + JsonText.memberNodes members) ≤ maxNodes
            omega
          · show depth + max d.depth (JsonText.memberDepth members) ≤ maxDepth
            omega
        · cases h
      · cases h
    · cases h
  · cases h

/-- **What is read is a text**, whatever the steps. -/
theorem parse_sound (n : ℕ) :
    (∀ {depth nodes s v nodes' rest}, depth ≤ maxDepth + 1 →
      parseValue limit n depth nodes s = .ok (v, nodes', rest) →
        ValueRead depth nodes s v nodes' rest) ∧
    (∀ {depth nodes s values nodes' rest}, depth ≤ maxDepth →
      parseItems limit n depth nodes (skipWhitespace s) = .ok (values, nodes', rest) →
        ItemsRead depth nodes s values nodes' rest) ∧
    (∀ {depth nodes keys s entries nodes' rest}, depth ≤ maxDepth → keys.Nodup →
      parseMembers limit n depth nodes keys (skipWhitespace s) = .ok (entries, nodes', rest) →
        MembersRead depth nodes keys s entries nodes' rest) := by
  induction n with
  | zero =>
    refine ⟨fun _ h => ?_, fun _ h => ?_, fun _ _ h => ?_⟩
    · rw [parseValue] at h
      cases h
    · rw [parseItems] at h
      cases h
    · rw [parseMembers] at h
      cases h
  | succ n ih =>
    obtain ⟨hvalue, hitems, hmembers⟩ := ih
    refine ⟨fun hdepth h => ?_, fun hdepth h => ?_, fun hdepth hkeys h => ?_⟩
    · exact parseValue_sound (fun h hle => hitems hle h)
        (fun h hle => hmembers hle List.nodup_nil h) hdepth h
    · exact parseItems_sound (fun h => hvalue (Nat.succ_le_succ hdepth) h)
        (fun h => hitems hdepth h) h
    · exact parseMembers_sound hkeys (fun h => hvalue (Nat.succ_le_succ hdepth) h)
        (fun hkeys h => hmembers hdepth hkeys h) h

/-! ## No call is spent -/

theorem leaf_ne_spent (nodes : ℕ) (read : Option (LuaValue × Bytes)) :
    leaf nodes read ≠ .error .spent := by
  cases read with
  | none => exact fun h => by cases Except.error.inj h
  | some r => exact nofun

theorem parseArray_spent {items : Bytes → Reading (List LuaValue)} {depth nodes : ℕ} {s : Bytes}
    (h : parseArray items depth nodes s = .error .spent) :
    depth ≤ maxDepth ∧ items (skipWhitespace s) = .error .spent := by
  unfold parseArray at h
  split at h
  · cases Except.error.inj h
  rename_i hdepth
  refine ⟨not_lt.1 hdepth, ?_⟩
  split at h
  · cases h
  · split at h
    · cases h
    · rename_i stop hitems
      rw [hitems, Except.error.inj h]

theorem parseObject_spent {members : Bytes → Reading (List (Bytes × LuaValue))} {depth nodes : ℕ}
    {s : Bytes} (h : parseObject members depth nodes s = .error .spent) :
    depth ≤ maxDepth ∧ members (skipWhitespace s) = .error .spent := by
  unfold parseObject at h
  split at h
  · cases Except.error.inj h
  rename_i hdepth
  refine ⟨not_lt.1 hdepth, ?_⟩
  split at h
  · cases h
  · split at h
    · cases h
    · rename_i stop hmembers
      rw [hmembers, Except.error.inj h]

/-- A value that is read leaves less. -/
theorem ValueRead.length_lt {depth nodes nodes' : ℕ} {s rest : Bytes} {v : LuaValue}
    (h : ValueRead depth nodes s v nodes' rest) : rest.length < s.length := by
  obtain ⟨w, d, rfl, -⟩ := h
  have hpos := d.length_text_pos
  rw [List.length_append, List.length_append]
  omega

theorem length_lt_of_skipWhitespace {s rest : Bytes} {b : UInt8}
    (h : skipWhitespace s = b :: rest) : rest.length < s.length := by
  have hle := length_skipWhitespace_le s
  rw [h, List.length_cons] at hle
  omega

/-- **No call is spent** that has twice as many steps as bytes before it. -/
theorem not_spent (n : ℕ) :
    (∀ {depth nodes s}, depth ≤ maxDepth + 1 → 2 * s.length + 1 ≤ n →
      parseValue limit n depth nodes s ≠ .error .spent) ∧
    (∀ {depth nodes s}, depth ≤ maxDepth → 2 * s.length + 2 ≤ n →
      parseItems limit n depth nodes s ≠ .error .spent) ∧
    (∀ {depth nodes keys s}, depth ≤ maxDepth → 2 * s.length + 2 ≤ n →
      parseMembers limit n depth nodes keys s ≠ .error .spent) := by
  induction n with
  | zero => exact ⟨fun _ h => by omega, fun _ h => by omega, fun _ h => by omega⟩
  | succ n ih =>
    obtain ⟨hvalue, hitems, hmembers⟩ := ih
    obtain ⟨hsound, -, -⟩ := @parse_sound limit n
    refine ⟨fun {depth nodes s} hdepth hn h => ?_, fun {depth nodes s} hdepth hn h => ?_,
      fun {depth nodes keys s} hdepth hn h => ?_⟩
    · rw [parseValue] at h
      split at h
      · cases Except.error.inj h
      split at h
      · cases Except.error.inj h
      rename_i b behind hskip
      have hlt := length_lt_of_skipWhitespace hskip
      have hle := length_skipWhitespace_le behind
      split at h
      · exact leaf_ne_spent _ _ h
      split at h
      · obtain ⟨hdeep, hspent⟩ := parseObject_spent h
        exact hmembers hdeep (by omega) hspent
      split at h
      · obtain ⟨hdeep, hspent⟩ := parseArray_spent h
        exact hitems hdeep (by omega) hspent
      split at h
      · exact leaf_ne_spent _ _ h
      split at h
      · cases h
      split at h
      · cases h
      split at h
      · cases h
      · cases Except.error.inj h
    · rw [parseItems] at h
      split at h
      · rename_i stop hread
        rw [Except.error.inj h] at hread
        exact hvalue (Nat.succ_le_succ hdepth) (by omega) hread
      rename_i v nodes₁ rest hread
      have hrest := (hsound (Nat.succ_le_succ hdepth) hread).length_lt
      split at h
      · cases Except.error.inj h
      rename_i b behind hskip
      have hlt := length_lt_of_skipWhitespace hskip
      have hle := length_skipWhitespace_le behind
      split at h
      · cases h
      split at h
      · split at h
        · cases h
        · rename_i stop hmore
          rw [Except.error.inj h] at hmore
          exact hitems hdepth (by omega) hmore
      · cases Except.error.inj h
    · rw [parseMembers] at h
      split at h
      · rename_i hquote
        obtain ⟨tail, rfl⟩ := List.head?_eq_some_iff.1 hquote
        rw [List.length_cons] at hn
        split at h
        · cases Except.error.inj h
        rename_i key rest₁ hkey
        obtain ⟨p, htext, -⟩ := parseString_sound hkey
        have htail : rest₁.length < tail.length := by
          have htext : tail = p.text ++ 34 :: rest₁ := htext
          rw [htext, List.length_append, List.length_cons]
          omega
        split at h
        · cases Except.error.inj h
        split at h
        · have hskip₁ := length_skipWhitespace_le (skipWhitespace rest₁).tail
          have hskip₂ := length_skipWhitespace_le rest₁
          rw [List.length_tail] at hskip₁
          split at h
          · rename_i stop hread
            rw [Except.error.inj h] at hread
            exact hvalue (Nat.succ_le_succ hdepth) (by omega) hread
          rename_i v nodes₁ rest hread
          have hrest := (hsound (Nat.succ_le_succ hdepth) hread).length_lt
          split at h
          · cases Except.error.inj h
          rename_i b behind hskip
          have hlt := length_lt_of_skipWhitespace hskip
          have hle := length_skipWhitespace_le behind
          split at h
          · cases h
          split at h
          · split at h
            · cases h
            · rename_i stop hmore
              rw [Except.error.inj h] at hmore
              exact hmembers hdepth (by omega) hmore
          · cases Except.error.inj h
        · cases Except.error.inj h
      · cases Except.error.inj h

end JSON

end GoblinZomboid
