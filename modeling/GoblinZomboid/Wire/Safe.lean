import GoblinZomboid.Wire.Command
/-!
# Commands are safe tables

What the driver puts into a command is short and flat enough for
`Net.safeTable`: the strings are bounded and without control bytes, and
few tables are inside each other.
-/

namespace GoblinZomboid

namespace Wire

open PyValue (int str dict)
open Protocol (Dict get)
open Controllers (SafeAction)

/-! ## Room for a value -/

/-- Within a table at some depth there is room for the value: it is safe, and
takes at most so many keys. -/
def Roomy (keys depth : ℕ) (w : LuaValue) : Prop :=
  ∀ d budget, d + depth ≤ Net.maxDepth + 1 → budget + keys ≤ Net.maxKeys →
    ∃ left, Net.safeValue d budget w = (true, left) ∧ left ≤ budget + keys

/-- There is room for whatever carries the value. -/
def Safe (keys depth : ℕ) (v : PyValue) : Prop := ∀ w, Carries v w → Roomy keys depth w

theorem Safe.mono {k d k' d' : ℕ} {v : PyValue} (h : Safe k d v) (hk : k ≤ k') (hd : d ≤ d') :
    Safe k' d' v := by
  intro w hw depth budget hdepth hbudget
  obtain ⟨left, hsafe, hleft⟩ := h w hw depth budget (by omega) (by omega)
  exact ⟨left, hsafe, by omega⟩

/-- A string of at most 1024 bytes, none of them a control byte. -/
def SafeString (t : PyText) : Prop := Net.safeText (Utf8.encode t) Net.maxString true = true

instance (t : PyText) : Decidable (SafeString t) := inferInstanceAs (Decidable (_ = _))

theorem safe_str {t : PyText} (h : SafeString t) : Safe 0 0 (str t) := by
  intro w hw d budget _ _
  rw [eq_str_of_carries hw, Net.safeValue, h]
  exact ⟨budget, rfl, le_rfl⟩

theorem safe_int (n : ℤ) : Safe 0 0 (int n) := by
  intro w hw d budget _ _
  rw [eq_num_of_carries hw]
  exact ⟨budget, rfl, le_rfl⟩

theorem safe_bool (b : Bool) : Safe 0 0 (.bool b) := by
  intro w hw d budget _ _
  cases hw
  exact ⟨budget, rfl, le_rfl⟩

/-- Entries that each have room follow each other. -/
theorem roomy_entries {keys depth d : ℕ} (hdepth : d + 1 + depth ≤ Net.maxDepth + 1)
    {table : List (LuaKey × LuaValue)} (hkeys : ∀ e ∈ table, Net.safeKey e.1 = true)
    (hall : ∀ e ∈ table, Roomy keys depth e.2) {budget : ℕ}
    (hbudget : budget + table.length * (keys + 1) ≤ Net.maxKeys) :
    ∃ left, Net.safeEntries d budget table = (true, left) ∧
      left ≤ budget + table.length * (keys + 1) := by
  induction table generalizing budget with
  | nil => exact ⟨budget, rfl, by simp⟩
  | cons e table ih =>
    obtain ⟨key, w⟩ := e
    have hlength : (table.length + 1) * (keys + 1) = table.length * (keys + 1) + (keys + 1) :=
      Nat.succ_mul _ _
    rw [List.length_cons, hlength] at hbudget
    obtain ⟨middle, hsafe, hmiddle⟩ := hall (key, w) List.mem_cons_self (d + 1) (budget + 1) hdepth
      (by omega)
    obtain ⟨left, hrest, hleft⟩ := @ih (fun e he => hkeys e (List.mem_cons_of_mem _ he))
      (fun e he => hall e (List.mem_cons_of_mem _ he)) middle (by omega)
    refine ⟨left, ?_, by rw [List.length_cons, hlength]; omega⟩
    have hkey : Net.safeKey key = true := hkeys (key, w) List.mem_cons_self
    rw [Net.safeEntries, if_neg (by omega), if_pos hkey, hsafe]
    exact hrest

/-- The strings of a safe table are bounded texts. -/
theorem safeText_of_safeTable {table : List (LuaKey × LuaValue)}
    (h : Net.safeTable (.table table) = true) {key : LuaKey} {s : Bytes}
    (hmem : (key, .str s) ∈ table) : Net.safeText s Net.maxString true = true := by
  have hentries : ∀ d budget, (Net.safeEntries d budget table).1 = true →
      Net.safeText s Net.maxString true = true := by
    clear h
    induction table with
    | nil => cases hmem
    | cons e table ih =>
      intro d budget h
      obtain ⟨key', w⟩ := e
      rw [Net.safeEntries] at h
      split_ifs at h with hbudget hkey
      split at h
      · rename_i left hsafe
        rcases List.mem_cons.1 hmem with heq | hmem
        · obtain ⟨-, rfl⟩ := Prod.mk.inj heq
          rw [Net.safeValue] at hsafe
          exact (Prod.mk.inj hsafe).1
        · exact ih hmem d left h
      · cases h
  unfold Net.safeTable at h
  rw [Net.safeValue, if_neg (by decide)] at h
  exact hentries 0 0 h

/-- A dictionary of safe values is safe. -/
theorem safe_dict {entries : Dict} {keys depth : ℕ} (hall : ∀ e ∈ entries, Safe keys depth e.2) :
    Safe (entries.length * (keys + 1)) (depth + 1) (dict entries) := by
  intro w hw d budget hdepth hbudget
  cases hw with
  | @dict entries table hkeys hvalues =>
    have hlength : table.length = entries.length := by
      simpa using hkeys.length_eq
    have hmem : ∀ e ∈ table, ∃ f ∈ entries, .str (Utf8.encode f.1) = e.1 := fun e he =>
      List.mem_map.1 (hkeys.mem_iff.1 (List.mem_map_of_mem he))
    rw [Net.safeValue, if_neg (by omega), ← hlength]
    refine @roomy_entries keys depth d (by omega) table (fun e he => ?_) (fun e he => ?_) budget
      (by rwa [hlength])
    · obtain ⟨f, -, hf⟩ := hmem e he
      rw [← hf]
      rfl
    · obtain ⟨f, hf, hkey⟩ := hmem e he
      exact hall f hf e.2 (hvalues f.1 f.2 e.2 hf (hkey ▸ he))

/-! ## Strings -/

theorem length_encode_le (t : PyText) : (Utf8.encode t).length ≤ 4 * t.length := by
  rw [Utf8.length_encode]
  induction t with
  | nil => exact le_rfl
  | cons c t ih =>
    have := c.utf8Size_le_four
    rw [List.map_cons, List.sum_cons, List.length_cons]
    omega

/-- A text without control characters has no control bytes. -/
theorem textByte_encode {t : PyText} (h : ∀ c ∈ t, Validator.isControl c = false) :
    (Utf8.encode t).all Net.textByte = true := by
  have hlow : ∀ b : UInt8, b < 128 → Validator.isControl (Utf8.char b) = false →
      Net.textByte b = true :=
    Bytes.forall_byte (p := fun b => b < 128 → Validator.isControl (Utf8.char b) = false →
      Net.textByte b = true) (by decide +kernel)
  have hhigh : ∀ b : UInt8, ¬ b < 128 → Net.textByte b = true :=
    Bytes.forall_byte (p := fun b => ¬ b < 128 → Net.textByte b = true) (by decide +kernel)
  rw [List.all_eq_true]
  intro b hb
  obtain ⟨c, hc, hbc⟩ := List.mem_flatMap.1 hb
  by_cases hsmall : b < 128
  · refine hlow b hsmall ?_
    rw [Utf8.eq_char_of_mem_utf8EncodeChar hbc hsmall]
    exact h c hc
  · exact hhigh b hsmall

/-- A text of the validator is safe. -/
theorem safeString_of_text {t : PyText} (hlength : t.length ≤ 256)
    (h : ∀ c ∈ t, Validator.isControl c = false) : SafeString t := by
  have hle := length_encode_le t
  unfold SafeString Net.safeText
  rw [textByte_encode h, Bool.and_true, Bool.true_or, Bool.and_true, decide_eq_true_eq]
  have hmax : Net.maxString = 1024 := rfl
  omega

/-- What the bridge takes for a text is safe. -/
theorem safeString_of_safeBytes {t : PyText} {n : ℕ} (hn : n ≤ 1024)
    (h : Bridge.safeBytes (Utf8.encode t) n = true) : SafeString t := by
  have hbyte : ∀ b : UInt8, Bytes.isCntrl b = false → Net.textByte b = true :=
    Bytes.forall_byte (p := fun b => Bytes.isCntrl b = false → Net.textByte b = true)
      (by decide +kernel)
  unfold Bridge.safeBytes at h
  simp only [Bool.and_eq_true, decide_eq_true_eq, Bool.not_eq_true', List.any_eq_false] at h
  obtain ⟨⟨⟨⟨-, hlength⟩, hcntrl⟩, -⟩, -⟩ := h
  have hall : (Utf8.encode t).all Net.textByte = true := by
    rw [List.all_eq_true]
    intro b hb
    exact hbyte b (by simpa using hcntrl b hb)
  unfold SafeString Net.safeText
  rw [hall, Bool.and_true, Bool.true_or, Bool.and_true, decide_eq_true_eq]
  have hmax : Net.maxString = 1024 := rfl
  omega

end Wire

end GoblinZomboid
