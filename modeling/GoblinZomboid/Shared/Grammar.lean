import GoblinZomboid.Shared.Complete
/-!
# What `JSON.decode` accepts

A value is returned exactly for the texts of the grammar that keep the bounds
and are no `null`.
-/

namespace GoblinZomboid

namespace JSON

open JsonText (Blanks Piece Pieces Padded Doc)

variable {limit : Limit}

/-- A JSON text with blanks around it, within the bounds. -/
structure Accepts (limit : Limit) (input : Bytes) (d : Doc) : Prop where
  text : ∃ before after : Blanks, input = before.bytes ++ (d.text ++ after.bytes)
  valid : d.Valid
  depth : d.depth ≤ maxDepth + 1
  nodes : d.nodes ≤ maxNodes
  bytes : overLimit limit input.length = false

/-- **What `decodeInternal` returns** is the value of a text, and of every text. -/
theorem decodeInternal_eq_ok {n : ℕ} {input : Bytes} (hn : steps input ≤ n) {v : LuaValue} :
    decodeInternal n input limit = .ok v ↔ ∃ d, Accepts limit input d ∧ d.value = v := by
  unfold decodeInternal
  constructor
  · intro h
    split at h
    · cases h
    rename_i hbytes
    split at h
    · cases h
    rename_i result nodes rest hread
    obtain ⟨w, d, hs, rfl, -, hfits⟩ := (parse_sound n).1 (Nat.zero_le _) hread
    split at h
    · rename_i hend
      obtain ⟨w', hw'⟩ := skipWhitespace_eq rest
      rw [List.isEmpty_iff.1 hend, List.append_nil] at hw'
      refine ⟨d, ⟨⟨w, w', by rw [hs, hw']⟩, hfits.valid, ?_, ?_, ?_⟩, Except.ok.inj h⟩
      · simpa only [Nat.zero_add] using hfits.depth
      · simpa only [Nat.zero_add] using hfits.nodes
      · simpa only [Bool.not_eq_true] using hbytes
    · cases h
  · rintro ⟨d, ⟨⟨w, w', htext⟩, hvalid, hdepth, hnodes, hbytes⟩, rfl⟩
    have hlen : input.length = w.bytes.length + (d.text.length + w'.bytes.length) := by
      rw [htext, List.length_append, List.length_append]
    have hstops : Stops w'.bytes := by
      have hnil := stops_append w' (s := []) (fun _ h => by cases h)
      rwa [List.append_nil] at hnil
    have hread := parseValue_complete d n 0 0 w w'.bytes
      ⟨hvalid, by rwa [Nat.zero_add], by rwa [Nat.zero_add]⟩
      (by unfold steps at hn; omega) (over_mono (by omega) hbytes) hstops
    have hskip : skipWhitespace w'.bytes = [] := by
      have hnil := skipWhitespace_append w' []
      rwa [List.append_nil] at hnil
    rw [hbytes, if_neg Bool.false_ne_true, htext, hread]
    dsimp only
    rw [hskip]
    rfl

/-- No input needs more steps than it is given. -/
theorem decodeInternal_ne_spent {n : ℕ} {input : Bytes} (hn : steps input ≤ n) :
    decodeInternal n input limit ≠ .error .spent := by
  intro h
  unfold decodeInternal at h
  split at h
  · exact nomatch Except.error.inj h
  split at h
  · rename_i stop hread
    rw [Except.error.inj h] at hread
    exact (not_spent n).1 (Nat.zero_le _) hn hread
  · split at h
    · cases h
    · exact nomatch Except.error.inj h

/-- More steps than are enough change nothing. -/
theorem decodeInternal_eq {n : ℕ} {input : Bytes} (hn : steps input ≤ n) :
    decodeInternal n input limit = decodeInternal (steps input) input limit := by
  rcases h : decodeInternal (steps input) input limit with stop | v
  · rcases h' : decodeInternal n input limit with stop' | v'
    · cases stop with
      | spent => exact absurd h (decodeInternal_ne_spent le_rfl)
      | failed =>
        cases stop' with
        | spent => exact absurd h' (decodeInternal_ne_spent hn)
        | failed => rfl
    · rw [(decodeInternal_eq_ok le_rfl).2 ((decodeInternal_eq_ok hn).1 h')] at h
      cases h
  · exact (decodeInternal_eq_ok hn).2 ((decodeInternal_eq_ok le_rfl).1 h)

theorem value_eq_nil {d : Doc} : d.value = .nil ↔ d = .null := by
  constructor
  · intro h
    cases d with
    | null => rfl
    | _ => exact nomatch h
  · rintro rfl
    rfl

theorem decode_eq_iff {input : Bytes} {maxBytes v : LuaValue} (hv : v ≠ .nil) :
    decode (.str input) maxBytes = v ↔ ∃ d, Accepts (limitOf maxBytes) input d ∧ d.value = v := by
  unfold decode
  dsimp only
  rw [← decodeInternal_eq_ok le_rfl]
  split
  · rename_i result h
    rw [h]
    exact ⟨fun heq => by rw [heq], fun heq => Except.ok.inj heq⟩
  · rename_i stop h
    rw [h]
    exact ⟨fun heq => absurd heq.symm hv, nofun⟩

/-- **What `JSON.decode` accepts.** The call ends, and it returns a value
exactly for a text of the grammar within the bounds that is no `null`; for
everything else it returns `nil`. -/
theorem decode_accepts (input : Bytes) (maxBytes : LuaValue) :
    (∀ n, steps input ≤ n → decodeInternal n input (limitOf maxBytes) ≠ .error .spent ∧
      decodeInternal n input (limitOf maxBytes) =
        decodeInternal (steps input) input (limitOf maxBytes)) ∧
    (∀ v, (decode (.str input) maxBytes = v ∧ v ≠ .nil) ↔
      ∃ d, d ≠ .null ∧ Accepts (limitOf maxBytes) input d ∧ d.value = v) ∧
    ((¬∃ d, d ≠ .null ∧ Accepts (limitOf maxBytes) input d) →
      decode (.str input) maxBytes = .nil) := by
  have hvalue (v : LuaValue) : (decode (.str input) maxBytes = v ∧ v ≠ .nil) ↔
      ∃ d, d ≠ .null ∧ Accepts (limitOf maxBytes) input d ∧ d.value = v := by
    constructor
    · rintro ⟨h, hv⟩
      obtain ⟨d, haccepts, rfl⟩ := (decode_eq_iff hv).1 h
      exact ⟨d, fun hd => hv (value_eq_nil.2 hd), haccepts, rfl⟩
    · rintro ⟨d, hd, haccepts, rfl⟩
      have hv : d.value ≠ .nil := fun h => hd (value_eq_nil.1 h)
      exact ⟨(decode_eq_iff hv).2 ⟨d, haccepts, rfl⟩, hv⟩
  refine ⟨fun n hn => ⟨decodeInternal_ne_spent hn, decodeInternal_eq hn⟩, hvalue, fun hnone => ?_⟩
  by_contra hsome
  obtain ⟨d, hd, haccepts, -⟩ := (hvalue _).1 ⟨rfl, hsome⟩
  exact hnone ⟨d, hd, haccepts⟩

/-- **The text `null`** is a JSON text, and the answer to it is the answer to
a text that is none. -/
theorem decode_null : ¬ ∀ input maxBytes, decode (.str input) maxBytes ≠ .nil ↔
    ∃ d, Accepts (limitOf maxBytes) input d := by
  intro h
  have hnull : Accepts (limitOf .nil) (Bytes.lit "null") .null := by
    have hone : 1 ≤ maxNodes := by decide
    exact ⟨⟨.none, .none, rfl⟩, trivial, Nat.zero_le _, hone, by decide⟩
  have hok := (decodeInternal_eq_ok le_rfl).2 ⟨_, hnull, rfl⟩
  refine (h (Bytes.lit "null") .nil).2 ⟨_, hnull⟩ ?_
  unfold decode
  dsimp only
  rw [hok]
  rfl

end JSON

end GoblinZomboid
