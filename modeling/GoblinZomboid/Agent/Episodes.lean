import GoblinZomboid.Lib.PyStr
import GoblinZomboid.Lib.Retention
import Mathlib.Algebra.Order.Ring.Rat
import Mathlib.Data.List.Induction
import Mathlib.Data.Prod.Lex
/-!
# `mind.py`: episodes

A companion's memories are the rows of one table. Each `record` adds a row
and deletes those of the same companion that are neither among the latest
400 nor among the 100 most important. What is left after any calls is what
one deletion at the end would leave of everything ever recorded.
-/

namespace GoblinZomboid

/-- A Python float. -/
inductive PyFloat
  | finite (q : ℚ)
  | inf (negative : Bool)
  | nan

/-- `max(low, min(high, x))`. No comparison with `nan` holds, so `min` keeps
its first argument. -/
def PyFloat.clamp (low high : ℚ) : PyFloat → ℚ
  | .finite q => max low (min high q)
  | .inf true => low
  | .inf false => high
  | .nan => high

namespace Mind

/-- A row of the table `episodes`. -/
structure Episode where
  id : ℕ
  npcId : PyText
  recordedAt : ℕ
  kind : PyText
  text : PyText
  day : Option ℤ
  importance : ℚ
  valence : ℚ
  place : Option PyText
  entities : Option PyText
  deriving DecidableEq

/-- The table, with the highest id it ever gave out: `AUTOINCREMENT` gives
none out twice. -/
structure Episodes where
  rows : List Episode
  lastId : ℕ

/-- The arguments of a call of `record`, with the time it is made at. -/
structure RecordCall where
  now : ℕ
  npcId : PyStr
  kind : PyStr
  text : PyStr
  day : Option ℤ
  importance : PyFloat
  valence : PyFloat
  place : Option PyStr
  entities : List PyStr

/-- The names of the entities, each once and in order; `lower` is `str.lower`. -/
def entityNames (lower : PyStr → PyStr) (entities : List PyStr) : PyStr :=
  let names := (entities.filter fun e => !PyStr.blank e).map fun e => lower (e.take 32)
  let sorted := names.dedup.mergeSort fun a b => decide (a.map PyStr.ord ≤ b.map PyStr.ord)
  ((PyStr.lit ",").intercalate sorted).take 160

/-- A text that is left out when empty. -/
def orNone (t : PyStr) : Option PyStr := if t.isEmpty then none else some t

/-- Binding a column that may be `NULL`. -/
def encodeColumn : Option PyStr → Option (Option PyText)
  | none => some none
  | some t => (PyStr.encode t).map some

/-- Binding a whole number that may be `NULL`: it must fit in 64 bits. -/
def bindInt : Option ℤ → Option (Option ℤ)
  | none => some none
  | some n => if -2 ^ 63 ≤ n ∧ n < 2 ^ 63 then some (some n) else none

/-- The row a call inserts under an id; none where an argument cannot be
bound, which raises. -/
def newRow (lower : PyStr → PyStr) (c : RecordCall) (id : ℕ) : Option Episode := do
  let npcId ← PyStr.encode c.npcId
  let kind ← PyStr.encode (c.kind.take 32)
  let text ← PyStr.encode (c.text.take 240)
  let day ← bindInt c.day
  let place ← encodeColumn (c.place.map fun p => p.take 48)
  let entities ← encodeColumn (orNone (entityNames lower c.entities))
  return ⟨id, npcId, c.now, kind, text, day, c.importance.clamp 0 1, c.valence.clamp (-1) 1,
    place, entities⟩

namespace Episodes

/-- The rows of a companion. -/
def mine (db : Episodes) (npcId : PyText) : List Episode :=
  db.rows.filter fun e => e.npcId = npcId

/-- `INSERT INTO episodes`. -/
def insert (db : Episodes) (e : Episode) : Episodes := ⟨db.rows ++ [e], e.id⟩

/-- `ORDER BY id DESC LIMIT 400`. -/
def latest (rows : List Episode) : List Episode := Retention.first Episode.id 400 rows

/-- By importance, ties by id. -/
def weight (e : Episode) : ℚ ×ₗ ℕ := toLex (e.importance, e.id)

/-- `ORDER BY importance DESC, id DESC LIMIT 100`. -/
def mostImportant (rows : List Episode) : List Episode := Retention.first weight 100 rows

/-- `DELETE FROM episodes` of what is in neither of the two. -/
def forget (db : Episodes) (npcId : PyText) : Episodes :=
  { db with rows := db.rows.filter fun e => e.npcId ≠ npcId ||
      List.elem e.id ((latest (db.mine npcId)).map Episode.id) ||
      List.elem e.id ((mostImportant (db.mine npcId)).map Episode.id) }

variable (lower : PyStr → PyStr)

/-- `GoblinMind.record`; none where it raises. -/
def record (db : Episodes) (c : RecordCall) : Option Episodes :=
  if PyStr.blank (c.text.take 240) then some db
  else (newRow lower c (db.lastId + 1)).map fun e => (db.insert e).forget e.npcId

/-- The same without the deletion: everything ever recorded. -/
def keepAll (db : Episodes) (c : RecordCall) : Option Episodes :=
  if PyStr.blank (c.text.take 240) then some db
  else (newRow lower c (db.lastId + 1)).map db.insert

/-- A call after a call, on an empty table; one that raises changes nothing. -/
def run (calls : List RecordCall) : Episodes :=
  calls.foldl (fun db c => (record lower db c).getD db) ⟨[], 0⟩

def history (calls : List RecordCall) : Episodes :=
  calls.foldl (fun db c => (keepAll lower db c).getD db) ⟨[], 0⟩

/-! ## The rule of the deletion -/

/-- The two rankings. -/
def rules : List (Retention.Rule Episode) :=
  [Retention.byKey Episode.id 400, Retention.byKey weight 100]

/-- What the deletion spares of a list of rows. -/
def kept (rows : List Episode) : List Episode :=
  rows.filter fun e => decide (e ∈ latest rows ∨ e ∈ mostImportant rows)

/-- Every row has its own id, given out by now. -/
structure Numbered (db : Episodes) : Prop where
  nodup : (db.rows.map Episode.id).Nodup
  le : ∀ e ∈ db.rows, e.id ≤ db.lastId

variable {lower}

theorem nodup_mine {db : Episodes} (h : Numbered db) (npcId : PyText) :
    ((db.mine npcId).map Episode.id).Nodup :=
  h.nodup.sublist (List.filter_sublist.map _)

theorem nodup_weight {rows : List Episode} (h : (rows.map Episode.id).Nodup) :
    (rows.map weight).Nodup := by
  refine List.Nodup.of_map (fun w : ℚ ×ₗ ℕ => (ofLex w).2) ?_
  rwa [List.map_map]

theorem mem_latest_iff {rows : List Episode} (h : (rows.map Episode.id).Nodup) {e : Episode} :
    e ∈ latest rows ↔ e ∈ rows ∧ (Retention.byKey Episode.id 400).keeps rows e = true :=
  Retention.mem_first_iff h

theorem mem_mostImportant_iff {rows : List Episode} (h : (rows.map Episode.id).Nodup)
    {e : Episode} :
    e ∈ mostImportant rows ↔ e ∈ rows ∧ (Retention.byKey weight 100).keeps rows e = true :=
  Retention.mem_first_iff (nodup_weight h)

/-- The deletion goes by the two rankings. -/
theorem kept_eq_prune {rows : List Episode} (h : (rows.map Episode.id).Nodup) :
    kept rows = Retention.prune rules rows := by
  unfold kept Retention.prune
  refine List.filter_congr fun e he => ?_
  rw [Bool.eq_iff_iff, decide_eq_true_eq, mem_latest_iff h, mem_mostImportant_iff h]
  simp only [rules, List.any_cons, List.any_nil, Bool.or_false, Bool.or_eq_true]
  constructor
  · rintro (⟨-, hkeeps⟩ | ⟨-, hkeeps⟩)
    · exact .inl hkeeps
    · exact .inr hkeeps
  · rintro (hkeeps | hkeeps)
    · exact .inl ⟨he, hkeeps⟩
    · exact .inr ⟨he, hkeeps⟩

/-- An id is among some rows' ids where its row is among them. -/
theorem mem_map_id {rows sub : List Episode} (h : (rows.map Episode.id).Nodup)
    (hsub : ∀ e ∈ sub, e ∈ rows) {e : Episode} (he : e ∈ rows) :
    e.id ∈ sub.map Episode.id ↔ e ∈ sub := by
  constructor
  · intro hid
    obtain ⟨f, hf, heq⟩ := List.mem_map.1 hid
    have hsame : f = e := List.inj_on_of_nodup_map h (hsub f hf) he heq
    exact hsame ▸ hf
  · exact List.mem_map_of_mem

/-- **The deletion** leaves of the companion's rows what the rankings keep, and
every row of another. -/
theorem mine_forget {db : Episodes} (h : Numbered db) (npcId other : PyText) :
    (db.forget npcId).mine other =
      if other = npcId then kept (db.mine npcId) else db.mine other := by
  unfold forget
  rw [mine]
  simp only [List.filter_filter]
  by_cases hother : other = npcId
  · subst hother
    rw [if_pos rfl, kept, mine, List.filter_filter]
    refine List.filter_congr fun e he => ?_
    by_cases hmine : e.npcId = other
    · have hmem : e ∈ db.mine other := List.mem_filter.2 ⟨he, decide_eq_true hmine⟩
      have hnodup := nodup_mine h other
      have hlatest := mem_map_id hnodup (fun f hf => ((mem_latest_iff hnodup).1 hf).1) hmem
      have htop := mem_map_id hnodup (fun f hf => ((mem_mostImportant_iff hnodup).1 hf).1) hmem
      rw [Bool.eq_iff_iff]
      simp only [hmine, ne_eq, not_true_eq_false, decide_false, Bool.false_or, decide_true,
        Bool.true_and, Bool.and_true, Bool.or_eq_true, List.elem_iff, decide_eq_true_eq]
      exact or_congr hlatest htop
    · simp [hmine]
  · rw [if_neg hother, mine]
    refine List.filter_congr fun e _ => ?_
    by_cases hmine : e.npcId = other
    · have hne : e.npcId ≠ npcId := fun heq => hother (hmine.symm.trans heq)
      simp [hmine, hother]
    · simp [hmine]

/-! ## Call after call -/

theorem newRow_id {c : RecordCall} {id : ℕ} {e : Episode} (h : newRow lower c id = some e) :
    e.id = id := by
  unfold newRow at h
  simp only [Option.bind_eq_bind, Option.pure_def, Option.bind_eq_some_iff, Option.some.injEq] at h
  obtain ⟨_, -, _, -, _, -, _, -, _, -, _, -, rfl⟩ := h
  rfl

theorem numbered_insert {db : Episodes} (h : Numbered db) {e : Episode}
    (hid : e.id = db.lastId + 1) : Numbered (db.insert e) := by
  have hfresh : ∀ f ∈ db.rows, f.id ≠ e.id := fun f hf => by
    have hle := h.le f hf
    omega
  constructor
  · rw [insert, List.map_append, List.nodup_append]
    refine ⟨h.nodup, List.nodup_singleton _, ?_⟩
    intro a ha b hb
    obtain ⟨f, hf, rfl⟩ := List.mem_map.1 ha
    obtain rfl := List.mem_singleton.1 hb
    exact hfresh f hf
  · intro f hf
    rcases List.mem_append.1 hf with hf | hf
    · have hle := h.le f hf
      change f.id ≤ e.id
      omega
    · rw [List.mem_singleton.1 hf]
      exact le_rfl

theorem numbered_forget {db : Episodes} (h : Numbered db) (npcId : PyText) :
    Numbered (db.forget npcId) :=
  ⟨h.nodup.sublist (List.filter_sublist.map _), fun e he => h.le e (List.mem_of_mem_filter he)⟩

theorem mine_insert (db : Episodes) (e : Episode) (npcId : PyText) :
    (db.insert e).mine npcId = db.mine npcId ++ (if e.npcId = npcId then [e] else []) := by
  rw [mine, insert, List.filter_append, mine]
  by_cases hmine : e.npcId = npcId
  · rw [if_pos hmine, List.filter_cons_of_pos (by simpa using hmine), List.filter_nil]
  · rw [if_neg hmine, List.filter_cons_of_neg (by simpa using hmine), List.filter_nil]

/-- The table beside everything ever recorded: each companion has left what the
rankings keep of its own. -/
structure Retains (db all : Episodes) : Prop where
  numbered : Numbered db
  history : Numbered all
  lastId : db.lastId = all.lastId
  mine : ∀ npcId, db.mine npcId = Retention.prune rules (all.mine npcId)

/-- **A new row** on both sides, and the deletion on one. -/
theorem retains_insert {db all : Episodes} (h : Retains db all) {e : Episode}
    (hid : e.id = db.lastId + 1) : Retains ((db.insert e).forget e.npcId) (all.insert e) := by
  have hnumbered := numbered_insert h.numbered hid
  have hhistory := numbered_insert h.history (h.lastId ▸ hid)
  refine ⟨numbered_forget hnumbered _, hhistory, rfl, fun npcId => ?_⟩
  rw [mine_forget hnumbered]
  by_cases hmine : npcId = e.npcId
  · subst hmine
    rw [if_pos rfl, kept_eq_prune (nodup_mine hnumbered _), mine_insert, mine_insert, if_pos rfl,
      h.mine]
    -- The new row has an id of its own, so it is none that was there.
    refine Retention.prune_append rules fun f hf hmem => ?_
    rw [List.mem_singleton.1 hf] at hmem
    have hle := h.history.le e (List.mem_of_mem_filter hmem)
    have hlast := h.lastId
    omega
  · rw [if_neg hmine, mine_insert, mine_insert, if_neg (Ne.symm hmine), List.append_nil,
      List.append_nil, h.mine]

theorem retains_record {db all : Episodes} (h : Retains db all) (c : RecordCall) :
    Retains ((record lower db c).getD db) ((keepAll lower all c).getD all) := by
  unfold record keepAll
  by_cases hblank : PyStr.blank (c.text.take 240) = true
  · rw [if_pos hblank, if_pos hblank]
    exact h
  · rw [if_neg hblank, if_neg hblank, ← h.lastId]
    rcases hrow : newRow lower c (db.lastId + 1) with _ | e
    · exact h
    · exact retains_insert h (newRow_id hrow)

theorem retains_run (calls : List RecordCall) : Retains (run lower calls) (history lower calls) := by
  induction calls using List.reverseRecOn with
  | nil => exact ⟨⟨List.nodup_nil, nofun⟩, ⟨List.nodup_nil, nofun⟩, rfl, fun _ => rfl⟩
  | append_singleton calls c ih =>
    rw [run, history, List.foldl_append, List.foldl_append]
    exact retains_record ih c

/-- **What is remembered**: after any calls, a companion's rows are those of
everything ever recorded of it that are among the latest 400 or among the 100
most important of all of them. -/
theorem mine_run_eq (lower : PyStr → PyStr) (calls : List RecordCall) (npcId : PyText) :
    (run lower calls).mine npcId =
      ((history lower calls).mine npcId).filter fun e =>
        decide (e ∈ latest ((history lower calls).mine npcId) ∨
          e ∈ mostImportant ((history lower calls).mine npcId)) := by
  have hretains : Retains (run lower calls) (history lower calls) := retains_run calls
  rw [hretains.mine, ← kept_eq_prune (nodup_mine hretains.history npcId)]
  rfl

end Episodes

end Mind

end GoblinZomboid
