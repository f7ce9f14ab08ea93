import GoblinZomboid.Lib.Retention
/-!
# Tables with a running number

A row goes in under the next number, and a number is never given twice. A table
that is cut to its newest rows now and then shows the end of the list of all
that went in.
-/

/-- Rows with their numbers, and the last number given. -/
structure Table (α : Type) where
  rows : List (α × ℕ)
  seq : ℕ

namespace Table

variable {α : Type}

/-- No row, and no number given. -/
def empty : Table α := ⟨[], 0⟩

/-- A row under the next number. -/
def insert (t : Table α) (a : α) : Table α := ⟨t.rows ++ [(a, t.seq + 1)], t.seq + 1⟩

/-- The rows with the highest numbers, from the highest down. -/
def newest (size : ℕ) (t : Table α) : List (α × ℕ) := Retention.first Prod.snd size t.rows

/-- What is not among the newest is deleted. -/
def cut (size : ℕ) (t : Table α) : Table α :=
  { t with rows := t.rows.filter fun row => List.elem row.2 ((t.newest size).map Prod.snd) }

/-- **The table shows the end of a list**: all of it went in, numbered from one,
and so many of the first are gone. -/
structure Shows (t : Table α) (log : List α) (gone : ℕ) : Prop where
  seq : t.seq = log.length
  rows : t.rows = (log.zipIdx 1).drop gone

variable {t : Table α} {log : List α} {gone : ℕ}

theorem shows_empty : Shows (empty : Table α) [] 0 := ⟨rfl, rfl⟩

theorem Shows.insert (h : Shows t log gone) (hgone : gone ≤ log.length) (a : α) :
    Shows (t.insert a) (log ++ [a]) gone := by
  refine ⟨?_, ?_⟩
  · rw [Table.insert, h.seq, List.length_append]
    rfl
  · rw [Table.insert, h.rows, h.seq, List.zipIdx_append,
      List.drop_append_of_le_length (by rw [List.length_zipIdx]; exact hgone), Nat.add_comm 1]
    rfl

/-! ## The newest -/

/-- Numbers in a row ascend. -/
theorem pairwise_zipIdx (log : List α) (k : ℕ) :
    (log.zipIdx k).Pairwise fun a b => a.2 < b.2 := by
  rw [← List.pairwise_map, List.zipIdx_map_snd]
  exact List.pairwise_lt_range'

/-- What stands in ascending order has its first at the end. -/
theorem first_of_ascending {l : List (α × ℕ)} (h : l.Pairwise fun a b => a.2 < b.2) (size : ℕ) :
    Retention.first Prod.snd size l = (l.drop (l.length - size)).reverse := by
  have hsorted : (l.mergeSort fun a b => decide (b.2 ≤ a.2)).Pairwise fun a b => b.2 ≤ a.2 := by
    have hpairwise := @List.pairwise_mergeSort (α × ℕ) (fun a b => decide (b.2 ≤ a.2))
      (fun a b c hab hbc => by
        rw [decide_eq_true_eq] at hab hbc ⊢
        exact hbc.trans hab)
      (fun a b => by
        rw [Bool.or_eq_true, decide_eq_true_eq, decide_eq_true_eq]
        exact le_total b.2 a.2) l
    exact hpairwise.imp fun h => of_decide_eq_true h
  have hreverse : l.reverse.Pairwise fun a b => b.2 ≤ a.2 :=
    List.pairwise_reverse.2 (h.imp fun hlt => hlt.le)
  have hperm : (l.mergeSort fun a b => decide (b.2 ≤ a.2)).Perm l.reverse :=
    (List.mergeSort_perm l _).trans (List.reverse_perm l).symm
  -- Two rows of one number are one row.
  have hsame : (l.mergeSort fun a b => decide (b.2 ≤ a.2)) = l.reverse := by
    refine hperm.eq_of_pairwise (fun a b ha hb hab hba => ?_) hsorted hreverse
    by_contra hne
    have hmem : a ∈ l := (List.mergeSort_perm l _).mem_iff.1 ha
    have hmem' : b ∈ l := List.mem_reverse.1 hb
    have hnodup : (l.map Prod.snd).Nodup := List.pairwise_map.2 (h.imp fun hlt => hlt.ne)
    exact hne (List.inj_on_of_nodup_map hnodup hmem hmem' (le_antisymm hba hab))
  unfold Retention.first
  rw [hsame, List.take_reverse]

theorem Shows.ascending (h : Shows t log gone) : t.rows.Pairwise fun a b => a.2 < b.2 := by
  rw [h.rows]
  exact (pairwise_zipIdx log 1).sublist (List.drop_sublist ..)

theorem Shows.length (h : Shows t log gone) : t.rows.length = log.length - gone := by
  rw [h.rows, List.length_drop, List.length_zipIdx]

/-- **The newest, in the order they went in**, are the end of the list. -/
theorem Shows.reverse_newest (h : Shows t log gone) (size : ℕ) :
    (t.newest size).reverse = (log.zipIdx 1).drop (max gone (log.length - size)) := by
  rw [newest, first_of_ascending h.ascending, List.reverse_reverse, h.length, h.rows,
    List.drop_drop]
  congr 1
  omega

/-- **A table that is cut** shows as many as it was cut to. -/
theorem Shows.cut (h : Shows t log gone) (size : ℕ) :
    Shows (t.cut size) log (max gone (log.length - size)) := by
  refine ⟨h.seq, ?_⟩
  have hids : (t.newest size).map Prod.snd =
      ((t.rows.drop (t.rows.length - size)).map Prod.snd).reverse := by
    rw [newest, first_of_ascending h.ascending, List.map_reverse]
  have hnodup : (t.rows.map Prod.snd).Nodup := List.pairwise_map.2 (h.ascending.imp fun hlt => hlt.ne)
  have hkept : (t.cut size).rows = t.rows.drop (t.rows.length - size) := by
    rw [Table.cut, hids]
    generalize t.rows.length - size = k
    show t.rows.filter _ = _
    rw [← List.take_append_drop k t.rows, List.map_append, List.nodup_append] at hnodup
    obtain ⟨-, -, hapart⟩ := hnodup
    conv_lhs => rw [← List.take_append_drop k t.rows]
    rw [List.filter_append, List.filter_eq_nil_iff.2, List.nil_append, List.filter_eq_self.2]
    · intro row hrow
      rw [List.elem_iff, List.mem_reverse, List.take_append_drop]
      exact List.mem_map_of_mem hrow
    · intro row hrow
      rw [List.elem_iff, List.mem_reverse, List.take_append_drop]
      exact fun hmem => hapart _ (List.mem_map_of_mem hrow) _ hmem rfl
  rw [hkept, h.length, h.rows, List.drop_drop]
  congr 1
  omega

end Table
