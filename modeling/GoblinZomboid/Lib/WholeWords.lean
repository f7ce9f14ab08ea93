import GoblinZomboid.Lib.PyRegex
/-!
# Whole words

An expression that asks for a boundary, one of some words and a boundary finds
what stands in a text as a word of its own.
-/

namespace PyRegex

/-! ## Expressions of literals -/

/-- Nothing, here. -/
def here : Rx := .opt (.one fun _ => false)

/-- A text, letter for letter. -/
def literal (w : PyText) : Rx := w.foldr (fun l r => .seq (.one (· == l)) r) here

/-- One of several expressions. -/
def oneOf (rs : List Rx) : Rx := rs.foldr .alt (.one fun _ => false)

/-- The character before what follows a text. -/
def lastOf (prev : Option Char) (w : PyText) : Option Char := w.getLast?.or prev

variable {u : Unicode} {pos : Pos} {prev : Option Char} {t : PyText}

@[simp] theorem ends_here (pos : Pos) : ends u here pos = [pos] := by
  obtain ⟨prev, t⟩ := pos
  cases t <;> rfl

theorem ends_one_cons (p : Char → Bool) (c : Char) :
    ends u (.one p) (prev, c :: t) = if p c then [(some c, t)] else [] := rfl

theorem mem_ends_seq {r s : Rx} {start : Pos} :
    pos ∈ ends u (.seq r s) start ↔ ∃ mid ∈ ends u r start, pos ∈ ends u s mid :=
  List.mem_flatMap

theorem mem_ends_opt {r : Rx} {start : Pos} :
    pos ∈ ends u (.opt r) start ↔ pos = start ∨ pos ∈ ends u r start := List.mem_cons

theorem lastOf_cons (c : Char) (w : PyText) : lastOf (some c) w = lastOf prev (c :: w) := by
  unfold lastOf
  rw [List.getLast?_cons]
  cases w.getLast? <;> rfl

theorem mem_ends_literal {w : PyText} :
    pos ∈ ends u (literal w) (prev, t) ↔ ∃ rest, t = w ++ rest ∧ pos = (lastOf prev w, rest) := by
  induction w generalizing prev t with
  | nil =>
    rw [show literal [] = here from rfl, ends_here, List.mem_singleton]
    exact ⟨fun h => ⟨t, rfl, h⟩, fun ⟨rest, ht, hpos⟩ => by rw [hpos, ht]; rfl⟩
  | cons l w ih =>
    rw [show literal (l :: w) = .seq (.one (· == l)) (literal w) from rfl, mem_ends_seq]
    constructor
    · rintro ⟨mid, hmid, hpos⟩
      cases t with
      | nil => cases hmid
      | cons c t =>
        rw [ends_one_cons] at hmid
        by_cases hc : c = l
        · subst hc
          rw [if_pos (beq_self_eq_true c)] at hmid
          rw [List.mem_singleton.1 hmid] at hpos
          obtain ⟨rest, rfl, rfl⟩ := ih.1 hpos
          exact ⟨rest, rfl, by rw [lastOf_cons]⟩
        · rw [if_neg (by simpa using hc)] at hmid
          cases hmid
    · rintro ⟨rest, rfl, rfl⟩
      refine ⟨(some l, w ++ rest), ?_, ih.2 ⟨rest, rfl, by rw [lastOf_cons]⟩⟩
      rw [List.cons_append, ends_one_cons, if_pos (beq_self_eq_true l)]
      exact List.mem_singleton_self _

theorem mem_ends_oneOf {rs : List Rx} {start : Pos} :
    pos ∈ ends u (oneOf rs) start ↔ ∃ r ∈ rs, pos ∈ ends u r start := by
  induction rs with
  | nil =>
    obtain ⟨prev, t⟩ := start
    refine iff_of_false ?_ (by simp)
    cases t <;> exact List.not_mem_nil
  | cons r rs ih =>
    rw [show oneOf (r :: rs) = .alt r (oneOf rs) from rfl,
      show ends u (.alt r (oneOf rs)) start = ends u r start ++ ends u (oneOf rs) start from rfl,
      List.mem_append, ih, List.exists_mem_cons_iff]

theorem mem_ends_boundary :
    pos ∈ ends u .boundary (prev, t) ↔
      pos = (prev, t) ∧ prev.any (isWord u) ≠ t.head?.any (isWord u) := by
  unfold ends
  by_cases h : (prev.any (isWord u) != t.head?.any (isWord u)) = true
  · rw [if_pos h, List.mem_singleton]
    exact ⟨fun hpos => ⟨hpos, bne_iff_ne.1 h⟩, And.left⟩
  · rw [if_neg h]
    exact iff_of_false List.not_mem_nil fun hpos => h (bne_iff_ne.2 hpos.2)

/-- **A search** finds an expression somewhere. -/
theorem searchFrom_iff {r : Rx} :
    searchFrom u r prev t = true ↔ ∃ a b, t = a ++ b ∧ ∃ pos, pos ∈ ends u r (lastOf prev a, b) := by
  have hsome : ∀ start, (!(ends u r start).isEmpty) = true ↔ ∃ pos, pos ∈ ends u r start := by
    intro start
    rw [Bool.not_eq_true', List.isEmpty_eq_false_iff_exists_mem]
  induction t generalizing prev with
  | nil =>
    rw [searchFrom, hsome]
    constructor
    · exact fun h => ⟨[], [], rfl, h⟩
    · rintro ⟨a, b, hab, h⟩
      obtain ⟨rfl, rfl⟩ := List.nil_eq_append_iff.1 hab
      exact h
  | cons c t ih =>
    rw [searchFrom, Bool.or_eq_true, hsome]
    constructor
    · rintro (h | h)
      · exact ⟨[], c :: t, rfl, h⟩
      · obtain ⟨a, b, rfl, h⟩ := ih.1 h
        exact ⟨c :: a, b, rfl, by rwa [← lastOf_cons]⟩
    · rintro ⟨a, b, hab, h⟩
      cases a with
      | nil =>
        rw [List.nil_append] at hab
        subst hab
        exact .inl h
      | cons d a =>
        rw [List.cons_append, List.cons.injEq] at hab
        obtain ⟨rfl, rfl⟩ := hab
        exact .inr (ih.2 ⟨a, b, rfl, by rwa [lastOf_cons]⟩)

/-! ## Words that stand alone -/

/-- **A word stands in a text**: no character of words touches it. -/
def Stands (p : Char → Bool) (w t : PyText) : Prop :=
  ∃ a b, t = a ++ (w ++ b) ∧ a.getLast?.any p = false ∧ b.head?.any p = false

/-- `\b(?:...)(?:...)?\b`. -/
def wholeWord (words suffixes : List PyText) : Rx :=
  .seq .boundary (.seq (oneOf (words.map literal))
    (.seq (.opt (oneOf (suffixes.map literal))) .boundary))

/-- `\b(?:...)\w*`. -/
def wordFrom (u : Unicode) (stems : List PyText) : Rx :=
  .seq .boundary (.seq (oneOf (stems.map literal)) (.many (isWord u)))

theorem lastOf_append (w s : PyText) : lastOf (lastOf prev w) s = lastOf prev (w ++ s) := by
  unfold lastOf
  rw [List.getLast?_append]
  cases s.getLast? <;> rfl

theorem lastOf_none (a : PyText) : lastOf none a = a.getLast? := Option.or_none ..

/-- A word of word characters. -/
def IsWordText (u : Unicode) (w : PyText) : Prop := w ≠ [] ∧ ∀ c ∈ w, isWord u c = true

theorem IsWordText.head {w : PyText} (h : IsWordText u w) (rest : PyText) :
    (w ++ rest).head?.any (isWord u) = true := by
  obtain ⟨hne, hall⟩ := h
  cases w with
  | nil => exact absurd rfl hne
  | cons c w => exact hall c List.mem_cons_self

theorem IsWordText.last {w : PyText} (h : IsWordText u w) :
    (lastOf prev w).any (isWord u) = true := by
  obtain ⟨hne, hall⟩ := h
  have hlast := List.getLast?_eq_some_getLast hne
  unfold lastOf
  rw [hlast]
  exact hall _ (List.getLast_mem hne)

theorem IsWordText.append {w s : PyText} (h : IsWordText u w) (hs : ∀ c ∈ s, isWord u c = true) :
    IsWordText u (w ++ s) := by
  refine ⟨fun hnil => h.1 (List.append_eq_nil_iff.1 hnil).1, fun c hc => ?_⟩
  rcases List.mem_append.1 hc with hc | hc
  · exact h.2 c hc
  · exact hs c hc

theorem ne_true_iff {b : Bool} : b ≠ true ↔ b = false := Bool.not_eq_true b ▸ Iff.rfl

/-- **Whole words** are found where they stand. -/
theorem search_wholeWord_iff {words suffixes : List PyText} (hwords : ∀ w ∈ words, IsWordText u w)
    (hsuffixes : ∀ s ∈ suffixes, ∀ c ∈ s, isWord u c = true) :
    search u (wholeWord words suffixes) t = true ↔
      ∃ w ∈ words, ∃ s ∈ [] :: suffixes, Stands (isWord u) (w ++ s) t := by
  unfold search wholeWord
  rw [searchFrom_iff]
  simp only [mem_ends_seq, mem_ends_boundary, mem_ends_oneOf, mem_ends_opt, List.mem_map,
    lastOf_none]
  constructor
  · rintro ⟨a, b, rfl, pos, _, ⟨rfl, hstart⟩, _, ⟨_, ⟨w, hw, rfl⟩, hmid⟩, last, hlast, hend⟩
    obtain ⟨rest, rfl, rfl⟩ := mem_ends_literal.1 hmid
    have hword := hwords w hw
    rw [hword.head rest, ne_true_iff] at hstart
    rcases hlast with rfl | ⟨_, ⟨s, hs, rfl⟩, hlast⟩
    · rw [mem_ends_boundary, hword.last] at hend
      exact ⟨w, hw, [], List.mem_cons_self, a, rest, by rw [List.append_nil], hstart,
        ne_true_iff.1 hend.2.symm⟩
    · obtain ⟨rest', rfl, rfl⟩ := mem_ends_literal.1 hlast
      rw [mem_ends_boundary, lastOf_append, (hword.append (hsuffixes s hs)).last] at hend
      exact ⟨w, hw, s, List.mem_cons_of_mem _ hs, a, rest', by rw [List.append_assoc], hstart,
        ne_true_iff.1 hend.2.symm⟩
  · rintro ⟨w, hw, s, hs, a, b, rfl, hstart, hend⟩
    have hword := hwords w hw
    have hall : ∀ c ∈ s, isWord u c = true := by
      rcases List.mem_cons.1 hs with rfl | hs
      · exact fun c hc => by cases hc
      · exact hsuffixes s hs
    refine ⟨a, w ++ s ++ b, rfl, (lastOf a.getLast? (w ++ s), b), _, ⟨rfl, ?_⟩,
      (lastOf a.getLast? w, s ++ b), ⟨_, ⟨w, hw, rfl⟩, mem_ends_literal.2 ⟨s ++ b, ?_, rfl⟩⟩,
      (lastOf a.getLast? (w ++ s), b), ?_, ?_⟩
    · rw [hstart, (hword.append hall).head b]
      exact Bool.false_ne_true
    · rw [List.append_assoc]
    · rcases List.mem_cons.1 hs with rfl | hs
      · left
        rw [List.append_nil, List.nil_append]
      · right
        exact ⟨_, ⟨s, hs, rfl⟩, mem_ends_literal.2 ⟨b, rfl, by rw [lastOf_append]⟩⟩
    · rw [mem_ends_boundary, (hword.append hall).last, hend]
      exact ⟨rfl, Bool.false_ne_true.symm⟩

/-- **What starts a word** is found where a word starts with it. -/
theorem search_wordFrom_iff {stems : List PyText} (hstems : ∀ w ∈ stems, IsWordText u w) :
    search u (wordFrom u stems) t = true ↔
      ∃ w ∈ stems, ∃ a b, t = a ++ (w ++ b) ∧ a.getLast?.any (isWord u) = false := by
  unfold search wordFrom
  rw [searchFrom_iff]
  simp only [mem_ends_seq, mem_ends_boundary, mem_ends_oneOf, List.mem_map, lastOf_none]
  constructor
  · rintro ⟨a, b, rfl, pos, _, ⟨rfl, hstart⟩, _, ⟨_, ⟨w, hw, rfl⟩, hmid⟩, -⟩
    obtain ⟨rest, rfl, rfl⟩ := mem_ends_literal.1 hmid
    rw [(hstems w hw).head rest, ne_true_iff] at hstart
    exact ⟨w, hw, a, rest, rfl, hstart⟩
  · rintro ⟨w, hw, a, b, rfl, hstart⟩
    refine ⟨a, w ++ b, rfl, (lastOf a.getLast? w, b), _, ⟨rfl, ?_⟩, (lastOf a.getLast? w, b),
      ⟨_, ⟨w, hw, rfl⟩, mem_ends_literal.2 ⟨b, rfl, rfl⟩⟩, ?_⟩
    · rw [hstart, (hstems w hw).head b]
      exact Bool.false_ne_true
    · cases b <;> exact List.mem_cons_self

/-- Either of two expressions. -/
theorem search_alt {r s : Rx} : search u (.alt r s) t = true ↔
    search u r t = true ∨ search u s t = true := by
  unfold search
  simp only [searchFrom_iff]
  constructor
  · rintro ⟨a, b, hab, pos, hpos⟩
    rcases List.mem_append.1 hpos with hpos | hpos
    · exact .inl ⟨a, b, hab, pos, hpos⟩
    · exact .inr ⟨a, b, hab, pos, hpos⟩
  · rintro (⟨a, b, hab, pos, hpos⟩ | ⟨a, b, hab, pos, hpos⟩)
    · exact ⟨a, b, hab, pos, List.mem_append_left _ hpos⟩
    · exact ⟨a, b, hab, pos, List.mem_append_right _ hpos⟩

end PyRegex
