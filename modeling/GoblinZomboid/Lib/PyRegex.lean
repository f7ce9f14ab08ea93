import GoblinZomboid.Lib.PyText
/-!
# Python regular expressions

The part of `re` that filters of text use. An expression leads from a
position to the positions after it; a position is the character before it
and the text from it on, which is what a word boundary looks at.
-/

/-- What the text methods read of the character database. The laws fix
the ASCII part; the rest is whatever the interpreter ships. -/
structure Unicode where
  /-- `str.isalnum` and `str.isprintable` of one character. -/
  alnum : Char → Bool
  printable : Char → Bool
  /-- `str.casefold` and `str.upper` of one character. -/
  casefold : Char → PyText
  upper : Char → PyText
  alnum_ascii : ∀ c : Char, c.toNat < 128 → alnum c = c.isAlphanum
  casefold_ascii : ∀ c : Char, c.toNat < 128 → casefold c = [c.toLower]
  upper_ascii : ∀ c : Char, c.toNat < 128 → upper c = [c.toUpper]

/-- The database of a text without a letter outside ASCII. -/
def Unicode.ascii : Unicode where
  alnum := Char.isAlphanum
  printable := fun c => 32 ≤ c.toNat && c.toNat < 127
  casefold := fun c => [c.toLower]
  upper := fun c => [c.toUpper]
  alnum_ascii := fun _ _ => rfl
  casefold_ascii := fun _ _ => rfl
  upper_ascii := fun _ _ => rfl

/-- Small ASCII letters and what has no case fold to themselves. -/
theorem Unicode.flatMap_casefold (u : Unicode) {t : PyText}
    (h : t.all (fun c => c.toNat < 128 && c.toLower == c) = true) : t.flatMap u.casefold = t := by
  have hone : ∀ c ∈ t, u.casefold c = [c] := by
    intro c hc
    have hlow := List.all_eq_true.1 h c hc
    simp only [Bool.and_eq_true, decide_eq_true_eq, beq_iff_eq] at hlow
    rw [u.casefold_ascii c hlow.1, hlow.2]
  rw [List.flatMap_congr hone]
  simp

namespace PyRegex

/-- An expression. -/
inductive Rx
  | one (p : Char → Bool)
  | many (p : Char → Bool)
  | opt (r : Rx)
  | boundary
  | seq (r s : Rx)
  | alt (r s : Rx)

/-- A position in a text. -/
abbrev Pos := Option Char × PyText

/-- `\w`. -/
def isWord (u : Unicode) (c : Char) : Bool := u.alnum c || c == '_'

/-- The positions a run of the class leads to. -/
def runs (p : Char → Bool) (prev : Option Char) : PyText → List Pos
  | [] => [(prev, [])]
  | c :: rest => (prev, c :: rest) :: if p c then runs p (some c) rest else []

/-- The positions after an expression. -/
def ends (u : Unicode) : Rx → Pos → List Pos
  | .one p, (_, rest) =>
    match rest with
    | c :: rest => if p c then [(some c, rest)] else []
    | [] => []
  | .many p, (prev, rest) => runs p prev rest
  | .opt r, pos => pos :: ends u r pos
  | .boundary, (prev, rest) =>
    if prev.any (isWord u) != rest.head?.any (isWord u) then [(prev, rest)] else []
  | .seq r s, pos => (ends u r pos).flatMap (ends u s)
  | .alt r s, pos => ends u r pos ++ ends u s pos

/-- Whether an expression matches from some position on. -/
def searchFrom (u : Unicode) (r : Rx) (prev : Option Char) : PyText → Bool
  | [] => !(ends u r (prev, [])).isEmpty
  | c :: rest => !(ends u r (prev, c :: rest)).isEmpty || searchFrom u r (some c) rest

/-- `r.search(t) is not None`. -/
def search (u : Unicode) (r : Rx) (t : PyText) : Bool := searchFrom u r none t

/-- A small letter under `IGNORECASE`: its capital, and the letters outside
ASCII that fold to it. -/
def ignoreCase (l c : Char) : Bool :=
  c == l || c == l.toUpper || (l == 'i' && (c == 'İ' || c == 'ı')) || (l == 's' && c == 'ſ')
    || (l == 'k' && c == '\u212a')

/-- A word of small letters under `IGNORECASE`, before another expression. -/
def wordThen (w : String) (r : Rx) : Rx := w.toList.foldr (fun l r => .seq (.one (ignoreCase l)) r) r

/-! ## Text of ASCII -/

/-- A position in a text of ASCII. -/
def Pos.Ascii (pos : Pos) : Prop :=
  (∀ c, pos.1 = some c → c.toNat < 128) ∧ ∀ c ∈ pos.2, c.toNat < 128

theorem isWord_ascii (u : Unicode) {c : Char} (h : c.toNat < 128) :
    isWord u c = isWord .ascii c := by
  unfold isWord
  rw [u.alnum_ascii c h]
  rfl

theorem runs_ascii {p : Char → Bool} {prev : Option Char} {t : PyText} {pos : Pos}
    (h : Pos.Ascii (prev, t)) (hpos : pos ∈ runs p prev t) : pos.Ascii := by
  induction t generalizing prev with
  | nil =>
    rw [List.mem_singleton.1 hpos]
    exact h
  | cons c t ih =>
    rcases List.mem_cons.1 hpos with rfl | hpos
    · exact h
    · split at hpos
      · refine ih ⟨?_, fun d hd => h.2 d (List.mem_cons_of_mem c hd)⟩ hpos
        intro d hd
        obtain rfl := Option.some_inj.1 hd
        exact h.2 c List.mem_cons_self
      · cases hpos

/-- **An expression in a text of ASCII** does the same whatever the character
database, and stays in ASCII. -/
theorem ends_ascii (u : Unicode) (r : Rx) {pos : Pos} (h : pos.Ascii) :
    ends u r pos = ends .ascii r pos ∧ ∀ pos' ∈ ends .ascii r pos, pos'.Ascii := by
  induction r generalizing pos with
  | one p =>
    obtain ⟨prev, rest⟩ := pos
    refine ⟨rfl, fun pos' hpos => ?_⟩
    cases rest with
    | nil => cases hpos
    | cons c rest =>
      unfold ends at hpos
      dsimp only at hpos
      split at hpos
      · rw [List.mem_singleton.1 hpos]
        refine ⟨fun d hd => ?_, fun d hd => h.2 d (List.mem_cons_of_mem c hd)⟩
        obtain rfl := Option.some_inj.1 hd
        exact h.2 c List.mem_cons_self
      · cases hpos
  | many p => exact ⟨rfl, fun pos' hpos => runs_ascii h hpos⟩
  | opt r ih =>
    obtain ⟨hsame, hascii⟩ := ih h
    refine ⟨congrArg (pos :: ·) hsame, fun pos' hpos => ?_⟩
    rcases List.mem_cons.1 hpos with rfl | hpos
    · exact h
    · exact hascii pos' hpos
  | boundary =>
    obtain ⟨prev, rest⟩ := pos
    have hprev : prev.any (isWord u) = prev.any (isWord .ascii) := by
      cases prev with
      | none => rfl
      | some c => exact isWord_ascii u (h.1 c rfl)
    have hnext : rest.head?.any (isWord u) = rest.head?.any (isWord .ascii) := by
      cases rest with
      | nil => rfl
      | cons c rest => exact isWord_ascii u (h.2 c List.mem_cons_self)
    constructor
    · unfold ends
      rw [hprev, hnext]
    · intro pos' hpos
      unfold ends at hpos
      split at hpos
      · rw [List.mem_singleton.1 hpos]
        exact h
      · cases hpos
  | seq r s ihr ihs =>
    obtain ⟨hsame, hascii⟩ := ihr h
    constructor
    · unfold ends
      rw [hsame]
      exact List.flatMap_congr fun pos' hpos => (ihs (hascii pos' hpos)).1
    · intro pos' hpos
      obtain ⟨mid, hmid, hpos⟩ := List.mem_flatMap.1 hpos
      exact (ihs (hascii mid hmid)).2 pos' hpos
  | alt r s ihr ihs =>
    obtain ⟨hr, hasciir⟩ := ihr h
    obtain ⟨hs, hasciis⟩ := ihs h
    constructor
    · unfold ends
      rw [hr, hs]
    · intro pos' hpos
      rcases List.mem_append.1 hpos with hpos | hpos
      · exact hasciir pos' hpos
      · exact hasciis pos' hpos

theorem searchFrom_ascii (u : Unicode) (r : Rx) {prev : Option Char} {t : PyText}
    (h : Pos.Ascii (prev, t)) : searchFrom u r prev t = searchFrom .ascii r prev t := by
  induction t generalizing prev with
  | nil =>
    unfold searchFrom
    rw [(ends_ascii u r h).1]
  | cons c t ih =>
    unfold searchFrom
    rw [(ends_ascii u r h).1, ih]
    refine ⟨fun d hd => ?_, fun d hd => h.2 d (List.mem_cons_of_mem c hd)⟩
    obtain rfl := Option.some_inj.1 hd
    exact h.2 c List.mem_cons_self

/-- A search in a text of ASCII. -/
theorem search_ascii (u : Unicode) (r : Rx) {t : PyText} (h : ∀ c ∈ t, c.toNat < 128) :
    search u r t = search .ascii r t := searchFrom_ascii u r ⟨nofun, h⟩

end PyRegex
