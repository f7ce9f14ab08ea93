import Mathlib.Data.Char
import Mathlib.Data.List.Basic
import Mathlib.Data.List.Infix
import Mathlib.Data.List.Lex
import Mathlib.Data.List.TakeWhile
/-!
# Python text

The `str` methods the agent uses, on lists of characters.
-/

/-- A Python string. -/
abbrev PyText := List Char

namespace PyText

/-- A literal. -/
def lit (s : String) : PyText := s.toList

/-- `str.isspace` of one character, which `strip` and `split` go by. -/
def isSpace (c : Char) : Bool :=
  let n := c.toNat
  (9 ≤ n && n ≤ 13) || (28 ≤ n && n ≤ 32) || n == 0x85 || n == 0xA0 || n == 0x1680
    || (0x2000 ≤ n && n ≤ 0x200A) || n == 0x2028 || n == 0x2029 || n == 0x202F || n == 0x205F
    || n == 0x3000

/-- `text.rstrip(chars)` for a set of characters. -/
def rstripWhere (p : Char → Bool) (t : PyText) : PyText := (t.reverse.dropWhile p).reverse

/-- `text.lstrip(chars)`. -/
def lstripWhere (p : Char → Bool) (t : PyText) : PyText := t.dropWhile p

/-- `text.strip()`. -/
def strip (t : PyText) : PyText := rstripWhere isSpace (lstripWhere isSpace t)

/-- The words of a text, the one being read first. -/
def splitFrom (word : PyText) : PyText → List PyText
  | [] => if word.isEmpty then [] else [word]
  | c :: rest =>
    if isSpace c then
      if word.isEmpty then splitFrom [] rest else word :: splitFrom [] rest
    else splitFrom (word ++ [c]) rest

/-- `text.split()`. -/
def split (t : PyText) : List PyText := splitFrom [] t

/-- `phrase in text`. -/
def contains (t phrase : PyText) : Bool :=
  phrase.isPrefixOf t ||
    match t with
    | [] => false
    | _ :: rest => contains rest phrase

theorem contains_iff {t phrase : PyText} : contains t phrase = true ↔ phrase <:+: t := by
  induction t with
  | nil => simp [contains, List.infix_nil, List.prefix_nil]
  | cons c t ih => rw [contains, Bool.or_eq_true, List.isPrefixOf_iff_prefix, ih, List.infix_cons_iff]

/-- A run of characters that are no blanks extends the word being read. -/
theorem splitFrom_append {word w rest : PyText} (hw : ∀ c ∈ w, isSpace c = false) :
    splitFrom word (w ++ rest) = splitFrom (word ++ w) rest := by
  induction w generalizing word with
  | nil => simp
  | cons c w ih =>
    have hc : isSpace c = false := hw c List.mem_cons_self
    rw [List.cons_append, splitFrom, if_neg (by simp [hc]),
      ih fun d hd => hw d (List.mem_cons_of_mem _ hd)]
    simp

/-- **The first word** ends at the first blank. -/
theorem split_word_append {w rest : PyText} (hne : w ≠ []) (hw : ∀ c ∈ w, isSpace c = false)
    {b : Char} (hb : isSpace b = true) : split (w ++ b :: rest) = w :: split rest := by
  rw [split, splitFrom_append hw, List.nil_append, splitFrom, if_pos hb, if_neg (by simpa using hne)]
  rfl

/-- Stripping keeps a character that is no blank. -/
theorem strip_ne_nil {t : PyText} {c : Char} (hc : c ∈ t) (hblank : isSpace c = false) :
    strip t ≠ [] := by
  have hdrop : ∀ u : PyText, c ∈ u → c ∈ u.dropWhile isSpace := by
    intro u hu
    rw [← List.takeWhile_append_dropWhile (p := isSpace) (l := u), List.mem_append] at hu
    rcases hu with hu | hu
    · rw [List.mem_takeWhile_imp hu] at hblank
      cases hblank
    · exact hu
  have hmem : c ∈ strip t := by
    unfold strip rstripWhere lstripWhere
    rw [List.mem_reverse]
    exact hdrop _ (List.mem_reverse.2 (hdrop _ hc))
  exact List.ne_nil_of_mem hmem

end PyText
