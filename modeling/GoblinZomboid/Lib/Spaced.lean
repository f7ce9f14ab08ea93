import GoblinZomboid.Lib.PyText
import GoblinZomboid.Lib.Utf8
import GoblinZomboid.Lib.LuaPattern
import Mathlib.Data.List.Chain
/-!
# Text with single spaces

Words with one space between them and none around them. Splitting such a
text at its blanks and joining it again changes nothing, nor does replacing
its runs of blanks by a space, nor trimming it; and its bytes are of the same
kind.
-/

/-- Blanks are the one space, stand alone, and stand at neither end. -/
structure Spaced {α : Type*} (isBlank : α → Bool) (space : α) (t : List α) : Prop where
  blank : ∀ c ∈ t, isBlank c = true → c = space
  single : t.IsChain fun a b => ¬(isBlank a = true ∧ isBlank b = true)
  head : ∀ c, t.head? = some c → isBlank c = false
  last : ∀ c, t.getLast? = some c → isBlank c = false

namespace Spaced

variable {α : Type*} {isBlank : α → Bool} {space : α} {s t : List α}

theorem nil : Spaced isBlank space [] := ⟨nofun, .nil, nofun, nofun⟩

/-- A word is spaced. -/
theorem word (h : ∀ c ∈ t, isBlank c = false) : Spaced isBlank space t where
  blank c hc hblank := by
    rw [h c hc] at hblank
    cases hblank
  single := by
    refine List.Pairwise.isChain (List.pairwise_of_forall_mem_list ?_)
    rintro a ha b - ⟨hblank, -⟩
    rw [h a ha] at hblank
    cases hblank
  head c hc := h c (List.mem_of_mem_head? hc)
  last c hc := h c (List.mem_of_mem_getLast? hc)

/-- A beginning that does not end with a blank. -/
theorem of_append (h : Spaced isBlank space (s ++ t))
    (hlast : ∀ c, s.getLast? = some c → isBlank c = false) : Spaced isBlank space s where
  blank c hc := h.blank c (List.mem_append_left t hc)
  single := (List.isChain_append.1 h.single).1
  head c hc := by
    refine h.head c ?_
    rw [List.head?_append, hc]
    rfl
  last := hlast

/-- A beginning, with something after it that has no blank at its ends. -/
theorem append {u : List α} (h : Spaced isBlank space (s ++ t)) (hu : Spaced isBlank space u)
    (hne : u ≠ []) : Spaced isBlank space (s ++ u) where
  blank c hc := by
    rcases List.mem_append.1 hc with hc | hc
    · exact h.blank c (List.mem_append_left t hc)
    · exact hu.blank c hc
  single := by
    refine List.isChain_append.2 ⟨(List.isChain_append.1 h.single).1, hu.single, ?_⟩
    rintro a - b hb ⟨-, hblank⟩
    rw [hu.head b hb] at hblank
    cases hblank
  head c hc := by
    cases s with
    | nil => exact hu.head c hc
    | cons a s => exact h.head c hc
  last c hc := by
    rw [List.getLast?_append_of_ne_nil _ hne] at hc
    exact hu.last c hc

/-- Two spaced texts with a space between them. -/
theorem join (hs : Spaced isBlank space s) (ht : Spaced isBlank space t) (hsne : s ≠ [])
    (htne : t ≠ []) : Spaced isBlank space (s ++ space :: t) where
  blank c hc := by
    rcases List.mem_append.1 hc with hc | hc
    · exact hs.blank c hc
    · rcases List.mem_cons.1 hc with rfl | hc
      · exact fun _ => rfl
      · exact ht.blank c hc
  single := by
    refine List.isChain_append.2 ⟨hs.single, ?_, ?_⟩
    · refine List.isChain_cons.2 ⟨?_, ht.single⟩
      rintro b hb ⟨-, hblank⟩
      rw [ht.head b hb] at hblank
      cases hblank
    · rintro a ha b - ⟨hblank, -⟩
      rw [hs.last a ha] at hblank
      cases hblank
  head c hc := by
    rw [List.head?_append_of_ne_nil _ hsne] at hc
    exact hs.head c hc
  last c hc := by
    rw [List.getLast?_append_of_ne_nil _ (List.cons_ne_nil _ _),
      List.getLast?_cons_of_ne_nil htne] at hc
    exact ht.last c hc

theorem intercalate_ne_nil {w : List α} {words : List (List α)} (hne : w ≠ []) :
    [space].intercalate (w :: words) ≠ [] := by
  cases words with
  | nil =>
    rw [List.intercalate_singleton]
    exact hne
  | cons w' words =>
    rw [List.intercalate_cons_cons]
    simp

/-- Words with a space between each two. -/
theorem intercalate {words : List (List α)}
    (h : ∀ w ∈ words, w ≠ [] ∧ ∀ c ∈ w, isBlank c = false) :
    Spaced isBlank space ([space].intercalate words) := by
  induction words with
  | nil => exact nil
  | cons w words ih =>
    obtain ⟨⟨hne, hword⟩, hrest⟩ := List.forall_mem_cons.1 h
    cases words with
    | nil =>
      rw [List.intercalate_singleton]
      exact word hword
    | cons w' words =>
      rw [List.intercalate_cons_cons, List.append_assoc]
      exact join (word hword) (ih hrest) hne (intercalate_ne_nil (hrest w' List.mem_cons_self).1)

end Spaced

/-! ## Splitting and joining -/

namespace PyText

/-- The parts `split` makes are words. -/
theorem mem_splitFrom {word t : PyText} (hword : ∀ c ∈ word, isSpace c = false) :
    ∀ w ∈ splitFrom word t, w ≠ [] ∧ ∀ c ∈ w, isSpace c = false := by
  induction t generalizing word with
  | nil =>
    intro w hw
    unfold splitFrom at hw
    split at hw
    · cases hw
    · rename_i hne
      obtain rfl := List.mem_singleton.1 hw
      exact ⟨fun h => hne (by rw [h]; rfl), hword⟩
  | cons c t ih =>
    intro w hw
    unfold splitFrom at hw
    split at hw
    · split at hw
      · exact ih (fun _ hc => absurd hc List.not_mem_nil) w hw
      · rename_i hne
        rcases List.mem_cons.1 hw with rfl | hw
        · exact ⟨fun h => hne (by rw [h]; rfl), hword⟩
        · exact ih (fun _ hc => absurd hc List.not_mem_nil) w hw
    · rename_i hc
      refine ih ?_ w hw
      intro d hd
      rcases List.mem_append.1 hd with hd | hd
      · exact hword d hd
      · rw [List.mem_singleton.1 hd]
        exact Bool.eq_false_iff.2 hc

/-- `" ".join(text.split())` is spaced. -/
theorem spaced_join_split (t : PyText) : Spaced isSpace ' ' ([' '].intercalate (split t)) :=
  Spaced.intercalate (mem_splitFrom fun _ hc => absurd hc List.not_mem_nil)

/-- **Splitting and joining a spaced text** changes nothing. -/
theorem join_splitFrom {word t : PyText}
    (hblank : ∀ c ∈ t, isSpace c = true → c = ' ')
    (hsingle : t.IsChain fun a b => ¬(isSpace a = true ∧ isSpace b = true))
    (hlast : ∀ c, t.getLast? = some c → isSpace c = false)
    (hhead : word = [] → ∀ c, t.head? = some c → isSpace c = false) :
    [' '].intercalate (splitFrom word t) = word ++ t := by
  induction t generalizing word with
  | nil =>
    unfold splitFrom
    cases word with
    | nil => rfl
    | cons c word =>
      rw [if_neg (by simp), List.intercalate_singleton, List.append_nil]
  | cons c t ih =>
    have hblank' := fun d hd => hblank d (List.mem_cons_of_mem c hd)
    have hsingle' := (List.isChain_cons.1 hsingle).2
    have hlast' : ∀ d, t.getLast? = some d → isSpace d = false := by
      intro d hd
      refine hlast d ?_
      cases t with
      | nil => cases hd
      | cons e t => rw [List.getLast?_cons_cons, hd]
    unfold splitFrom
    by_cases hc : isSpace c = true
    · -- A space lies between two words.
      have hword : word ≠ [] := by
        intro hnil
        rw [hhead hnil c rfl] at hc
        cases hc
      have hnext : ∀ d, t.head? = some d → isSpace d = false := by
        intro d hd
        rw [Bool.eq_false_iff]
        intro hd'
        exact (List.isChain_cons.1 hsingle).1 d hd ⟨hc, hd'⟩
      have hrest := @ih [] hblank' hsingle' hlast' fun _ => hnext
      have hne : t ≠ [] := by
        rintro rfl
        rw [hlast c rfl] at hc
        cases hc
      rw [if_pos hc, if_neg (by simpa using hword), hblank c List.mem_cons_self hc]
      cases hsplit : splitFrom [] t with
      | nil =>
        rw [hsplit] at hrest
        exact absurd hrest.symm hne
      | cons w words =>
        rw [hsplit] at hrest
        rw [List.intercalate_cons_cons, hrest]
        simp
    · rw [if_neg hc, ih hblank' hsingle' hlast' (by simp)]
      simp

theorem join_split {t : PyText} (h : Spaced isSpace ' ' t) : [' '].intercalate (split t) = t :=
  join_splitFrom h.blank h.single h.last fun _ => h.head

end PyText

/-! ## Bytes -/

namespace Utf8

/-- A blank among the bytes of a character is the character. -/
theorem isSpace_of_mem {c : Char} {b : UInt8} (hb : b ∈ String.utf8EncodeChar c)
    (hblank : Bytes.isSpace b = true) :
    PyText.isSpace c = true ∧ String.utf8EncodeChar c = [b] ∧ (c = ' ' → b = 32) := by
  have hascii : b < 128 := by
    revert hblank
    exact Bytes.forall_byte (p := fun b => Bytes.isSpace b = true → b < 128) (by decide +kernel) b
  have hchar : char b = c := eq_char_of_mem_utf8EncodeChar hb hascii
  rw [← hchar]
  refine ⟨?_, utf8EncodeChar_char hascii, ?_⟩
  · revert hblank
    exact Bytes.forall_byte
      (p := fun b => Bytes.isSpace b = true → PyText.isSpace (char b) = true) (by decide +kernel) b
  · exact Bytes.forall_byte (p := fun b => char b = ' ' → b = 32) (by decide +kernel) b

theorem utf8EncodeChar_ne_nil (c : Char) : String.utf8EncodeChar c ≠ [] := by
  intro hnil
  have hlen := String.length_utf8EncodeChar c
  have hpos := c.utf8Size_pos
  rw [hnil, List.length_nil] at hlen
  omega

/-- The bytes of single blanks are single. -/
theorem isChain_encode {t : PyText}
    (h : t.IsChain fun a b => ¬(PyText.isSpace a = true ∧ PyText.isSpace b = true)) :
    (encode t).IsChain fun a b => ¬(Bytes.isSpace a = true ∧ Bytes.isSpace b = true) := by
  induction t with
  | nil => exact .nil
  | cons c t ih =>
    obtain ⟨hnext, hrest⟩ := List.isChain_cons.1 h
    rw [encode_cons]
    refine List.isChain_append.2 ⟨?_, ih hrest, ?_⟩
    · by_cases hblank : ∃ b ∈ String.utf8EncodeChar c, Bytes.isSpace b = true
      · obtain ⟨b, hb, hblank⟩ := hblank
        rw [(isSpace_of_mem hb hblank).2.1]
        exact .singleton b
      · refine List.Pairwise.isChain (List.pairwise_of_forall_mem_list ?_)
        rintro a ha b - ⟨ha', -⟩
        exact hblank ⟨a, ha, ha'⟩
    · rintro a ha b hb ⟨ha', hb'⟩
      cases t with
      | nil => cases hb
      | cons d t =>
        rw [encode_cons, List.head?_append_of_ne_nil _ (utf8EncodeChar_ne_nil d)] at hb
        exact hnext d rfl ⟨(isSpace_of_mem (List.mem_of_mem_getLast? ha) ha').1,
          (isSpace_of_mem (List.mem_of_mem_head? hb) hb').1⟩

/-- **The bytes of a spaced text** are spaced. -/
theorem spaced_encode {t : PyText} (h : Spaced PyText.isSpace ' ' t) :
    Spaced Bytes.isSpace 32 (encode t) where
  blank b hb hblank := by
    obtain ⟨c, hc, hbc⟩ := List.mem_flatMap.1 hb
    obtain ⟨hspace, -, heq⟩ := isSpace_of_mem hbc hblank
    exact heq (h.blank c hc hspace)
  single := isChain_encode h.single
  head b hb := by
    cases t with
    | nil => cases hb
    | cons c t =>
      rw [encode_cons, List.head?_append_of_ne_nil _ (utf8EncodeChar_ne_nil c)] at hb
      rw [Bool.eq_false_iff]
      intro hblank
      have hspace := (isSpace_of_mem (List.mem_of_mem_head? hb) hblank).1
      rw [h.head c rfl] at hspace
      cases hspace
  last b hb := by
    rcases List.eq_nil_or_concat t with rfl | ⟨t, c, rfl⟩
    · cases hb
    · rw [List.concat_eq_append] at h hb
      have hone : encode [c] = String.utf8EncodeChar c := by simp
      rw [encode_append, hone, List.getLast?_append_of_ne_nil _ (utf8EncodeChar_ne_nil c)] at hb
      rw [Bool.eq_false_iff]
      intro hblank
      have hspace := (isSpace_of_mem (List.mem_of_mem_getLast? hb) hblank).1
      rw [h.last c List.getLast?_concat] at hspace
      cases hspace

end Utf8

/-! ## Patterns -/

namespace LuaPattern

/-- Replacing the runs of blanks, from a position on. -/
theorem gsubFrom_spaced {p : ByteClass} {space : UInt8} {n : ℕ} {prev : UInt8}
    {s : Bytes} (hlen : s.length < n) (hblank : ∀ b ∈ s, p b = true → b = space)
    (hsingle : s.IsChain fun a b => ¬(p a = true ∧ p b = true)) :
    gsubFrom [.plus p] [space] n (prev, s) = s := by
  induction n generalizing prev s with
  | zero => omega
  | succ n ih =>
    cases s with
    | nil => rfl
    | cons b s =>
      obtain ⟨hnext, hrest⟩ := List.isChain_cons.1 hsingle
      have hstill := @ih b s (by simpa using hlen)
        (fun d hd => hblank d (List.mem_cons_of_mem b hd)) hrest
      by_cases hb : p b = true
      · -- The run is this blank alone.
        have hmatch : matchAt [.plus p] (prev, b :: s) = some ⟨(prev, b :: s), (b, s), []⟩ := by
          have hone : runs p b s = [(b, s)] := by
            cases s with
            | nil => rfl
            | cons d s =>
              have hd : ¬p d = true := fun hd => hnext d rfl ⟨hb, hd⟩
              rw [runs, if_neg hd]
          rw [matchAt, matchItems, runs, if_pos hb, hone]
          rfl
        rw [gsubFrom, hmatch]
        dsimp only
        rw [if_pos (by simp), hstill, hblank b List.mem_cons_self hb, List.singleton_append]
      · have hmatch : matchAt [.plus p] (prev, b :: s) = none := by
          rw [matchAt, matchItems, runs, if_neg hb]
          rfl
        rw [gsubFrom, hmatch]
        dsimp only
        rw [hstill]

/-- **Replacing the runs of blanks by a space** changes nothing. -/
theorem gsub_spaced {s : Bytes} (h : Spaced Bytes.isSpace 32 s) : gsub s "%s+" [32] = s := by
  have hread : read "%s+" = ⟨false, [.plus Bytes.isSpace]⟩ := rfl
  unfold gsub
  rw [hread]
  exact gsubFrom_spaced (Nat.lt_succ_self _) h.blank h.single

/-- A text with something else than blanks at its end is no run of blanks. -/
theorem matchItems_star_end {p : ByteClass} {prev : UInt8} {s : Bytes} {captures : Captures}
    (hne : s ≠ []) (hlast : ∀ b, s.getLast? = some b → p b = false) :
    matchItems [.star p, .atEnd] (prev, s) captures = none := by
  unfold matchItems
  rw [List.findSome?_eq_none_iff]
  rintro ⟨last, rest⟩ hpos
  obtain ⟨t, rfl, ht⟩ := runs_spec (List.mem_reverse.1 hpos)
  cases rest with
  | nil =>
    rw [List.append_nil] at hne hlast
    have hmem := List.getLast_mem hne
    have hblank := hlast _ (List.getLast?_eq_some_getLast hne)
    rw [ht _ hmem] at hblank
    cases hblank
  | cons b rest => rfl

/-- A lazy run that what follows lets end at the end alone. -/
theorem findSome?_runs_end {β : Type*} {f : Pos → Option β} {prev : UInt8} {s : Bytes}
    (h : ∀ pos : Pos, pos.2 ≠ [] → pos.2 <:+ s → f pos = none) :
    ∃ last, (runs (fun _ => true) prev s).findSome? f = f (last, []) := by
  induction s generalizing prev with
  | nil =>
    refine ⟨prev, ?_⟩
    rw [runs, List.findSome?_singleton]
  | cons b s ih =>
    obtain ⟨last, hlast⟩ := @ih b fun pos hne hsuffix =>
      h pos hne (hsuffix.trans (List.suffix_cons b s))
    refine ⟨last, ?_⟩
    rw [runs, if_pos rfl, List.findSome?_cons, h (prev, b :: s) (List.cons_ne_nil b s)
      (List.suffix_refl _), ← hlast]

/-- **Trimming** changes nothing. -/
theorem trim_spaced {s : Bytes} (h : Spaced Bytes.isSpace 32 s) : trim s = s := by
  have hread : read "^%s*(.-)%s*$" = ⟨true, [.star Bytes.isSpace, .openCapture,
    .lazy fun _ => true, .closeCapture, .star Bytes.isSpace, .atEnd]⟩ := rfl
  unfold trim search
  rw [hread]
  dsimp only
  rw [if_pos rfl, matchAt, matchItems]
  have hfirst : runs Bytes.isSpace 0 s = [(0, s)] := by
    cases s with
    | nil => rfl
    | cons b s => rw [runs, h.head b rfl, if_neg (by simp)]
  have hend : ∃ last, (runs (fun _ => true) 0 s).findSome? (fun pos =>
      matchItems [.closeCapture, .star Bytes.isSpace, .atEnd] pos [(s, none)]) =
        some ((last, []), [(s, some s)]) := by
    obtain ⟨last, hlast⟩ := @findSome?_runs_end _ (fun pos =>
      matchItems [.closeCapture, .star Bytes.isSpace, .atEnd] pos [(s, none)]) 0 s (by
        rintro ⟨prev, rest⟩ hne ⟨t, rfl⟩
        refine matchItems_star_end hne fun b hb => h.last b ?_
        rw [List.getLast?_append_of_ne_nil _ hne, hb])
    refine ⟨last, hlast.trans ?_⟩
    show some ((last, []), close [] [(s, none)]) = _
    unfold close close.go
    simp
  obtain ⟨last, hlast⟩ := hend
  rw [hfirst, List.reverse_singleton, List.findSome?_singleton]
  show ((((((runs (fun _ => true) 0 s).findSome? fun pos =>
      matchItems [.closeCapture, .star Bytes.isSpace, .atEnd] pos [(s, none)]).map _).bind _).bind
        _).getD []) = s
  rw [hlast]
  rfl

end LuaPattern
