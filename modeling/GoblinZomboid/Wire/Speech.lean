import GoblinZomboid.Agent.Driver
import GoblinZomboid.Lib.Spaced
/-!
# Speech that fits a bubble

The agent cuts what the companion says to 140 bytes, and the server cuts
what it is told to say once more. Both join the words with single spaces
first; the agent then looks for the end of a sentence in what fits.
-/

namespace GoblinZomboid

namespace Speech

open Npc (speechLimit bounded isQuote atBlank lastEnd beforeLastBlank compactSpeech)

/-! ## The server's side -/

/-- The loop over the words of `Body.compactSpeech`: what fits, and the last
sentence that ends in it. -/
def fit : Bytes → Option Bytes → List Bytes → Bytes × Option Bytes
  | before, sentence, [] => (before, sentence)
  | before, sentence, word :: words =>
    let candidate := if before == [] then word else before ++ 32 :: word
    if 137 < candidate.length then (before, sentence)
    else
      fit candidate (if LuaPattern.found "[.!?][\"']?$" word then some candidate else sentence) words

/-- `Body.compactSpeech`. -/
def bodyCompactSpeech (text : Bytes) : Bytes :=
  let text := LuaPattern.trim (LuaPattern.gsub text "%s+" [32])
  if text.length ≤ 140 then text
  else
    let (before, sentence) := fit [] none (LuaPattern.gmatch text "%S+")
    sentence.getD (if before == [] then Bytes.lit "..." else before ++ Bytes.lit "...")

/-- **The server leaves alone** what is spaced and fits. -/
theorem bodyCompactSpeech_spaced {s : Bytes} (h : Spaced Bytes.isSpace 32 s)
    (hlen : s.length ≤ 140) : bodyCompactSpeech s = s := by
  unfold bodyCompactSpeech
  rw [LuaPattern.gsub_spaced h, LuaPattern.trim_spaced h]
  dsimp only
  rw [if_pos hlen]

/-! ## The agent's side -/

/-- `" ".join(text.split())`. -/
def normalized (t : PyText) : PyText := [' '].intercalate (PyText.split t)

/-- The agent leaves alone what is spaced and fits. -/
theorem compactSpeech_spaced {t : PyText} (h : Spaced PyText.isSpace ' ' t)
    (hsize : PyValue.size t ≤ speechLimit) : compactSpeech t = t := by
  unfold compactSpeech
  rw [PyText.join_split h]
  dsimp only
  rw [if_pos hsize]

/-- What fits is a beginning, and takes no more room. -/
theorem bounded_spec (room : ℕ) (t : PyText) :
    bounded room t <+: t ∧ PyValue.size (bounded room t) ≤ room ∧
      (bounded room t ≠ t → room < PyValue.size (bounded room t) + 4) := by
  induction t generalizing room with
  | nil => exact ⟨List.prefix_rfl, Nat.zero_le _, fun h => absurd rfl h⟩
  | cons c t ih =>
    unfold bounded
    by_cases hc : c.utf8Size ≤ room
    · obtain ⟨hbegins, hsize, hcut⟩ := ih (room - c.utf8Size)
      rw [if_pos hc, PyValue.size_cons]
      refine ⟨(List.prefix_cons_inj c).2 hbegins, by omega, fun hne => ?_⟩
      have hleft := hcut fun heq => hne (by rw [heq])
      omega
    · have hle := c.utf8Size_le_four
      rw [if_neg hc]
      refine ⟨List.nil_prefix, Nat.zero_le _, fun _ => ?_⟩
      show room < 0 + 4
      omega

/-- The characters a sentence ends with. -/
def isStop (c : Char) : Bool := c == '.' || c == '!' || c == '?'

/-- The end of a sentence: a stop, and a quote it may be in. -/
def Mark (m : PyText) : Prop :=
  ∃ c, isStop c = true ∧ (m = [c] ∨ ∃ q, isQuote q = true ∧ m = [c, q])

/-- Where a sentence ends that is followed by a blank or the end. -/
theorem lastEnd_spec {position n : ℕ} {t : PyText} (h : lastEnd position t = some n) :
    ∃ before mark rest, t = before ++ mark ++ rest ∧ Mark mark ∧ atBlank rest = true ∧
      n = position + (before ++ mark).length := by
  induction t generalizing position with
  | nil => cases h
  | cons c t ih =>
    unfold lastEnd at h
    cases hrest : lastEnd (position + 1) t with
    | some m =>
      rw [hrest] at h
      obtain rfl := Option.some_inj.1 h
      obtain ⟨before, mark, rest, rfl, hmark, hblank, rfl⟩ := ih hrest
      refine ⟨c :: before, mark, rest, rfl, hmark, hblank, ?_⟩
      simp only [List.cons_append, List.length_cons]
      omega
    | none =>
      rw [hrest] at h
      dsimp only at h
      split at h
      · rename_i hstop
        have hstop' : isStop c = true := hstop
        cases t with
        | nil =>
          obtain rfl := Option.some_inj.1 h
          exact ⟨[], [c], [], rfl, ⟨c, hstop', .inl rfl⟩, rfl, rfl⟩
        | cons q t =>
          dsimp only at h
          split at h
          · rename_i hquote
            rw [Bool.and_eq_true] at hquote
            obtain rfl := Option.some_inj.1 h
            exact ⟨[], [c, q], t, rfl, ⟨c, hstop', .inr ⟨q, hquote.1, rfl⟩⟩, hquote.2, rfl⟩
          · split at h
            · rename_i hblank
              obtain rfl := Option.some_inj.1 h
              exact ⟨[], [c], q :: t, rfl, ⟨c, hstop', .inl rfl⟩, hblank, rfl⟩
            · cases h
      · cases h

/-- A sentence that ends at the end is the last. -/
theorem lastEnd_mark {mark : PyText} (hmark : Mark mark) (before : PyText) (position : ℕ) :
    lastEnd position (before ++ mark) = some (position + (before ++ mark).length) := by
  induction before generalizing position with
  | nil =>
    obtain ⟨c, hstop, rfl | ⟨q, hquote, rfl⟩⟩ := hmark
    · have hstop' : (c == '.' || c == '!' || c == '?') = true := hstop
      simp [lastEnd, hstop']
    · have hstop' : (c == '.' || c == '!' || c == '?') = true := hstop
      have hno : (q == '.' || q == '!' || q == '?') = false := by
        unfold isQuote at hquote
        simp only [Bool.or_eq_true, beq_iff_eq] at hquote
        rcases hquote with ((rfl | rfl) | rfl) | rfl <;> decide
      simp [lastEnd, hstop', hno, hquote, atBlank]
  | cons c before ih =>
    rw [List.cons_append]
    unfold lastEnd
    rw [ih]
    simp only [List.length_cons]
    congr 1
    omega

/-- A mark does not end with a blank. -/
theorem mark_last {mark : PyText} (hmark : Mark mark) (before : PyText) :
    ∀ c, (before ++ mark).getLast? = some c → PyText.isSpace c = false := by
  obtain ⟨c, hstop, rfl | ⟨q, hquote, rfl⟩⟩ := hmark
  · intro d hd
    rw [List.getLast?_concat] at hd
    obtain rfl := Option.some_inj.1 hd
    unfold isStop at hstop
    simp only [Bool.or_eq_true, beq_iff_eq] at hstop
    rcases hstop with (rfl | rfl) | rfl <;> decide
  · intro d hd
    rw [List.append_cons, List.getLast?_concat] at hd
    obtain rfl := Option.some_inj.1 hd
    unfold isQuote at hquote
    simp only [Bool.or_eq_true, beq_iff_eq] at hquote
    rcases hquote with ((rfl | rfl) | rfl) | rfl <;> decide

/-- The pauses that are cut off before an ellipsis. -/
def isPause (c : Char) : Bool := c == ',' || c == ';' || c == ':' || c == '-'

/-- What is cut off at the end is of the class. -/
theorem rstripWhere_spec (p : Char → Bool) (t : PyText) :
    ∃ cut, t = PyText.rstripWhere p t ++ cut ∧ ∀ c ∈ cut, p c = true := by
  refine ⟨(t.reverse.takeWhile p).reverse, ?_, fun c hc => ?_⟩
  · unfold PyText.rstripWhere
    rw [← List.reverse_append, List.takeWhile_append_dropWhile, List.reverse_reverse]
  · exact List.mem_takeWhile_imp (List.mem_reverse.1 hc)

/-- What comes before the last blank. -/
theorem beforeLastBlank_spec (t : PyText) :
    beforeLastBlank t = [] ∨ ∃ word, t = beforeLastBlank t ++ ' ' :: word := by
  unfold beforeLastBlank
  cases hdrop : t.reverse.dropWhile (· != ' ') with
  | nil => exact .inl rfl
  | cons c rest =>
    right
    have hc : c = ' ' := by
      have hhead := List.head?_dropWhile_not (· != ' ') t.reverse
      rw [hdrop] at hhead
      simpa using hhead
    refine ⟨(t.reverse.takeWhile (· != ' ')).reverse, ?_⟩
    have hwhole := List.takeWhile_append_dropWhile (p := (· != ' ')) (l := t.reverse)
    rw [hdrop, hc] at hwhole
    conv_lhs => rw [← List.reverse_reverse t, ← hwhole]
    simp

/-! ## What compaction keeps -/

/-- A cut that is not inside a word: at the start of the text, or before a
blank or the end, pauses apart. -/
def AtWord (text : PyText) (n : ℕ) : Prop :=
  n = 0 ∨ atBlank ((text.drop n).dropWhile isPause) = true

/-- What compacted speech is to be: short, a beginning of the text with
single spaces and maybe an ellipsis, not cut inside a word, and left alone by
the agent and by the server. -/
structure Compacted (t out : PyText) : Prop where
  size : (Utf8.encode out).length ≤ 140
  cut : ∃ n, (out = (normalized t).take n ∨ out = (normalized t).take n ++ PyText.lit "...") ∧
    AtWord (normalized t) n
  again : compactSpeech out = out
  server : bodyCompactSpeech (Utf8.encode out) = Utf8.encode out

/-- What fits ends like a sentence, and the word goes on. -/
def Splits (t : PyText) : Prop :=
  speechLimit < PyValue.size (normalized t) ∧
    (∃ before mark, bounded speechLimit (normalized t) = before ++ mark ∧ Mark mark) ∧
    atBlank (((normalized t).drop (bounded speechLimit (normalized t)).length).dropWhile isPause) =
      false

/-- Spaced speech that fits is left alone by both. -/
theorem compacted_of_spaced {t out : PyText} (h : Spaced PyText.isSpace ' ' out)
    (hsize : PyValue.size out ≤ speechLimit)
    (hcut : ∃ n, (out = (normalized t).take n ∨ out = (normalized t).take n ++ PyText.lit "...") ∧
      AtWord (normalized t) n) : Compacted t out where
  size := hsize
  cut := hcut
  again := compactSpeech_spaced h hsize
  server := bodyCompactSpeech_spaced (Utf8.spaced_encode h) hsize

/-- Nothing is cut from speech that fits. -/
theorem compactSpeech_short {t : PyText} (h : PyValue.size (normalized t) ≤ speechLimit) :
    compactSpeech t = normalized t := if_pos h

/-- Speech that does not fit is cut at the last sentence that ends in what
does. -/
theorem compactSpeech_sentence {t : PyText} {n : ℕ} (h : speechLimit < PyValue.size (normalized t))
    (hend : lastEnd 0 (bounded speechLimit (normalized t)) = some n) :
    compactSpeech t = (normalized t).take n := by
  have hlong : ¬PyValue.size ([' '].intercalate (PyText.split t)) ≤ speechLimit := Nat.not_le.2 h
  have hend' : lastEnd 0 (bounded speechLimit ([' '].intercalate (PyText.split t))) = some n := hend
  unfold compactSpeech
  dsimp only
  rw [if_neg hlong, hend']
  rfl

/-- Where no sentence ends, it is cut before the last word that is begun. -/
theorem compactSpeech_ellipsis {t : PyText} (h : speechLimit < PyValue.size (normalized t))
    (hend : lastEnd 0 (bounded speechLimit (normalized t)) = none) :
    compactSpeech t =
      PyText.rstripWhere isPause (beforeLastBlank (bounded (speechLimit - 3) (normalized t))) ++
        PyText.lit "..." := by
  have hlong : ¬PyValue.size ([' '].intercalate (PyText.split t)) ≤ speechLimit := Nat.not_le.2 h
  have hend' : lastEnd 0 (bounded speechLimit ([' '].intercalate (PyText.split t))) = none := hend
  unfold compactSpeech
  dsimp only
  rw [if_neg hlong, hend']
  rfl

/-- A blank is no pause. -/
theorem isPause_of_isSpace {c : Char} (h : PyText.isSpace c = true) : isPause c = false := by
  rw [Bool.eq_false_iff]
  intro hpause
  unfold isPause at hpause
  simp only [Bool.or_eq_true, beq_iff_eq] at hpause
  rcases hpause with ((rfl | rfl) | rfl) | rfl <;> revert h <;> decide

/-- Pauses before a blank. -/
theorem atBlank_pauses {cut rest : PyText} (hcut : ∀ c ∈ cut, isPause c = true) {c : Char}
    (hc : PyText.isSpace c = true) : atBlank ((cut ++ c :: rest).dropWhile isPause) = true := by
  rw [List.dropWhile_append_of_pos hcut, List.dropWhile_cons_of_neg]
  · exact hc
  · rw [isPause_of_isSpace hc]
    simp

/-- The ellipsis comes after a word. -/
theorem compacted_ellipsis {t : PyText} (h : speechLimit < PyValue.size (normalized t))
    (hend : lastEnd 0 (bounded speechLimit (normalized t)) = none) :
    Compacted t (compactSpeech t) := by
  have hspaced : Spaced PyText.isSpace ' ' (normalized t) := PyText.spaced_join_split t
  have hdots : Spaced PyText.isSpace ' ' (PyText.lit "...") :=
    Spaced.word fun c hc => by
      rw [@List.eq_of_mem_replicate _ '.' c 3 hc]
      decide
  obtain ⟨⟨more, hmore⟩, hsize, -⟩ := bounded_spec (speechLimit - 3) (normalized t)
  rw [compactSpeech_ellipsis h hend]
  generalize hP : bounded (speechLimit - 3) (normalized t) = fits at hmore hsize ⊢
  rcases beforeLastBlank_spec fits with hnone | ⟨word, hword⟩
  · rw [hnone]
    refine compacted_of_spaced hdots (by decide) ⟨0, .inr rfl, .inl rfl⟩
  · obtain ⟨cut, hstrip, hcut⟩ := rstripWhere_spec isPause (beforeLastBlank fits)
    generalize PyText.rstripWhere isPause (beforeLastBlank fits) = kept at hstrip ⊢
    have htext : normalized t = kept ++ (cut ++ ' ' :: (word ++ more)) := by
      rw [← hmore, hword, hstrip]
      simp
    refine compacted_of_spaced ?_ ?_ ⟨kept.length, .inr ?_, .inr ?_⟩
    · rw [htext] at hspaced
      exact hspaced.append hdots (by decide)
    · rw [hword, hstrip, PyValue.size_append, PyValue.size_append] at hsize
      have hthree : PyValue.size (PyText.lit "...") = 3 := by decide
      rw [PyValue.size_append, hthree]
      unfold speechLimit at hsize ⊢
      omega
    · rw [htext, List.take_left']
      rfl
    · rw [htext, List.drop_left']
      · exact atBlank_pauses hcut rfl
      · rfl

theorem size_le (t : PyText) : PyValue.size t ≤ 4 * t.length := by
  induction t with
  | nil => exact Nat.le_refl 0
  | cons c t ih =>
    have hle := c.utf8Size_le_four
    rw [PyValue.size_cons, List.length_cons]
    omega

/-- **A sentence that fits** is kept whole, and cut inside a word when the
word goes on beyond what fits. -/
theorem compacted_sentence_iff {t : PyText} {n : ℕ} (h : speechLimit < PyValue.size (normalized t))
    (hend : lastEnd 0 (bounded speechLimit (normalized t)) = some n) :
    Compacted t (compactSpeech t) ↔ ¬Splits t := by
  have hspaced : Spaced PyText.isSpace ' ' (normalized t) := PyText.spaced_join_split t
  obtain ⟨⟨more, hmore⟩, hsize, hfull⟩ := bounded_spec speechLimit (normalized t)
  have hne : bounded speechLimit (normalized t) ≠ normalized t := by
    intro heq
    rw [heq] at hsize
    omega
  obtain ⟨before, mark, rest, hfits, hmark, hblank, hn⟩ := lastEnd_spec hend
  rw [Nat.zero_add] at hn
  have htext : normalized t = (before ++ mark) ++ (rest ++ more) := by
    rw [← hmore, hfits, List.append_assoc]
  have htake : (normalized t).take n = before ++ mark := by
    rw [htext, List.take_left' hn.symm]
  have hdrop : (normalized t).drop n = rest ++ more := by
    rw [htext, List.drop_left' hn.symm]
  have hout : Spaced PyText.isSpace ' ' (before ++ mark) := by
    rw [htext] at hspaced
    exact hspaced.of_append (mark_last hmark before)
  have hfew : PyValue.size (before ++ mark) ≤ speechLimit := by
    rw [hfits, PyValue.size_append] at hsize
    omega
  rw [compactSpeech_sentence h hend, htake]
  cases rest with
  | cons c rest =>
    -- The sentence is followed by a blank that fits.
    refine iff_of_true (compacted_of_spaced hout hfew ⟨n, .inl htake.symm, .inr ?_⟩) ?_
    · rw [hdrop]
      exact @atBlank_pauses [] _ nofun _ hblank
    · rintro ⟨-, ⟨before', mark', hfits', hmark'⟩, -⟩
      have hlast := lastEnd_mark hmark' before' 0
      rw [← hfits', hend, Option.some_inj, hfits, hn] at hlast
      simp at hlast
  | nil =>
    rw [List.append_nil] at hfits
    have hlen : (bounded speechLimit (normalized t)).length = n := by rw [hfits, hn]
    have hsplits : Splits t ↔ atBlank (((normalized t).drop n).dropWhile isPause) = false := by
      unfold Splits
      rw [hlen]
      exact ⟨fun hs => hs.2.2, fun hs => ⟨h, ⟨before, mark, hfits, hmark⟩, hs⟩⟩
    rw [hsplits, Bool.not_eq_false]
    constructor
    · rintro ⟨-, ⟨m, hcut, hword⟩, -, -⟩
      have hlong : 3 < n := by
        have hmany := size_le (bounded speechLimit (normalized t))
        have hroom := hfull hne
        rw [hlen] at hmany
        unfold speechLimit at hmany hroom
        omega
      have hmore' : n < (normalized t).length := by
        rcases Nat.lt_or_ge n (normalized t).length with hlt | hge
        · exact hlt
        · refine absurd ?_ hne
          rw [hfits, ← htake, List.take_of_length_le hge]
      rcases hcut with hcut | hcut
      · have hm := congrArg List.length hcut
        rw [← hn, List.length_take] at hm
        obtain rfl : m = n := by omega
        rcases hword with rfl | hword
        · omega
        · exact hword
      · -- The ellipsis would be the text's own, and no word ends before it.
        have hm := congrArg List.length hcut
        have hthree : (PyText.lit "...").length = 3 := rfl
        rw [← hn, List.length_append, List.length_take, hthree] at hm
        have hdots : (normalized t).drop m = PyText.lit "..." ++ more := by
          have htext' : normalized t = (normalized t).take m ++ (PyText.lit "..." ++ more) := by
            rw [← List.append_assoc, ← hcut]
            exact htext
          conv_lhs => rw [htext']
          exact List.drop_left' (by rw [List.length_take]; omega)
        rcases hword with rfl | hword
        · omega
        · rw [hdots] at hword
          cases hword
    · intro hword
      exact compacted_of_spaced hout hfew ⟨n, .inl htake.symm, .inr hword⟩

/-- **Compacted speech, exactly when** what fits does not end like a sentence
within a word. -/
theorem compact_speech_iff (t : PyText) : Compacted t (compactSpeech t) ↔ ¬Splits t := by
  have hspaced : Spaced PyText.isSpace ' ' (normalized t) := PyText.spaced_join_split t
  rcases Nat.lt_or_ge speechLimit (PyValue.size (normalized t)) with hlong | hshort
  · cases hend : lastEnd 0 (bounded speechLimit (normalized t)) with
    | some n => exact compacted_sentence_iff hlong hend
    | none =>
      refine iff_of_true (compacted_ellipsis hlong hend) ?_
      rintro ⟨-, ⟨before, mark, hfits, hmark⟩, -⟩
      rw [hfits, lastEnd_mark hmark] at hend
      cases hend
  · rw [compactSpeech_short hshort]
    refine iff_of_true (compacted_of_spaced hspaced hshort
      ⟨(normalized t).length, .inl (List.take_length).symm, .inr ?_⟩) ?_
    · rw [List.drop_length]
      rfl
    · rintro ⟨hlong, -⟩
      omega

/-- A name with a point in it, which what fits ends after. -/
def dotted : PyText := List.replicate 139 'a' ++ PyText.lit ".b"

/-- **A name is cut at its point.** -/
theorem dotted_not_compacted : ¬Compacted dotted (compactSpeech dotted) := by
  have hlong : speechLimit < PyValue.size (normalized dotted) := by decide +kernel
  have hend : lastEnd 0 (bounded speechLimit (normalized dotted)) = some 140 := by decide +kernel
  rw [compacted_sentence_iff hlong hend, not_not]
  refine ⟨hlong, ⟨List.replicate 139 'a', ['.'], ?_, '.', rfl, .inl rfl⟩, ?_⟩
  · decide +kernel
  · decide +kernel

end Speech

end GoblinZomboid
