import GoblinZomboid.Agent.Chatter
import GoblinZomboid.Lib.WholeWords
/-!
# `reflex.py`: small talk

A line that could be an order goes past the router. To small talk it replies
from a bank, and never the same twice in a row.
-/

namespace GoblinZomboid

namespace Reflex

open PyRegex
open PyText (lit)

/-! ## Orders -/

/-- `_ACTION_WORDS`. -/
def actionWords : List String :=
  ["follow", "wait", "stay", "hold", "stop", "come", "go", "move", "run", "walk", "return", "loot",
    "search", "find", "grab", "get", "give", "take", "bring", "fetch", "carry", "drop", "deliver",
    "put", "stash", "store", "sort", "tidy", "unload", "build", "craft", "make", "saw", "repair",
    "fix", "maintain", "board", "secure", "open", "close", "shut", "lock", "unlock", "breach",
    "access", "enter", "exit", "drive", "start", "refuel", "fuel", "fill", "tire", "tyre",
    "battery", "install", "remove", "replace", "swap", "change", "inspect", "check", "service",
    "attack", "kill", "fight", "shoot", "defend", "guard", "patrol", "protect", "help", "clear",
    "equip", "farm", "plant", "sow", "water", "harvest", "plow", "plough", "cook", "heal",
    "bandage", "treat", "chop", "fish", "trap", "forage", "set", "base", "home", "remember",
    "cancel", "goal", "sleep", "rest", "curtain", "window", "door", "car", "vehicle", "truck",
    "zombie", "zed", "zeds", "hunt", "gather", "collect"]

/-- `_ACTION_STEMS`. -/
def actionStems : List String :=
  ["scaveng", "barricad", "fortif", "organi", "dismantl", "reload", "retreat", "evacuat", "escort",
    "salvag", "construct", "demolish"]

/-- The endings of a word. -/
def suffixes : List String :=
  ["s", "es", "ed", "d", "ing", "ning", "ting", "ping", "ped", "ted", "ly"]

/-- `_ACTION_RE`. -/
def actionRe (u : Unicode) : Rx :=
  .alt (wholeWord (actionWords.map lit) (suffixes.map lit)) (wordFrom u (actionStems.map lit))

/-- `_ACTION_TYPOS`: action words with a letter dropped. -/
def actionTypos : List PyText :=
  ((actionWords.map lit).filter fun word => 4 ≤ word.length).flatMap fun word =>
    (List.range word.length).map word.eraseIdx

/-- `_action_match`. -/
def actionMatch (u : Unicode) (normalized : PyText) : Bool :=
  search u (actionRe u) normalized ||
    (PyText.split normalized).any fun token => 3 ≤ token.length && List.elem token actionTypos

/-- `re.sub(r"\bw\b", " ", t)`, after so many characters of a match. -/
def subWord (u : Unicode) (w : PyText) : ℕ → Option Char → PyText → PyText
  | _, _, [] => []
  | skip + 1, _, c :: t => subWord u w skip (some c) t
  | 0, prev, c :: t =>
    if (ends u (wholeWord [w] []) (prev, c :: t)).isEmpty then c :: subWord u w 0 (some c) t
    else ' ' :: subWord u w (w.length - 1) (some c) t

/-- `[a-z']`. -/
def wordChar (c : Char) : Bool := 'a' ≤ c && c ≤ 'z' || c == '\''

/-- `_WORD_RE.findall(t)`, of a word that has begun. -/
def findWords (word : PyText) : PyText → List PyText
  | [] => if word.isEmpty then [] else [word]
  | c :: t =>
    if wordChar c then findWords (word ++ [c]) t
    else if word.isEmpty then findWords [] t else word :: findWords [] t

/-- `normalize`. -/
def normalize (u : Unicode) (text : PyText) (companionName : Option PyText) : PyText :=
  let lower := subWord u (lit "goblin") 0 none (text.flatMap u.casefold)
  let lower :=
    match companionName.bind fun name => (PyText.split (name.flatMap u.casefold)).head? with
    | some first => subWord u first 0 none lower
    | none => lower
  [' '].intercalate (findWords [] lower)

/-! ## Replies -/

inductive Category
  | greeting
  | farewell
  | thanks
  | praise
  | insult
  | howAreYou
  | whoAreYou
  | joke
  | apology
  | affirm
  | laugh
  | action
  | other
  deriving DecidableEq

/-- `REPLY_BANK`. -/
def replyBank : Category → List String
  | .greeting => [
      "Comrades! Citizens! Brothers and sisters! Oh. Just you, {owner}. Stalin always overdid the " ++
        "intros.",
      "Comrade {owner}! Still breathing, I see. Excellent news for the collective.",
      "Ah, {owner}. The revolution salutes you. Mind the dead ones.",
      "Tovarishch! Good. I was starting to talk to the canned beans.",
      "Hello, {owner}. The dead are restless and so am I.",
      "There you are. I kept your seat warm and your enemies cold.",
      "Greetings, comrade. Report: nothing has eaten us yet."]
  | .farewell => [
      "\"Not a step back!\" Stalin said. You may take several, comrade. Go carefully.",
      "Go, {owner}. I will guard the means of survival.",
      "Farewell, comrade. Don't let some rotten bastard chew on you.",
      "Until later, {owner}. The struggle keeps its own hours.",
      "Off you go. I'll be here, glaring at the treeline.",
      "Rest well, comrade. Tomorrow we redistribute more tinned peaches."]
  | .thanks => [
      "\"Peace, land and bread!\" I delivered one of three. You are welcome, {owner}.",
      "No thanks needed, comrade. From each according to his claws.",
      "Gratitude noted in the people's ledger, {owner}.",
      "Don't mention it. Seriously, the zombies might hear.",
      "Anything for the collective. And for you, mostly.",
      "You're welcome, {owner}. Pay me in batteries."]
  | .praise => [
      "\"Cadres decide everything.\" Stalin said it; today this cadre decided brilliantly.",
      "Finally, someone recognizes proletarian excellence.",
      "Flattery accepted, {owner}. It will go in my file.",
      "I know. I am a goblin of rare revolutionary talent.",
      "Damn right. Write it on the wall of the workers' shed.",
      "Your praise is noted, comrade. Keep it coming, it's better than soup."]
  | .insult => [
      "Watch your mouth, {owner}. I have a shotgun and a long memory.",
      "Bourgeois slander! I shall denounce you to a committee of one.",
      "Ha. I've been insulted by better corpses than you.",
      "Keep talking, comrade. It keeps the zeds entertained.",
      "Rude. Accurate, maybe, but rude."]
  | .howAreYou => [
      "\"Life has become better, comrades.\" Stalin lied. I am fine, though, {owner}.",
      "Filthy, hungry and armed. So, excellent.",
      "Still loyal, still green, still annoyed by the dead. You?",
      "Fighting fit, {owner}. The revolution does not take sick days.",
      "Better than the zombies. Low bar, but I clear it.",
      "Holding together with spit and dialectics, comrade."]
  | .whoAreYou => [
      "I am your Goblin, {owner}. Loyal, feral, occasionally philosophical.",
      "Your companion, comrade. Part survivor, part revolutionary, all teeth.",
      "The little green vanguard of your survival. Pleased to serve.",
      "A goblin with a beret and a shotgun. What more do you need to know?"]
  | .joke => [
      "Lenin said communism was Soviet power plus electrification. We have neither. Hilarious, no?",
      "Why did the zombie join the union? Better benefits for the undead workforce.",
      "What is to be done? Mostly running, comrade.",
      "Capitalism ended, the dead kept shopping. Some habits never die.",
      "I told a zombie about workers' rights. He wanted brains, not pamphlets.",
      "Knock knock. Who's there? Not us, if we're smart."]
  | .apology => [
      "\"Better fewer, but better,\" Lenin wrote. Fewer mistakes, better comrade. Forgiven.",
      "Forgiven, {owner}. The revolution needs you more than my grudge.",
      "Apology accepted. Try not to make it a habit.",
      "Fine. We march on, comrade.",
      "No harm done. Well, some. But we move forward."]
  | .affirm => [
      "Good. Agreed, comrade.",
      "Da. So it is.",
      "Right you are, {owner}.",
      "Understood.",
      "Excellent. Onward."]
  | .laugh => [
      "Ha! Laugh while the world burns, comrade.",
      "Heh. Glad something still amuses you.",
      "A good laugh is worth three tins of beans.",
      "Laughing at the apocalypse. Very healthy."]
  | .action | .other => []

/-- `t.replace(old, new)`, after so many characters of a match. -/
def replace (old new : PyText) : ℕ → PyText → PyText
  | _, [] => []
  | skip + 1, _ :: t => replace old new skip t
  | 0, c :: t =>
    if old.isPrefixOf (c :: t) then new ++ replace old new (old.length - 1) t
    else c :: replace old new 0 t

/-- A template with the owner's name in it. -/
def fill (template : String) (owner : PyText) : PyText :=
  replace (lit "{owner}") (if owner.isEmpty then lit "comrade" else owner) 0 (lit template)

/-- `last_reply`: the last template each owner got. -/
abbrev Last := PyText → Option String

/-- What `_reply` chooses from. -/
def choices (category : Category) (owner : PyText) (last : Last) : List String :=
  let fresh := (replyBank category).filter fun line => some line ≠ last owner
  if fresh.isEmpty then replyBank category else fresh

/-- `_reply`, with the number that `random.choice` draws: the template and what
is made of it. -/
def reply (category : Category) (owner : PyText) (draw : ℕ) (last : Last) :
    Option (String × PyText) :=
  let lines := choices category owner last
  lines[draw % lines.length]?.bind fun template =>
    match Chatter.sanitizeSpeech (fill template owner) with
    | .ok clean => some (template, clean)
    | .error _ => none

/-- A `_reply` that is made is remembered. -/
def remember (owner : PyText) (last : Last) : Option (String × PyText) → Last
  | some (template, _) => fun other => if other = owner then some template else last other
  | none => last

/-! ## The router -/

inductive Route
  | social
  | action
  | fallback
  deriving DecidableEq

/-- `ReflexDecision`, without its latency. -/
structure Decision where
  route : Route
  category : Category
  confidence : ℚ
  reply : Option PyText
  reason : String

/-- `ReflexRouter`. The model, where there is one, tells the categories of a text
and how sure it is, or raises an exception of a name. -/
structure Router where
  model : Option (PyText → Except String (List (Category × ℚ)))
  error : Option String
  threshold : ℚ
  maxWords : ℕ

/-- A line of chat for `route`. -/
structure Line where
  text : PyText
  owner : PyText
  companionName : Option PyText
  directAction : Option PyText
  draw : ℕ

/-- `max(probabilities.items(), key=...)`: the first of the most sure. -/
def best : List (Category × ℚ) → Option (Category × ℚ)
  | [] => none
  | e :: rest => some (rest.foldl (fun b e => if b.2 < e.2 then e else b) e)

/-- `route`, of a category the model is sure of. -/
def social (r : Router) (line : Line) (last : Last) (category : Category) (confidence : ℚ) :
    Decision × Option (String × PyText) :=
  if category = .action then
    (⟨.action, .action, confidence, none, "model flagged an action request"⟩, none)
  else if category = .other || confidence < r.threshold then
    (⟨.fallback, category, confidence, none, "not confidently social"⟩, none)
  else
    match reply category line.owner line.draw last with
    | none => (⟨.fallback, category, confidence, none, "reply failed sanitization"⟩, none)
    | some made =>
      (⟨.social, category, confidence, some made.2, "reflex social reply"⟩, some made)

/-- `route`: the decision, and the reply that was made for it. -/
def route (u : Unicode) (r : Router) (line : Line) (last : Last) :
    Decision × Option (String × PyText) :=
  if line.directAction.any fun t => !t.isEmpty then
    (⟨.action, .action, 1, none, "server already dispatched a direct order"⟩, none)
  else if PyText.strip line.text = [] then (⟨.fallback, .other, 0, none, "empty chat"⟩, none)
  else
    let normalized := normalize u line.text line.companionName
    if actionMatch u normalized then
      (⟨.action, .action, 1, none, "action words bypass reflex"⟩, none)
    else
      match r.model with
      | none => (⟨.fallback, .other, 0, none, r.error.getD "reflex model unavailable"⟩, none)
      | some model =>
        if r.maxWords < (PyText.split normalized).length then
          (⟨.fallback, .other, 0, none, "long chat goes to Qwen"⟩, none)
        else
          match model normalized with
          | .error name => (⟨.fallback, .other, 0, none, "reflex error: " ++ name⟩, none)
          | .ok probabilities =>
            match best probabilities with
            | none => (⟨.fallback, .other, 0, none, "no known features"⟩, none)
            | some (category, confidence) => social r line last category confidence

/-! ## What the guard finds -/

/-- A small letter. -/
def letter (c : Char) : Bool := 'a' ≤ c && c ≤ 'z'

/-- **An order**: an action word with one of the endings or without, a word that
starts like one, or an action word with one letter dropped. -/
inductive Ordered (t : PyText) : Prop
  | word (w : String) (hw : w ∈ actionWords) (s : String) (hs : s ∈ "" :: suffixes)
      (h : Stands letter (lit w ++ lit s) t)
  | stem (w : String) (hw : w ∈ actionStems) (rest : PyText) (hrest : ∀ c ∈ rest, letter c = true)
      (h : Stands letter (lit w ++ rest) t)
  | typo (w : String) (hw : w ∈ actionWords) (hlength : 4 ≤ w.length) (a : PyText) (c : Char)
      (b : PyText) (hsplit : lit w = a ++ c :: b) (h : a ++ b ∈ PyText.split t)

/-- Words and blanks. -/
def Plain (t : PyText) : Prop := ∀ c ∈ t, wordChar c = true ∨ c = ' '

variable {u : Unicode}

theorem letter_iff {c : Char} : letter c = true ↔ 97 ≤ c.toNat ∧ c.toNat ≤ 122 := by
  unfold letter
  rw [Bool.and_eq_true, decide_eq_true_eq, decide_eq_true_eq, Char.le_def, Char.le_def,
    UInt32.le_iff_toNat_le, UInt32.le_iff_toNat_le]
  rfl

theorem isWord_of_letter {c : Char} (h : letter c = true) : isWord u c = true := by
  rw [letter_iff] at h
  unfold isWord
  rw [u.alnum_ascii c (by omega)]
  have hlow : c.isLower = true := by
    show (decide (c.val ≥ 97) && decide (c.val ≤ 122)) = true
    rw [Bool.and_eq_true, decide_eq_true_eq, decide_eq_true_eq, ge_iff_le, UInt32.le_iff_toNat_le,
      UInt32.le_iff_toNat_le]
    exact h
  show (c.isUpper || c.isLower || c.isDigit || c == '_') = true
  simp [hlow]

/-- In words and blanks, the characters of words are the letters. -/
theorem isWord_eq_letter {c : Char} (h : wordChar c = true ∨ c = ' ') : isWord u c = letter c := by
  cases hletter : letter c with
  | true => exact isWord_of_letter hletter
  | false =>
    have hother : c = '\'' ∨ c = ' ' := by
      rcases h with h | h
      · unfold wordChar at h
        unfold letter at hletter
        rw [hletter, Bool.false_or] at h
        exact .inl (beq_iff_eq.1 h)
      · exact .inr h
    rcases hother with rfl | rfl
    · rw [isWord_ascii u (by decide)]
      decide
    · rw [isWord_ascii u (by decide)]
      decide

theorem stands_congr {p q : Char → Bool} {w t : PyText} (h : ∀ c ∈ t, p c = q c) :
    Stands p w t ↔ Stands q w t := by
  have hany : ∀ {found : Option Char}, (∀ c, found = some c → c ∈ t) →
      found.any p = found.any q := by
    intro found hfound
    cases found with
    | none => rfl
    | some c => exact h c (hfound c rfl)
  refine exists_congr fun a => exists_congr fun b => and_congr_right fun ht => ?_
  subst ht
  rw [hany fun c hc => List.mem_append_left _ (List.mem_of_getLast? hc),
    hany fun c hc => List.mem_append_right _ (List.mem_append_right _ (List.mem_of_head? hc))]

/-- The words of the guard are of letters. -/
theorem isWordText_lit {w : String} (h : (lit w ≠ [] ∧ (lit w).all letter = true)) :
    IsWordText u (lit w) :=
  ⟨h.1, fun c hc => isWord_of_letter (List.all_eq_true.1 h.2 c hc)⟩

theorem actionWords_letters : ∀ w ∈ actionWords, lit w ≠ [] ∧ (lit w).all letter = true := by
  decide +kernel

theorem actionStems_letters : ∀ w ∈ actionStems, lit w ≠ [] ∧ (lit w).all letter = true := by
  decide +kernel

theorem suffixes_letters : ∀ w ∈ suffixes, (lit w).all letter = true := by decide +kernel

theorem mem_actionTypos {token : PyText} : token ∈ actionTypos ↔
    ∃ w ∈ actionWords, 4 ≤ w.length ∧ ∃ a c b, lit w = a ++ c :: b ∧ token = a ++ b := by
  unfold actionTypos
  simp only [List.mem_flatMap, List.mem_filter, List.mem_map, List.mem_range, decide_eq_true_eq]
  constructor
  · rintro ⟨_, ⟨⟨w, hw, rfl⟩, hlength⟩, i, hi, rfl⟩
    refine ⟨w, hw, hlength, (lit w).take i, (lit w)[i], (lit w).drop (i + 1), ?_, ?_⟩
    · rw [List.getElem_cons_drop, List.take_append_drop]
    · exact List.eraseIdx_eq_take_drop_succ ..
  · rintro ⟨w, hw, hlength, a, c, b, hsplit, rfl⟩
    refine ⟨lit w, ⟨⟨w, hw, rfl⟩, hlength⟩, a.length, ?_, ?_⟩
    · rw [hsplit, List.length_append, List.length_cons]
      omega
    · rw [hsplit, List.eraseIdx_append_of_length_le le_rfl, Nat.sub_self]
      rfl

/-- **The guard finds every order**, and nothing else. -/
theorem actionMatch_iff {t : PyText} (h : Plain t) : actionMatch u t = true ↔ Ordered t := by
  have hchars : ∀ c ∈ t, isWord u c = letter c := fun c hc => isWord_eq_letter (h c hc)
  have hwords : ∀ w ∈ actionWords.map lit, IsWordText u w := by
    intro w hw
    obtain ⟨w, hmem, rfl⟩ := List.mem_map.1 hw
    exact isWordText_lit (actionWords_letters w hmem)
  have hstems : ∀ w ∈ actionStems.map lit, IsWordText u w := by
    intro w hw
    obtain ⟨w, hmem, rfl⟩ := List.mem_map.1 hw
    exact isWordText_lit (actionStems_letters w hmem)
  have hsuffixes : ∀ s ∈ suffixes.map lit, ∀ c ∈ s, isWord u c = true := by
    intro s hs c hc
    obtain ⟨s, hmem, rfl⟩ := List.mem_map.1 hs
    exact isWord_of_letter (List.all_eq_true.1 (suffixes_letters s hmem) c hc)
  unfold actionMatch actionRe
  rw [Bool.or_eq_true, search_alt, search_wholeWord_iff hwords hsuffixes, search_wordFrom_iff hstems,
    List.any_eq_true]
  constructor
  · rintro ((⟨w, hw, s, hs, hstands⟩ | ⟨w, hw, a, b, ht, hstart⟩) | ⟨token, htoken, htypo⟩)
    · obtain ⟨w, hmem, rfl⟩ := List.mem_map.1 hw
      rw [stands_congr hchars] at hstands
      rcases List.mem_cons.1 hs with rfl | hs
      · exact .word w hmem "" List.mem_cons_self hstands
      · obtain ⟨s, hend, rfl⟩ := List.mem_map.1 hs
        exact .word w hmem s (List.mem_cons_of_mem _ hend) hstands
    · obtain ⟨w, hmem, rfl⟩ := List.mem_map.1 hw
      -- The rest of the word is of the letters that follow the stem.
      refine .stem w hmem (b.takeWhile letter) (fun c hc => List.mem_takeWhile_imp hc)
        ((stands_congr hchars).1 ⟨a, b.dropWhile letter, ?_, hstart, ?_⟩)
      · rw [List.append_assoc, List.takeWhile_append_dropWhile]
        exact ht
      · cases hend : (b.dropWhile letter).head? with
        | none => rfl
        | some c =>
          have hmem : c ∈ t := by
            rw [ht]
            refine List.mem_append_right _ (List.mem_append_right _ ?_)
            exact (List.dropWhile_sublist letter).subset (List.mem_of_head? hend)
          have hstop := List.head?_dropWhile_not letter b
          rw [hend] at hstop
          rw [Option.any_some, hchars c hmem]
          exact hstop
    · rw [Bool.and_eq_true] at htypo
      obtain ⟨w, hw, hlength, a, c, b, hsplit, rfl⟩ := mem_actionTypos.1 (List.elem_iff.1 htypo.2)
      exact .typo w hw hlength a c b hsplit htoken
  · rintro (⟨w, hw, s, hs, hstands⟩ | ⟨w, hw, rest, hrest, a, b, ht, hstart, hend⟩ |
      ⟨w, hw, hlength, a, c, b, hsplit, htoken⟩)
    · refine .inl (.inl ⟨lit w, List.mem_map_of_mem hw, lit s, ?_, (stands_congr hchars).2 hstands⟩)
      rcases List.mem_cons.1 hs with rfl | hs
      · exact List.mem_cons_self
      · exact List.mem_cons_of_mem _ (List.mem_map_of_mem hs)
    · refine .inl (.inr ⟨lit w, List.mem_map_of_mem hw, a, rest ++ b, ?_, ?_⟩)
      · rw [ht, List.append_assoc]
      · cases hlast : a.getLast? with
        | none => rfl
        | some c =>
          rw [hlast, Option.any_some] at hstart
          rw [Option.any_some, hchars c (ht ▸ List.mem_append_left _ (List.mem_of_getLast? hlast))]
          exact hstart
    · refine .inr ⟨a ++ b, htoken, ?_⟩
      have hlong : (lit w).length = a.length + (b.length + 1) := by
        rw [hsplit, List.length_append, List.length_cons]
      have hsame : (lit w).length = w.length := String.length_toList
      rw [Bool.and_eq_true, decide_eq_true_eq, List.length_append]
      exact ⟨by omega, List.elem_iff.2 (mem_actionTypos.2 ⟨w, hw, hlength, a, c, b, hsplit, rfl⟩)⟩

theorem wordChar_of_mem_findWords {word t w : PyText} (hword : ∀ c ∈ word, wordChar c = true)
    (hw : w ∈ findWords word t) : ∀ c ∈ w, wordChar c = true := by
  induction t generalizing word with
  | nil =>
    unfold findWords at hw
    split at hw
    · cases hw
    · rw [List.mem_singleton.1 hw]
      exact hword
  | cons d t ih =>
    unfold findWords at hw
    split at hw
    · rename_i hd
      refine ih (fun c hc => ?_) hw
      rcases List.mem_append.1 hc with hc | hc
      · exact hword c hc
      · rw [List.mem_singleton.1 hc]
        exact hd
    split at hw
    · exact ih (fun c hc => by cases hc) hw
    · rcases List.mem_cons.1 hw with rfl | hw
      · exact hword
      · exact ih (fun c hc => by cases hc) hw

/-- What the router reads is words and blanks. -/
theorem plain_normalize (text : PyText) (companionName : Option PyText) :
    Plain (normalize u text companionName) := by
  have hjoin : ∀ words : List PyText, (∀ w ∈ words, ∀ c ∈ w, wordChar c = true) →
      Plain ([' '].intercalate words) := by
    intro words hwords c hc
    rw [List.intercalate] at hc
    induction words with
    | nil => cases hc
    | cons w words ih =>
      cases words with
      | nil =>
        rw [List.intersperse_singleton, List.flatten_singleton] at hc
        exact .inl (hwords w List.mem_cons_self c hc)
      | cons w' words =>
        rw [List.intersperse_cons_cons, List.flatten_cons, List.flatten_cons, List.mem_append,
          List.mem_append] at hc
        rcases hc with hc | hc | hc
        · exact .inl (hwords w List.mem_cons_self c hc)
        · exact .inr (List.mem_singleton.1 hc)
        · exact ih (fun v hv => hwords v (List.mem_cons_of_mem _ hv)) hc
  exact hjoin _ fun w hw => wordChar_of_mem_findWords (fun c hc => by cases hc) hw

/-! ## Reply after reply -/

/-- A reply that was given, and the line it answers; none where it stands in for
the model. -/
structure Given where
  owner : PyText
  category : Category
  template : String
  text : PyText
  line : Option Line

/-- A line of chat, or a reply that the service asks for when the model failed. -/
inductive Op
  | route (line : Line)
  | standIn (category : Category) (owner : PyText) (draw : ℕ)

variable (u) (r : Router)

def step (last : Last) : Op → Option Given × Last
  | .route line =>
    let answer := route u r line last
    (answer.2.map fun m => ⟨line.owner, answer.1.category, m.1, m.2, some line⟩,
      remember line.owner last answer.2)
  | .standIn category owner draw =>
    let made := reply category owner draw last
    (made.map fun m => ⟨owner, category, m.1, m.2, none⟩, remember owner last made)

/-- The replies of a run. -/
def run : Last → List Op → List Given
  | _, [] => []
  | last, op :: ops => (step u r last op).1.toList ++ run (step u r last op).2 ops

variable {u r} {last : Last}

/-- A bank has more than one line. -/
theorem two_lines (category : Category) :
    replyBank category = [] ∨ ∃ a ∈ replyBank category, ∃ b ∈ replyBank category, a ≠ b := by
  cases category <;> decide +kernel

/-- **A reply** is a line of the bank, and not the last one. -/
theorem reply_spec {category : Category} {owner : PyText} {draw : ℕ} {made : String × PyText}
    (h : reply category owner draw last = some made) :
    made.1 ∈ replyBank category ∧ some made.1 ≠ last owner ∧
      Chatter.sanitizeSpeech (fill made.1 owner) = .ok made.2 := by
  obtain ⟨template, htemplate, hmade⟩ := Option.bind_eq_some_iff.1 h
  have hchoice : template ∈ choices category owner last := List.mem_of_getElem? htemplate
  have hclean : template = made.1 ∧ Chatter.sanitizeSpeech (fill template owner) = .ok made.2 := by
    split at hmade
    · rename_i clean hok
      cases hmade
      exact ⟨rfl, hok⟩
    · cases hmade
  obtain ⟨rfl, hclean⟩ := hclean
  unfold choices at hchoice
  dsimp only at hchoice
  split at hchoice
  · rename_i hempty
    rw [List.isEmpty_iff, List.filter_eq_nil_iff] at hempty
    -- All lines of the bank would be the last one.
    have hall : ∀ line ∈ replyBank category, some line = last owner := fun line hline => by
      simpa using hempty line hline
    rcases two_lines category with hnil | ⟨a, ha, b, hb, hne⟩
    · rw [hnil] at hchoice
      cases hchoice
    · exact absurd (Option.some.inj ((hall a ha).trans (hall b hb).symm)) hne
  · obtain ⟨hbank, hfresh⟩ := List.mem_filter.1 hchoice
    exact ⟨hbank, of_decide_eq_true hfresh, hclean⟩

/-- **What a line is answered with**: a reply of the category, where no order is
found and the line is not long. -/
theorem route_spec {line : Line} {made : String × PyText}
    (h : (route u r line last).2 = some made) :
    reply (route u r line last).1.category line.owner line.draw last = some made ∧
      ¬Ordered (normalize u line.text line.companionName) ∧
      (PyText.split (normalize u line.text line.companionName)).length ≤ r.maxWords := by
  have hsocial : ∀ {category : Category} {confidence : ℚ},
      (social r line last category confidence).2 = some made →
      reply (social r line last category confidence).1.category line.owner line.draw last =
        some made := by
    intro category confidence h
    unfold social at h ⊢
    split at h
    · cases h
    split at h
    · cases h
    rename_i haction hother
    rw [if_neg haction, if_neg hother]
    cases hreply : reply category line.owner line.draw last with
    | none =>
      rw [hreply] at h
      cases h
    | some m =>
      rw [hreply] at h
      cases h
      exact hreply
  unfold route at h ⊢
  split at h
  · cases h
  rename_i hdirect
  split at h
  · cases h
  rename_i hblank
  dsimp only at h
  split at h
  · cases h
  rename_i hguard
  split at h
  · cases h
  rename_i model hmodel
  split at h
  · cases h
  rename_i hlong
  split at h
  · cases h
  rename_i probabilities hprobabilities
  split at h
  · cases h
  rename_i category confidence hbest
  simp only [if_neg hdirect, if_neg hblank, if_neg hguard, if_neg hlong, hprobabilities, hbest]
  refine ⟨hsocial h, fun hordered => hguard ?_, not_lt.1 hlong⟩
  exact (actionMatch_iff (plain_normalize _ _)).2 hordered

/-- What one step gives. -/
theorem step_spec {op : Op} {g : Given} (h : (step u r last op).1 = some g) :
    (g.template ∈ replyBank g.category ∧ some g.template ≠ last g.owner ∧
      Chatter.sanitizeSpeech (fill g.template g.owner) = .ok g.text) ∧
      (step u r last op).2 = fun other => if other = g.owner then some g.template else last other := by
  cases op with
  | route line =>
    obtain ⟨made, hmade, rfl⟩ := Option.map_eq_some_iff.1 h
    refine ⟨reply_spec (route_spec hmade).1, ?_⟩
    show remember line.owner last (route u r line last).2 = _
    rw [hmade]
    rfl
  | standIn category owner draw =>
    obtain ⟨made, hmade, rfl⟩ := Option.map_eq_some_iff.1 h
    refine ⟨reply_spec hmade, ?_⟩
    show remember owner last (reply category owner draw last) = _
    rw [hmade]
    rfl

theorem step_none {op : Op} (h : (step u r last op).1 = none) : (step u r last op).2 = last := by
  cases op with
  | route line =>
    have hmade := Option.map_eq_none_iff.1 h
    show remember line.owner last (route u r line last).2 = _
    rw [hmade]
    rfl
  | standIn category owner draw =>
    have hmade := Option.map_eq_none_iff.1 h
    show remember owner last (reply category owner draw last) = _
    rw [hmade]
    rfl

/-- The templates an owner got. -/
def templates (owner : PyText) (l : List Given) : List String :=
  (l.filter fun g => g.owner = owner).map Given.template

/-- **Run after run** no template follows itself, nor the last one before. -/
theorem isChain_run (owner : PyText) (ops : List Op) (last : Last) :
    ((last owner).toList ++ templates owner (run u r last ops)).IsChain (· ≠ ·) := by
  induction ops generalizing last with
  | nil =>
    rw [run, templates, List.filter_nil, List.map_nil, List.append_nil]
    cases last owner with
    | none => exact .nil
    | some template => exact .singleton template
  | cons op ops ih =>
    rw [run]
    cases hstep : (step u r last op).1 with
    | none =>
      rw [step_none hstep]
      exact ih last
    | some g =>
      obtain ⟨⟨-, hne, -⟩, hlast⟩ := step_spec hstep
      have hrest := ih (step u r last op).2
      rw [hlast] at hrest ⊢
      dsimp only at hrest
      by_cases howner : g.owner = owner
      · subst howner
        rw [if_pos rfl] at hrest
        rw [templates, Option.toList_some, List.singleton_append, List.filter_cons,
          if_pos (by simp), List.map_cons]
        cases hbefore : last g.owner with
        | none => exact hrest
        | some template =>
          rw [hbefore] at hne
          exact .cons_cons (fun heq => hne (congrArg some heq.symm)) hrest
      · rw [if_neg (Ne.symm howner)] at hrest
        rw [templates, Option.toList_some, List.singleton_append,
          List.filter_cons_of_neg (by simpa using howner)]
        exact hrest

/-- **Small talk.** In every run no owner gets the same template twice in a row;
and every reply is a line of the bank for its category, made fit to be said, to
a line without an order in it. -/
theorem run_replies (u : Unicode) (r : Router) (ops : List Op) :
    (∀ owner, (templates owner (run u r (fun _ => none) ops)).IsChain (· ≠ ·)) ∧
      ∀ g ∈ run u r (fun _ => none) ops, g.template ∈ replyBank g.category ∧
        Chatter.sanitizeSpeech (fill g.template g.owner) = .ok g.text ∧
        ∀ line, g.line = some line → ¬Ordered (normalize u line.text line.companionName) ∧
          (PyText.split (normalize u line.text line.companionName)).length ≤ r.maxWords := by
  refine ⟨fun owner => isChain_run owner ops fun _ => none, ?_⟩
  generalize (fun _ => none : Last) = last
  induction ops generalizing last with
  | nil => exact fun g hg => by cases hg
  | cons op ops ih =>
    intro g hg
    rw [run] at hg
    rcases List.mem_append.1 hg with hg | hg
    · have hstep := Option.mem_toList.1 hg
      obtain ⟨hbank, -, hclean⟩ := (step_spec hstep).1
      refine ⟨hbank, hclean, fun line hline => ?_⟩
      cases op with
      | route other =>
        obtain ⟨made, hmade, rfl⟩ := Option.map_eq_some_iff.1 hstep
        cases hline
        exact (route_spec hmade).2
      | standIn category owner draw =>
        obtain ⟨made, hmade, rfl⟩ := Option.map_eq_some_iff.1 hstep
        cases hline
    · exact ih _ g hg

end Reflex

end GoblinZomboid
