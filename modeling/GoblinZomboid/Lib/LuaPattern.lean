import GoblinZomboid.Lib.Bytes
/-!
# Lua patterns

The matcher behind `string.find`, `string.match` and `string.gsub`: a
pattern is read into its items and matched by backtracking, greedy
repetition trying the longest run first. A position is the byte before it
and the bytes from it on, which is what the frontier item looks at.
-/

namespace LuaPattern

/-- A set of bytes an item accepts. -/
abbrev ByteClass := UInt8 → Bool

/-! ## Reading a pattern -/

/-- `%x`: a class letter, its complement in upper case, or the byte itself. -/
def escape (c : UInt8) : ByteClass :=
  let named : Option ByteClass :=
    match Bytes.lowerByte c with
    | 97 => some Bytes.isAlpha
    | 99 => some Bytes.isCntrl
    | 100 => some Bytes.isDigit
    | 108 => some Bytes.isLower
    | 112 => some Bytes.isPunct
    | 115 => some Bytes.isSpace
    | 117 => some Bytes.isUpper
    | 119 => some Bytes.isAlnum
    | _ => none
  match named with
  | none => fun b => b == c
  | some f => if Bytes.isUpper c then fun b => !f b else f

/-- The members of a set up to its closing bracket, and what follows it.
The fuel is the length of the text. -/
def readMembers : ℕ → ByteClass → Bytes → ByteClass × Bytes
  | 0, p, rest => (p, rest)
  | _ + 1, p, [] => (p, [])
  | _ + 1, p, 93 :: rest => (p, rest)
  | n + 1, p, 37 :: c :: rest => readMembers n (fun b => p b || escape c b) rest
  | n + 1, p, a :: 45 :: z :: rest =>
    if z == 93 then readMembers n (fun b => p b || b == a) (45 :: z :: rest)
    else readMembers n (fun b => p b || (a ≤ b && b ≤ z)) rest
  | n + 1, p, a :: rest => readMembers n (fun b => p b || b == a) rest

/-- What follows `[`: a caret complements, and a bracket that comes first
is a member. -/
def readSet (s : Bytes) : ByteClass × Bytes :=
  match s with
  | 94 :: 93 :: rest =>
    let (p, rest) := readMembers s.length (fun b => b == 93) rest
    (fun b => !p b, rest)
  | 94 :: rest =>
    let (p, rest) := readMembers s.length (fun _ => false) rest
    (fun b => !p b, rest)
  | 93 :: rest => readMembers s.length (fun b => b == 93) rest
  | rest => readMembers s.length (fun _ => false) rest

/-- One byte class, and what follows it. -/
def readSingle : Bytes → ByteClass × Bytes
  | [] => (fun _ => false, [])
  | 37 :: c :: rest => (escape c, rest)
  | 91 :: rest => readSet rest
  | 46 :: rest => (fun _ => true, rest)
  | c :: rest => (fun b => b == c, rest)

/-- An item of a pattern. -/
inductive Item
  | one (p : ByteClass)
  | star (p : ByteClass)
  | plus (p : ByteClass)
  | lazy (p : ByteClass)
  | opt (p : ByteClass)
  | frontier (p : ByteClass)
  | openCapture
  | closeCapture
  | atEnd

/-- The items of a pattern; the fuel is the length of its text. -/
def readItems : ℕ → Bytes → List Item
  | 0, _ => []
  | _ + 1, [] => []
  | _ + 1, [36] => [.atEnd]
  | n + 1, 40 :: rest => .openCapture :: readItems n rest
  | n + 1, 41 :: rest => .closeCapture :: readItems n rest
  | n + 1, 37 :: 102 :: 91 :: rest =>
    let (p, rest) := readSet rest
    .frontier p :: readItems n rest
  | n + 1, s =>
    let (p, rest) := readSingle s
    match rest with
    | 42 :: rest => .star p :: readItems n rest
    | 43 :: rest => .plus p :: readItems n rest
    | 45 :: rest => .lazy p :: readItems n rest
    | 63 :: rest => .opt p :: readItems n rest
    | _ => .one p :: readItems n rest

/-- A pattern: its items, and whether a caret anchors it. -/
structure Pattern where
  anchored : Bool
  items : List Item

def read (pattern : String) : Pattern :=
  match Bytes.lit pattern with
  | 94 :: rest => ⟨true, readItems rest.length rest⟩
  | s => ⟨false, readItems s.length s⟩

/-! ## Matching -/

/-- A position: the byte before it (0 at the start) and the bytes from it. -/
abbrev Pos := UInt8 × Bytes

/-- The captures so far, in the order they open: where each starts, and its
text once closed. -/
abbrev Captures := List (Bytes × Option Bytes)

/-- The positions a run of the class leads to, the shortest run first. -/
def runs (p : ByteClass) (prev : UInt8) : Bytes → List Pos
  | [] => [(prev, [])]
  | b :: rest => (prev, b :: rest) :: if p b then runs p b rest else []

/-- The last open capture closes at `rest`. -/
def close (rest : Bytes) (captures : Captures) : Captures :=
  let rec go : Captures → Captures
    | [] => []
    | (start, none) :: more => (start, some (start.take (start.length - rest.length))) :: more
    | done :: more => done :: go more
  (go captures.reverse).reverse

/-- `match`: the position after the items, with the captures. -/
def matchItems : List Item → Pos → Captures → Option (Pos × Captures)
  | [], pos, captures => some (pos, captures)
  | .one p :: items, (_, rest), captures =>
    match rest with
    | b :: rest => if p b then matchItems items (b, rest) captures else none
    | [] => none
  | .star p :: items, (prev, rest), captures =>
    (runs p prev rest).reverse.findSome? fun pos => matchItems items pos captures
  | .plus p :: items, (prev, rest), captures =>
    (runs p prev rest).tail.reverse.findSome? fun pos => matchItems items pos captures
  | .lazy p :: items, (prev, rest), captures =>
    (runs p prev rest).findSome? fun pos => matchItems items pos captures
  | .opt p :: items, (prev, rest), captures =>
    ((runs p prev rest).take 2).reverse.findSome? fun pos => matchItems items pos captures
  | .frontier p :: items, (prev, rest), captures =>
    if !p prev && p (rest.headD 0) then matchItems items (prev, rest) captures else none
  | .openCapture :: items, (prev, rest), captures =>
    matchItems items (prev, rest) (captures ++ [(rest, none)])
  | .closeCapture :: items, (prev, rest), captures =>
    matchItems items (prev, rest) (close rest captures)
  | .atEnd :: items, (prev, rest), captures =>
    if rest.isEmpty then matchItems items (prev, rest) captures else none

/-- A match: where it starts, where it ends, its captures. -/
structure Match where
  start : Pos
  stop : Pos
  captures : Captures

/-- The text a match covers. -/
def Match.text (m : Match) : Bytes := m.start.2.take (m.start.2.length - m.stop.2.length)

def matchAt (items : List Item) (pos : Pos) : Option Match :=
  (matchItems items pos []).map fun r => ⟨pos, r.1, r.2⟩

/-- The leftmost match from a position on. -/
def searchFrom (items : List Item) (prev : UInt8) : Bytes → Option Match
  | [] => matchAt items (prev, [])
  | b :: rest =>
    match matchAt items (prev, b :: rest) with
    | some m => some m
    | none => searchFrom items b rest

/-- `string.find` and `string.match`, from the start of the subject. -/
def search (pattern : String) (s : Bytes) : Option Match :=
  let p := read pattern
  if p.anchored then matchAt p.items (0, s) else searchFrom p.items 0 s

/-- `string.find(s, pattern) ~= nil`. -/
def found (pattern : String) (s : Bytes) : Bool := (search pattern s).isSome

/-- `string.find(s, phrase, 1, true) ~= nil`. -/
def contains (s phrase : Bytes) : Bool :=
  phrase.isPrefixOf s ||
    match s with
    | [] => false
    | _ :: rest => contains rest phrase

/-- The loop of `string.gsub`; the fuel bounds the positions left. -/
def gsubFrom (items : List Item) (replacement : Bytes) : ℕ → Pos → Bytes
  | 0, (_, rest) => rest
  | n + 1, (prev, rest) =>
    match matchAt items (prev, rest) with
    | some m =>
      if m.stop.2.length < rest.length then
        replacement ++ gsubFrom items replacement n m.stop
      else
        match rest with
        | b :: rest => replacement ++ b :: gsubFrom items replacement n (b, rest)
        | [] => replacement
    | none =>
      match rest with
      | b :: rest => b :: gsubFrom items replacement n (b, rest)
      | [] => []

/-- `string.gsub` with a replacement that names no capture. -/
def gsub (s : Bytes) (pattern : String) (replacement : Bytes) : Bytes :=
  let p := read pattern
  if p.anchored then
    match matchAt p.items (0, s) with
    | some m => replacement ++ m.stop.2
    | none => s
  else gsubFrom p.items replacement (s.length + 1) (0, s)

/-- `string.gmatch`: the texts of the matches; the fuel bounds the positions
left. -/
def gmatchFrom (items : List Item) : ℕ → Pos → List Bytes
  | 0, _ => []
  | n + 1, (prev, rest) =>
    match matchAt items (prev, rest) with
    | some m =>
      if m.stop.2.length < rest.length then m.text :: gmatchFrom items n m.stop
      else
        match rest with
        | b :: rest => m.text :: gmatchFrom items n (b, rest)
        | [] => [m.text]
    | none =>
      match rest with
      | b :: rest => gmatchFrom items n (b, rest)
      | [] => []

/-- `string.gmatch` with a pattern without a caret. -/
def gmatch (s : Bytes) (pattern : String) : List Bytes :=
  gmatchFrom (read pattern).items (s.length + 1) (0, s)

/-- `string.match(s, "^%s*(.-)%s*$")`. -/
def trim (s : Bytes) : Bytes :=
  (((search "^%s*(.-)%s*$" s).bind fun m => m.captures.head?).bind (·.2)).getD []

/-! ## Runs to the end -/

theorem runs_spec {p : ByteClass} {prev : UInt8} {s : Bytes} {pos : Pos} (h : pos ∈ runs p prev s) :
    ∃ t, s = t ++ pos.2 ∧ ∀ b ∈ t, p b = true := by
  induction s generalizing prev with
  | nil =>
    obtain rfl := List.mem_singleton.1 h
    exact ⟨[], rfl, nofun⟩
  | cons b s ih =>
    rcases List.mem_cons.1 h with rfl | h
    · exact ⟨[], rfl, nofun⟩
    · split at h
      · rename_i hb
        obtain ⟨t, rfl, ht⟩ := ih h
        exact ⟨b :: t, rfl, List.forall_mem_cons.2 ⟨hb, ht⟩⟩
      · cases h

theorem exists_runs_nil {p : ByteClass} {s : Bytes} (h : ∀ b ∈ s, p b = true) (prev : UInt8) :
    ∃ last, (last, ([] : Bytes)) ∈ runs p prev s := by
  induction s generalizing prev with
  | nil => exact ⟨prev, List.mem_singleton.2 rfl⟩
  | cons b s ih =>
    obtain ⟨last, hlast⟩ := ih (fun c hc => h c (List.mem_cons_of_mem _ hc)) b
    refine ⟨last, List.mem_cons_of_mem _ ?_⟩
    rw [if_pos (h b List.mem_cons_self)]
    exact hlast

/-- **A run to the end**: bytes of the class, and at least one. -/
theorem matchItems_plus_end {p : ByteClass} {prev : UInt8} {s : Bytes} {captures : Captures} :
    (matchItems [.plus p, .atEnd] (prev, s) captures).isSome = true ↔
      s ≠ [] ∧ ∀ b ∈ s, p b = true := by
  have hend (pos : Pos) : (matchItems [.atEnd] pos captures).isSome = true ↔ pos.2 = [] := by
    obtain ⟨last, rest⟩ := pos
    show (if rest.isEmpty then some ((last, rest), captures) else none).isSome = true ↔ rest = []
    cases rest <;> simp
  have hrun : (matchItems [.plus p, .atEnd] (prev, s) captures).isSome = true ↔
      ∃ pos ∈ (runs p prev s).tail, pos.2 = [] := by
    show ((runs p prev s).tail.reverse.findSome? fun pos =>
      matchItems [.atEnd] pos captures).isSome = true ↔ _
    rw [List.isSome_findSome?]
    simp only [List.any_eq_true, List.mem_reverse, hend]
  rw [hrun]
  cases s with
  | nil => exact ⟨fun ⟨_, hpos, _⟩ => (nomatch hpos), fun h => absurd rfl h.1⟩
  | cons b s =>
    show (∃ pos ∈ (if p b then runs p b s else []), pos.2 = []) ↔ _
    constructor
    · rintro ⟨pos, hpos, hnil⟩
      split at hpos
      · rename_i hb
        obtain ⟨t, hs, ht⟩ := runs_spec hpos
        rw [hnil, List.append_nil] at hs
        exact ⟨List.cons_ne_nil _ _, List.forall_mem_cons.2 ⟨hb, by rwa [hs]⟩⟩
      · cases hpos
    · rintro ⟨-, hall⟩
      obtain ⟨hb, hs⟩ := List.forall_mem_cons.1 hall
      obtain ⟨last, hlast⟩ := exists_runs_nil hs b
      rw [if_pos hb]
      exact ⟨_, hlast, rfl⟩

/-- A byte that may be missing, and a run to the end. -/
theorem matchItems_opt_plus_end {q p : ByteClass} {prev : UInt8} {s : Bytes}
    {captures : Captures} :
    (matchItems [.opt q, .plus p, .atEnd] (prev, s) captures).isSome = true ↔
      (s ≠ [] ∧ ∀ b ∈ s, p b = true) ∨
        ∃ b t, s = b :: t ∧ q b = true ∧ t ≠ [] ∧ ∀ b ∈ t, p b = true := by
  have hplus (pos : Pos) : (matchItems [.plus p, .atEnd] pos captures).isSome = true ↔
      pos.2 ≠ [] ∧ ∀ b ∈ pos.2, p b = true := matchItems_plus_end
  show (((runs q prev s).take 2).reverse.findSome? fun pos =>
    matchItems [.plus p, .atEnd] pos captures).isSome = true ↔ _
  rw [List.isSome_findSome?]
  simp only [List.any_eq_true, List.mem_reverse, hplus]
  cases s with
  | nil =>
    constructor
    · rintro ⟨pos, hpos, hne, -⟩
      obtain rfl := List.mem_singleton.1 hpos
      exact absurd rfl hne
    · rintro (⟨hne, -⟩ | ⟨b, t, heq, -⟩)
      · exact absurd rfl hne
      · cases heq
  | cons b s =>
    have htwo : (runs q prev (b :: s)).take 2 =
        (prev, b :: s) :: if q b then [(b, s)] else [] := by
      show ((prev, b :: s) :: if q b then runs q b s else []).take 2 = _
      cases hq : q b with
      | false => rfl
      | true => cases s <;> rfl
    rw [htwo]
    constructor
    · rintro ⟨pos, hpos, hne, hall⟩
      rcases List.mem_cons.1 hpos with rfl | hpos
      · exact .inl ⟨hne, hall⟩
      · split at hpos
        · rename_i hq
          obtain rfl := List.mem_singleton.1 hpos
          exact .inr ⟨b, s, rfl, hq, hne, hall⟩
        · cases hpos
    · rintro (⟨hne, hall⟩ | ⟨b', t, heq, hq, hne, hall⟩)
      · exact ⟨_, List.mem_cons_self, hne, hall⟩
      · obtain ⟨rfl, rfl⟩ := List.cons.inj heq
        rw [if_pos hq]
        exact ⟨_, List.mem_cons_of_mem _ (List.mem_singleton.2 rfl), hne, hall⟩

/-! ## What a pattern accepts -/

/-- The items lead from here to some place, whatever the order the matcher
tries their runs in. -/
def Accepts : List Item → Pos → Prop
  | [], _ => True
  | .one p :: items, (_, s) => ∃ b rest, s = b :: rest ∧ p b = true ∧ Accepts items (b, rest)
  | .star p :: items, (prev, s) | .lazy p :: items, (prev, s) =>
    ∃ run rest, s = run ++ rest ∧ (∀ b ∈ run, p b = true) ∧
      Accepts items (run.getLastD prev, rest)
  | .plus p :: items, (prev, s) =>
    ∃ run rest, s = run ++ rest ∧ (∀ b ∈ run, p b = true) ∧ run ≠ [] ∧
      Accepts items (run.getLastD prev, rest)
  | .opt p :: items, (prev, s) =>
    ∃ run rest, s = run ++ rest ∧ (∀ b ∈ run, p b = true) ∧ run.length ≤ 1 ∧
      Accepts items (run.getLastD prev, rest)
  | .frontier p :: items, (prev, s) =>
    p prev = false ∧ p (s.headD 0) = true ∧ Accepts items (prev, s)
  | .openCapture :: items, pos | .closeCapture :: items, pos => Accepts items pos
  | .atEnd :: items, pos => pos.2 = [] ∧ Accepts items pos

/-- The runs from a position, the one of `n` bytes at place `n`. -/
theorem runs_getElem? {p : ByteClass} {prev : UInt8} {s : Bytes} {n : ℕ} {pos : Pos} :
    (runs p prev s)[n]? = some pos ↔ ∃ run rest, s = run ++ rest ∧ (∀ b ∈ run, p b = true) ∧
      run.length = n ∧ pos = (run.getLastD prev, rest) := by
  induction n generalizing prev s with
  | zero =>
    have hfirst : (runs p prev s)[0]? = some (prev, s) := by
      cases s <;> rfl
    rw [hfirst, Option.some.injEq]
    constructor
    · rintro rfl
      exact ⟨[], s, rfl, nofun, rfl, rfl⟩
    · rintro ⟨run, rest, rfl, -, hlen, rfl⟩
      rw [List.length_eq_zero_iff.1 hlen]
      rfl
  | succ n ih =>
    cases s with
    | nil =>
      constructor
      · intro h
        cases h
      · rintro ⟨run, rest, hs, -, hlen, -⟩
        rw [(List.nil_eq_append_iff.1 hs).1] at hlen
        cases hlen
    | cons b s =>
      have hnext : (runs p prev (b :: s))[n + 1]? =
          (if p b then runs p b s else [])[n]? := rfl
      rw [hnext]
      constructor
      · intro h
        split at h
        · rename_i hb
          obtain ⟨run, rest, rfl, hrun, hlen, rfl⟩ := ih.1 h
          exact ⟨b :: run, rest, rfl, List.forall_mem_cons.2 ⟨hb, hrun⟩, by rw [← hlen]; rfl,
            by rw [List.getLastD_cons]⟩
        · cases h
      · rintro ⟨run, rest, hs, hrun, hlen, rfl⟩
        cases run with
        | nil => cases hlen
        | cons d run =>
          obtain ⟨rfl, rfl⟩ := List.cons.inj hs
          obtain ⟨hb, hrun⟩ := List.forall_mem_cons.1 hrun
          rw [if_pos hb]
          exact ih.2 ⟨run, rest, rfl, hrun, Nat.succ.inj hlen, by rw [List.getLastD_cons]⟩

theorem mem_runs {p : ByteClass} {prev : UInt8} {s : Bytes} {pos : Pos} : pos ∈ runs p prev s ↔
    ∃ run rest, s = run ++ rest ∧ (∀ b ∈ run, p b = true) ∧ pos = (run.getLastD prev, rest) := by
  rw [List.mem_iff_getElem?]
  constructor
  · rintro ⟨n, hn⟩
    obtain ⟨run, rest, hs, hrun, -, rfl⟩ := runs_getElem?.1 hn
    exact ⟨run, rest, hs, hrun, rfl⟩
  · rintro ⟨run, rest, hs, hrun, rfl⟩
    exact ⟨run.length, runs_getElem?.2 ⟨run, rest, hs, hrun, rfl, rfl⟩⟩

theorem mem_tail_runs {p : ByteClass} {prev : UInt8} {s : Bytes} {pos : Pos} :
    pos ∈ (runs p prev s).tail ↔ ∃ run rest, s = run ++ rest ∧ (∀ b ∈ run, p b = true) ∧
      run ≠ [] ∧ pos = (run.getLastD prev, rest) := by
  rw [List.mem_iff_getElem?]
  constructor
  · rintro ⟨n, hn⟩
    rw [List.getElem?_tail] at hn
    obtain ⟨run, rest, hs, hrun, hlen, rfl⟩ := runs_getElem?.1 hn
    exact ⟨run, rest, hs, hrun, List.ne_nil_of_length_pos (by omega), rfl⟩
  · rintro ⟨run, rest, hs, hrun, hne, rfl⟩
    have hpos := List.length_pos_of_ne_nil hne
    refine ⟨run.length - 1, ?_⟩
    rw [List.getElem?_tail]
    exact runs_getElem?.2 ⟨run, rest, hs, hrun, by omega, rfl⟩

theorem mem_take_runs {p : ByteClass} {prev : UInt8} {s : Bytes} {pos : Pos} :
    pos ∈ (runs p prev s).take 2 ↔ ∃ run rest, s = run ++ rest ∧ (∀ b ∈ run, p b = true) ∧
      run.length ≤ 1 ∧ pos = (run.getLastD prev, rest) := by
  rw [List.mem_iff_getElem?]
  constructor
  · rintro ⟨n, hn⟩
    rw [List.getElem?_take] at hn
    split at hn
    · rename_i hlt
      obtain ⟨run, rest, hs, hrun, hlen, rfl⟩ := runs_getElem?.1 hn
      exact ⟨run, rest, hs, hrun, by omega, rfl⟩
    · cases hn
  · rintro ⟨run, rest, hs, hrun, hle, rfl⟩
    refine ⟨run.length, ?_⟩
    rw [List.getElem?_take, if_pos (by omega)]
    exact runs_getElem?.2 ⟨run, rest, hs, hrun, rfl, rfl⟩

/-- **The matcher misses nothing**: it finds a way through the items exactly
when there is one. -/
theorem matchItems_isSome {items : List Item} {pos : Pos} {captures : Captures} :
    (matchItems items pos captures).isSome = true ↔ Accepts items pos := by
  induction items generalizing pos captures with
  | nil => exact ⟨fun _ => trivial, fun _ => rfl⟩
  | cons item items ih =>
    obtain ⟨prev, s⟩ := pos
    -- A run is found among the places that are tried.
    have hruns : ∀ (places : List Pos), (places.findSome? fun pos =>
        matchItems items pos captures).isSome = true ↔ ∃ pos ∈ places, Accepts items pos := by
      intro places
      rw [List.isSome_findSome?]
      simp only [List.any_eq_true, ih]
    cases item with
    | one p =>
      unfold matchItems Accepts
      cases s with
      | nil => simp
      | cons b s => by_cases hb : p b = true <;> simp [hb, ih]
    | star p =>
      unfold matchItems Accepts
      simp only [hruns, List.mem_reverse, mem_runs]
      constructor
      · rintro ⟨_, ⟨run, rest, hs, hrun, rfl⟩, h⟩
        exact ⟨run, rest, hs, hrun, h⟩
      · rintro ⟨run, rest, hs, hrun, h⟩
        exact ⟨_, ⟨run, rest, hs, hrun, rfl⟩, h⟩
    | plus p =>
      unfold matchItems Accepts
      simp only [hruns, List.mem_reverse, mem_tail_runs]
      constructor
      · rintro ⟨_, ⟨run, rest, hs, hrun, hne, rfl⟩, h⟩
        exact ⟨run, rest, hs, hrun, hne, h⟩
      · rintro ⟨run, rest, hs, hrun, hne, h⟩
        exact ⟨_, ⟨run, rest, hs, hrun, hne, rfl⟩, h⟩
    | lazy p =>
      unfold matchItems Accepts
      simp only [hruns, mem_runs]
      constructor
      · rintro ⟨_, ⟨run, rest, hs, hrun, rfl⟩, h⟩
        exact ⟨run, rest, hs, hrun, h⟩
      · rintro ⟨run, rest, hs, hrun, h⟩
        exact ⟨_, ⟨run, rest, hs, hrun, rfl⟩, h⟩
    | opt p =>
      unfold matchItems Accepts
      simp only [hruns, List.mem_reverse, mem_take_runs]
      constructor
      · rintro ⟨_, ⟨run, rest, hs, hrun, hlen, rfl⟩, h⟩
        exact ⟨run, rest, hs, hrun, hlen, h⟩
      · rintro ⟨run, rest, hs, hrun, hlen, h⟩
        exact ⟨_, ⟨run, rest, hs, hrun, hlen, rfl⟩, h⟩
    | frontier p =>
      unfold matchItems Accepts
      split
      · rename_i hedge
        rw [Bool.and_eq_true, Bool.not_eq_true'] at hedge
        rw [ih]
        exact ⟨fun h => ⟨hedge.1, hedge.2, h⟩, fun h => h.2.2⟩
      · rename_i hno
        rw [Bool.and_eq_true, Bool.not_eq_true'] at hno
        exact ⟨nofun, fun h => absurd ⟨h.1, h.2.1⟩ hno⟩
    | openCapture => exact ih
    | closeCapture => exact ih
    | atEnd =>
      unfold matchItems Accepts
      cases s with
      | nil => simp [ih]
      | cons b s => simp

theorem matchAt_isSome {items : List Item} {pos : Pos} :
    (matchAt items pos).isSome = true ↔ Accepts items pos := by
  rw [matchAt, Option.isSome_map, matchItems_isSome]

/-- The search tries every place. -/
theorem searchFrom_isSome {items : List Item} {prev : UInt8} {s : Bytes} :
    (searchFrom items prev s).isSome = true ↔
      ∃ front rest, s = front ++ rest ∧ Accepts items (front.getLastD prev, rest) := by
  induction s generalizing prev with
  | nil =>
    unfold searchFrom
    rw [matchAt_isSome]
    constructor
    · intro h
      exact ⟨[], [], rfl, h⟩
    · rintro ⟨front, rest, hs, h⟩
      obtain ⟨rfl, rfl⟩ := List.nil_eq_append_iff.1 hs
      exact h
  | cons b s ih =>
    have hsplit : (searchFrom items prev (b :: s)).isSome = true ↔
        Accepts items (prev, b :: s) ∨ (searchFrom items b s).isSome = true := by
      have hfirst : searchFrom items prev (b :: s) =
          match matchAt items (prev, b :: s) with
          | some m => some m
          | none => searchFrom items b s := rfl
      rw [← matchAt_isSome, hfirst]
      cases matchAt items (prev, b :: s) with
      | none => simp
      | some m => simp
    rw [hsplit, ih]
    constructor
    · rintro (h | ⟨front, rest, rfl, h⟩)
      · exact ⟨[], b :: s, rfl, h⟩
      · exact ⟨b :: front, rest, rfl, by rwa [List.getLastD_cons]⟩
    · rintro ⟨front, rest, hs, h⟩
      cases front with
      | nil =>
        rw [List.nil_append] at hs
        subst hs
        exact .inl h
      | cons d front =>
        obtain ⟨rfl, rfl⟩ := List.cons.inj hs
        rw [List.getLastD_cons] at h
        exact .inr ⟨front, rest, rfl, h⟩

/-- What an anchored pattern finds. -/
theorem found_anchored {pattern : String} {items : List Item} (hread : read pattern = ⟨true, items⟩)
    (s : Bytes) : found pattern s = true ↔ Accepts items (0, s) := by
  rw [found, search, hread]
  exact matchAt_isSome

/-- What a pattern without a caret finds. -/
theorem found_free {pattern : String} {items : List Item} (hread : read pattern = ⟨false, items⟩)
    (s : Bytes) : found pattern s = true ↔
      ∃ front rest, s = front ++ rest ∧ Accepts items (front.getLastD 0, rest) := by
  rw [found, search, hread]
  exact searchFrom_isSome

example : found "[xyzXYZ]%s*=%s*[-+]?%d" (Bytes.lit "max = -5") = true := by decide

example : found "%f[%a]car%f[%A]" (Bytes.lit "my scarf, my car.") = true := by decide

example : gsub (Bytes.lit "at x=12.5!") "[xyzXYZ]%s*=%s*[-+]?%d+%.?%d*" (Bytes.lit "[redacted]") =
    Bytes.lit "at [redacted]!" := by decide

end LuaPattern
