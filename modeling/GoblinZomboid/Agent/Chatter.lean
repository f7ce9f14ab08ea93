import GoblinZomboid.Agent.Driver
import GoblinZomboid.Lib.Run
/-!
# `ChatterGovernor`: how often the companions speak

A line is allowed by what was spoken in the last hour, which the memory
keeps. The pause between two lines is read off the same hour, so a pause
that is longer is not kept.
-/

namespace GoblinZomboid

namespace Chatter

open Npc (compactSpeech)

/-- A row of the `chatter` table. -/
structure Line where
  createdAt : ℤ
  eventKey : PyText
  channel : PyText
  text : PyText

/-- What a governor is made with. -/
structure Governor where
  minInterval : ℤ := 20
  eventInterval : ℤ := 8
  hourlyLimit : ℤ := 60

/-- `ChatterDecision`. -/
structure Decision where
  allowed : Bool
  reason : String
  deriving DecidableEq

/-- A line that asks to be spoken. `wall` and `later` are the system clock in
`allow` and in `record_chatter`. -/
structure Request where
  eventKey : PyText
  channel : PyText
  text : PyText
  now : Option ℤ
  priority : ℤ
  wall : ℕ
  later : ℕ
  wall_le : wall ≤ later

/-- The clock `allow` goes by. -/
def Request.current (r : Request) : ℤ := r.now.getD r.wall

/-! ## The code -/

/-- A character of `_CONTROL_RE`. -/
def isControl (c : Char) : Bool :=
  let n := c.toNat
  n ≤ 8 || n == 11 || n == 12 || (14 ≤ n && n ≤ 31) || n == 127

/-- A letter of a pattern that ignores case. -/
def isLetter (letter c : Char) : Bool := c == letter || c == letter.toUpper || letter == 's' && c == 'ſ'

/-- What follows a word, whatever its case. -/
def afterWord : PyText → PyText → Option PyText
  | [], t => some t
  | _ :: _, [] => none
  | letter :: word, c :: t => if isLetter letter c then afterWord word t else none

/-- `(?:lua|shell|exec|eval)\s*:`, from here on. -/
def isCommand (t : PyText) : Bool :=
  (["lua", "shell", "exec", "eval"].map PyText.lit).any fun word =>
    (afterWord word t).any fun rest => (rest.dropWhile PyText.isSpace).head? == some ':'

/-- The search for a command that starts the text or follows a blank. -/
def hasCommand (starts : Bool) (t : PyText) : Bool :=
  starts && isCommand t ||
    match t with
    | [] => false
    | c :: rest => hasCommand (PyText.isSpace c) rest

/-- `sanitize_speech`. -/
def sanitizeSpeech (text : PyText) : Except String PyText :=
  let text := PyText.strip (text.filter fun c => !isControl c)
  if text = [] || 240 < text.length then .error "speech length is unsafe"
  else if PyText.contains text (List.replicate 3 (Char.ofNat 96)) || hasCommand true text then
    .error "speech looks like an executable payload"
  else .ok (compactSpeech text)

/-- `chatter_since`: the rows from a time on, the oldest first. -/
def chatterSince (rows : List Line) (since : ℤ) : List Line :=
  (rows.filter fun line => since ≤ line.createdAt).mergeSort fun a b => a.createdAt ≤ b.createdAt

/-- `allow`. -/
def allow (g : Governor) (rows : List Line) (r : Request) : Decision :=
  let recent := chatterSince rows (r.current - 3600)
  if g.hourlyLimit ≤ recent.length && r.priority < 3 then ⟨false, "hourly chatter limit"⟩
  else
    match recent.getLast? with
    | none => ⟨true, "allowed"⟩
    | some last =>
      if r.current - last.createdAt < g.minInterval && r.priority < 3 then
        ⟨false, "global chatter cooldown"⟩
      else
        match (recent.filter fun line => line.eventKey == r.eventKey).getLast? with
        | some same =>
          if r.current - same.createdAt < g.eventInterval then ⟨false, "event chatter cooldown"⟩
          else ⟨true, "allowed"⟩
        | none => ⟨true, "allowed"⟩

/-- `created_at or int(time.time())`. -/
def Request.createdAt (r : Request) : ℤ :=
  match r.now with
  | some now => if now = 0 then r.later else now
  | none => r.later

/-- `record_chatter`. -/
def recordChatter (rows : List Line) (r : Request) (text : PyText) : Except String (List Line) :=
  if r.eventKey = [] || 96 < r.eventKey.length then .error "invalid chatter event"
  else if !(["discord", "game", "admin"].map PyText.lit).contains r.channel then
    .error "invalid chatter channel"
  else if text = [] || 240 < text.length then .error "invalid chatter text"
  else .ok (rows ++ [⟨r.createdAt, r.eventKey, r.channel, text⟩])

/-- `record`. -/
def record (g : Governor) (rows : List Line) (r : Request) :
    Except String Decision × List Line :=
  match sanitizeSpeech r.text with
  | .error reason => (.error reason, rows)
  | .ok clean =>
    let decision := allow g rows r
    if !decision.allowed then (.ok decision, rows)
    else
      match recordChatter rows r clean with
      | .error reason => (.error reason, rows)
      | .ok rows => (.ok decision, rows)

/-! ## Runs -/

/-- A request, or a restart, after which the rows are what the memory keeps. -/
inductive Op
  | allow (r : Request)
  | record (r : Request)
  | restart

def Op.request? : Op → Option Request
  | allow r => some r
  | record r => some r
  | restart => none

/-- The rows, and when the lines were spoken. -/
structure Log where
  rows : List Line
  spoken : List ℤ

def Log.start : Log := ⟨[], []⟩

/-- The decision a request gets, if it gets one. -/
def Log.decision (g : Governor) (l : Log) : Op → Option Decision
  | .allow r => some (Chatter.allow g l.rows r)
  | .record r => (Chatter.record g l.rows r).1.toOption
  | .restart => none

/-- The line is allowed. -/
def Log.allows (g : Governor) (l : Log) (op : Op) : Bool :=
  (l.decision g op).any Decision.allowed

/-- One operation; a line is spoken when it is allowed and recorded. -/
def Log.step (g : Governor) (l : Log) (op : Op) : Log :=
  match op with
  | .record r =>
    { rows := (Chatter.record g l.rows r).2
      spoken := if l.allows g (.record r) then l.spoken ++ [r.current] else l.spoken }
  | _ => l

/-- What is asked of a line that is allowed and does not matter much: the
pause since every line, and the lines of the last hour. -/
def Law (g : Governor) (l : Log) (r : Request) : Prop :=
  r.priority < 3 → (∀ t ∈ l.spoken, g.minInterval ≤ r.current - t) ∧
    l.spoken.countP (fun t => r.current - 3600 ≤ t) < g.hourlyLimit

/-- The rate law of a run. -/
def Kept (g : Governor) (ops : List Op) : Prop :=
  ∀ front op rest r, ops = front ++ op :: rest → op.request? = some r →
    (Machine.run (Log.step g) Log.start front).allows g op = true →
      Law g (Machine.run (Log.step g) Log.start front) r

/-! ## The law of one request -/

section

variable {g : Governor} {l : Log} {r : Request} {rows : List Line}

theorem mem_chatterSince {since : ℤ} {line : Line} :
    line ∈ chatterSince rows since ↔ line ∈ rows ∧ since ≤ line.createdAt := by
  unfold chatterSince
  rw [List.mem_mergeSort, List.mem_filter, decide_eq_true_eq]

/-- As many as there are from that time on. -/
theorem length_chatterSince (since : ℤ) :
    (chatterSince rows since).length = rows.countP fun line => since ≤ line.createdAt := by
  unfold chatterSince
  rw [List.length_mergeSort, List.countP_eq_length_filter]

/-- The last one is the newest. -/
theorem le_last {since : ℤ} {last line : Line} (hlast : (chatterSince rows since).getLast? = some last)
    (hline : line ∈ chatterSince rows since) : line.createdAt ≤ last.createdAt := by
  have hsorted : (chatterSince rows since).Pairwise fun a b => a.createdAt ≤ b.createdAt := by
    refine (List.pairwise_mergeSort (fun a b c hab hbc => ?_) (fun a b => ?_) _).imp
      fun h => of_decide_eq_true h
    · rw [decide_eq_true_eq] at hab hbc ⊢
      exact hab.trans hbc
    · rw [Bool.or_eq_true, decide_eq_true_eq, decide_eq_true_eq]
      exact le_total _ _
  obtain ⟨front, hfront⟩ := List.getLast?_eq_some_iff.mp hlast
  rw [hfront] at hsorted hline
  rcases List.mem_append.mp hline with hin | hin
  · exact (List.pairwise_append.mp hsorted).2.2 line hin last List.mem_cons_self
  · rw [List.mem_singleton.mp hin]

/-- **What `allow` has checked** for a line that does not matter much. -/
theorem allow_spec (hpriority : r.priority < 3) (hallowed : (allow g rows r).allowed = true) :
    rows.countP (fun line => r.current - 3600 ≤ line.createdAt) < g.hourlyLimit ∧
      ∀ line ∈ rows, r.current - 3600 ≤ line.createdAt → g.minInterval ≤ r.current - line.createdAt := by
  unfold allow at hallowed
  dsimp only at hallowed
  rw [decide_eq_true hpriority, Bool.and_true, length_chatterSince] at hallowed
  split at hallowed
  · cases hallowed
  rename_i hlimit
  rw [decide_eq_true_eq] at hlimit
  refine ⟨by omega, fun line hline hrecent => ?_⟩
  have hin := mem_chatterSince.mpr ⟨hline, hrecent⟩
  split at hallowed
  · rename_i hnone
    rw [List.getLast?_eq_none_iff.mp hnone] at hin
    cases hin
  · rename_i last hlast
    have hle := le_last hlast hin
    rw [Bool.and_true] at hallowed
    split at hallowed
    · cases hallowed
    · rename_i hpause
      rw [decide_eq_true_eq] at hpause
      omega

/-- A row dates its line no earlier than it was spoken. -/
theorem current_le_createdAt (r : Request) : r.current ≤ r.createdAt := by
  have hwall := r.wall_le
  unfold Request.current Request.createdAt
  cases r.now with
  | none => exact Int.ofNat_le.mpr hwall
  | some now =>
    dsimp only [Option.getD_some]
    split <;> omega

/-- What holds between two operations: every spoken line has its row. -/
def Recorded (l : Log) : Prop := List.Forall₂ (fun t line => t ≤ line.createdAt) l.spoken l.rows

/-- **What `record` does**: it writes a row for a line that is allowed, or it
writes none and allows none. -/
theorem record_cases (g : Governor) (rows : List Line) (r : Request) :
    (∃ line, line.createdAt = r.createdAt ∧ (allow g rows r).allowed = true ∧
      record g rows r = (.ok (allow g rows r), rows ++ [line])) ∨
    ((record g rows r).2 = rows ∧
      ∀ d, (record g rows r).1 = .ok d → d.allowed = false) := by
  unfold record
  cases sanitizeSpeech r.text with
  | error reason => exact .inr ⟨rfl, nofun⟩
  | ok clean =>
    dsimp only
    cases hallowed : (allow g rows r).allowed with
    | false =>
      refine .inr ⟨rfl, fun d hd => ?_⟩
      obtain rfl := Except.ok.inj hd
      exact hallowed
    | true =>
      have hrow : (∃ reason, recordChatter rows r clean = .error reason) ∨
          recordChatter rows r clean = .ok (rows ++ [⟨r.createdAt, r.eventKey, r.channel, clean⟩]) := by
        unfold recordChatter
        split
        · exact .inl ⟨_, rfl⟩
        split
        · exact .inl ⟨_, rfl⟩
        split
        · exact .inl ⟨_, rfl⟩
        · exact .inr rfl
      rcases hrow with ⟨reason, hrow⟩ | hrow
      · rw [hrow]
        exact .inr ⟨rfl, nofun⟩
      · rw [hrow]
        exact .inl ⟨_, rfl, rfl, rfl⟩

/-- A line that `record` allows was allowed by `allow`. -/
theorem allow_of_allows {op : Op} (hr : op.request? = some r)
    (hallows : l.allows g op = true) : (allow g l.rows r).allowed = true := by
  cases op with
  | restart => cases hr
  | allow r' =>
    obtain rfl := Option.some.inj hr
    exact hallows
  | record r' =>
    obtain rfl := Option.some.inj hr
    unfold Log.allows Log.decision at hallows
    rcases record_cases g l.rows r' with ⟨line, -, hallowed, -⟩ | ⟨-, hno⟩
    · exact hallowed
    · dsimp only at hallows
      cases hd : (record g l.rows r').1 with
      | error reason =>
        rw [hd] at hallows
        cases hallows
      | ok d =>
        rw [hd] at hallows
        have hyes : d.allowed = true := hallows
        rw [hno d hd] at hyes
        cases hyes

theorem allows_record : l.allows g (.record r) =
    (record g l.rows r).1.toOption.any Decision.allowed := rfl

theorem step_record : l.step g (.record r) = ⟨(record g l.rows r).2,
    if l.allows g (.record r) then l.spoken ++ [r.current] else l.spoken⟩ := rfl

theorem Recorded.step (h : Recorded l) (op : Op) : Recorded (l.step g op) := by
  cases op with
  | allow r => exact h
  | restart => exact h
  | record r =>
    have hallows := allows_record (g := g) (l := l) (r := r)
    have hstep := step_record (g := g) (l := l) (r := r)
    unfold Recorded at h ⊢
    rcases record_cases g l.rows r with ⟨line, hcreated, hallowed, hrecord⟩ | ⟨hrows, hno⟩
    · rw [hrecord] at hallows hstep
      rw [hstep, if_pos (hallows.trans hallowed)]
      refine List.rel_append h (.cons ?_ .nil)
      rw [hcreated]
      exact current_le_createdAt r
    · have hfalse : l.allows g (.record r) = false := by
        rw [hallows]
        cases hd : (record g l.rows r).1 with
        | error reason => rfl
        | ok d => exact hno d hd
      rw [hstep, hrows, if_neg (by simp [hfalse])]
      exact h

/-- The rows of the last hour are at least the lines spoken in it. -/
theorem countP_spoken_le {spoken : List ℤ}
    (h : List.Forall₂ (fun t line => t ≤ line.createdAt) spoken rows) (since : ℤ) :
    spoken.countP (fun t => since ≤ t) ≤ rows.countP fun line => since ≤ line.createdAt := by
  induction h with
  | nil => exact le_rfl
  | cons hle _ ih =>
    rw [List.countP_cons, List.countP_cons]
    split
    · rename_i hin
      rw [decide_eq_true_eq] at hin
      rw [if_pos (by rw [decide_eq_true_eq]; omega)]
      omega
    · split <;> omega

/-- **The law of one request**, where the pause is at most an hour and a
second, or no line is ever allowed. -/
theorem Recorded.law (h : Recorded l) {op : Op} (hr : op.request? = some r)
    (hallows : l.allows g op = true) (hpause : g.minInterval ≤ 3601 ∨ g.hourlyLimit ≤ 0) :
    Law g l r := by
  intro hpriority
  obtain ⟨hcount, hrows⟩ := allow_spec hpriority (allow_of_allows hr hallows)
  have hpause : g.minInterval ≤ 3601 := by
    rcases hpause with hle | hle
    · exact hle
    · omega
  unfold Recorded at h
  constructor
  · intro t ht
    obtain ⟨n, hn⟩ := List.mem_iff_getElem?.mp ht
    obtain ⟨line, hline, hle⟩ : ∃ line ∈ l.rows, t ≤ line.createdAt := by
      obtain ⟨hlen, hget⟩ := List.forall₂_iff_get.mp h
      obtain ⟨hbound, rfl⟩ := List.getElem?_eq_some_iff.mp hn
      exact ⟨_, List.getElem_mem (hlen ▸ hbound), hget n hbound (hlen ▸ hbound)⟩
    by_cases hrecent : r.current - 3600 ≤ line.createdAt
    · have hgap := hrows line hline hrecent
      omega
    · omega
  · have hcounts := countP_spoken_le h (r.current - 3600)
    omega

/-- Every spoken line has its row after every run. -/
theorem recorded_run (g : Governor) (ops : List Op) :
    Recorded (Machine.run (Log.step g) Log.start ops) := by
  induction ops using List.reverseRecOn with
  | nil => exact .nil
  | append_singleton ops op ih =>
    rw [Machine.run_snoc]
    exact ih.step op

end

/-! ## Which pauses are kept -/

/-- A line at this time. -/
def ask (now : ℤ) : Request where
  eventKey := PyText.lit "event-1"
  channel := PyText.lit "game"
  text := PyText.lit "Noted."
  now := some now
  priority := 1
  wall := 0
  later := 0
  wall_le := le_rfl

/-- A line is spoken, and one more an hour and a second later. -/
def anHourApart : List Op := [.record (ask 1), .allow (ask 3602)]

/-- The first of them is spoken. -/
theorem record_first {g : Governor} (hlimit : 0 < g.hourlyLimit) : record g [] (ask 1) =
    (.ok ⟨true, "allowed"⟩, [⟨1, PyText.lit "event-1", PyText.lit "game", PyText.lit "Noted."⟩]) := by
  have hclean : sanitizeSpeech (ask 1).text = .ok (PyText.lit "Noted.") := by decide +kernel
  have hallow : allow g [] (ask 1) = ⟨true, "allowed"⟩ := by
    have hnone : ¬ (g.hourlyLimit ≤ 0) := by omega
    unfold allow chatterSince
    dsimp only [List.filter_nil, List.mergeSort_nil]
    simp [hnone]
  unfold record
  rw [hclean]
  dsimp only
  rw [hallow]
  rfl

/-- The second is allowed. -/
theorem allow_second {g : Governor} (hlimit : 0 < g.hourlyLimit) :
    (allow g [⟨1, PyText.lit "event-1", PyText.lit "game", PyText.lit "Noted."⟩] (ask 3602)).allowed =
      true := by
  have hnone : ¬ (g.hourlyLimit ≤ 0) := by omega
  have hpast : chatterSince [⟨1, PyText.lit "event-1", PyText.lit "game", PyText.lit "Noted."⟩]
      ((ask 3602).current - 3600) = [] := by decide +kernel
  unfold allow
  rw [hpast]
  simp [hnone]

/-- **A longer pause is not kept.** -/
theorem not_kept_anHourApart {g : Governor} (hpause : 3601 < g.minInterval) (hlimit : 0 < g.hourlyLimit) :
    ¬ Kept g anHourApart := by
  have hrecord : record g Log.start.rows (ask 1) = (.ok ⟨true, "allowed"⟩,
      [⟨1, PyText.lit "event-1", PyText.lit "game", PyText.lit "Noted."⟩]) := record_first hlimit
  have hallows : Log.start.allows g (.record (ask 1)) = true := by
    rw [allows_record, hrecord]
    rfl
  have hfirst : Log.start.step g (.record (ask 1)) =
      ⟨[⟨1, PyText.lit "event-1", PyText.lit "game", PyText.lit "Noted."⟩], [1]⟩ := by
    rw [step_record, if_pos hallows, hrecord]
    rfl
  intro h
  have hlaw := h [.record (ask 1)] (.allow (ask 3602)) [] (ask 3602) rfl rfl
  rw [Machine.run_cons, Machine.run_nil, hfirst] at hlaw
  have hgap := (hlaw (allow_second hlimit) (by decide)).1 1 List.mem_cons_self
  have hcurrent : (ask 3602).current = 3602 := rfl
  omega

/-- A pause of two hours. -/
theorem not_kept_two_hours : ¬ Kept { minInterval := 7200 } anHourApart :=
  not_kept_anHourApart (by decide) (by decide)

/-- **The rate law**: every run over a clock that does not go back keeps it
exactly when the pause is at most an hour and a second, or no line is ever
allowed. -/
theorem kept_iff (g : Governor) :
    (∀ ops : List Op, ((ops.filterMap Op.request?).map Request.current).Pairwise (· ≤ ·) →
      Kept g ops) ↔ g.minInterval ≤ 3601 ∨ g.hourlyLimit ≤ 0 := by
  constructor
  · intro h
    by_contra hno
    rw [not_or] at hno
    obtain ⟨hpause, hlimit⟩ := hno
    exact not_kept_anHourApart (by omega) (by omega) (h anHourApart (by decide))
  · rintro hpause ops - front op rest r - hr hallows
    exact (recorded_run g front).law hr hallows hpause

end Chatter

end GoblinZomboid
