import GoblinZomboid.Agent.Codec
import GoblinZomboid.Relay.Once
/-!
# `relay.py`: what is in a pulled file

A pass copies a message while the game host may still be writing it. A
copy that does not decode is left without its marker; whether a later pass
makes up for it is decided by what `_pull_file` does with a file that is
already there.
-/

namespace GoblinZomboid

namespace Relay

/-- A file of a channel. -/
abbrev Place := Channel × PyText

/-- The place of a message's file. -/
def Letter.place (p : Letter) (half : Half) : Place := (p.1, half.name p.2)

/-- What someone else does to the folders. -/
inductive Change
  /-- A file of the game host is written anew, or removed. -/
  | remote (e : Place) (x : Option Bytes)
  /-- A local file is. -/
  | here (e : Place) (x : Option Bytes)

def Change.place : Change → Place
  | .remote e _ | .here e _ => e

/-- The folders of the game host, the local ones, and what the relay knows. -/
structure Copies where
  /-- The files of the game host, the latest first. -/
  remote : List (Place × Bytes)
  /-- The local files. -/
  here : Place → Option Bytes
  /-- `_remote_ready`. -/
  remoteReady : Bool
  /-- `_remote_json_seen`. -/
  seen : List Letter
  /-- What this pass found listed. -/
  listed : List (Letter × Half)

/-- What happens at a call: others change files, and the call goes this way. -/
structure Moment where
  changes : List Change
  call : Call

/-- A script of the pulling relay. -/
abbrev Pulling := Script Copies Moment

namespace Copies

/-- What a file of the game host holds. -/
def fetched (w : Copies) (e : Place) : Option Bytes :=
  (w.remote.find? fun entry => entry.1 = e).map Prod.snd

def change (w : Copies) : Change → Copies
  | .remote e x =>
    { w with remote := (x.toList.map fun data => (e, data)) ++ w.remote.filter (·.1 ≠ e) }
  | .here e x => { w with here := Function.update w.here e x }

/-- A local file is there, with this content. -/
def put (w : Copies) (e : Place) (data : Bytes) : Copies :=
  { w with here := Function.update w.here e (some data) }

/-- A call, which answers `missed` where it does not work. -/
def attempt {α : Type} (missed : α) (works : Call → Copies → α × Copies) : Pulling α :=
  Script.call fun moment w =>
    let w := moment.changes.foldl change w
    match moment.call.outcome with
    | .stopped => (none, w)
    | .ok => (some (works moment.call w).1, (works moment.call w).2)
    | .failed | .unheard => (some missed, w)

/-- `_remote_bridge_ready`. -/
def remoteBridgeReady : Pulling Bool := do
  let w ← Script.get
  if w.remoteReady then pure true
  else
    let ready ← attempt false fun _ w => (true, w)
    if ready then
      Script.modify fun w => { w with remoteReady := true }
      pure true
    else pure false

/-- The lines `find` prints. -/
def lines (w : Copies) (c : Channel) (suffix : PyText) (call : Call) : List PyText :=
  call.order ((w.remote.filter fun e => e.1.1 = c && suffix.isSuffixOf e.1.2).map (·.1.2))

/-- The relay found these listed. -/
def note (w : Copies) (c : Channel) (half : Half) (stems : List Stem) : Copies :=
  { w with listed := (stems.map fun s => ((c, s), half)) ++ w.listed }

/-- `_remote_names`, as stems. -/
def remoteNames (c : Channel) (half : Half) : Pulling (List Stem) := do
  let ready ← remoteBridgeReady
  if !ready then pure []
  else
    let printed ← attempt [] fun call w => (w.lines c half.suffix call, w)
    let stems := (((window half.suffix printed).dedup).mergeSort (· ≤ ·)).map
      fun name => name.take (name.length - half.suffix.length)
    Script.modify fun w => w.note c half stems
    pure stems

/-- `_scp` to a temporary name and `os.replace`. -/
def scp (e : Place) : Pulling Bool :=
  attempt false fun _ w =>
    match w.fetched e with
    | some data => (true, w.put e data)
    | none => (false, w)

/-- `_pull_file`. -/
def pullFile (e : Place) (replace : Bool) : Pulling Bool := do
  let w ← Script.get
  if (w.here e).isSome && !replace then pure true else scp e

/-- `_pull_runtime`. -/
def pullRuntime : Pulling ℕ := do
  let stems ← remoteNames .runtime .json
  Script.count (fun s => pullFile (Letter.place (.runtime, s) .json) true) stems

/-- `_write_local_ready`. A marker that could not be flushed is there all
the same. -/
def writeLocalReady (e : Place) : Pulling Bool := do
  let w ← Script.get
  if (w.here e).isSome then pure true
  else
    Script.call fun moment w =>
      let w := moment.changes.foldl change w
      match moment.call.outcome with
      | .stopped => (none, w)
      | .failed => (some false, w)
      | .unheard => (some false, if (w.here e).isSome then w else w.put e [])
      | .ok => (some true, if (w.here e).isSome then w else w.put e [])

/-- The type of a message that may be gated: `decode_message` and
`_json_fallback_type_allowed`. -/
def gated (c : Channel) (data : Bytes) : Bool :=
  match Protocol.decodeMessage data with
  | .error _ => false
  | .ok m => typeAllowed c m.type

/-- `read_bytes`, none where it fails. -/
def readBytes (e : Place) : Pulling (Option Bytes) := attempt none fun _ w => (w.here e, w)

/-- The body of the loop of `_pull_json_fallback`. -/
def fallbackOne (p : Letter) : Pulling Bool := do
  let w ← Script.get
  if List.elem p w.seen then pure false
  else
    let there ← pullFile (p.place .json) false
    if !there then pure false
    else
      let content ← readBytes (p.place .json)
      match content with
      | none => pure false
      | some data =>
        if !gated p.1 data then pure false
        else
          let w ← Script.get
          let already := (w.here (p.place .ready)).isSome
          let written ← writeLocalReady (p.place .ready)
          if written then
            Script.modify fun w => { w with seen := p :: w.seen }
            pure !already
          else pure false

/-- `_pull_json_fallback`. -/
def pullJsonFallback (c : Channel) : Pulling ℕ :=
  if !isFallback c then pure 0
  else do
    let stems ← remoteNames c .json
    Script.count (fun s => fallbackOne (c, s)) stems

/-- The body of the loop of `_pull_ready_channel`. -/
def readyOne (p : Letter) : Pulling Bool := do
  let there ← pullFile (p.place .json) false
  if there then pullFile (p.place .ready) false else pure false

/-- `_pull_ready_channel`. -/
def pullReadyChannel (c : Channel) : Pulling ℕ := do
  let stems ← remoteNames c .ready
  Script.count (fun s => readyOne (c, s)) stems

/-- The loop of `pull`. -/
def pullChannels : List Channel → Pulling ℕ
  | [] => pure 0
  | c :: rest => do
    let marked ← pullReadyChannel c
    let plain ← pullJsonFallback c
    let others ← pullChannels rest
    pure (marked + plain + others)

/-- `pull`. -/
def pull : Pulling ℕ := do
  let snapshots ← pullRuntime
  let others ← pullChannels [.state, .events, .responses, .acks, .archive, .deadletter]
  pure (snapshots + others)

/-- A pass: a relay that was stopped starts anew. -/
def pass (w : Copies) (moments : Turns Moment) : Copies :=
  match pull { w with listed := [] } moments with
  | (some _, w) => w
  | (none, w) => { w with remoteReady := false, seen := [] }

/-- What can happen: a pass; a change between two passes. -/
inductive Op
  | pass (moments : Turns Moment)
  | change (change : Change)

/-- The next state. -/
def step (w : Copies) : Op → Copies
  | .pass moments => w.pass moments
  | .change c => w.change c

/-! ## A message, looked at alone -/

/-- **What becomes of a message**: its local files, whether the relay has
seen it, and which of the two listings of this pass had it. -/
structure Fate where
  json : Option Bytes
  ready : Bool
  seen : Bool
  marked : Bool
  plain : Bool

/-- The message as it is. -/
def fate (w : Copies) (p : Letter) : Fate where
  json := w.here (p.place .json)
  ready := (w.here (p.place .ready)).isSome
  seen := List.elem p w.seen
  marked := List.elem (p, Half.ready) w.listed
  plain := List.elem (p, Half.json) w.listed

/-- The message is there, whole and ready. -/
def Fate.Healed (v : Fate) (data : Bytes) : Prop := v.json = some data ∧ v.ready = true

/-- **When a pass heals.** There is no local copy, or the right one; and a
message that was seen before is there as a whole, or its marker is listed
and there is one to be had. -/
def Fate.Healable (v : Fate) (data : Bytes) (marker listed : Bool) : Prop :=
  (v.json = none ∨ v.json = some data) ∧
    (v.seen = true →
      v.json = some data ∧ v.ready = true ∨ listed = true ∧ (v.ready || marker) = true)

/-- A call that works, while nobody else touches the message. -/
structure Clean (p : Letter) (moment : Moment) : Prop where
  outcome : moment.call.outcome = .ok
  apart : ∀ c ∈ moment.changes, ∀ half, c.place ≠ p.place half

/-- What the game host has of the message, and what became of it. -/
structure At (p : Letter) (data : Bytes) (marker : Bool) (v : Fate) (w : Copies) : Prop where
  json : w.fetched (p.place .json) = some data
  marker : (w.fetched (p.place .ready)).isSome = marker
  fate : w.fate p = v

variable {p : Letter} {data : Bytes} {marker : Bool} {v : Fate} {w : Copies}

/-! ## What others leave alone -/

theorem place_injective {p' : Letter} {half half' : Half} (h : p'.place half' = p.place half) :
    half' = half ∧ p' = p := by
  obtain ⟨hc, hname⟩ := Prod.mk.inj h
  obtain ⟨hhalf, hs⟩ := name_injective hname
  exact ⟨hhalf, Prod.ext hc hs⟩

theorem fetched_change {c : Change} {e : Place} (h : c.place ≠ e) :
    (w.change c).fetched e = w.fetched e := by
  cases c with
  | here e' x => rfl
  | remote e' x =>
    have hne : e' ≠ e := h
    have hnew : (x.toList.map fun data => (e', data)).find? (fun entry => entry.1 = e) = none := by
      rw [List.find?_eq_none]
      intro entry hentry
      obtain ⟨d, -, rfl⟩ := List.mem_map.1 hentry
      simpa using hne
    show (((x.toList.map fun data => (e', data)) ++ w.remote.filter (·.1 ≠ e')).find?
      fun entry => entry.1 = e).map Prod.snd = (w.remote.find? fun entry => entry.1 = e).map Prod.snd
    rw [List.find?_append, hnew, Option.none_or, List.find?_filter]
    congr 2
    funext entry
    by_cases heq : entry.1 = e
    · simp [heq, hne.symm]
    · simp [heq]

theorem here_change {c : Change} {e : Place} (h : c.place ≠ e) :
    (w.change c).here e = w.here e := by
  cases c with
  | remote e' x => rfl
  | here e' x => exact Function.update_of_ne h.symm _ _

theorem fate_eq {w' : Copies} (hhere : ∀ half, w'.here (p.place half) = w.here (p.place half))
    (hseen : List.elem p w'.seen = List.elem p w.seen)
    (hlisted : ∀ half, List.elem (p, half) w'.listed = List.elem (p, half) w.listed) :
    w'.fate p = w.fate p := by
  unfold fate
  rw [hhere, hhere, hseen, hlisted, hlisted]

theorem At.change {c : Change} (h : At p data marker v w) (hc : ∀ half, c.place ≠ p.place half) :
    At p data marker v (w.change c) := by
  refine ⟨?_, ?_, ?_⟩
  · rw [fetched_change (hc .json)]
    exact h.json
  · rw [fetched_change (hc .ready)]
    exact h.marker
  · refine (fate_eq (fun half => here_change (hc half)) ?_ fun half => ?_).trans h.fate
    · cases c <;> rfl
    · cases c <;> rfl

theorem At.changes {moment : Moment} (h : At p data marker v w) (hm : Clean p moment) :
    At p data marker v (moment.changes.foldl Copies.change w) := by
  have hall : ∀ l : List Change, (∀ c ∈ l, ∀ half, c.place ≠ p.place half) →
      ∀ w, At p data marker v w → At p data marker v (l.foldl Copies.change w) := by
    intro l
    induction l with
    | nil => exact fun _ w hw => hw
    | cons c l ih =>
      intro hl w hw
      exact ih (fun c hc => hl c (List.mem_cons_of_mem _ hc)) _
        (hw.change (hl c List.mem_cons_self))
  exact hall _ hm.apart w h

/-- A local file of another message. -/
theorem At.put {e : Place} (h : At p data marker v w) (he : ∀ half, e ≠ p.place half) (d : Bytes) :
    At p data marker v (w.put e d) := by
  have hfate : (w.put e d).fate p = w.fate p :=
    fate_eq (fun half => Function.update_of_ne (he half).symm _ _) rfl fun _ => rfl
  exact ⟨h.json, h.marker, hfate.trans h.fate⟩

/-! ## A step of a pass -/

open Script (Ends)

theorem ends_attempt {α : Type} {missed : α} {works : Call → Copies → α × Copies}
    {Q : α → Copies → Prop}
    (h : ∀ call w, At p data marker v w → Q (works call w).1 (works call w).2) :
    Ends (Clean p) (At p data marker v) (attempt missed works) Q := by
  refine Ends.call fun moment w hm hw => ?_
  refine ⟨(works moment.call (moment.changes.foldl Copies.change w)).1,
    (works moment.call (moment.changes.foldl Copies.change w)).2, ?_, h _ _ (hw.changes hm)⟩
  simp only [hm.outcome]

theorem ends_remoteBridgeReady :
    Ends (Clean p) (At p data marker v) remoteBridgeReady
      fun ready w => ready = true ∧ At p data marker v w := by
  refine Ends.bind (Ends.get (Q := fun _ w => At p data marker v w) fun w hw => hw) fun w₀ => ?_
  refine Ends.ite (fun _ => Ends.pure fun w hw => ⟨rfl, hw⟩) fun _ => ?_
  refine Ends.bind (ends_attempt (Q := fun ready w => ready = true ∧ At p data marker v w)
    fun call w hw => ⟨rfl, hw⟩) fun ready => Ends.ite (fun _ => ?_) fun hready => ?_
  · refine Ends.bind (Ends.modify (Q := fun _ w => At p data marker v w) fun w hw => ?_) fun _ =>
      Ends.pure fun w hw => ⟨rfl, hw⟩
    exact ⟨hw.2.json, hw.2.marker, hw.2.fate⟩
  · exact Ends.pure fun w hw => absurd hw.1 hready

/-- What a listing adds to what is known of the message. -/
def Fate.list (v : Fate) (half : Half) (found : Bool) : Fate :=
  match half with
  | .json => { v with plain := found || v.plain }
  | .ready => { v with marked := found || v.marked }

/-- A listing of the message's channel. -/
theorem At.note (h : At p data marker v w) (half : Half) (stems : List Stem) :
    At p data marker (v.list half (List.elem p.2 stems)) (w.note p.1 half stems) := by
  refine ⟨h.json, h.marker, ?_⟩
  have hfound (half' : Half) : List.elem (p, half') (w.note p.1 half stems).listed =
      (decide (half' = half) && List.elem p.2 stems || List.elem (p, half') w.listed) := by
    unfold Copies.note
    rw [Bool.eq_iff_iff]
    simp only [List.elem_eq_mem, decide_eq_true_eq, List.mem_append, List.mem_map,
      Bool.or_eq_true, Bool.and_eq_true, Prod.mk.injEq]
    refine or_congr_left ⟨?_, ?_⟩
    · rintro ⟨s, hs, hp, rfl⟩
      rw [← hp]
      exact ⟨rfl, hs⟩
    · rintro ⟨rfl, hs⟩
      exact ⟨p.2, hs, rfl, rfl⟩
  rw [← h.fate]
  unfold Copies.fate
  rw [hfound, hfound]
  cases half <;> simp [Fate.list, Copies.note]

/-- A listing of another channel. -/
theorem At.note_apart (h : At p data marker v w) {c : Channel} (hc : c ≠ p.1) (half : Half)
    (stems : List Stem) : At p data marker v (w.note c half stems) := by
  have hfate : (w.note c half stems).fate p = w.fate p := by
    refine fate_eq (fun _ => rfl) rfl fun half' => ?_
    rw [Bool.eq_iff_iff, List.elem_iff, List.elem_iff]
    refine List.mem_append.trans (or_iff_right fun hmem => ?_)
    obtain ⟨s, -, heq⟩ := List.mem_map.1 hmem
    exact hc (congrArg (fun e => e.1.1) heq)
  exact ⟨h.json, h.marker, hfate.trans h.fate⟩

theorem ends_remoteNames {Q : List Stem → Copies → Prop} (c : Channel) (half : Half)
    (h : ∀ stems w, At p data marker v w → Q stems (w.note c half stems)) :
    Ends (Clean p) (At p data marker v) (remoteNames c half) Q := by
  refine Ends.bind ends_remoteBridgeReady fun ready => Ends.start fun w hw => ?_
  obtain ⟨rfl, hw⟩ := hw
  refine Ends.bind ((ends_attempt (Q := fun _ w => At p data marker v w) fun _ w hw => hw).mono
    (fun w hw => hw ▸ ‹_›) fun _ _ h => h) fun printed => ?_
  exact Ends.bind (Ends.modify fun w hw => h _ w hw) fun _ => Ends.pure fun w hw => hw

/-- The copy of another file. -/
theorem ends_pullFile_apart {e : Place} (he : ∀ half, e ≠ p.place half) (replace : Bool) :
    Ends (Clean p) (At p data marker v) (pullFile e replace) fun _ => At p data marker v := by
  refine Ends.bind (Ends.get (Q := fun _ w => At p data marker v w) fun w hw => hw) fun w₀ => ?_
  refine Ends.ite (fun _ => Ends.pure fun w hw => hw) fun _ => ends_attempt fun call w hw => ?_
  cases w.fetched e with
  | none => exact hw
  | some d => exact hw.put he d


/-- The copy of the message's own file. -/
theorem ends_pullFile_json : Ends (Clean p) (At p data marker v) (pullFile (p.place .json) false)
    fun there w => there = true ∧ At p data marker { v with json := some (v.json.getD data) } w := by
  refine Ends.bind (Ends.get (Q := fun w₀ w => w₀ = w ∧ At p data marker v w) fun w hw =>
    ⟨rfl, hw⟩) fun w₀ => Ends.ite (fun hthere => Ends.pure ?_) fun hthere => ?_
  · rintro w ⟨rfl, hw⟩
    refine ⟨rfl, hw.json, hw.marker, ?_⟩
    rw [Bool.not_false, Bool.and_true] at hthere
    have hjson : v.json = w₀.here (p.place .json) := hw.fate ▸ rfl
    obtain ⟨d, hd⟩ := Option.isSome_iff_exists.1 hthere
    rw [hjson, hd, Option.getD_some, ← hd, ← hjson]
    exact hw.fate
  · refine Ends.start fun w hw => ?_
    obtain ⟨rfl, hw⟩ := hw
    have hnone : v.json = none := by
      rw [← hw.fate]
      simpa [fate] using hthere
    refine (ends_attempt (Q := fun there w => there = true ∧
      At p data marker { v with json := some (v.json.getD data) } w) fun call w hw => ?_).mono
      (fun w h => h ▸ hw) fun _ _ h => h
    rw [hw.json]
    refine ⟨rfl, hw.json, hw.marker, ?_⟩
    have hother : p.place .ready ≠ p.place .json := fun h => nomatch (place_injective h).1
    rw [← hw.fate] at hnone ⊢
    rw [hnone]
    unfold fate put
    simp only [Function.update_self, Function.update_of_ne hother, Option.getD_none]

theorem ends_pullFile_ready : Ends (Clean p) (At p data marker v) (pullFile (p.place .ready) false)
    fun _ => At p data marker { v with ready := v.ready || marker } := by
  refine Ends.bind (Ends.get (Q := fun w₀ w => w₀ = w ∧ At p data marker v w) fun w hw =>
    ⟨rfl, hw⟩) fun w₀ => Ends.ite (fun hthere => Ends.pure ?_) fun hthere => ?_
  · rintro w ⟨rfl, hw⟩
    refine ⟨hw.json, hw.marker, ?_⟩
    rw [Bool.not_false, Bool.and_true] at hthere
    have hready : v.ready = true := by
      rw [← hw.fate]
      exact hthere
    rw [hready, Bool.true_or, ← hready]
    exact hw.fate
  · refine Ends.start fun w hw => ?_
    obtain ⟨rfl, hw⟩ := hw
    have hnone : v.ready = false := by
      rw [← hw.fate]
      simpa [fate] using hthere
    refine (ends_attempt (Q := fun _ => At p data marker { v with ready := v.ready || marker })
      fun call w hw => ?_).mono (fun w h => h ▸ hw) fun _ _ h => h
    have hother : p.place .json ≠ p.place .ready := fun h => nomatch (place_injective h).1
    have hmarker := hw.marker
    cases hfetched : w.fetched (p.place .ready) with
    | none =>
      rw [hfetched] at hmarker
      refine ⟨hw.json, hw.marker, ?_⟩
      rw [← hmarker, Option.isSome_none, Bool.or_false]
      exact hw.fate
    | some d =>
      rw [hfetched] at hmarker
      refine ⟨hw.json, hw.marker, ?_⟩
      rw [← hw.fate, ← hmarker]
      unfold fate put
      simp only [Function.update_self, Function.update_of_ne hother, Option.isSome_some,
        Bool.or_true]

/-- A marker for the message, which is there afterwards. -/
theorem ends_writeLocalReady : Ends (Clean p) (At p data marker v) (writeLocalReady (p.place .ready))
    fun written w => written = true ∧ At p data marker { v with ready := true } w := by
  refine Ends.bind (Ends.get (Q := fun w₀ w => w₀ = w ∧ At p data marker v w) fun w hw =>
    ⟨rfl, hw⟩) fun w₀ => Ends.ite (fun hthere => Ends.pure ?_) fun _ => ?_
  · rintro w ⟨rfl, hw⟩
    refine ⟨rfl, hw.json, hw.marker, ?_⟩
    rw [← hthere, ← hw.fate]
    rfl
  · refine Ends.call fun moment w hm hw => ?_
    have hw' := hw.2.changes hm
    simp only [hm.outcome]
    refine ⟨_, _, rfl, rfl, ?_⟩
    generalize moment.changes.foldl Copies.change w = w' at hw' ⊢
    have hother : p.place .json ≠ p.place .ready := fun h => nomatch (place_injective h).1
    by_cases hthere : (w'.here (p.place .ready)).isSome = true
    · rw [if_pos hthere]
      refine ⟨hw'.json, hw'.marker, ?_⟩
      rw [← hthere, ← hw'.fate]
      rfl
    · rw [if_neg hthere]
      refine ⟨hw'.json, hw'.marker, ?_⟩
      rw [← hw'.fate]
      unfold fate put
      simp only [Function.update_self, Function.update_of_ne hother, Option.isSome_some]

theorem ends_writeLocalReady_apart {e : Place} (he : ∀ half, e ≠ p.place half) :
    Ends (Clean p) (At p data marker v) (writeLocalReady e) fun _ => At p data marker v := by
  refine Ends.bind (Ends.get (Q := fun _ w => At p data marker v w) fun w hw => hw) fun w₀ => ?_
  refine Ends.ite (fun _ => Ends.pure fun w hw => hw) fun _ => Ends.call fun moment w hm hw => ?_
  have hw' := hw.changes hm
  simp only [hm.outcome]
  refine ⟨_, _, rfl, ?_⟩
  split
  · exact hw'
  · exact hw'.put he []

/-! ## A pass over the message -/

/-- What `_pull_ready_channel` makes of the message. -/
def Fate.pulled (v : Fate) (data : Bytes) (marker : Bool) : Fate :=
  { v with json := some (v.json.getD data), ready := v.ready || marker }

/-- What `_pull_json_fallback` makes of it. -/
def Fate.fallen (v : Fate) (c : Channel) (data : Bytes) : Fate :=
  if v.seen then v
  else if gated c (v.json.getD data) then
    { v with json := some (v.json.getD data), ready := true, seen := true }
  else { v with json := some (v.json.getD data) }

theorem ends_readyOne : Ends (Clean p) (At p data marker v) (readyOne p)
    fun _ => At p data marker (v.pulled data marker) := by
  refine Ends.bind ends_pullFile_json fun there => Ends.start fun w hw => ?_
  obtain ⟨rfl, hw⟩ := hw
  exact ends_pullFile_ready.mono (fun w h => h ▸ hw) fun _ _ h => h

theorem ends_readyOne_apart {p' : Letter} (h : p' ≠ p) :
    Ends (Clean p) (At p data marker v) (readyOne p') fun _ => At p data marker v := by
  have hapart (half half' : Half) : p'.place half ≠ p.place half' :=
    fun heq => h (place_injective heq).2
  refine Ends.bind (ends_pullFile_apart (hapart _) _) fun there => ?_
  exact Ends.ite (fun _ => ends_pullFile_apart (hapart _) _) fun _ => Ends.pure fun w hw => hw

/-- The message in the fallback: a copy that does not decode stays as it is. -/
theorem ends_fallbackOne : Ends (Clean p) (At p data marker v) (fallbackOne p)
    fun _ => At p data marker (v.fallen p.1 data) := by
  refine Ends.bind (Ends.get (Q := fun w₀ w => w₀ = w ∧ At p data marker v w) fun w hw =>
    ⟨rfl, hw⟩) fun w₀ => Ends.start fun w hw => ?_
  obtain ⟨rfl, hw⟩ := hw
  have hseen : List.elem p w₀.seen = v.seen := by
    rw [← hw.fate]
    rfl
  rw [hseen]
  unfold Fate.fallen
  by_cases hv : v.seen = true
  · rw [if_pos hv, if_pos hv]
    exact Ends.pure fun w h => h ▸ hw
  rw [if_neg hv, if_neg hv]
  refine Ends.bind (ends_pullFile_json.mono (fun w h => h ▸ hw) fun _ _ h => h) fun there =>
    Ends.start fun w hw => ?_
  obtain ⟨rfl, hw⟩ := hw
  rw [if_neg (by simp)]
  refine Ends.bind ((ends_attempt (Q := fun content w => content = some (v.json.getD data) ∧
    At p data marker { v with json := some (v.json.getD data) } w) fun call w hw => ?_).mono
    (fun w h => h ▸ hw) fun _ _ h => h) fun content => Ends.start fun w hw => ?_
  · refine ⟨?_, hw⟩
    have hjson : w.here (p.place .json) = (w.fate p).json := rfl
    rw [hjson, hw.fate]
  obtain ⟨rfl, hw⟩ := hw
  dsimp only
  by_cases hg : gated p.1 (v.json.getD data) = true
  · rw [if_neg (by simp [hg]), if_pos hg]
    refine Ends.bind (Ends.get (Q := fun _ w => At p data marker
      { v with json := some (v.json.getD data) } w) fun w h => h ▸ hw) fun w₁ => ?_
    refine Ends.bind ends_writeLocalReady fun written => Ends.start fun w hw => ?_
    obtain ⟨rfl, hw⟩ := hw
    rw [if_pos rfl]
    refine Ends.bind (Ends.modify (Q := fun _ => At p data marker
      { v with json := some (v.json.getD data), ready := true, seen := true }) fun w h => ?_)
      fun _ => Ends.pure fun w h => h
    subst h
    refine ⟨hw.json, hw.marker, ?_⟩
    have hfate := hw.fate
    unfold fate at hfate ⊢
    injection hfate with hjson hready _ hmarked hplain
    rw [Fate.mk.injEq]
    exact ⟨hjson, hready, by simp, hmarked, hplain⟩
  · rw [if_pos (by simp [hg]), if_neg hg]
    exact Ends.pure fun w h => h ▸ hw

theorem ends_fallbackOne_apart {p' : Letter} (h : p' ≠ p) :
    Ends (Clean p) (At p data marker v) (fallbackOne p') fun _ => At p data marker v := by
  have hapart (half half' : Half) : p'.place half ≠ p.place half' :=
    fun heq => h (place_injective heq).2
  have hget : Ends (Clean p) (At p data marker v) (Script.get : Pulling Copies)
      fun _ => At p data marker v := Ends.get fun w hw => hw
  have hdone (b : Bool) : Ends (Clean p) (At p data marker v) (pure b : Pulling Bool)
      fun _ => At p data marker v := Ends.pure fun w hw => hw
  refine Ends.bind hget fun w₀ => Ends.ite (fun _ => hdone _) fun _ => ?_
  refine Ends.bind (ends_pullFile_apart (hapart _) _) fun there => Ends.ite (fun _ => hdone _)
    fun _ => ?_
  refine Ends.bind (ends_attempt (Q := fun _ => At p data marker v) fun _ w hw => hw)
    fun content => ?_
  cases content with
  | none => exact hdone _
  | some d =>
    refine Ends.ite (fun _ => hdone _) fun _ => Ends.bind hget fun w₁ => ?_
    refine Ends.bind (ends_writeLocalReady_apart (hapart _)) fun written => Ends.ite (fun _ => ?_)
      fun _ => hdone _
    refine Ends.bind (Ends.modify (Q := fun _ => At p data marker v) fun w hw => ?_) fun _ => hdone _
    have hseen : List.elem p (p' :: w.seen) = List.elem p w.seen := by
      rw [Bool.eq_iff_iff, List.elem_iff, List.elem_iff, List.mem_cons]
      exact or_iff_right (Ne.symm h)
    have hfate : Copies.fate { w with seen := p' :: w.seen } p = w.fate p :=
      fate_eq (fun _ => rfl) hseen fun _ => rfl
    exact ⟨hw.json, hw.marker, hfate.trans hw.fate⟩

/-- What a loop over stems makes of the message, if doing it twice is doing
it once. -/
theorem foldl_fate (f : Fate → Fate) (s : Stem) (hf : ∀ v, f (f v) = f v) (stems : List Stem)
    (v : Fate) : stems.foldl (fun v s' => if s' = s then f v else v) v =
      if s ∈ stems then f v else v := by
  induction stems generalizing v with
  | nil => rfl
  | cons s' rest ih =>
    rw [List.foldl_cons, ih]
    by_cases hs : s' = s
    · subst hs
      rw [if_pos rfl, if_pos List.mem_cons_self, hf]
      exact ite_self _
    · rw [if_neg hs]
      exact if_congr (by simp [Ne.symm hs]) rfl rfl

/-- A loop over the stems of the message's channel. -/
theorem ends_count {one : Letter → Pulling Bool} {f : Fate → Fate} (hf : ∀ v, f (f v) = f v)
    (hown : ∀ v, Ends (Clean p) (At p data marker v) (one p) fun _ => At p data marker (f v))
    (hapart : ∀ p' v, p' ≠ p → Ends (Clean p) (At p data marker v) (one p')
      fun _ => At p data marker v) (stems : List Stem) :
    Ends (Clean p) (At p data marker v) (Script.count (fun s => one (p.1, s)) stems)
      fun _ => At p data marker (if p.2 ∈ stems then f v else v) := by
  have hround (v : Fate) (s : Stem) : Ends (Clean p) (At p data marker v) (one (p.1, s))
      fun _ => At p data marker (if s = p.2 then f v else v) := by
    by_cases hs : s = p.2
    · subst hs
      rw [if_pos rfl]
      exact hown v
    · rw [if_neg hs]
      exact hapart _ v fun h => hs (congrArg Prod.snd h)
  have hloop : Ends (Clean p) (At p data marker v) (Script.count (fun s => one (p.1, s)) stems)
      fun _ => At p data marker (stems.foldl (fun v s => if s = p.2 then f v else v) v) :=
    Ends.count hround stems v
  rwa [foldl_fate f p.2 hf] at hloop

/-- A loop over the stems of another channel. -/
theorem ends_count_apart {c : Channel} (hc : c ≠ p.1) {one : Letter → Pulling Bool}
    (hapart : ∀ p' v, p' ≠ p → Ends (Clean p) (At p data marker v) (one p')
      fun _ => At p data marker v) (stems : List Stem) :
    Ends (Clean p) (At p data marker v) (Script.count (fun s => one (c, s)) stems)
      fun _ => At p data marker v :=
  Ends.each fun _ => hapart _ v fun h => hc (congrArg Prod.fst h)

/-- **The channel of the message**, in a pass that starts with nothing
listed. -/
def Fate.channel (v : Fate) (c : Channel) (data : Bytes) (marker marked plain : Bool) : Fate :=
  let v := if marked then Fate.pulled { v with marked := true } data marker else v
  if plain then Fate.fallen { v with plain := true } c data else v

theorem ends_pullReadyChannel :
    Ends (Clean p) (At p data marker v) (pullReadyChannel p.1) fun _ w => ∃ marked,
      At p data marker
        (if marked = true then Fate.pulled { v with marked := true } data marker else v) w := by
  refine Ends.bind (ends_remoteNames (Q := fun stems => At p data marker
    (v.list .ready (List.elem p.2 stems))) _ _ fun stems w hw => hw.note _ _) fun stems => ?_
  have htwice (v : Fate) : (v.pulled data marker).pulled data marker = v.pulled data marker := by
    simp [Fate.pulled]
  refine (ends_count htwice (fun v => ends_readyOne) (fun p' v h => ends_readyOne_apart h)
    stems).mono (fun _ h => h) fun _ w hw => ⟨List.elem p.2 stems, ?_⟩
  by_cases hs : p.2 ∈ stems
  · rw [if_pos hs] at hw
    rw [if_pos (List.elem_iff.2 hs)]
    rwa [List.elem_iff.2 hs] at hw
  · have hf : List.elem p.2 stems = false := by simpa using hs
    rw [if_neg hs, hf] at hw
    rw [hf, if_neg Bool.false_ne_true]
    have hsame : v.list .ready false = v := rfl
    rwa [hsame] at hw

theorem ends_pullJsonFallback (hfallback : isFallback p.1 = true) :
    Ends (Clean p) (At p data marker v) (pullJsonFallback p.1) fun _ w => ∃ plain,
      At p data marker
        (if plain = true then Fate.fallen { v with plain := true } p.1 data else v) w := by
  refine Ends.ite (fun h => by simp [hfallback] at h) fun _ => ?_
  refine Ends.bind (ends_remoteNames (Q := fun stems => At p data marker
    (v.list .json (List.elem p.2 stems))) _ _ fun stems w hw => hw.note _ _) fun stems => ?_
  have htwice (v : Fate) : (v.fallen p.1 data).fallen p.1 data = v.fallen p.1 data := by
    by_cases hv : v.seen = true
    · simp [Fate.fallen, hv]
    · by_cases hg : gated p.1 (v.json.getD data) = true
      · simp [Fate.fallen, hv, hg]
      · simp [Fate.fallen, hv, hg]
  refine (ends_count htwice (fun v => ends_fallbackOne) (fun p' v h => ends_fallbackOne_apart h)
    stems).mono (fun _ h => h) fun _ w hw => ⟨List.elem p.2 stems, ?_⟩
  by_cases hs : p.2 ∈ stems
  · rw [if_pos hs] at hw
    rw [if_pos (List.elem_iff.2 hs)]
    rwa [List.elem_iff.2 hs] at hw
  · have hf : List.elem p.2 stems = false := by simpa using hs
    rw [if_neg hs, hf] at hw
    rw [hf, if_neg Bool.false_ne_true]
    have hsame : v.list .json false = v := rfl
    rwa [hsame] at hw

/-- The channels of a pass, each once. -/
theorem ends_pullChannels (hfallback : isFallback p.1 = true) {l : List Channel} (hl : l.Nodup) :
    Ends (Clean p) (At p data marker v) (pullChannels l) fun _ w => ∃ v', At p data marker v' w ∧
      if p.1 ∈ l then ∃ marked plain, v' = v.channel p.1 data marker marked plain else v' = v := by
  induction l generalizing v with
  | nil => exact Ends.pure fun w hw => ⟨v, hw, rfl⟩
  | cons c rest ih =>
    obtain ⟨hc, hrest⟩ := List.nodup_cons.1 hl
    by_cases hown : c = p.1
    · -- The rest of the pass is about other channels.
      subst hown
      refine Ends.bind ends_pullReadyChannel fun _ => Ends.start fun w hw => ?_
      obtain ⟨marked, hw⟩ := hw
      refine Ends.bind ((ends_pullJsonFallback hfallback).mono (fun w h => h ▸ hw) fun _ _ h => h)
        fun _ => Ends.start fun w hw => ?_
      obtain ⟨plain, hw⟩ := hw
      refine Ends.bind ((ih hrest).mono (fun w h => h ▸ hw) fun _ _ h => h) fun _ =>
        Ends.pure fun w hw => ?_
      obtain ⟨v', hv', hrest'⟩ := hw
      rw [if_neg hc] at hrest'
      refine ⟨v', hv', ?_⟩
      rw [if_pos List.mem_cons_self]
      exact ⟨marked, plain, hrest'⟩
    · have hmem : p.1 ∈ c :: rest ↔ p.1 ∈ rest := by simp [Ne.symm hown]
      have hready : Ends (Clean p) (At p data marker v) (pullReadyChannel c)
          fun _ => At p data marker v := by
        refine Ends.bind (ends_remoteNames (Q := fun _ => At p data marker v) _ _ fun stems w hw =>
          hw.note_apart hown _ _) fun stems => ?_
        exact ends_count_apart hown (fun p' v h => ends_readyOne_apart h) stems
      have hplain : Ends (Clean p) (At p data marker v) (pullJsonFallback c)
          fun _ => At p data marker v := by
        refine Ends.ite (fun _ => Ends.pure fun w hw => hw) fun _ => ?_
        refine Ends.bind (ends_remoteNames (Q := fun _ => At p data marker v) _ _ fun stems w hw =>
          hw.note_apart hown _ _) fun stems => ?_
        exact ends_count_apart hown (fun p' v h => ends_fallbackOne_apart h) stems
      refine Ends.bind hready fun _ => Ends.bind hplain fun _ => Ends.bind (ih hrest) fun _ =>
        Ends.pure fun w hw => ?_
      obtain ⟨v', hv', hrest'⟩ := hw
      exact ⟨v', hv', by rwa [if_congr hmem rfl rfl]⟩

theorem ends_pull (hfallback : isFallback p.1 = true) :
    Ends (Clean p) (At p data marker v) pull fun _ w => ∃ marked plain,
      At p data marker (v.channel p.1 data marker marked plain) w := by
  have hruntime : Channel.runtime ≠ p.1 := by
    intro h
    rw [← h] at hfallback
    cases hfallback
  have hin : p.1 ∈ [Channel.state, .events, .responses, .acks, .archive, .deadletter] := by
    revert hfallback
    cases p.1 <;> decide
  refine Ends.bind (Ends.bind (ends_remoteNames (Q := fun _ => At p data marker v) _ _
    fun stems w hw => hw.note_apart hruntime _ _) fun stems => Ends.each fun s =>
      ends_pullFile_apart (fun half h => hruntime (congrArg Prod.fst h)) _) fun _ => ?_
  · refine Ends.bind (ends_pullChannels hfallback (by decide)) fun _ => Ends.pure fun w hw => ?_
    obtain ⟨v', hv', hchannel⟩ := hw
    rw [if_pos hin] at hchannel
    obtain ⟨marked, plain, rfl⟩ := hchannel
    exact ⟨marked, plain, hv'⟩

/-! ## What a pass heals -/

/-- The channel of a message that is listed and decodes. -/
theorem Fate.healed_channel {c : Channel} (hvalid : gated c data = true) (v : Fate)
    (marker marked : Bool) :
    (v.channel c data marker marked true).Healed data ↔ v.Healable data marker marked := by
  obtain ⟨json, ready, seen, m, n⟩ := v
  unfold Fate.channel Fate.Healed Fate.Healable
  rw [if_pos rfl]
  cases json with
  | none => cases seen <;> cases marked <;> simp [Fate.fallen, Fate.pulled, hvalid]
  | some d =>
    by_cases hd : d = data
    · subst hd
      cases seen <;> cases marked <;> simp [Fate.fallen, Fate.pulled, hvalid]
    · -- The copy that is there stays, whether it decodes or not.
      by_cases hg : gated c d = true
      · cases seen <;> cases marked <;> simp [Fate.fallen, Fate.pulled, hg, hd]
      · cases seen <;> cases marked <;> simp [Fate.fallen, Fate.pulled, hg, hd]

theorem Fate.marked_channel (data : Bytes) (v : Fate) (c : Channel) (marker marked plain : Bool) :
    (v.channel c data marker marked plain).marked = (marked || v.marked) ∧
      (v.channel c data marker marked plain).plain = (plain || v.plain) := by
  have hfallen (v : Fate) :
      (v.fallen c data).marked = v.marked ∧ (v.fallen c data).plain = v.plain := by
    unfold Fate.fallen
    split
    · exact ⟨rfl, rfl⟩
    · split <;> exact ⟨rfl, rfl⟩
  cases marked <;> cases plain <;> simp [Fate.channel, Fate.pulled, hfallen]

/-- **A pass heals exactly from such states.** Whatever passes and changes
came before, the pass whose calls work and whose listing has the message
leaves it whole and ready if and only if no other copy is in the way. -/
theorem healed_iff (w₀ : Copies) (ops : List Op) (moments : Turns Moment) (p : Letter)
    (data : Bytes) (hchannel : isFallback p.1 = true) (hvalid : gated p.1 data = true)
    (hcomplete : (Machine.run step w₀ ops).fetched (p.place .json) = some data)
    (hclean : ∀ n, Clean p (moments n))
    (hlisted : (p, Half.json) ∈ ((Machine.run step w₀ ops).pass moments).listed) :
    (((Machine.run step w₀ ops).pass moments).fate p).Healed data ↔
      ((Machine.run step w₀ ops).fate p).Healable data
        ((Machine.run step w₀ ops).fetched (p.place .ready)).isSome
        (List.elem (p, Half.ready) ((Machine.run step w₀ ops).pass moments).listed) := by
  generalize Machine.run step w₀ ops = w at hcomplete hlisted ⊢
  have hat : At p data (w.fetched (p.place .ready)).isSome
      { w.fate p with marked := false, plain := false } { w with listed := [] } :=
    ⟨hcomplete, rfl, rfl⟩
  obtain ⟨n, moments', w', hrun, -, marked, plain, hw'⟩ := ends_pull hchannel _ moments hclean hat
  have hpass : w.pass moments = w' := by
    unfold pass
    rw [hrun]
  rw [hpass] at hlisted ⊢
  obtain ⟨hmarked, hplain⟩ := Fate.marked_channel data
    { w.fate p with marked := false, plain := false } p.1 (w.fetched (p.place .ready)).isSome marked
    plain
  rw [← hw'.fate] at hmarked hplain
  have hm : List.elem (p, Half.ready) w'.listed = marked := hmarked.trans (Bool.or_false _)
  have hp : plain = true := by
    rw [← Bool.or_false plain, ← hplain]
    exact List.elem_iff.2 hlisted
  subst hp
  rw [hm, hw'.fate]
  exact Fate.healed_channel hvalid _ _ _

/-! ## A partial copy -/

/-- A call that works. -/
def works : Moment := ⟨[], .ok, id, fun l => .refl l⟩

/-- An event, and its text when it is half written. -/
def event : Bytes := Bytes.lit
  "\x7b\"protocol\":2,\"request_id\":\"a\",\"timestamp_ms\":1,\"type\":\"event.chat\"\x7d"

def halfEvent : Bytes := event.take 40

def letter : Letter := (.events, PyText.lit "a")

/-- The game host is writing the event. -/
def writing : Copies where
  remote := [(letter.place .json, halfEvent)]
  here := fun _ => none
  remoteReady := false
  seen := []
  listed := []

/-- A pass meets the event half written; then it is complete. -/
def meeting : List Op := [.pass fun _ => works, .change (.remote (letter.place .json) (some event))]

theorem clean_works (p : Letter) : Clean p works := ⟨rfl, nofun⟩

/-- An event that is complete when it is first listed comes through. -/
theorem healed_iff_first :
    (((Machine.run step writing [.change (.remote (letter.place .json) (some event))]).pass
      fun _ => works).fate letter).Healed event :=
  (healed_iff writing [.change (.remote (letter.place .json) (some event))] (fun _ => works) letter
    event (by decide) (by decide +kernel) (by decide +kernel) (fun _ => clean_works _)
    (by decide +kernel)).2 ⟨Or.inl rfl, nofun⟩

/-- **A half-written event is never copied again**: the pass after it is
complete lists it, and leaves the half that is there. -/
theorem half_event_stays :
    isFallback letter.1 = true ∧ gated letter.1 event = true ∧
      gated letter.1 halfEvent = false ∧
      (writing.pass fun _ => works).here (letter.place .json) = some halfEvent ∧
      (Machine.run step writing meeting).fetched (letter.place .json) = some event ∧
      (letter, Half.json) ∈ ((Machine.run step writing meeting).pass fun _ => works).listed ∧
      ¬(((Machine.run step writing meeting).pass fun _ => works).fate letter).Healed event := by
  have hstays : ((Machine.run step writing meeting).pass fun _ => works).here
      (letter.place .json) = some halfEvent := by decide +kernel
  refine ⟨rfl, by decide +kernel, by decide +kernel, by decide +kernel, by decide +kernel,
    by decide +kernel, fun hhealed => ?_⟩
  have hsame : halfEvent = event := Option.some_inj.1 (hstays.symm.trans hhealed.1)
  exact absurd hsame (by decide)

end Copies

end Relay

end GoblinZomboid
