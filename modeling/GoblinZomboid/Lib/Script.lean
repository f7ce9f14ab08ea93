import Mathlib.Data.Nat.Notation
/-!
# Scripts that call an unreliable outside

A script works on a state and calls an outside it cannot rely on. What
each call does is decided by a turn: a turn can let the outside act, make
the call fail, or stop the script for good. A script that is stopped
leaves the state behind; stopped before every one of its calls in turn,
it leaves every state in between, so what holds of all stopped runs holds
at every point of a run.
-/

/-- The turns to come, one for each call. -/
abbrev Turns (τ : Type) := ℕ → τ

/-- A script: what it returns with the turns that are left, if it is not
stopped, and the state it leaves. -/
def Script (σ τ α : Type) : Type := σ → Turns τ → Option (α × Turns τ) × σ

namespace Script

variable {σ τ α β : Type}

instance : Monad (Script σ τ) where
  pure a := fun s ts => (some (a, ts), s)
  bind m f := fun s ts =>
    match m s ts with
    | (some (a, ts), s) => f a s ts
    | (none, s) => (none, s)

/-- Read the state. -/
def get : Script σ τ σ := fun s ts => (some (s, ts), s)

/-- A step of the script's own. -/
def modify (f : σ → σ) : Script σ τ Unit := fun s ts => (some ((), ts), f s)

/-- A call: the turn decides the answer, none where the script is stopped. -/
def call (f : τ → σ → Option α × σ) : Script σ τ α := fun s ts =>
  match f (ts 0) s with
  | (some a, s) => (some (a, fun n => ts (n + 1)), s)
  | (none, s) => (none, s)

theorem bind_of_some {m : Script σ τ α} {f : α → Script σ τ β} {s s' : σ} {ts ts' : Turns τ} {a : α}
    (h : m s ts = (some (a, ts'), s')) : (m >>= f) s ts = f a s' ts' := by
  show (match m s ts with
    | (some (a, ts), s) => f a s ts
    | (none, s) => (none, s)) = _
  rw [h]

theorem bind_of_none {m : Script σ τ α} {f : α → Script σ τ β} {s s' : σ} {ts : Turns τ}
    (h : m s ts = (none, s')) : (m >>= f) s ts = (none, s') := by
  show (match m s ts with
    | (some (a, ts), s) => f a s ts
    | (none, s) => (none, s)) = _
  rw [h]

theorem call_eq (f : τ → σ → Option α × σ) (s : σ) (ts : Turns τ) :
    call f s ts = ((f (ts 0) s).1.map fun a => (a, fun n => ts (n + 1)), (f (ts 0) s).2) := by
  unfold call
  obtain ⟨_ | a, s'⟩ := f (ts 0) s <;> rfl

/-! ## What every run keeps -/

/-- **A specification with a stop condition**: from `P`, the script ends
with `Q`, or is stopped with `C`. -/
def Holds (P : σ → Prop) (m : Script σ τ α) (Q : α → σ → Prop) (C : σ → Prop) : Prop :=
  ∀ s ts, P s →
    match m s ts with
    | (some (a, _), s') => Q a s'
    | (none, s') => C s'

variable {P P' : σ → Prop} {Q Q' : α → σ → Prop} {R : β → σ → Prop} {C : σ → Prop}

theorem Holds.pure {a : α} (h : ∀ s, P s → Q a s) :
    Holds P (Pure.pure a : Script σ τ α) Q C := fun s _ hs => h s hs

theorem Holds.get {Q : σ → σ → Prop} (h : ∀ s, P s → Q s s) :
    Holds P (Script.get : Script σ τ σ) Q C := fun s _ hs => h s hs

theorem Holds.modify {f : σ → σ} {Q : Unit → σ → Prop} (h : ∀ s, P s → Q () (f s)) :
    Holds P (Script.modify f : Script σ τ Unit) Q C := fun s _ hs => h s hs

/-- One script after another. -/
theorem Holds.bind {m : Script σ τ α} {f : α → Script σ τ β} (hm : Holds P m Q C)
    (hf : ∀ a, Holds (Q a) (f a) R C) : Holds P (m >>= f) R C := by
  intro s ts hs
  have hfirst := hm s ts hs
  show match (match m s ts with
    | (some (a, ts), s) => f a s ts
    | (none, s) => (none, s)) with
    | (some (b, _), s') => R b s'
    | (none, s') => C s'
  cases hrun : m s ts with
  | mk result s' =>
    rw [hrun] at hfirst
    cases result with
    | none => exact hfirst
    | some result => exact hf result.1 s' result.2 hfirst

/-- A call: every turn answers with `Q`, or stops with `C`. -/
theorem Holds.call {f : τ → σ → Option α × σ}
    (h : ∀ t s, P s →
      (∀ a, (f t s).1 = some a → Q a (f t s).2) ∧ ((f t s).1 = none → C (f t s).2)) :
    Holds P (Script.call f) Q C := by
  intro s ts hs
  obtain ⟨hsome, hnone⟩ := h (ts 0) s hs
  unfold Script.call
  cases hrun : f (ts 0) s with
  | mk answer s' =>
    rw [hrun] at hsome hnone
    cases answer with
    | none => exact hnone rfl
    | some a => exact hsome a rfl

theorem Holds.mono {m : Script σ τ α} (h : Holds P m Q C) (hP : ∀ s, P' s → P s)
    (hQ : ∀ a s, Q a s → Q' a s) : Holds P' m Q' C := by
  intro s ts hs
  have hrun := h s ts (hP s hs)
  generalize m s ts = r at hrun ⊢
  obtain ⟨_ | ⟨a, _⟩, s'⟩ := r
  · exact hrun
  · exact hQ a s' hrun

/-- What a stopped script leaves can be weakened as well. -/
theorem Holds.weaken {m : Script σ τ α} {C' : σ → Prop} (h : Holds P m Q C)
    (hQ : ∀ a s, Q a s → Q' a s) (hC : ∀ s, C s → C' s) : Holds P m Q' C' := by
  intro s ts hs
  have hrun := h s ts hs
  generalize m s ts = r at hrun ⊢
  obtain ⟨_ | ⟨a, _⟩, s'⟩ := r
  · exact hC s' hrun
  · exact hQ a s' hrun

/-- The state the script starts in can be named. -/
theorem Holds.start {m : Script σ τ α} (h : ∀ s₀, P s₀ → Holds (fun s => s = s₀) m Q C) :
    Holds P m Q C := fun s ts hs => h s hs s ts rfl

/-- A fact about no state can be taken out of the condition. -/
theorem Holds.given {p : Prop} {m : Script σ τ α} (h : p → Holds P m Q C) :
    Holds (fun s => P s ∧ p) m Q C := fun s ts hs => h hs.2 s ts hs.1

/-- A condition that is decided before the script runs. -/
theorem Holds.ite {c : Prop} [Decidable c] {m m' : Script σ τ α}
    (hm : c → Holds P m Q C) (hm' : ¬c → Holds P m' Q C) :
    Holds P (if c then m else m') Q C := by
  by_cases hc : c
  · rw [if_pos hc]
    exact hm hc
  · rw [if_neg hc]
    exact hm' hc

/-- **A fact no step of the script changes**, stopped or not. -/
def Keeps (I : σ → Prop) (m : Script σ τ α) : Prop := Holds I m (fun _ s => I s) I

variable {I : σ → Prop}

theorem Keeps.pure (a : α) : Keeps I (Pure.pure a : Script σ τ α) := fun _ _ hs => hs

theorem Keeps.get : Keeps I (Script.get : Script σ τ σ) := fun _ _ hs => hs

theorem Keeps.modify {f : σ → σ} (h : ∀ s, I s → I (f s)) :
    Keeps I (Script.modify f : Script σ τ Unit) := fun s _ hs => h s hs

theorem Keeps.bind {m : Script σ τ α} {f : α → Script σ τ β} (hm : Keeps I m)
    (hf : ∀ a, Keeps I (f a)) : Keeps I (m >>= f) := Holds.bind hm hf

theorem Keeps.call {f : τ → σ → Option α × σ} (h : ∀ t s, I s → I (f t s).2) :
    Keeps I (Script.call f) := Holds.call fun t s hs => ⟨fun _ _ => h t s hs, fun _ => h t s hs⟩

theorem Keeps.ite {c : Prop} [Decidable c] {m m' : Script σ τ α} (hm : Keeps I m)
    (hm' : Keeps I m') : Keeps I (if c then m else m') :=
  Holds.ite (fun _ => hm) fun _ => hm'

/-- What a script keeps holds of the state it leaves. -/
theorem Keeps.after {m : Script σ τ α} (h : Keeps I m) {s : σ} (hs : I s) (ts : Turns τ) :
    I (m s ts).2 := by
  have hrun := h s ts hs
  generalize m s ts = r at hrun ⊢
  obtain ⟨_ | _, s'⟩ := r
  · exact hrun
  · exact hrun

/-! ## Runs where every turn is the same -/

/-- **A steady run**: the script answers `a` and leaves `s'` when every turn
is `t`. -/
def Steady (t : τ) (m : Script σ τ α) (s : σ) (a : α) (s' : σ) : Prop :=
  m s (fun _ => t) = (some (a, fun _ => t), s')

variable {t : τ} {s s' s'' : σ}

theorem Steady.pure (a : α) : Steady t (Pure.pure a : Script σ τ α) s a s := rfl

theorem Steady.get : Steady t (Script.get : Script σ τ σ) s s s := rfl

theorem Steady.modify (f : σ → σ) : Steady t (Script.modify f : Script σ τ Unit) s () (f s) := rfl

theorem Steady.bind {m : Script σ τ α} {f : α → Script σ τ β} {a : α} {b : β}
    (hm : Steady t m s a s') (hf : Steady t (f a) s' b s'') : Steady t (m >>= f) s b s'' := by
  show (match m s (fun _ => t) with
    | (some (a, ts), s) => f a s ts
    | (none, s) => (none, s)) = _
  rw [show m s (fun _ => t) = (some (a, fun _ => t), s') from hm]
  exact hf

theorem Steady.call {f : τ → σ → Option α × σ} {a : α} (h : f t s = (some a, s')) :
    Steady t (Script.call f) s a s' := by
  unfold Steady Script.call
  rw [h]

/-- What a steady run returns and leaves is unique. -/
theorem Steady.unique {m : Script σ τ α} {a a' : α} (h : Steady t m s a s')
    (h' : Steady t m s a' s'') : a' = a ∧ s'' = s' := by
  have heq := h'.symm.trans h
  simp only [Prod.mk.injEq, Option.some.injEq, and_true] at heq
  exact heq

/-- A steady run meets every specification. -/
theorem Holds.steady {m : Script σ τ α} {a : α} (h : Holds P m Q C) (hs : P s)
    (hrun : Steady t m s a s') : Q a s' := by
  have hpost := h s (fun _ => t) hs
  rwa [show m s (fun _ => t) = (some (a, fun _ => t), s') from hrun] at hpost

/-- A steady run through one branch of a condition. -/
theorem Steady.ite {c : Prop} [Decidable c] {m m' : Script σ τ α} {a : α}
    (hm : c → Steady t m s a s') (hm' : ¬c → Steady t m' s a s') :
    Steady t (if c then m else m') s a s' := by
  by_cases hc : c
  · rw [if_pos hc]
    exact hm hc
  · rw [if_neg hc]
    exact hm' hc

/-! ## Runs whose turns are all of one kind -/

/-- **A run under such turns**: from `P`, the script is not stopped and ends
with `Q` if every turn is `G`. -/
def Ends (G : τ → Prop) (P : σ → Prop) (m : Script σ τ α) (Q : α → σ → Prop) : Prop :=
  ∀ s ts, (∀ n, G (ts n)) → P s →
    ∃ a ts' s', m s ts = (some (a, ts'), s') ∧ (∀ n, G (ts' n)) ∧ Q a s'

variable {G : τ → Prop}

theorem Ends.pure {a : α} (h : ∀ s, P s → Q a s) : Ends G P (Pure.pure a : Script σ τ α) Q :=
  fun s ts hts hs => ⟨a, ts, s, rfl, hts, h s hs⟩

theorem Ends.get {Q : σ → σ → Prop} (h : ∀ s, P s → Q s s) :
    Ends G P (Script.get : Script σ τ σ) Q := fun s ts hts hs => ⟨s, ts, s, rfl, hts, h s hs⟩

theorem Ends.modify {f : σ → σ} {Q : Unit → σ → Prop} (h : ∀ s, P s → Q () (f s)) :
    Ends G P (Script.modify f : Script σ τ Unit) Q :=
  fun s ts hts hs => ⟨(), ts, f s, rfl, hts, h s hs⟩

theorem Ends.bind {m : Script σ τ α} {f : α → Script σ τ β} (hm : Ends G P m Q)
    (hf : ∀ a, Ends G (Q a) (f a) R) : Ends G P (m >>= f) R := by
  intro s ts hts hs
  obtain ⟨a, ts', s', hrun, hts', ha⟩ := hm s ts hts hs
  rw [bind_of_some hrun]
  exact hf a s' ts' hts' ha

/-- A call that no such turn stops. -/
theorem Ends.call {f : τ → σ → Option α × σ}
    (h : ∀ t s, G t → P s → ∃ a s', f t s = (some a, s') ∧ Q a s') :
    Ends G P (Script.call f) Q := by
  intro s ts hts hs
  obtain ⟨a, s', hrun, ha⟩ := h (ts 0) s (hts 0) hs
  refine ⟨a, _, s', ?_, fun n => hts (n + 1), ha⟩
  rw [call_eq, hrun]
  rfl

theorem Ends.mono {m : Script σ τ α} (h : Ends G P m Q) (hP : ∀ s, P' s → P s)
    (hQ : ∀ a s, Q a s → Q' a s) : Ends G P' m Q' := by
  intro s ts hts hs
  obtain ⟨a, ts', s', hrun, hts', ha⟩ := h s ts hts (hP s hs)
  exact ⟨a, ts', s', hrun, hts', hQ a s' ha⟩

theorem Ends.ite {c : Prop} [Decidable c] {m m' : Script σ τ α}
    (hm : c → Ends G P m Q) (hm' : ¬c → Ends G P m' Q) : Ends G P (if c then m else m') Q := by
  by_cases hc : c
  · rw [if_pos hc]
    exact hm hc
  · rw [if_neg hc]
    exact hm' hc

/-- The state the script starts in can be named. -/
theorem Ends.start {m : Script σ τ α} (h : ∀ s₀, P s₀ → Ends G (fun s => s = s₀) m Q) :
    Ends G P m Q := fun s ts hts hs => h s hs s ts hts rfl

/-- How many of them the script answers with yes, one after the other. -/
def count (f : β → Script σ τ Bool) : List β → Script σ τ ℕ
  | [] => pure 0
  | b :: rest => do
    let yes ← f b
    let n ← count f rest
    pure (if yes then n + 1 else n)

/-- **A loop**: what each round makes of the invariant, the loop makes of it
round after round. -/
theorem Ends.count {γ : Type} {f : β → Script σ τ Bool} {I : γ → σ → Prop} {next : γ → β → γ}
    (hf : ∀ c b, Ends G (I c) (f b) fun _ => I (next c b)) (l : List β) (c : γ) :
    Ends G (I c) (Script.count f l) fun _ => I (l.foldl next c) := by
  induction l generalizing c with
  | nil => exact Ends.pure fun s hs => hs
  | cons b rest ih =>
    exact Ends.bind (hf c b) fun yes => Ends.bind (ih _) fun n => Ends.pure fun s hs => hs

/-- A loop whose rounds all keep a fact keeps it. -/
theorem Ends.each {f : β → Script σ τ Bool} (hf : ∀ b, Ends G P (f b) fun _ => P) {l : List β} :
    Ends G P (Script.count f l) fun _ => P :=
  @Ends.count _ _ _ G Unit f (fun _ => P) (fun c _ => c) (fun _ b => hf b) l ()

end Script
