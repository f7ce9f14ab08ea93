import GoblinZomboid.Lib.Script
import Mathlib.Data.List.Basic
/-!
# Scripts that can fail

An attempt is a script that ends with a value or with an error. Its
specification has one exit for the value and one for everything else: an
error leaves, and a stop leaves, a state that meets the same condition.
-/

/-- A script that ends with a value or an error. -/
abbrev Attempt (σ τ ε α : Type) : Type := ExceptT ε (Script σ τ) α

namespace Attempt

variable {σ τ ε α β : Type}

/-- Read the state. -/
def get : Attempt σ τ ε σ := ExceptT.mk (Script.get >>= fun s => pure (.ok s))

/-- A step of the script's own, which may fail. -/
def state (f : σ → Except ε α × σ) : Attempt σ τ ε α :=
  ExceptT.mk (Script.get >>= fun s => Script.modify (fun s => (f s).2) >>= fun _ => pure (f s).1)

/-- A step that cannot fail. -/
def modify (f : σ → σ) : Attempt σ τ ε Unit := state fun s => (.ok (), f s)

/-- A call, which the turn answers, fails or stops. -/
def call (f : τ → σ → Option (Except ε α) × σ) : Attempt σ τ ε α := ExceptT.mk (Script.call f)

/-- The computation is an error or a value. -/
def lift (x : Except ε α) : Attempt σ τ ε α := ExceptT.mk (pure x)

/-- An attempt that is made on a condition. -/
def when (c : Bool) (m : Attempt σ τ ε Unit) : Attempt σ τ ε Unit := if c then m else pure ()

/-- One attempt for each element. -/
def each (f : α → Attempt σ τ ε Unit) : List α → Attempt σ τ ε Unit
  | [] => pure ()
  | a :: rest => do
    f a
    each f rest

/-- An attempt so many times. -/
def times (m : Attempt σ τ ε Unit) : ℕ → Attempt σ τ ε Unit
  | 0 => pure ()
  | n + 1 => do
    m
    times m n

/-- **A specification**: from `P`, the attempt ends with `Q`, or fails or is
stopped with `E`. -/
def Holds (P : σ → Prop) (m : Attempt σ τ ε α) (Q : α → σ → Prop) (E : σ → Prop) : Prop :=
  Script.Holds P m.run (fun r s => match r with
    | .ok a => Q a s
    | .error _ => E s) E

variable {P P' R' : σ → Prop} {Q Q' : α → σ → Prop} {R : β → σ → Prop} {E E' : σ → Prop}

theorem Holds.pure {a : α} (h : ∀ s, P s → Q a s) :
    Holds P (Pure.pure a : Attempt σ τ ε α) Q E := Script.Holds.pure h

theorem Holds.throw {e : ε} (h : ∀ s, P s → E s) :
    Holds P (throw e : Attempt σ τ ε α) Q E := Script.Holds.pure h

theorem Holds.lift {x : Except ε α} (hok : ∀ a s, x = .ok a → P s → Q a s)
    (herror : ∀ s, P s → E s) : Holds P (Attempt.lift x : Attempt σ τ ε α) Q E := by
  refine Script.Holds.pure fun s hs => ?_
  cases x with
  | ok a => exact hok a s rfl hs
  | error e => exact herror s hs

/-- One attempt after another. -/
theorem Holds.bind {m : Attempt σ τ ε α} {f : α → Attempt σ τ ε β} (hm : Holds P m Q E)
    (hf : ∀ a, Holds (Q a) (f a) R E) : Holds P (m >>= f) R E := by
  refine Script.Holds.bind hm fun r => ?_
  cases r with
  | ok a => exact hf a
  | error e => exact Script.Holds.pure fun _ hs => hs

/-- An attempt whose errors are handled. -/
theorem Holds.tryCatch {m : Attempt σ τ ε α} {f : ε → Attempt σ τ ε α} (hm : Holds P m Q E')
    (hf : ∀ e, Holds E' (f e) Q E) (hstop : ∀ s, E' s → E s) :
    Holds P (tryCatch m f) Q E := by
  have hm' : Script.Holds P m.run (fun r s => match r with
      | .ok a => Q a s
      | .error _ => E' s) E := by
    intro s ts hs
    have hrun := hm s ts hs
    generalize m.run s ts = r at hrun ⊢
    obtain ⟨_ | _, _⟩ := r
    · exact hstop _ hrun
    · exact hrun
  refine Script.Holds.bind hm' fun r => ?_
  cases r with
  | ok a => exact Script.Holds.pure fun _ hs => hs
  | error e => exact hf e

theorem Holds.get {Q : σ → σ → Prop} (h : ∀ s, P s → Q s s) :
    Holds P (Attempt.get : Attempt σ τ ε σ) Q E :=
  Script.Holds.bind (Q := fun a s => Q a s) (Script.Holds.get h) fun _ =>
    Script.Holds.pure fun _ hs => hs

theorem Holds.state {f : σ → Except ε α × σ} (hok : ∀ s a, P s → (f s).1 = .ok a → Q a (f s).2)
    (herror : ∀ s e, P s → (f s).1 = .error e → E (f s).2) :
    Holds P (Attempt.state f : Attempt σ τ ε α) Q E := by
  intro s ts hs
  show match (f s).1 with
    | .ok a => Q a (f s).2
    | .error _ => E (f s).2
  split
  · rename_i a ha
    exact hok s a hs ha
  · rename_i e he
    exact herror s e hs he

theorem Holds.modify {f : σ → σ} {Q : Unit → σ → Prop} (h : ∀ s, P s → Q () (f s)) :
    Holds P (Attempt.modify f : Attempt σ τ ε Unit) Q E :=
  Holds.state (fun s _ hs _ => h s hs) nofun

/-- A call: every turn answers with `Q`, or fails or stops with `E`. -/
theorem Holds.call {f : τ → σ → Option (Except ε α) × σ}
    (h : ∀ t s, P s → match (f t s).1 with
      | some (.ok a) => Q a (f t s).2
      | _ => E (f t s).2) :
    Holds P (Attempt.call f) Q E := by
  refine Script.Holds.call fun t s hs => ⟨fun r hr => ?_, fun hr => ?_⟩
  · have hans := h t s hs
    rw [hr] at hans
    cases r <;> exact hans
  · have hans := h t s hs
    rwa [hr] at hans

theorem Holds.mono {m : Attempt σ τ ε α} (h : Holds P m Q E) (hP : ∀ s, P' s → P s)
    (hQ : ∀ a s, Q a s → Q' a s) (hE : ∀ s, E s → E' s) : Holds P' m Q' E' := by
  intro s ts hs
  have hrun := h s ts (hP s hs)
  generalize m.run s ts = r at hrun ⊢
  obtain ⟨_ | ⟨_ | _, _⟩, _⟩ := r
  · exact hE _ hrun
  · exact hE _ hrun
  · exact hQ _ _ hrun

/-- Only what is known at the end is weakened. -/
theorem Holds.weaken {m : Attempt σ τ ε α} (h : Holds P m Q E) (hQ : ∀ a s, Q a s → Q' a s)
    (hE : ∀ s, E s → E' s) : Holds P m Q' E' := h.mono (fun _ h => h) hQ hE

/-- A specification can be shown from one state at a time. -/
theorem Holds.pointwise {m : Attempt σ τ ε α}
    (h : ∀ s, P s → Holds (fun s' => s' = s) m Q E) : Holds P m Q E := fun s ts hs =>
  h s hs s ts rfl

/-- A fact about the start that does not speak of the state can be used
throughout. -/
theorem Holds.assume {p : Prop} {m : Attempt σ τ ε α} (h : p → Holds P m Q E) :
    Holds (fun s => p ∧ P s) m Q E := fun s ts hs => h hs.1 s ts hs.2

theorem Holds.ite {c : Prop} [Decidable c] {m m' : Attempt σ τ ε α}
    (hm : c → Holds P m Q E) (hm' : ¬c → Holds P m' Q E) :
    Holds P (if c then m else m') Q E := by
  by_cases hc : c
  · rw [if_pos hc]
    exact hm hc
  · rw [if_neg hc]
    exact hm' hc

theorem Holds.when {c : Bool} {m : Attempt σ τ ε Unit} (hm : c = true → Holds P m (fun _ => R') E)
    (hskip : c = false → ∀ s, P s → R' s) : Holds P (Attempt.when c m) (fun _ => R') E := by
  unfold Attempt.when
  refine Holds.ite hm fun hc => Holds.pure fun s hs => hskip (Bool.eq_false_iff.2 hc) s hs

/-- **A fact the attempt keeps**, however it ends. -/
def Keeps (I : σ → Prop) (m : Attempt σ τ ε α) : Prop := Holds I m (fun _ s => I s) I

variable {I : σ → Prop}

theorem Keeps.pure (a : α) : Keeps I (Pure.pure a : Attempt σ τ ε α) := Holds.pure fun _ h => h

theorem Keeps.lift (x : Except ε α) : Keeps I (Attempt.lift x : Attempt σ τ ε α) :=
  Holds.lift (fun _ _ _ h => h) fun _ h => h

theorem Keeps.get : Keeps I (Attempt.get : Attempt σ τ ε σ) := Holds.get fun _ h => h

theorem Keeps.bind {m : Attempt σ τ ε α} {f : α → Attempt σ τ ε β} (hm : Keeps I m)
    (hf : ∀ a, Keeps I (f a)) : Keeps I (m >>= f) := Holds.bind hm hf

theorem Keeps.tryCatch {m : Attempt σ τ ε α} {f : ε → Attempt σ τ ε α} (hm : Keeps I m)
    (hf : ∀ e, Keeps I (f e)) : Keeps I (tryCatch m f) := Holds.tryCatch hm hf fun _ h => h

theorem Keeps.state {f : σ → Except ε α × σ} (h : ∀ s, I s → I (f s).2) :
    Keeps I (Attempt.state f : Attempt σ τ ε α) :=
  Holds.state (fun s _ hs _ => h s hs) fun s _ hs _ => h s hs

theorem Keeps.modify {f : σ → σ} (h : ∀ s, I s → I (f s)) :
    Keeps I (Attempt.modify f : Attempt σ τ ε Unit) := Keeps.state h

theorem Keeps.call {f : τ → σ → Option (Except ε α) × σ} (h : ∀ t s, I s → I (f t s).2) :
    Keeps I (Attempt.call f) := by
  refine Holds.call fun t s hs => ?_
  split <;> exact h t s hs

theorem Keeps.ite {c : Prop} [Decidable c] {m m' : Attempt σ τ ε α} (hm : Keeps I m)
    (hm' : Keeps I m') : Keeps I (if c then m else m') := Holds.ite (fun _ => hm) fun _ => hm'

theorem Keeps.when {c : Bool} {m : Attempt σ τ ε Unit} (hm : Keeps I m) :
    Keeps I (Attempt.when c m) := Holds.when (fun _ => hm) fun _ _ hs => hs

theorem Keeps.each {f : α → Attempt σ τ ε Unit} (h : ∀ a, Keeps I (f a)) (l : List α) :
    Keeps I (Attempt.each f l) := by
  induction l with
  | nil => exact .pure ()
  | cons a l ih => exact .bind (h a) fun _ => ih

theorem Keeps.times {m : Attempt σ τ ε Unit} (h : Keeps I m) (n : ℕ) :
    Keeps I (Attempt.times m n) := by
  induction n with
  | zero => exact .pure ()
  | succ n ih => exact .bind h fun _ => ih

/-- What holds however an attempt ends holds of the state it leaves. -/
theorem Holds.after {I J : σ → Prop} {m : Attempt σ τ ε α} (h : Holds I m (fun _ => J) J) {s : σ}
    (hs : I s) (ts : Turns τ) : J (m.run s ts).2 := by
  have hrun := h s ts hs
  generalize m.run s ts = r at hrun ⊢
  obtain ⟨_ | ⟨_ | _, _⟩, _⟩ := r
  · exact hrun
  · exact hrun
  · exact hrun

/-- What an attempt keeps holds of the state it leaves. -/
theorem Keeps.after {m : Attempt σ τ ε α} (h : Keeps I m) {s : σ} (hs : I s) (ts : Turns τ) :
    I (m.run s ts).2 := Holds.after h hs ts

end Attempt
