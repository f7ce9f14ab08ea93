import GoblinZomboid.Lib.Script
/-!
# Scripts that can only read a part of the state

The state is a fixed part and a side. A reading is a script on the side that
is given the fixed part to read, and so cannot change it, whatever its calls
do: what holds of the fixed part before a reading holds after it. What is left
to prove of a reading is what it tells.
-/

/-- A state of two parts. -/
structure Framed (ρ σ : Type) where
  fixed : ρ
  side : σ

/-- A script on the side that can read the fixed part. -/
def Reading (ρ σ τ α : Type) : Type := ρ → Script σ τ α

namespace Reading

variable {ρ σ τ α β : Type}

instance : Monad (Reading ρ σ τ) where
  pure a := fun _ => pure a
  bind m f := fun r => m r >>= fun a => f a r

/-- Read the fixed part. -/
def fixed : Reading ρ σ τ ρ := fun r => pure r

/-- A script on the side. -/
def ofSide (m : Script σ τ α) : Reading ρ σ τ α := fun _ => m

/-- A call that only reads: the turn decides what it tells. -/
def look (f : τ → ρ → σ → α) : Reading ρ σ τ α := fun r =>
  Script.call fun t s => (some (f t r s), s)

/-- An error that stops the script. -/
def fail : Reading ρ σ τ α := fun _ s _ => (none, s)

/-- A reading as a script on the whole state. -/
def lift (m : Reading ρ σ τ α) : Script (Framed ρ σ) τ α := fun w ts =>
  ((m w.fixed w.side ts).1, { w with side := (m w.fixed w.side ts).2 })

/-! ## What a reading tells -/

/-- **What a reading tells**: whatever the side and the turns, its answers are
true of the fixed part. -/
def Tells (m : Reading ρ σ τ α) (φ : ρ → α → Prop) : Prop :=
  ∀ r s ts a ts', (m r s ts).1 = some (a, ts') → φ r a

variable {m : Reading ρ σ τ α} {φ φ' : ρ → α → Prop} {ψ : ρ → β → Prop}

theorem Tells.pure {a : α} (h : ∀ r, φ r a) : Tells (Pure.pure a : Reading ρ σ τ α) φ := by
  intro r s ts b ts' hb
  obtain ⟨rfl, -⟩ := Prod.mk.inj (Option.some.inj hb)
  exact h r

theorem Tells.fail : Tells (fail : Reading ρ σ τ α) φ := fun _ _ _ _ _ h =>
  absurd h.symm (Option.some_ne_none _)

theorem Tells.look {f : τ → ρ → σ → α} (h : ∀ t r s, φ r (f t r s)) :
    Tells (look f : Reading ρ σ τ α) φ := by
  intro r s ts a ts' ha
  obtain ⟨rfl, -⟩ := Prod.mk.inj (Option.some.inj ha)
  exact h _ r s

/-- One reading after another, of the same fixed part. -/
theorem Tells.bind {f : α → Reading ρ σ τ β} (hm : Tells m φ)
    (hf : ∀ a, Tells (f a) fun r b => φ r a → ψ r b) : Tells (m >>= f) ψ := by
  intro r s ts b ts' hb
  have hb : ((m r >>= fun a => f a r) s ts).1 = some (b, ts') := hb
  cases hrun : m r s ts with
  | mk result s' =>
    cases result with
    | none =>
      rw [Script.bind_of_none hrun] at hb
      exact absurd hb.symm (Option.some_ne_none _)
    | some result =>
      rw [Script.bind_of_some hrun] at hb
      refine hf result.1 r s' result.2 b ts' hb (hm r s ts result.1 result.2 ?_)
      rw [hrun]

theorem Tells.mono (h : Tells m φ) (hφ : ∀ r a, φ r a → φ' r a) : Tells m φ' :=
  fun r s ts a ts' ha => hφ r a (h r s ts a ts' ha)

theorem Tells.anything : Tells m fun _ _ => True := fun _ _ _ _ _ _ => trivial

/-- A reading whose first part does not matter. -/
theorem Tells.after {f : α → Reading ρ σ τ β} (hf : ∀ a, Tells (f a) ψ) : Tells (m >>= f) ψ :=
  Tells.anything.bind fun a => (hf a).mono fun _ _ h _ => h

theorem Tells.ite {c : Prop} [Decidable c] {m' : Reading ρ σ τ α} (hm : c → Tells m φ)
    (hm' : ¬c → Tells m' φ) : Tells (if c then m else m') φ := by
  by_cases hc : c
  · rw [if_pos hc]
    exact hm hc
  · rw [if_neg hc]
    exact hm' hc

/-! ## A reading among the steps of a script -/

variable {I : ρ → Prop}

/-- **A reading keeps the fixed part**, and what it tells is true of it. -/
theorem Tells.lift (h : Tells m φ) :
    Script.Holds (fun w => I w.fixed) m.lift (fun a w => I w.fixed ∧ φ w.fixed a)
      fun w => I w.fixed := by
  intro w ts hw
  have htells := h w.fixed w.side ts
  unfold Reading.lift
  cases hrun : (m w.fixed w.side ts).1 with
  | none => exact hw
  | some result => exact ⟨hw, htells result.1 result.2 hrun⟩

/-- A reading whose answer does not matter. -/
theorem keeps_lift (m : Reading ρ σ τ α) : Script.Keeps (fun w => I w.fixed) m.lift :=
  (Tells.anything.lift).mono (fun _ h => h) fun _ _ h => h.1

/-- The script that goes on after a reading. -/
theorem Tells.step {f : α → Script (Framed ρ σ) τ β} {Q : β → Framed ρ σ → Prop}
    {C : Framed ρ σ → Prop} (h : Tells m φ) (hI : ∀ w, I w.fixed → C w)
    (hf : ∀ a, Script.Holds (fun w => I w.fixed ∧ φ w.fixed a) (f a) Q C) :
    Script.Holds (fun w => I w.fixed) (m.lift >>= f) Q C :=
  Script.Holds.bind (fun w ts hw => by
    have hrun := h.lift (I := I) w ts hw
    generalize m.lift w ts = r at hrun ⊢
    obtain ⟨_ | _, _⟩ := r
    · exact hI _ hrun
    · exact hrun) hf

/-- The script that goes on after a reading whose answer does not matter. -/
theorem step {f : α → Script (Framed ρ σ) τ β} {Q : β → Framed ρ σ → Prop}
    {C : Framed ρ σ → Prop} (hI : ∀ w, I w.fixed → C w)
    (hf : ∀ a, Script.Holds (fun w => I w.fixed) (f a) Q C) :
    Script.Holds (fun w => I w.fixed) (m.lift >>= f) Q C :=
  Tells.anything.step hI fun a => (hf a).mono (fun _ h => h.1) fun _ _ h => h

end Reading
