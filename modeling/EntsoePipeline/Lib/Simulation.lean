import Mathlib.Tactic

set_option relaxedAutoImplicit false
set_option autoImplicit false

/-!
# Programs that simulate programs

Two programs with states of their own, which may raise. One simulates the other when from related
states both end in the same way and leave related states; the states behind a raise may be related
in another way than those behind a result.

## Main definitions

* `Simulation.Program` — programs on a state that may raise.
* `Simulation.Simulates` — from related states, two programs end in the same way.

## Main results

* `Simulation.Simulates.bind` — simulations of programs in sequence.
-/

namespace Simulation

variable {σ τ ε α β : Type}

/-- Programs on a state that may raise. -/
abbrev Program (σ ε α : Type) := ExceptT ε (StateM σ) α

/-- The outcome of a program and the state behind it. -/
def Program.from (p : Program σ ε α) (s : σ) : Except ε α × σ := ExceptT.run p s

/-- A function on the state as a program. -/
def step (f : σ → Except ε α × σ) : Program σ ε α := ExceptT.mk f

/-- A step runs as its function. -/
@[simp] lemma from_step (f : σ → Except ε α × σ) (s : σ) : Program.from (step f) s = f s := rfl

/-- A value leaves the state. -/
@[simp] lemma from_pure (a : α) (s : σ) : Program.from (pure a : Program σ ε α) s = (.ok a, s) :=
  rfl

/-- An error leaves the state. -/
@[simp] lemma from_throw (e : ε) (s : σ) :
    Program.from (throw e : Program σ ε α) s = (.error e, s) := rfl

/-- The second of two programs starts in the state behind the first one, unless that raises. -/
lemma from_bind (p : Program σ ε α) (f : α → Program σ ε β) (s : σ) :
    Program.from (p >>= f) s =
      match Program.from p s with
      | (.ok a, s') => Program.from (f a) s'
      | (.error e, s') => (.error e, s') := by
  unfold Program.from
  rw [ExceptT.run_bind]
  rcases hrun : ExceptT.run p s with ⟨e | a, s'⟩
  · simp only [bind, StateT.bind, hrun]
    rfl
  · simp only [bind, StateT.bind, hrun]

/-- States behind a result are related by `R`, states behind a raise by `E`. -/
def Ends (R E : σ → τ → Prop) : Except ε α → σ → τ → Prop
  | .ok _ => R
  | .error _ => E

/-- However a program ends, the states are related as behind a raise, when this is the weaker. -/
lemma Ends.weaken {R E : σ → τ → Prop} (h : ∀ s t, R s t → E s t) {x : Except ε α} {s : σ} {t : τ}
    (hends : Ends R E x s t) : E s t := by
  cases x with
  | error e => exact hends
  | ok a => exact h s t hends

/-- An end with a value is one in related states. -/
lemma Ends.of_toBool {R E : σ → τ → Prop} {x : Except ε α} {s : σ} {t : τ}
    (hends : Ends R E x s t) (hx : x.toBool = true) : R s t := by
  cases x with
  | error e => cases hx
  | ok a => exact hends

/-- From related states, the first program ends as the second one does, in a related state. -/
def Simulates (R E : σ → τ → Prop) (p : Program σ ε α) (q : Program τ ε α) : Prop :=
  ∀ s t, R s t → (p.from s).1 = (q.from t).1 ∧
    Ends R E (p.from s).1 (p.from s).2 (q.from t).2

variable {R E : σ → τ → Prop}

/-- A value simulates itself. -/
lemma simulates_pure (a : α) :
    Simulates R E (pure a : Program σ ε α) (pure a : Program τ ε α) := fun _ _ h => ⟨rfl, h⟩

/-- An error simulates itself. -/
lemma simulates_throw (h : ∀ s t, R s t → E s t) (e : ε) :
    Simulates R E (throw e : Program σ ε α) (throw e : Program τ ε α) := fun _ _ hR =>
      ⟨rfl, h _ _ hR⟩

/-- **Sequences.** Programs in sequence simulate programs in sequence. -/
theorem Simulates.bind {p : Program σ ε α} {q : Program τ ε α} {f : α → Program σ ε β}
    {g : α → Program τ ε β} (hp : Simulates R E p q) (hf : ∀ a, Simulates R E (f a) (g a)) :
    Simulates R E (p >>= f) (q >>= g) := by
  intro s t hR
  obtain ⟨hsame, hends⟩ := hp s t hR
  rw [from_bind, from_bind]
  rcases hrun : p.from s with ⟨e | a, s'⟩
  · rcases hrun' : q.from t with ⟨e' | a', t'⟩
    · rw [hrun, hrun'] at hsame hends
      cases hsame
      exact ⟨rfl, hends⟩
    · rw [hrun, hrun'] at hsame
      cases hsame
  · rcases hrun' : q.from t with ⟨e' | a', t'⟩
    · rw [hrun, hrun'] at hsame
      cases hsame
    · rw [hrun, hrun'] at hsame hends
      cases hsame
      exact hf a s' t' hends

end Simulation
