import Mathlib.Tactic

set_option relaxedAutoImplicit false
set_option autoImplicit false

/-!
# Calls that are tried again

A call that may raise is tried again after a pause, as long as its exception is of a retryable kind
and attempts are left. The last attempt decides: its result is returned and its exception is raised.

## Main definitions

* `Retrying.run` — the loop over the attempts.
* `Retrying.Falters` — a number of attempts in a row that are followed by another one.

## Main results

* `Retrying.exists_falters` — which attempt decides.
* `Retrying.Falters.turns` — what holds before the attempts that follow one that stumbles.
* `Retrying.run_preserves` — what every attempt and every pause keep, the loop keeps.
-/

namespace Retrying

variable {σ ε α : Type*} (attempt : σ → Except ε α × σ) (retryable : ε → Bool) (pause : ℕ → σ → σ)

/-- The loop: an attempt with its number, and how many may follow it. -/
def run : ℕ → ℕ → σ → Except ε α × σ
  | 0, _, s => attempt s
  | left + 1, number, s =>
    match (attempt s).1 with
    | .ok _ => attempt s
    | .error e =>
      if retryable e then run left (number + 1) (pause number (attempt s).2) else attempt s

/-- The attempt raises an exception of a retryable kind. -/
def Stumbles (s : σ) : Prop := ∃ e, (attempt s).1 = .error e ∧ retryable e = true

/-- From one state to another, a number of attempts stumble, each followed by its pause. -/
inductive Falters : ℕ → ℕ → σ → σ → Prop
  /-- No attempt was made yet. -/
  | zero (number : ℕ) (s : σ) : Falters 0 number s s
  /-- An attempt stumbles. -/
  | succ {k number : ℕ} {s s' : σ} (h : Stumbles attempt retryable s)
      (hrest : Falters k (number + 1) (pause number (attempt s).2) s') : Falters (k + 1) number s s'

variable {attempt retryable pause} {left number k : ℕ} {s s' : σ}

/-- The loop goes on behind an attempt that stumbles. -/
lemma run_succ_of_stumbles (h : Stumbles attempt retryable s) :
    run attempt retryable pause (left + 1) number s =
      run attempt retryable pause left (number + 1) (pause number (attempt s).2) := by
  obtain ⟨e, herror, hretry⟩ := h
  rw [run]
  simp only [herror, hretry, if_true]

/-- The loop ends with an attempt that does not stumble. -/
lemma run_of_not_stumbles (h : ¬ Stumbles attempt retryable s) :
    run attempt retryable pause left number s = attempt s := by
  cases left with
  | zero => rfl
  | succ left =>
    rw [run]
    cases hresult : (attempt s).1 with
    | ok a => rfl
    | error e =>
      have hretry : retryable e ≠ true := fun hretry => h ⟨e, hresult, hretry⟩
      simp only [hretry, if_false, Bool.false_eq_true]

variable (attempt retryable pause left number s) in
/-- **The deciding attempt.** The loop has the result of an attempt behind some that stumble, which
is the last one that may be made or does not stumble itself. -/
theorem exists_falters : ∃ k s', k ≤ left ∧ Falters attempt retryable pause k number s s' ∧
    run attempt retryable pause left number s = attempt s' ∧
      (k = left ∨ ¬ Stumbles attempt retryable s') := by
  induction left generalizing number s with
  | zero => exact ⟨0, s, le_refl 0, .zero number s, rfl, Or.inl rfl⟩
  | succ left ih =>
    by_cases hstumbles : Stumbles attempt retryable s
    · obtain ⟨k, s', hk, hfalters, hrun, hlast⟩ := ih (number + 1) (pause number (attempt s).2)
      refine ⟨k + 1, s', by omega, .succ hstumbles hfalters, ?_, ?_⟩
      · rw [run_succ_of_stumbles hstumbles, hrun]
      · rcases hlast with rfl | hlast
        · exact Or.inl rfl
        · exact Or.inr hlast
    · exact ⟨0, s, Nat.zero_le _, .zero number s, run_of_not_stumbles hstumbles, Or.inr hstumbles⟩

/-- What every attempt and every pause keep, attempts that stumble keep. -/
lemma Falters.preserves {I : σ → Prop} (hattempt : ∀ s, I s → I (attempt s).2)
    (hpause : ∀ number s, I s → I (pause number s))
    (h : Falters attempt retryable pause k number s s') (hs : I s) : I s' := by
  induction h with
  | zero => exact hs
  | succ hstumbles hrest ih => exact ih (hpause _ _ (hattempt _ hs))

/-- A relation between the number of an attempt and the state before it, which a turn of an attempt
that stumbles keeps. -/
lemma Falters.turns {I : ℕ → σ → Prop}
    (hturn : ∀ number s, I number s → Stumbles attempt retryable s →
      I (number + 1) (pause number (attempt s).2))
    (h : Falters attempt retryable pause k number s s') (hs : I number s) : I (number + k) s' := by
  induction h with
  | zero => exact hs
  | @succ k number s s' hstumbles hrest ih =>
    have hnext := ih (hturn number s hs hstumbles)
    rwa [Nat.add_right_comm, Nat.add_assoc] at hnext

/-- What every attempt and every pause keep, the loop keeps. -/
lemma run_preserves {I : σ → Prop} (hattempt : ∀ s, I s → I (attempt s).2)
    (hpause : ∀ number s, I s → I (pause number s)) (hs : I s) :
    I (run attempt retryable pause left number s).2 := by
  obtain ⟨k, s', -, hfalters, hrun, -⟩ := exists_falters attempt retryable pause left number s
  rw [hrun]
  exact hattempt _ (hfalters.preserves hattempt hpause hs)

end Retrying
