import Mathlib.Tactic

set_option relaxedAutoImplicit false
set_option autoImplicit false

/-!
# Computations that count

A computation that may fail and that counts its steps in a counter of its caller. A failure leaves
the counter as it is.

## Main definitions

* `Counting.Counted` — a computation that counts.
* `Counting.tick` — the counter is increased by one.
* `Counting.Counts` — a computation returns a value and increases the counter by a number.
* `Counting.Erases` — a computation is another one when the counter is forgotten.

## Main results

* `Counting.Counts.bind` — the counts of two computations in sequence add up.
* `Counting.Erases.bind` — forgetting the counter keeps the sequence of two computations.
-/

namespace Counting

variable {ε α β : Type}

/-- A computation that may fail, and that counts. -/
abbrev Counted (ε α : Type) := ExceptT ε (StateM ℕ) α

/-- The outcome from a count, and the count after it. -/
def Counted.from (m : Counted ε α) (count : ℕ) : Except ε α × ℕ := m.run count

/-- The counter is increased by one. -/
def tick : Counted ε Unit := modify (· + 1)

/-- The outcome of a call that does not count. -/
def call (x : Except ε α) : Counted ε α := liftExcept x

/-- A value counts nothing. -/
@[simp] lemma from_pure (a : α) (count : ℕ) :
    Counted.from (pure a : Counted ε α) count = (.ok a, count) := rfl

/-- An error counts nothing. -/
@[simp] lemma from_throw (e : ε) (count : ℕ) :
    Counted.from (throw e : Counted ε α) count = (.error e, count) := rfl

/-- A tick counts one. -/
@[simp] lemma from_tick (count : ℕ) :
    Counted.from (tick : Counted ε Unit) count = (.ok (), count + 1) := rfl

/-- A call counts nothing by itself. -/
@[simp] lemma from_call (x : Except ε α) (count : ℕ) : Counted.from (call x) count =
    (x, count) := by
  cases x <;> rfl

/-- The second of two computations starts with the count of the first one, unless that failed. -/
lemma from_bind (m : Counted ε α) (f : α → Counted ε β) (count : ℕ) :
    Counted.from (m >>= f) count =
      match Counted.from m count with
      | (.ok a, count') => Counted.from (f a) count'
      | (.error e, count') => (.error e, count') := by
  unfold Counted.from
  rw [ExceptT.run_bind]
  rcases hrun : ExceptT.run m count with ⟨e | a, count'⟩
  · simp only [bind, StateT.bind, hrun]
    rfl
  · simp only [bind, StateT.bind, hrun]

/-! ## What a computation counts -/

/-- The computation returns a value and increases the counter by a number, from every count. -/
def Counts (m : Counted ε α) (a : α) (n : ℕ) : Prop :=
  ∀ count, m.from count = (.ok a, count + n)

/-- A value counts nothing. -/
lemma counts_pure (a : α) : Counts (pure a : Counted ε α) a 0 := fun _ => rfl

/-- A tick counts one. -/
lemma counts_tick : Counts (tick : Counted ε Unit) () 1 := fun _ => rfl

/-- A call that succeeds counts nothing by itself. -/
lemma counts_call (a : α) : Counts (call (.ok a) : Counted ε α) a 0 := fun _ => rfl

/-- The counts of two computations in sequence add up. -/
lemma Counts.bind {m : Counted ε α} {f : α → Counted ε β} {a : α} {b : β} {n k : ℕ}
    (hm : Counts m a n) (hf : Counts (f a) b k) : Counts (m >>= f) b (n + k) := by
  intro count
  rw [from_bind, hm count]
  dsimp only
  rw [hf, Nat.add_assoc]

/-- A function of the returned value counts nothing more. -/
lemma Counts.map {m : Counted ε α} {a : α} {n : ℕ} (hm : Counts m a n) (f : α → β) :
    Counts (m >>= fun x => pure (f x)) (f a) n := by
  intro count
  rw [from_bind, hm count]
  rfl

/-! ## Forgetting the counter -/

/-- From every count, the outcome of the computation is the given one. -/
def Erases (m : Counted ε α) (x : Except ε α) : Prop := ∀ count, (m.from count).1 = x

/-- Without the counter a value is itself. -/
lemma erases_pure (a : α) : Erases (pure a : Counted ε α) (pure a) := fun _ => rfl

/-- Without the counter an error is itself. -/
lemma erases_throw (e : ε) : Erases (throw e : Counted ε α) (.error e) := fun _ => rfl

/-- Without the counter a call is its result. -/
lemma erases_call (x : Except ε α) : Erases (call x) x := fun count => by rw [from_call]

/-- Forgetting the counter keeps the sequence of two computations. -/
lemma Erases.bind {m : Counted ε α} {x : Except ε α} {f : α → Counted ε β} {g : α → Except ε β}
    (hm : Erases m x) (hf : ∀ a, Erases (f a) (g a)) : Erases (m >>= f) (x >>= g) := by
  intro count
  have hx := hm count
  rw [from_bind]
  rcases hrun : m.from count with ⟨e | a, count'⟩
  · rw [hrun] at hx
    rw [← hx]
    rfl
  · rw [hrun] at hx
    rw [← hx]
    exact hf a count'

/-- A step of the counter is forgotten. -/
lemma Erases.tick_bind {f : Unit → Counted ε β} {x : Except ε β} (hf : Erases (f ()) x) :
    Erases (tick >>= f) x := by
  intro count
  rw [from_bind, from_tick]
  exact hf _

end Counting
