import Mathlib.Algebra.Order.Floor.Ring
import Mathlib.Data.List.Chain
import Mathlib.Tactic

set_option relaxedAutoImplicit false
set_option autoImplicit false

/-!
# Spaced times

A sequence of times is spaced when each time is at least a fixed distance behind the one before it.
No closed window of a given length then holds more of them than fit at that distance.

## Main definitions

* `Pacing.Spaced` — successive times are a distance apart.

## Main results

* `Pacing.spaced_concat_iff` — a spaced sequence is continued by a time that is far enough behind
  the last one.
* `Pacing.Spaced.length_window_le` — how many times a window holds.
-/

namespace Pacing

variable {K : Type*} [Field K] [LinearOrder K] [IsStrictOrderedRing K] {d : K} {times : List K}

/-- Successive times are at least `d` apart. -/
def Spaced (d : K) (times : List K) : Prop := times.IsChain fun a b => d ≤ b - a

omit [IsStrictOrderedRing K] in
/-- No times are spaced. -/
lemma spaced_nil (d : K) : Spaced d [] := List.isChain_nil

omit [IsStrictOrderedRing K] in
/-- A spaced sequence is continued by a time that is far enough behind the last one. -/
lemma spaced_concat_iff {time : K} :
    Spaced d (times ++ [time]) ↔ Spaced d times ∧ ∀ last ∈ times.getLast?, d ≤ time - last := by
  unfold Spaced
  rw [List.isChain_append]
  simp

omit [IsStrictOrderedRing K] in
/-- Each time of a spaced sequence is the distance behind the one before it. -/
lemma Spaced.le_of_getElem? (h : Spaced d times) {i : ℕ} {a b : K} (ha : times[i]? = some a)
    (hb : times[i + 1]? = some b) : d ≤ b - a := by
  obtain ⟨hi, rfl⟩ := List.getElem?_eq_some_iff.mp ha
  obtain ⟨hnext, rfl⟩ := List.getElem?_eq_some_iff.mp hb
  exact List.isChain_iff_getElem.mp h i hnext

/-- A part of a spaced sequence is spaced, when the distance is positive. -/
lemma Spaced.filter (hd : 0 < d) (h : Spaced d times) (p : K → Bool) :
    Spaced d (times.filter p) := by
  have htrans : IsTrans K fun a b => d ≤ b - a := by
    constructor
    intro a b c hab hbc
    linarith
  exact (h.pairwise.filter p).isChain

/-- The last of the times lies behind the first one by the distance for each time between them. -/
lemma Spaced.add_mul_le {first last : K} {rest : List K} (h : Spaced d (first :: rest))
    (hlast : (first :: rest).getLast? = some last) : first + rest.length * d ≤ last := by
  induction rest generalizing first with
  | nil =>
    rw [List.getLast?_singleton, Option.some.injEq] at hlast
    simp [hlast]
  | cons next rest ih =>
    have hchain := List.isChain_cons_cons.mp h
    have hnext : d ≤ next - first := hchain.1
    have hrest := ih hchain.2 (by rwa [List.getLast?_cons_cons] at hlast)
    rw [List.length_cons, Nat.cast_add, Nat.cast_one, add_mul, one_mul]
    linarith

/-- **Windows.** A closed window of length `T` holds at most `⌊T / d⌋ + 1` of the times. -/
theorem Spaced.length_window_le [FloorRing K] (hd : 0 < d) (h : Spaced d times) (a : K) {T : K}
    (hT : 0 ≤ T) :
    ((times.filter fun time => a ≤ time ∧ time ≤ a + T).length : ℤ) ≤ ⌊T / d⌋ + 1 := by
  have hspaced := h.filter hd fun time => a ≤ time ∧ time ≤ a + T
  have hwindow : ∀ time ∈ times.filter fun time => a ≤ time ∧ time ≤ a + T,
      a ≤ time ∧ time ≤ a + T := by
    intro time htime
    simpa using (List.mem_filter.mp htime).2
  generalize (times.filter fun time => a ≤ time ∧ time ≤ a + T) = inside at hspaced hwindow ⊢
  cases inside with
  | nil =>
    have hfloor : 0 ≤ ⌊T / d⌋ := Int.floor_nonneg.mpr (div_nonneg hT hd.le)
    rw [List.length_nil]
    omega
  | cons first rest =>
    obtain ⟨last, hlast⟩ : ∃ last, (first :: rest).getLast? = some last :=
      ⟨_, List.getLast?_eq_some_getLast (List.cons_ne_nil first rest)⟩
    have hbehind := hspaced.add_mul_le hlast
    have hfirst := (hwindow first List.mem_cons_self).1
    have hend := (hwindow last (List.mem_of_getLast? hlast)).2
    have hlength : (rest.length : K) ≤ T / d := by
      rw [le_div_iff₀ hd]
      linarith
    have hfloor : (rest.length : ℤ) ≤ ⌊T / d⌋ := Int.le_floor.mpr (by exact_mod_cast hlength)
    rw [List.length_cons]
    push_cast
    omega

end Pacing
