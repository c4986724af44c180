import Mathlib.Data.List.Induction
import Mathlib.Data.List.Perm.Basic

set_option relaxedAutoImplicit false
set_option autoImplicit false

/-!
# The last write wins

Steps that each write at most one value to a register leave the last written value in it. The
register does not depend on the order of the steps exactly when no two of them write different
values.

## Main definitions

* `LastWrite.lastWrite` — the value that a list of steps leaves behind.

## Main results

* `LastWrite.read_foldl` — the register after a fold whose steps write to it.
* `LastWrite.forall_perm_lastWrite_iff` — the values that every order of the steps leaves behind.
-/

namespace LastWrite

variable {α σ ν : Type*} {write : α → Option ν}

/-- The last value that a list of steps writes. -/
def lastWrite (write : α → Option ν) (l : List α) : Option ν := l.reverse.findSome? write

/-- Without events nothing was written. -/
@[simp] lemma lastWrite_nil : lastWrite write [] = none := rfl

/-- Later writes come before earlier ones. -/
lemma lastWrite_append (l l' : List α) :
    lastWrite write (l ++ l') = (lastWrite write l').or (lastWrite write l) := by
  rw [lastWrite, List.reverse_append, List.findSome?_append, lastWrite, lastWrite]

/-- The last event decides when it writes. -/
@[simp] lemma lastWrite_concat (l : List α) (x : α) :
    lastWrite write (l ++ [x]) = (write x).or (lastWrite write l) := by
  rw [lastWrite_append, lastWrite, List.reverse_singleton, List.findSome?_singleton]

/-- The first event decides when no other one writes. -/
lemma lastWrite_cons (x : α) (l : List α) :
    lastWrite write (x :: l) = (lastWrite write l).or (write x) := by
  rw [lastWrite, List.reverse_cons, List.findSome?_append, List.findSome?_singleton, lastWrite]

/-- What was written last was written by an event. -/
lemma exists_of_lastWrite_eq_some {l : List α} {v : ν} (h : lastWrite write l = some v) :
    ∃ x ∈ l, write x = some v := by
  obtain ⟨x, hx, hwrite⟩ := List.exists_of_findSome?_eq_some h
  exact ⟨x, List.mem_reverse.mp hx, hwrite⟩

/-- Nothing was written when no event writes. -/
lemma lastWrite_eq_none_iff {l : List α} : lastWrite write l = none ↔ ∀ x ∈ l, write x = none := by
  rw [lastWrite, List.findSome?_eq_none_iff]
  simp only [List.mem_reverse]

/-- Steps that all write the same value leave it behind. -/
lemma lastWrite_eq_some_of_forall {l : List α} {v : ν} (hex : ∃ x ∈ l, write x ≠ none)
    (hall : ∀ x ∈ l, ∀ w, write x = some w → w = v) : lastWrite write l = some v := by
  cases hlast : lastWrite write l with
  | none =>
    obtain ⟨x, hx, hne⟩ := hex
    exact absurd (lastWrite_eq_none_iff.mp hlast x hx) hne
  | some w =>
    obtain ⟨x, hx, hwrite⟩ := exists_of_lastWrite_eq_some hlast
    rw [hall x hx w hwrite]

/-- The register after a fold whose steps write to it. -/
lemma read_foldl {step : σ → α → σ} {read : σ → Option ν} {l : List α}
    (hstep : ∀ x ∈ l, ∀ s, read (step s x) = (write x).or (read s)) (s : σ) :
    read (l.foldl step s) = (lastWrite write l).or (read s) := by
  induction l using List.reverseRecOn with
  | nil => rfl
  | append_singleton l x ih =>
    have hfront := ih fun y hy => hstep y (List.mem_append_left _ hy)
    rw [List.foldl_append, List.foldl_cons, List.foldl_nil, hstep x (by simp), hfront,
      lastWrite_concat, Option.or_assoc]

/-- **Order independence.** Every order of the steps leaves the same value behind exactly when a
step writes, and no step writes another value.

**Proof sketch.** A step that writes is the last one in some order. -/
theorem forall_perm_lastWrite_iff {l : List α} {v : ν} :
    (∀ order : List α, order.Perm l → lastWrite write order = some v) ↔
      (∃ x ∈ l, write x ≠ none) ∧ ∀ x ∈ l, ∀ w, write x = some w → w = v := by
  constructor
  · intro h
    constructor
    · obtain ⟨x, hx, hwrite⟩ := exists_of_lastWrite_eq_some (h l (List.Perm.refl l))
      exact ⟨x, hx, by simp [hwrite]⟩
    · intro x hx w hwrite
      obtain ⟨s, t, rfl⟩ := List.append_of_mem hx
      have hmiddle : (x :: (s ++ t)).Perm (s ++ x :: t) := List.perm_middle.symm
      have horder : ((s ++ t) ++ [x]).Perm (s ++ x :: t) :=
        (List.perm_append_singleton x (s ++ t)).trans hmiddle
      have hlast := h _ horder
      rw [lastWrite_concat, hwrite, Option.some_or] at hlast
      exact Option.some.inj hlast
  · rintro ⟨⟨x, hx, hne⟩, hall⟩ order horder
    exact lastWrite_eq_some_of_forall ⟨x, horder.mem_iff.mpr hx, hne⟩
      fun y hy => hall y (horder.mem_iff.mp hy)

end LastWrite
