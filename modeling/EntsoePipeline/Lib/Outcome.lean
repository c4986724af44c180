import Mathlib.Data.List.Forall2
import Mathlib.Tactic

set_option relaxedAutoImplicit false
set_option autoImplicit false

/-!
# Calls that may raise

A call returns a value or raises an error. A sequence of calls, a list of calls and a loop of checks
end with the first error.

## Main results

* `Outcome.bind_eq_ok_iff`, `Outcome.bind_eq_error_iff` — how a sequence of two calls ends.
* `Outcome.mapM_eq_ok_iff` — a list of calls returns when every call does.
* `Outcome.exists_of_mapM_eq_error` — its error is that of one of the calls.
* `Outcome.forM_eq_ok_iff`, `Outcome.exists_of_forM_eq_error` — the same for a loop of checks.
-/

namespace Outcome

universe u

variable {ε ι : Type*} {α β : Type u}

/-! ## Sequences -/

/-- A sequence succeeds when both of its steps do. -/
lemma bind_eq_ok_iff {x : Except ε α} {f : α → Except ε β} {b : β} :
    (x >>= f) = .ok b ↔ ∃ a, x = .ok a ∧ f a = .ok b := by
  cases x with
  | error e => simp [bind, Except.bind]
  | ok a => simp [bind, Except.bind]

/-- A sequence fails when one of its steps does. -/
lemma bind_eq_error_iff {x : Except ε α} {f : α → Except ε β} {e : ε} :
    (x >>= f) = .error e ↔ x = .error e ∨ ∃ a, x = .ok a ∧ f a = .error e := by
  cases x with
  | error e => simp [bind, Except.bind]
  | ok a => simp [bind, Except.bind]

/-! ## Lists of calls -/

section Calls

variable {f : ι → Except ε β} {l : List ι}

/-- A list of calls succeeds when every call does. -/
lemma mapM_eq_ok_iff {results : List β} :
    l.mapM f = .ok results ↔ List.Forall₂ (fun a b => f a = .ok b) l results := by
  induction l generalizing results with
  | nil =>
    rw [List.mapM_nil, List.forall₂_nil_left_iff]
    exact ⟨fun h => by cases h; rfl, fun h => by rw [h]; rfl⟩
  | cons a l ih =>
    rw [List.mapM_cons, bind_eq_ok_iff, List.forall₂_cons_left_iff]
    constructor
    · rintro ⟨b, hb, h⟩
      obtain ⟨bs, hbs, h⟩ := bind_eq_ok_iff.mp h
      cases h
      exact ⟨b, bs, hb, ih.mp hbs, rfl⟩
    · rintro ⟨b, bs, hb, hbs, rfl⟩
      exact ⟨b, hb, bind_eq_ok_iff.mpr ⟨bs, ih.mpr hbs, rfl⟩⟩

/-- The results of a list of calls are those of its calls. -/
lemma mem_of_mapM_eq_ok {results : List β} (h : l.mapM f = .ok results) :
    (∀ a ∈ l, ∃ b ∈ results, f a = .ok b) ∧ ∀ b ∈ results, ∃ a ∈ l, f a = .ok b := by
  induction mapM_eq_ok_iff.mp h with
  | nil => simp
  | cons hb _ ih =>
    obtain ⟨hleft, hright⟩ := ih (mapM_eq_ok_iff.mpr ‹_›)
    simp only [List.mem_cons, exists_eq_or_imp, forall_eq_or_imp]
    exact ⟨⟨Or.inl hb, fun a ha => Or.inr (hleft a ha)⟩,
      Or.inl hb, fun b hmem => Or.inr (hright b hmem)⟩

/-- The error of a list of calls is that of one of them. -/
lemma exists_of_mapM_eq_error {e : ε} (h : l.mapM f = .error e) : ∃ a ∈ l, f a = .error e := by
  induction l with
  | nil => cases h
  | cons a l ih =>
    rw [List.mapM_cons, bind_eq_error_iff] at h
    rcases h with ha | ⟨b, -, h⟩
    · exact ⟨a, List.mem_cons_self, ha⟩
    · rcases bind_eq_error_iff.mp h with hl | ⟨bs, -, hpure⟩
      · obtain ⟨a', ha', hfa'⟩ := ih hl
        exact ⟨a', List.mem_cons_of_mem _ ha', hfa'⟩
      · cases hpure

end Calls

/-! ## Loops of checks -/

section Checks

variable {f : ι → Except ε PUnit.{u + 1}} {l : List ι}

/-- A loop begins with its first item. -/
lemma forM_cons (a : ι) (l : List ι) : (a :: l).forM f = f a >>= fun _ => l.forM f := rfl

/-- A loop of checks passes when every check does. -/
lemma forM_eq_ok_iff : l.forM f = .ok ⟨⟩ ↔ ∀ a ∈ l, f a = .ok ⟨⟩ := by
  induction l with
  | nil => simp [pure, Except.pure]
  | cons a l ih =>
    rw [forM_cons, bind_eq_ok_iff, List.forall_mem_cons, ← ih]
    exact ⟨fun ⟨_, ha, hl⟩ => ⟨ha, hl⟩, fun ⟨ha, hl⟩ => ⟨⟨⟩, ha, hl⟩⟩

/-- The error of a loop of checks is that of one of them. -/
lemma exists_of_forM_eq_error {e : ε} (h : l.forM f = .error e) : ∃ a ∈ l, f a = .error e := by
  induction l with
  | nil => cases h
  | cons a l ih =>
    rw [forM_cons, bind_eq_error_iff] at h
    rcases h with ha | ⟨_, -, hl⟩
    · exact ⟨a, List.mem_cons_self, ha⟩
    · obtain ⟨a', ha', hfa'⟩ := ih hl
      exact ⟨a', List.mem_cons_of_mem _ ha', hfa'⟩

end Checks

end Outcome
