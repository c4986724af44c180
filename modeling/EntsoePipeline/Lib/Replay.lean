import Mathlib.Data.List.Basic
import Mathlib.Tactic

set_option relaxedAutoImplicit false
set_option autoImplicit false

/-!
# Replays of events

The state of a store is the replay of the events of a run on it. Two kinds of statements about a
run are made here: that each event meets a condition on the state before it, and that each state of
the run has a property.

## Main definitions

* `Replay.Along` — every event meets a condition on the state before it.
* `Replay.Always` — every state of the replay has a property.

## Main results

* `Replay.along_congr` — conditions that agree where the run comes by.
* `Replay.always_iff` — a property that a step keeps exactly under a condition holds always exactly
  when every event meets it.
-/

namespace Replay

variable {σ ε : Type*}

/-- Every event meets a condition on the state before it. -/
def Along (f : σ → ε → σ) (P : σ → ε → Prop) : σ → List ε → Prop
  | _, [] => True
  | s, e :: events => P s e ∧ Along f P (f s e) events

/-- Every state of a replay has a property. -/
def Always (f : σ → ε → σ) (I : σ → Prop) (s : σ) (events : List ε) : Prop :=
  ∀ before after, events = before ++ after → I (before.foldl f s)

section Along

variable {f : σ → ε → σ} {P Q : σ → ε → Prop} {s : σ} {e : ε} {events : List ε}

/-- Along no events everything holds. -/
@[simp] lemma along_nil : Along f P s [] := trivial

/-- What holds along events holds of the first one and along the others. -/
@[simp] lemma along_cons : Along f P s (e :: events) ↔ P s e ∧ Along f P (f s e) events := Iff.rfl

/-- What holds along events holds along both parts of them. -/
lemma along_append {events' : List ε} :
    Along f P s (events ++ events') ↔ Along f P s events ∧
      Along f P (events.foldl f s) events' := by
  induction events generalizing s with
  | nil => simp
  | cons e events ih =>
    rw [List.cons_append, along_cons, along_cons, ih, and_assoc, List.foldl_cons]

/-- Conditions that agree on the events and states of a run. -/
lemma along_congr {P' : σ → ε → Prop} (hQ : Along f Q s events)
    (h : ∀ s e, Q s e → (P s e ↔ P' s e)) : Along f P s events ↔ Along f P' s events := by
  induction events generalizing s with
  | nil => exact Iff.rfl
  | cons e events ih => rw [along_cons, along_cons, h s e hQ.1, ih hQ.2]

end Along

section Always

variable {f : σ → ε → σ} {I : σ → Prop} {s : σ} {e : ε} {events : List ε}

/-- What always holds holds at the start. -/
lemma Always.start (h : Always f I s events) : I s := h [] events rfl

/-- What always holds holds in the end. -/
lemma Always.final (h : Always f I s events) : I (events.foldl f s) :=
  h events [] (List.append_nil events).symm

/-- What always holds holds at the start and always behind the first event. -/
lemma always_cons : Always f I s (e :: events) ↔ I s ∧ Always f I (f s e) events := by
  constructor
  · intro h
    refine ⟨h.start, fun before after hsplit => ?_⟩
    exact h (e :: before) after (by rw [hsplit, List.cons_append])
  · rintro ⟨hs, hrest⟩ before after hsplit
    cases before with
    | nil => exact hs
    | cons e' before =>
      obtain ⟨rfl, htail⟩ := List.cons.inj hsplit
      exact hrest before after htail

/-- **Invariants and steps.** Where a step keeps a property exactly under a condition, the property
holds in every state of a replay exactly when every event meets the condition. The steps may rely
on an invariant of the replay.

**Proof sketch.** Induction over the events: as long as the property holds, the next event decides
whether it goes on to hold. -/
theorem always_iff {J : σ → Prop} {ok : ε → Prop} {P : σ → ε → Prop}
    (hJ : ∀ s e, J s → ok e → J (f s e)) (hI : ∀ s e, J s → ok e → I s → (I (f s e) ↔ P s e))
    (hs : J s) (hs' : I s) (hok : ∀ e ∈ events, ok e) : Always f I s events ↔
      Along f P s events := by
  induction events generalizing s with
  | nil =>
    refine ⟨fun _ => trivial, fun _ before after hsplit => ?_⟩
    rw [(List.append_eq_nil_iff.mp hsplit.symm).1]
    exact hs'
  | cons e events ih =>
    obtain ⟨he, hok⟩ := List.forall_mem_cons.mp hok
    have hstep := hI s e hs he hs'
    rw [always_cons, along_cons, ← hstep]
    constructor
    · rintro ⟨-, hrest⟩
      exact ⟨hrest.start, (ih (hJ s e hs he) hrest.start hok).mp hrest⟩
    · rintro ⟨hnext, hrest⟩
      exact ⟨hs', (ih (hJ s e hs he) hnext hok).mpr hrest⟩

end Always

end Replay
