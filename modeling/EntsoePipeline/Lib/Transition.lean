import Mathlib.Data.List.Basic
import Mathlib.Tactic

set_option relaxedAutoImplicit false
set_option autoImplicit false

/-!
# Transition systems with traces

A system moves from state to state, and each move emits a list of events. The events of a run, in
order, are its trace. Two components with local states that share a store are interleaved into one
system, in which each move is a move of one of them.

## Main definitions

* `Transition.System`, `Transition.System.Reach` — a system, and the states it reaches with the
  traces of the runs that reach them.
* `Transition.System.Moves` — the runs from one state to another.
* `Transition.Component` — a component with a local state on a shared store.
* `Transition.Component.alone`, `Transition.Component.interleave` — the system of one component
  and the system of two.
* `Transition.At` — an event at a position of a trace.

## Main results

* `Transition.System.Reach.invariant` — what holds at the start and is kept by every move holds
  in every reachable state.
* `Transition.Component.interleave_invariant` — the same for two components, each with an invariant
  of its own that the moves of the other keep.
-/

namespace Transition

variable {σ γ α β ε : Type*}

/-! ## Systems -/

/-- A transition system whose moves emit events. -/
structure System (σ ε : Type*) where
  /-- The initial states. -/
  init : σ → Prop
  /-- A move from a state to another, with the events it emits. -/
  step : σ → List ε → σ → Prop

namespace System

/-- The states that a system reaches, with the trace of the run. -/
inductive Reach (sys : System σ ε) : List ε → σ → Prop
  /-- The empty run. -/
  | start {s : σ} (h : sys.init s) : Reach sys [] s
  /-- A run is continued by a move. -/
  | next {trace events : List ε} {s s' : σ} (hrun : Reach sys trace s)
      (h : sys.step s events s') : Reach sys (trace ++ events) s'

/-- **Invariants.** What holds in the initial states and is kept by every move of a reachable
state holds in every reachable state. -/
lemma Reach.invariant {sys : System σ ε} {inv : List ε → σ → Prop}
    (hinit : ∀ s, sys.init s → inv [] s)
    (hstep : ∀ trace events s s', inv trace s → sys.step s events s' → inv (trace ++ events) s')
    {trace : List ε} {s : σ} (hrun : sys.Reach trace s) : inv trace s := by
  induction hrun with
  | start h => exact hinit _ h
  | next hrun h ih => exact hstep _ _ _ _ ih h

/-- The runs from one state to another, with their traces. -/
inductive Moves (sys : System σ ε) : σ → List ε → σ → Prop
  /-- The empty run. -/
  | refl (s : σ) : Moves sys s [] s
  /-- A move, and a run from the state it leads to. -/
  | head {events trace : List ε} {s s' s'' : σ} (h : sys.step s events s')
      (hrest : Moves sys s' trace s'') : Moves sys s (events ++ trace) s''

section Moves

variable {sys : System σ ε} {trace trace' events : List ε} {s s' s'' : σ}

/-- One step is a sequence of moves. -/
lemma Moves.single (h : sys.step s events s') : sys.Moves s events s' := by
  rw [← List.append_nil events]
  exact .head h (.refl s')

/-- Sequences of moves that follow one another are one. -/
lemma Moves.trans (hfirst : sys.Moves s trace s') (hsecond : sys.Moves s' trace' s'') :
    sys.Moves s (trace ++ trace') s'' := by
  induction hfirst with
  | refl => exact hsecond
  | head h hrest ih =>
    rw [List.append_assoc]
    exact .head h (ih hsecond)

/-- A run from a reachable state leads to a reachable state. -/
lemma Reach.moves (hrun : sys.Reach trace s) (h : sys.Moves s trace' s') :
    sys.Reach (trace ++ trace') s' := by
  induction h generalizing trace with
  | refl =>
    rw [List.append_nil]
    exact hrun
  | head h hrest ih =>
    rw [← List.append_assoc]
    exact ih (hrun.next h)

end Moves

end System

/-! ## Components on a shared store -/

/-- A component: it moves its local state and the shared store. -/
structure Component (γ α ε : Type*) where
  /-- The initial local states. -/
  init : α → Prop
  /-- A move on the store and the local state. -/
  step : γ → α → List ε → γ → α → Prop

namespace Component

/-- A component on its own. -/
def alone (c : Component γ α ε) (store : γ → Prop) : System (γ × α) ε where
  init s := store s.1 ∧ c.init s.2
  step s events s' := c.step s.1 s.2 events s'.1 s'.2

/-- Two components on one store, which move in any order. -/
def interleave (c : Component γ α ε) (d : Component γ β ε) (store : γ → Prop) :
    System (γ × α × β) ε where
  init s := store s.1 ∧ c.init s.2.1 ∧ d.init s.2.2
  step s events s' :=
    (c.step s.1 s.2.1 events s'.1 s'.2.1 ∧ s'.2.2 = s.2.2) ∨
      (d.step s.1 s.2.2 events s'.1 s'.2.2 ∧ s'.2.1 = s.2.1)

/-- A run of a component is continued by a move of it. -/
lemma reach_alone_next {c : Component γ α ε} {store : γ → Prop} {trace events : List ε} {g g' : γ}
    {a a' : α} (hrun : (c.alone store).Reach trace (g, a)) (h : c.step g a events g' a') :
    (c.alone store).Reach (trace ++ events) (g', a') :=
  hrun.next h

/-- A run of two components is continued by a move of the first. -/
lemma reach_interleave_left {c : Component γ α ε} {d : Component γ β ε} {store : γ → Prop}
    {trace events : List ε} {g g' : γ} {a a' : α} {b : β}
    (hrun : (c.interleave d store).Reach trace (g, a, b)) (h : c.step g a events g' a') :
    (c.interleave d store).Reach (trace ++ events) (g', a', b) :=
  hrun.next (Or.inl ⟨h, rfl⟩)

/-- A run of two components is continued by a move of the second. -/
lemma reach_interleave_right {c : Component γ α ε} {d : Component γ β ε} {store : γ → Prop}
    {trace events : List ε} {g g' : γ} {a : α} {b b' : β}
    (hrun : (c.interleave d store).Reach trace (g, a, b)) (h : d.step g b events g' b') :
    (c.interleave d store).Reach (trace ++ events) (g', a, b') :=
  hrun.next (Or.inr ⟨h, rfl⟩)

/-- A run of the first component alone is a run of both. -/
lemma reach_interleave_of_alone {c : Component γ α ε} {d : Component γ β ε} {store : γ → Prop}
    {trace : List ε} {s : γ × α} (hrun : (c.alone store).Reach trace s) {b : β} (hb : d.init b) :
    (c.interleave d store).Reach trace (s.1, s.2, b) := by
  induction hrun with
  | start h => exact .start ⟨h.1, h.2, hb⟩
  | next hrun h ih => exact reach_interleave_left ih h

/-- **Invariants of two components.** An invariant of the first component and one of the second,
where each is kept by the moves of both and the second may rely on the first. -/
lemma interleave_invariant {c : Component γ α ε} {d : Component γ β ε} {store : γ → Prop}
    {inv : List ε → γ → α → Prop} {inv' : List ε → γ → β → Prop}
    (hinit : ∀ g a, store g → c.init a → inv [] g a)
    (hinit' : ∀ g b, store g → d.init b → inv' [] g b)
    (hown : ∀ trace events g a g' a', inv trace g a → c.step g a events g' a' →
      inv (trace ++ events) g' a')
    (hother : ∀ trace events g a g' b b', inv trace g a → d.step g b events g' b' →
      inv (trace ++ events) g' a)
    (hown' : ∀ trace events g a g' b b', inv trace g a → inv' trace g b →
      d.step g b events g' b' → inv' (trace ++ events) g' b')
    (hother' : ∀ trace events g a g' a' b, inv' trace g b → c.step g a events g' a' →
      inv' (trace ++ events) g' b)
    {trace : List ε} {s : γ × α × β} (hrun : (c.interleave d store).Reach trace s) :
    inv trace s.1 s.2.1 ∧ inv' trace s.1 s.2.2 := by
  refine @System.Reach.invariant _ _ (c.interleave d store)
    (fun trace s => inv trace s.1 s.2.1 ∧ inv' trace s.1 s.2.2) ?_ ?_ trace s hrun
  · rintro s ⟨hs, hc, hd⟩
    exact ⟨hinit _ _ hs hc, hinit' _ _ hs hd⟩
  · rintro trace events s s' ⟨h, h'⟩ (⟨hstep, heq⟩ | ⟨hstep, heq⟩)
    · refine ⟨hown _ _ _ _ _ _ h hstep, ?_⟩
      rw [heq]
      exact hother' _ _ _ _ _ _ _ h' hstep
    · refine ⟨?_, hown' _ _ _ _ _ _ _ h h' hstep⟩
      rw [heq]
      exact hother _ _ _ _ _ _ _ h hstep

end Component

/-! ## Positions in a trace -/

/-- The event at a position of a trace. -/
def At (events : List ε) (i : ℕ) (e : ε) : Prop := events[i]? = some e

section At

variable {trace events : List ε} {i : ℕ} {e : ε}

/-- A position of an event is one of the trace. -/
lemma At.lt (h : At trace i e) : i < trace.length := by
  rw [At, List.getElem?_eq_some_iff] at h
  exact h.1

/-- An event stays at its position when the run goes on. -/
lemma At.append (h : At trace i e) (events : List ε) : At (trace ++ events) i e := by
  rw [At, List.getElem?_append_left h.lt]
  exact h

/-- The event of the last move is at the last position. -/
lemma at_concat (trace : List ε) (e : ε) : At (trace ++ [e]) trace.length e := by
  simp [At]

/-- An event of a continued run was there before or is one of the new ones. -/
lemma At.of_append (h : At (trace ++ events) i e) :
    At trace i e ∨ (trace.length ≤ i ∧ e ∈ events) := by
  by_cases hi : i < trace.length
  · rw [At, List.getElem?_append_left hi] at h
    exact Or.inl h
  · have hlen : trace.length ≤ i := by omega
    rw [At, List.getElem?_append_right hlen] at h
    exact Or.inr ⟨hlen, List.mem_of_getElem? h⟩

end At

end Transition
