import Mathlib.Tactic

set_option relaxedAutoImplicit false
set_option autoImplicit false

/-!
# Programs that log events

Programs that call functions on a world, may raise, and log events. A function on the world may read
and change it in any way. What a program logs is described by a relation between its outcome and the
events that it appends to the log.

## Main definitions

* `EventLog.Program` — programs on a world that may raise and log events.
* `EventLog.call`, `EventLog.attempt`, `EventLog.emit` — a call, a call whose exceptions are caught,
  and an event.
* `EventLog.callAs`, `EventLog.attemptAs` — the same calls, each of which is itself an event.
* `EventLog.Emits` — what a program logs, from every state.

## Main results

* `EventLog.Emits.bind` — the events of two programs in sequence.
* `EventLog.Emits.mono` — a weaker description.
-/

namespace EventLog

variable {W E ε α β : Type}

/-- The state of a run: the world, and the events so far. -/
structure Run (W E : Type) where
  /-- The world. -/
  world : W
  /-- The events, in order. -/
  events : List E

/-- Programs on a world that may raise and log events. -/
abbrev Program (W E ε α : Type) := ExceptT ε (StateM (Run W E)) α

/-- A call of a function on the world. -/
def call (callee : W → Except ε α × W) : Program W E ε α := ExceptT.mk fun run =>
  ((callee run.world).1, { run with world := (callee run.world).2 })

/-- A call whose exceptions are caught. -/
def attempt (callee : W → Except ε α × W) : Program W E ε (Except ε α) := ExceptT.mk fun run =>
  (.ok (callee run.world).1, { run with world := (callee run.world).2 })

/-- A call that is an event, which shows whether it raised. -/
def callAs (event : Bool → E) (callee : W → Except ε α × W) : Program W E ε α :=
  ExceptT.mk fun run =>
    let result := callee run.world
    (result.1, ⟨result.2, run.events ++ [event result.1.toBool]⟩)

/-- A call whose exceptions are caught and that is an event, which shows whether it raised. -/
def attemptAs (event : Bool → E) (callee : W → Except ε α × W) : Program W E ε (Except ε α) :=
  ExceptT.mk fun run =>
    let result := callee run.world
    (.ok result.1, ⟨result.2, run.events ++ [event result.1.toBool]⟩)

/-- An event. -/
def emit (event : E) : Program W E ε Unit := ExceptT.mk fun run =>
  (.ok (), { run with events := run.events ++ [event] })

/-- The outcome and the state behind a program that starts in a world with an empty log. -/
def Program.start (p : Program W E ε α) (world : W) : Except ε α × Run W E := p.run ⟨world, []⟩

/-- From every state, the program appends events to the log that are described together with its
outcome. -/
def Emits (p : Program W E ε α) (post : Except ε α → List E → Prop) : Prop :=
  ∀ run : Run W E, ∃ new, (p.run run).2.events = run.events ++ new ∧ post (p.run run).1 new

section Rules

variable {P : Except ε α → List E → Prop}

/-- A program that returns at once logs nothing. -/
lemma emits_pure {a : α} (h : P (.ok a) []) : Emits (pure a : Program W E ε α) P := fun _ =>
  ⟨[], (List.append_nil _).symm, h⟩

/-- A call logs nothing. -/
lemma emits_call {callee : W → Except ε α × W} (h : ∀ r, P r []) :
    Emits (call callee : Program W E ε α) P := fun _ => ⟨[], (List.append_nil _).symm, h _⟩

/-- A call whose exceptions are caught logs nothing. -/
lemma emits_attempt {callee : W → Except ε α × W} {Q : Except ε (Except ε α) → List E → Prop}
    (h : ∀ r, Q (.ok r) []) : Emits (attempt callee : Program W E ε (Except ε α)) Q := fun _ =>
  ⟨[], (List.append_nil _).symm, h _⟩

/-- A call that is an event logs this event. -/
lemma emits_callAs {event : Bool → E} {callee : W → Except ε α × W}
    (h : ∀ r : Except ε α, P r [event r.toBool]) :
    Emits (callAs event callee : Program W E ε α) P := fun _ => ⟨_, rfl, h _⟩

/-- A call whose exceptions are caught and that is an event logs this event. -/
lemma emits_attemptAs {event : Bool → E} {callee : W → Except ε α × W}
    {Q : Except ε (Except ε α) → List E → Prop}
    (h : ∀ r : Except ε α, Q (.ok r) [event r.toBool]) :
    Emits (attemptAs event callee : Program W E ε (Except ε α)) Q := fun _ => ⟨_, rfl, h _⟩

/-- An event is logged. -/
lemma emits_emit {event : E} {Q : Except ε Unit → List E → Prop} (h : Q (.ok ()) [event]) :
    Emits (emit event : Program W E ε Unit) Q := fun _ => ⟨[event], rfl, h⟩

/-- What a program logs can be described by less. -/
lemma Emits.mono {p : Program W E ε α} {Q : Except ε α → List E → Prop} (hp : Emits p P)
    (h : ∀ r new, P r new → Q r new) : Emits p Q := fun run =>
  let ⟨new, hevents, hpost⟩ := hp run
  ⟨new, hevents, h _ _ hpost⟩

/-- Two programs in sequence: the first one raises, or the events of the second one follow. -/
theorem Emits.bind {p : Program W E ε α} {f : α → Program W E ε β}
    {Q : α → Except ε β → List E → Prop} (hp : Emits p P) (hf : ∀ a, Emits (f a) (Q a)) :
    Emits (p >>= f) fun r new => (∃ e, r = .error e ∧ P (.error e) new) ∨
      ∃ a front back, new = front ++ back ∧ P (.ok a) front ∧ Q a r back := by
  intro run
  obtain ⟨front, hfront, hpost⟩ := hp run
  rw [ExceptT.run_bind]
  rcases hrun : ExceptT.run p run with ⟨e | a, run'⟩
  · rw [hrun] at hfront hpost
    simp only [Bind.bind, StateT.bind, hrun]
    exact ⟨front, hfront, Or.inl ⟨e, rfl, hpost⟩⟩
  · rw [hrun] at hfront hpost
    obtain ⟨back, hback, hpost'⟩ := hf a run'
    simp only [Bind.bind, StateT.bind, hrun]
    refine ⟨front ++ back, ?_, Or.inr ⟨a, front, back, rfl, hpost, hpost'⟩⟩
    rw [← List.append_assoc, ← hfront]
    exact hback

/-- What a program logs from the start. -/
lemma Emits.start {p : Program W E ε α} (hp : Emits p P) (world : W) :
    P (p.start world).1 (p.start world).2.events := by
  obtain ⟨new, hevents, hpost⟩ := hp ⟨world, []⟩
  rw [List.nil_append] at hevents
  unfold Program.start
  rw [hevents]
  exact hpost

end Rules

end EventLog
