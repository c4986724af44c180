import EntsoePipeline.Lib.EventLog
import EntsoePipeline.Lib.Simulation
import Mathlib.Logic.Relation

set_option relaxedAutoImplicit false
set_option autoImplicit false

/-!
# Programs that may break off

A program on a state may raise at any of its steps and then leaves what it has done so far. What it
can do is described by a relation between states, along which every run moves the state; what it has
done when it returns, by a predicate. A predicate that the relation keeps holds from then on,
whatever is run later.

## Main definitions

* `Recovery.Moves` — every run of a program moves the state along a relation.
* `Recovery.Leaves`, `Recovery.Returns` — what holds when a program returns, and that it returns.
* `Recovery.runAll` — programs that are run one after another, however each of them ends.

## Main results

* `Recovery.Moves.bind`, `Recovery.Moves.tryCatch` — programs in sequence, and handlers.
* `Recovery.leaves_forM` — what a pass of a loop leaves, the loop leaves.
* `Recovery.stays_of_passed` — what a program leaves that passed once, the runs behind it keep.
-/

namespace Recovery

open Relation (ReflTransGen)
open Simulation (Program)

variable {σ τ ε α β ι : Type} {view : σ → τ}

/-- A handler starts in the state behind the raise. -/
lemma from_tryCatch (p : Program σ ε α) (handler : ε → Program σ ε α) (s : σ) :
    Program.from (tryCatch p handler) s =
      match p.from s with
      | (.ok a, s') => (.ok a, s')
      | (.error e, s') => (handler e).from s' := by
  unfold Simulation.Program.from
  rw [ExceptT.run_tryCatch]
  rcases hrun : ExceptT.run p s with ⟨e | a, s'⟩
  · simp only [bind, StateT.bind, hrun]
  · simp only [bind, StateT.bind, hrun]
    rfl

/-! ## What runs do -/

/-- Every run, also one that raises, moves the part of the state in view along the relation. -/
def Moves (view : σ → τ) (R : τ → τ → Prop) (p : Program σ ε α) : Prop :=
  ∀ s, ReflTransGen R (view s) (view (p.from s).2)

/-- The relation keeps the predicate. -/
def Stable (R : τ → τ → Prop) (I : τ → Prop) : Prop := ∀ t t', R t t' → I t → I t'

/-- What every move keeps is kept by moves in a row. -/
lemma Stable.run {R : τ → τ → Prop} {I : τ → Prop} (h : Stable R I) {t t' : τ}
    (hrun : ReflTransGen R t t') (ht : I t) : I t' := by
  induction hrun with
  | refl => exact ht
  | tail _ hstep ih => exact h _ _ hstep ih

/-- Two things that are kept are kept together. -/
lemma Stable.and {R : τ → τ → Prop} {I J : τ → Prop} (hI : Stable R I) (hJ : Stable R J) :
    Stable R fun t => I t ∧ J t := fun t t' hstep h => ⟨hI t t' hstep h.1, hJ t t' hstep h.2⟩

section Moves

variable {R : τ → τ → Prop} {p : Program σ ε α} {f : α → Program σ ε β}

/-- A value moves nothing. -/
lemma moves_pure (a : α) : Moves view R (pure a : Program σ ε α) := fun _ => .refl

/-- An error moves nothing. -/
lemma moves_throw (e : ε) : Moves view R (throw e : Program σ ε α) := fun _ => .refl

/-- A result moves nothing. -/
lemma moves_ofExcept (result : Except ε α) : Moves view R (ofExcept result : Program σ ε α) := by
  cases result with
  | error e => exact moves_throw e
  | ok a => exact moves_pure a

/-- A program behind a result that is there or not. -/
lemma moves_ofExcept_bind {result : Except ε α} (h : ∀ a, result = .ok a → Moves view R (f a)) :
    Moves view R (ofExcept result >>= f) := by
  intro s
  rw [Simulation.from_bind]
  cases result with
  | error e => exact .refl
  | ok a => exact h a rfl s

/-- Programs in sequence. -/
theorem Moves.bind (hp : Moves view R p) (hf : ∀ a, Moves view R (f a)) :
    Moves view R (p >>= f) := by
  intro s
  have hfirst := hp s
  rw [Simulation.from_bind]
  rcases hrun : p.from s with ⟨e | a, s'⟩
  · rw [hrun] at hfirst
    exact hfirst
  · rw [hrun] at hfirst
    exact hfirst.trans (hf a s')

/-- A program with a handler. -/
theorem Moves.tryCatch {handler : ε → Program σ ε α} (hp : Moves view R p)
    (hhandler : ∀ e, Moves view R (handler e)) : Moves view R (tryCatch p handler) := by
  intro s
  have hfirst := hp s
  rw [from_tryCatch]
  rcases hrun : p.from s with ⟨e | a, s'⟩
  · rw [hrun] at hfirst
    exact hfirst.trans (hhandler e s')
  · rw [hrun] at hfirst
    exact hfirst

end Moves

/-! ## What programs leave -/

/-- When the program starts in a state of `P` and returns, its result and its state are of `Q`. -/
def Leaves (P : σ → Prop) (p : Program σ ε α) (Q : α → σ → Prop) : Prop :=
  ∀ s, P s → ∀ a s', p.from s = (.ok a, s') → Q a s'

/-- When the program starts in a state of `P`, it returns. -/
def Returns (P : σ → Prop) (p : Program σ ε α) : Prop := ∀ s, P s → ∃ a, (p.from s).1 = .ok a

section Leaves

variable {R : τ → τ → Prop} {P : σ → Prop} {Q : α → σ → Prop} {Q' : β → σ → Prop}
  {p : Program σ ε α} {f : α → Program σ ε β}

/-- A value leaves what holds of it. -/
lemma leaves_pure {a : α} (h : ∀ s, P s → Q a s) : Leaves P (pure a : Program σ ε α) Q := by
  rintro s hs a' s' hrun
  cases hrun
  exact h s hs

/-- An error does not return and leaves anything. -/
lemma leaves_throw (e : ε) : Leaves P (throw e : Program σ ε α) Q := by
  rintro s - a s' hrun
  cases hrun

/-- What is left may be weakened. -/
lemma Leaves.mono {I : α → σ → Prop} (hp : Leaves P p Q) (h : ∀ a s, Q a s → I a s) :
    Leaves P p I := fun s hs a s' hrun => h a s' (hp s hs a s' hrun)

/-- Programs in sequence. -/
theorem Leaves.bind (hp : Leaves P p Q) (hf : ∀ a, Leaves (Q a) (f a) Q') :
    Leaves P (p >>= f) Q' := by
  intro s hs b s'' hrun
  rw [Simulation.from_bind] at hrun
  rcases hfirst : p.from s with ⟨e | a, s'⟩
  · rw [hfirst] at hrun
    cases hrun
  · rw [hfirst] at hrun
    exact hf a s' (hp s hs a s' hfirst) b s'' hrun

/-- A program with a handler that leaves the same. -/
lemma Leaves.tryCatch {handler : ε → Program σ ε α} (hp : Leaves P p Q)
    (hhandler : ∀ e, Leaves (fun _ => True) (handler e) Q) : Leaves P (tryCatch p handler) Q := by
  intro s hs a s'' hrun
  rw [from_tryCatch] at hrun
  rcases hfirst : p.from s with ⟨e | a', s'⟩
  · rw [hfirst] at hrun
    exact hhandler e s' trivial a s'' hrun
  · rw [hfirst] at hrun
    cases hrun
    exact hp s hs a s'' hfirst

/-- What the relation keeps, a program keeps. -/
lemma Moves.leaves {I : τ → Prop} (hp : Moves view R p) (hstable : Stable R I) :
    Leaves (fun s => I (view s)) p fun _ s => I (view s) := by
  intro s hs a s' hrun
  have hmoves := hp s
  rw [hrun] at hmoves
  exact hstable.run hmoves hs

/-- Programs in sequence, when the result of the first one is of a kind. -/
lemma Moves.bind_of_leaves {I : α → Prop} (hp : Moves view R p)
    (hleaves : Leaves (fun _ => True) p fun a _ => I a) (hf : ∀ a, I a → Moves view R (f a)) :
    Moves view R (p >>= f) := by
  intro s
  have hfirst := hp s
  rw [Simulation.from_bind]
  rcases hrun : p.from s with ⟨e | a, s'⟩
  · rw [hrun] at hfirst
    exact hfirst
  · rw [hrun] at hfirst
    exact hfirst.trans (hf a (hleaves s trivial a s' hrun) s')

/-- A program keeps one fact and adds another. -/
lemma Leaves.gain {I : τ → Prop} {J : α → σ → Prop} (hp : Leaves (fun _ => True) p J)
    (hmoves : Moves view R p) (hstable : Stable R I) :
    Leaves (fun s => I (view s)) p fun a s => I (view s) ∧ J a s := fun s hs a s' hrun =>
  ⟨hmoves.leaves hstable s hs a s' hrun, hp s trivial a s' hrun⟩

/-- What a program leaves, a program behind it keeps. -/
lemma Leaves.seq {I : τ → Prop} (hp : Leaves P p fun _ s => I (view s)) (hstable : Stable R I)
    (hf : ∀ a, Moves view R (f a)) : Leaves P (p >>= f) fun _ s => I (view s) :=
  hp.bind fun a => (hf a).leaves hstable

/-- What the second program leaves, wherever it starts. -/
lemma Leaves.after {I : β → σ → Prop} (hf : ∀ a, Leaves (fun _ => True) (f a) I) :
    Leaves P (p >>= f) I := by
  have hp : Leaves P p fun _ _ => True := fun _ _ _ _ _ => trivial
  exact hp.bind hf

/-- Behind a result only its value counts. -/
lemma leaves_ofExcept_bind {result : Except ε α} (h : ∀ a, result = .ok a → Leaves P (f a) Q') :
    Leaves P (ofExcept result >>= f) Q' := by
  intro s hs b s' hrun
  rw [Simulation.from_bind] at hrun
  cases result with
  | error e => cases hrun
  | ok a => exact h a rfl s hs b s' hrun

/-! ### That programs return -/

/-- A value returns. -/
lemma returns_pure (a : α) : Returns P (pure a : Program σ ε α) := fun _ _ => ⟨a, rfl⟩

/-- A result that is a value returns. -/
lemma returns_ofExcept {result : Except ε α} {a : α} (hresult : result = .ok a) :
    Returns P (ofExcept result : Program σ ε α) := fun _ _ => ⟨a, by rw [hresult]; rfl⟩

/-- Behind a result that is a value the rest decides. -/
lemma returns_ofExcept_bind {result : Except ε α} {a : α} (hresult : result = .ok a)
    (h : Returns P (f a)) : Returns P (ofExcept result >>= f) := by
  subst hresult
  intro s hs
  rw [Simulation.from_bind]
  exact h s hs

/-- Programs in sequence. -/
theorem Returns.bind (hp : Returns P p) (hleaves : Leaves P p Q) (hf : ∀ a, Returns (Q a) (f a)) :
    Returns P (p >>= f) := by
  intro s hs
  obtain ⟨a, hok⟩ := hp s hs
  rw [Simulation.from_bind]
  rcases hrun : p.from s with ⟨e | a', s'⟩
  · rw [hrun] at hok
    cases hok
  · exact hf a' s' (hleaves s hs a' s' hrun)

variable (view) in
/-- Programs in sequence on a predicate that the first one keeps. -/
lemma Returns.seq {I : τ → Prop} (hp : Returns (fun s => I (view s)) p) (hmoves : Moves view R p)
    (hstable : Stable R I) (hf : ∀ a, Returns (fun s => I (view s)) (f a)) :
    Returns (fun s => I (view s)) (p >>= f) :=
  hp.bind (hmoves.leaves hstable) hf

/-- A handler is not called when the program returns. -/
lemma Returns.tryCatch (hp : Returns P p) (handler : ε → Program σ ε α) :
    Returns P (tryCatch p handler) := by
  intro s hs
  obtain ⟨a, hok⟩ := hp s hs
  rw [from_tryCatch]
  rcases hrun : p.from s with ⟨e | a', s'⟩
  · rw [hrun] at hok
    cases hok
  · exact ⟨a', rfl⟩

end Leaves

/-! ## Loops -/

section Loops

variable {R : τ → τ → Prop} {I : τ → Prop} {body : ι → Program σ ε Unit} {l : List ι}

/-- A loop moves the state along the relation of its passes. -/
lemma moves_forM (h : ∀ i ∈ l, Moves view R (body i)) : Moves view R (l.forM body) := by
  induction l with
  | nil => exact moves_pure ()
  | cons i l ih =>
    rw [List.forall_mem_cons] at h
    show Moves view R (body i >>= fun _ => l.forM body)
    exact h.1.bind fun _ => ih h.2

/-- What a pass leaves, a loop with this pass leaves. -/
theorem leaves_forM (hmoves : ∀ i ∈ l, Moves view R (body i)) (hstable : Stable R I) {i : ι}
    (hi : i ∈ l) (hleaves : Leaves (fun _ => True) (body i) fun _ s => I (view s)) :
    Leaves (fun _ => True) (l.forM body) fun _ s => I (view s) := by
  induction l with
  | nil => cases hi
  | cons j l ih =>
    rw [List.forall_mem_cons] at hmoves
    show Leaves _ (body j >>= fun _ => l.forM body) _
    rcases List.mem_cons.mp hi with rfl | hi
    · exact hleaves.seq hstable fun _ => moves_forM hmoves.2
    · exact Leaves.after fun _ => ih hmoves.2 hi

variable (view) in
/-- A loop returns when its passes return from states of a predicate that they keep. -/
lemma returns_forM (hmoves : ∀ i ∈ l, Moves view R (body i)) (hstable : Stable R I)
    (h : ∀ i ∈ l, Returns (fun s => I (view s)) (body i)) :
    Returns (fun s => I (view s)) (l.forM body) := by
  induction l with
  | nil => exact returns_pure ()
  | cons i l ih =>
    rw [List.forall_mem_cons] at h hmoves
    show Returns _ (body i >>= fun _ => l.forM body)
    exact Returns.seq view h.1 hmoves.1 hstable fun _ => ih hmoves.2 h.2

end Loops

/-! ## Runs in a row -/

/-- Programs are run one after another, each in the state behind the one before it, however that one
ended. The outcomes are listed. -/
def runAll (p : ι → Program σ ε α) : List ι → σ → List (ι × Except ε α) × σ
  | [], s => ([], s)
  | i :: is, s =>
    let result := (p i).from s
    let rest := runAll p is result.2
    ((i, result.1) :: rest.1, rest.2)

section Runs

variable {R : τ → τ → Prop} {p : ι → Program σ ε α} {is : List ι} {s : σ}

/-- Runs in a row move the state along the relation. -/
lemma moves_runAll (h : ∀ i ∈ is, Moves view R (p i)) (s : σ) :
    ReflTransGen R (view s) (view (runAll p is s).2) := by
  induction is generalizing s with
  | nil => exact .refl
  | cons i is ih =>
    rw [List.forall_mem_cons] at h
    exact (h.1 s).trans (ih h.2 _)

/-- **What stays.** What a program leaves that passed once, the runs behind it keep. -/
theorem stays_of_passed {I : τ → Prop} (h : ∀ i ∈ is, Moves view R (p i)) (hstable : Stable R I)
    {i : ι} (hleaves : Leaves (fun _ => True) (p i) fun _ s => I (view s)) {a : α}
    (hpassed : (i, .ok a) ∈ (runAll p is s).1) : I (view (runAll p is s).2) := by
  induction is generalizing s with
  | nil => cases hpassed
  | cons first is ih =>
    rw [List.forall_mem_cons] at h
    rcases List.mem_cons.mp hpassed with heq | hpassed
    · obtain ⟨rfl, hok⟩ := Prod.mk.inj heq
      exact hstable.run (moves_runAll h.2 _) (hleaves s trivial a _ (Prod.ext hok.symm rfl))
    · exact ih h.2 hpassed

/-- What the last program leaves when it passed. -/
lemma leaves_of_getLast {Q : α → σ → Prop} {i : ι}
    (hleaves : Leaves (fun _ => True) (p i) Q) {a : α}
    (hlast : (runAll p is s).1.getLast? = some (i, .ok a)) : Q a (runAll p is s).2 := by
  induction is generalizing s with
  | nil => cases hlast
  | cons first is ih =>
    rw [runAll] at hlast ⊢
    dsimp only at hlast ⊢
    rcases hrest : (runAll p is ((p first).from s).2).1 with _ | ⟨outcome, outcomes⟩
    · rw [hrest, List.getLast?_singleton, Option.some_inj] at hlast
      obtain ⟨rfl, hok⟩ := Prod.mk.inj hlast
      have hnil : is = [] := by
        cases is with
        | nil => rfl
        | cons second is => cases hrest
      subst hnil
      exact hleaves s trivial a _ (Prod.ext hok rfl)
    · rw [hrest, List.getLast?_cons_cons, ← hrest] at hlast
      exact ih hlast

/-- Programs that return from states of a predicate that all of them keep pass in a row. -/
lemma passed_of_returns {I : τ → Prop} (hmoves : ∀ i ∈ is, Moves view R (p i))
    (hstable : Stable R I) (h : ∀ i ∈ is, Returns (fun s => I (view s)) (p i)) (hs : I (view s)) :
    ∀ outcome ∈ (runAll p is s).1, outcome.2.toBool = true := by
  induction is generalizing s with
  | nil => exact fun _ hmem => absurd hmem List.not_mem_nil
  | cons i is ih =>
    rw [List.forall_mem_cons] at h hmoves
    obtain ⟨a, hok⟩ := h.1 s hs
    rw [runAll, hok, List.forall_mem_cons]
    exact ⟨rfl, ih hmoves.2 h.2 (hstable.run (hmoves.1 s) hs)⟩

end Runs

/-! ## Programs with a log -/

/-- A program without its log. -/
def unlogged {W E : Type} (p : EventLog.Program W E ε α) : Program W ε α :=
  Simulation.step fun w => ((p.start w).1, (p.start w).2.world)

section Logs

variable {W E : Type} {view : W → τ} {R : τ → τ → Prop} {p : EventLog.Program W E ε α}

/-- The moves of a program with a log are those of its world. -/
lemma moves_unlogged (h : Moves (fun run : EventLog.Run W E => view run.world) R p) :
    Moves view R (unlogged p) := fun w => h ⟨w, []⟩

/-- Without its log a program leaves the same. -/
lemma leaves_unlogged {P : W → Prop} {Q : α → W → Prop}
    (h : Leaves (fun run => P run.world) p fun a run => Q a run.world) :
    Leaves P (unlogged p) Q := by
  intro w hw a w' hrun
  obtain ⟨hresult, rfl⟩ := Prod.mk.inj hrun
  exact h ⟨w, []⟩ hw a _ (Prod.ext hresult rfl)

/-- Without its log a program returns as well. -/
lemma returns_unlogged {P : W → Prop} (h : Returns (fun run => P run.world) p) :
    Returns P (unlogged p) := fun w hw => h ⟨w, []⟩ hw

end Logs

end Recovery
