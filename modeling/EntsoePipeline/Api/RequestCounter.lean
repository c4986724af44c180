import EntsoePipeline.Lib.Transition
import EntsoePipeline.Py.Str

set_option relaxedAutoImplicit false
set_option autoImplicit false

/-!
# The count of requests

The requests to the file server are counted per environment and category in a counter that all
threads share. At the end of a job the tracker reads the counter, logs what it has read and resets
the counter, in separate critical sections. A request that is counted between the reading and the
reset is lost, and a second tracker that reads between them logs the same requests again.

## Main definitions

* `EntsoePipeline.RequestStats`, `EntsoePipeline.Bucket` — the counters and what they count.
* `EntsoePipeline.CounterStep` — one critical section of `increment` or of a `stop`, or the logging
  between two of them.
* `EntsoePipeline.history` — the increments behind the numbers: which are in the counter, which
  were read by a `stop`, and which were reported.
* `EntsoePipeline.NoneLost`, `EntsoePipeline.NoneTwice` — the two parts of the statement.
* `EntsoePipeline.Undisturbed` — the condition on a step.

## Main results

* `EntsoePipeline.tallied_of_reach` — the numbers are the tallies of the increments behind them.
* `EntsoePipeline.counted_of_undisturbed` — no count is lost in undisturbed runs.
* `EntsoePipeline.not_noneLost_between` — a request between the reading and the reset is lost.

## Implementation notes

An increment is numbered by its place among all increments. What a `stop` does before it reads the
counter touches nothing that is shared.
-/

namespace EntsoePipeline

open Py Transition

/-! ## The code -/

/-- The environment of a request to the file server. -/
def requestEnv (url : Str) : Str :=
  if contains url "tp-iop".toList then "IOP".toList else "PROD".toList

/-- The category of a request, from its URL and the text of its body. -/
def requestCategory (url body : Str) : Str :=
  if contains url "TP_Legacy_Publications".toList ∨ contains body "TP_Legacy_Publications".toList
  then "TP_Legacy_Publications".toList else "TP_export".toList

/-- The counters. -/
structure RequestStats where
  /-- `iop_export`. -/
  iopExport : ℕ
  /-- `iop_legacy`. -/
  iopLegacy : ℕ
  /-- `prod_export`. -/
  prodExport : ℕ
  /-- `prod_legacy`. -/
  prodLegacy : ℕ
  deriving DecidableEq

/-- The environments and categories that are counted. -/
inductive Bucket
  /-- An export of the test environment. -/
  | iopExport
  /-- A legacy archive of the test environment. -/
  | iopLegacy
  /-- An export of the production environment. -/
  | prodExport
  /-- A legacy archive of the production environment. -/
  | prodLegacy
  deriving DecidableEq

/-- The counter that a request goes to. -/
def bucketOf (cm : CaseMap) (env category : Str) : Bucket :=
  if contains (cm.upper env) "IOP".toList then
    if contains (cm.lower category) "legacy".toList then .iopLegacy else .iopExport
  else
    if contains (cm.lower category) "legacy".toList then .prodLegacy else .prodExport

/-- The counter of a request to the file server. -/
lemma bucketOf_request (cm : CaseMap) (url body : Str) :
    bucketOf cm (requestEnv url) (requestCategory url body) =
      if contains url "tp-iop".toList then
        if contains url "TP_Legacy_Publications".toList ∨
          contains body "TP_Legacy_Publications".toList then .iopLegacy else .iopExport
      else
        if contains url "TP_Legacy_Publications".toList ∨
          contains body "TP_Legacy_Publications".toList then .prodLegacy else .prodExport := by
  have hiop : contains (cm.upper "IOP".toList) "IOP".toList = true := by
    rw [cm.upper_ascii _ (by decide)]
    decide
  have hprod : contains (cm.upper "PROD".toList) "IOP".toList = false := by
    rw [cm.upper_ascii _ (by decide)]
    decide
  have hlegacy : contains (cm.lower "TP_Legacy_Publications".toList) "legacy".toList = true := by
    rw [cm.lower_ascii _ (by decide)]
    decide
  have hexport : contains (cm.lower "TP_export".toList) "legacy".toList = false := by
    rw [cm.lower_ascii _ (by decide)]
    decide
  unfold bucketOf requestEnv requestCategory
  split_ifs <;> simp_all

namespace RequestStats

/-- All counters are zero. -/
def zero : RequestStats := ⟨0, 0, 0, 0⟩

/-- The counter of an environment and category. -/
def count (stats : RequestStats) : Bucket → ℕ
  | .iopExport => stats.iopExport
  | .iopLegacy => stats.iopLegacy
  | .prodExport => stats.prodExport
  | .prodLegacy => stats.prodLegacy

/-- `sum(stats.values())`. -/
def total (stats : RequestStats) : ℕ :=
  stats.iopExport + stats.iopLegacy + stats.prodExport + stats.prodLegacy

/-- One more request in a counter. -/
def add (stats : RequestStats) : Bucket → RequestStats
  | .iopExport => { stats with iopExport := stats.iopExport + 1 }
  | .iopLegacy => { stats with iopLegacy := stats.iopLegacy + 1 }
  | .prodExport => { stats with prodExport := stats.prodExport + 1 }
  | .prodLegacy => { stats with prodLegacy := stats.prodLegacy + 1 }

/-- `increment`. -/
def increment (cm : CaseMap) (stats : RequestStats) (env category : Str) : RequestStats :=
  stats.add (bucketOf cm env category)

/-- The empty statistics count nothing. -/
@[simp] lemma count_zero (b : Bucket) : zero.count b = 0 := by cases b <;> rfl

/-- An increment counts in its own bucket. -/
lemma count_add (stats : RequestStats) (b b' : Bucket) :
    (stats.add b).count b' = stats.count b' + if b = b' then 1 else 0 := by
  cases b <;> cases b' <;> rfl

end RequestStats

/-- How far a `stop` is. -/
inductive StopPhase
  /-- Before it reads the counter, or after the end. -/
  | idle
  /-- It has read the counter: `stats = fms_api_counter.get_stats()`. -/
  | read (stats : RequestStats)
  /-- It has logged what it read. -/
  | logged
  deriving DecidableEq

/-- The counter and the trackers `σ`. -/
structure CounterState (σ : Type*) where
  /-- The shared counter. -/
  counter : RequestStats
  /-- The phase of the `stop` of each tracker. -/
  phase : σ → StopPhase

/-- What happens to the counter. -/
inductive CounterEvent (σ : Type*)
  /-- A request is counted. -/
  | counted (env category : Str)
  /-- A tracker reads the counter. -/
  | read (t : σ)
  /-- A tracker logs what it has read. -/
  | reported (t : σ) (stats : RequestStats)
  /-- A tracker resets the counter. -/
  | reset (t : σ)

section System

variable {σ : Type*} [DecidableEq σ]

/-- A tracker reaches a phase. -/
def CounterState.setPhase (s : CounterState σ) (t : σ) (p : StopPhase) : CounterState σ :=
  { s with phase := Function.update s.phase t p }

/-- One critical section, or the logging of a `stop`. -/
inductive CounterStep (cm : CaseMap) :
    CounterState σ → List (CounterEvent σ) → CounterState σ → Prop
  /-- `increment`, by any thread. -/
  | increment {s : CounterState σ} (env category : Str) :
      CounterStep cm s [.counted env category]
        { s with counter := s.counter.increment cm env category }
  /-- `get_stats`. -/
  | getStats {s : CounterState σ} (t : σ) (hphase : s.phase t = .idle) :
      CounterStep cm s [.read t] (s.setPhase t (.read s.counter))
  /-- Nothing was counted: the `stop` ends. -/
  | skip {s : CounterState σ} (t : σ) {stats : RequestStats} (hphase : s.phase t = .read stats)
      (hzero : ¬ 0 < stats.total) : CounterStep cm s [] (s.setPhase t .idle)
  /-- The statistics are logged. -/
  | log {s : CounterState σ} (t : σ) {stats : RequestStats} (hphase : s.phase t = .read stats)
      (hpos : 0 < stats.total) : CounterStep cm s [.reported t stats] (s.setPhase t .logged)
  /-- `reset`. -/
  | reset {s : CounterState σ} (t : σ) (hphase : s.phase t = .logged) :
      CounterStep cm s [.reset t] ({ s with counter := .zero }.setPhase t .idle)

/-- A new counter, and no `stop` under way. -/
def CounterState.IsNew (s : CounterState σ) : Prop := s.counter = .zero ∧ ∀ t, s.phase t = .idle

/-- The runs of the counter. -/
def counterSystem (σ : Type*) [DecidableEq σ] (cm : CaseMap) :
    System (CounterState σ) (CounterEvent σ) where
  init := CounterState.IsNew
  step := CounterStep cm

/-- The phases behind a move of one thread. -/
lemma phase_setPhase (s : CounterState σ) (t t' : σ) (p : StopPhase) :
    (s.setPhase t p).phase t' = if t' = t then p else s.phase t' :=
  Function.update_apply _ _ _ _

/-! ## The increments behind the numbers -/

/-- An increment: its place among all increments, and its counter. -/
structure Increment where
  /-- The place. -/
  number : ℕ
  /-- The counter. -/
  bucket : Bucket
  deriving DecidableEq

/-- The increments of a run. -/
structure CountHistory (σ : Type*) where
  /-- All increments. -/
  made : List Increment
  /-- The increments in the counter: those made since the last reset. -/
  pending : List Increment
  /-- The increments that each tracker has read. -/
  held : σ → List Increment
  /-- The increments that were reported, once for each report. -/
  reported : List Increment

/-- Before the first event. -/
def CountHistory.empty : CountHistory σ := ⟨[], [], fun _ => [], []⟩

/-- The increments after an event. -/
def CountHistory.record (cm : CaseMap) (h : CountHistory σ) : CounterEvent σ → CountHistory σ
  | .counted env category =>
    let increment : Increment := ⟨h.made.length, bucketOf cm env category⟩
    { h with made := h.made ++ [increment], pending := h.pending ++ [increment] }
  | .read t => { h with held := Function.update h.held t h.pending }
  | .reported t _ => { h with reported := h.reported ++ h.held t }
  | .reset _ => { h with pending := [] }

/-- The increments of a run. -/
def history (cm : CaseMap) (trace : List (CounterEvent σ)) : CountHistory σ :=
  trace.foldl (CountHistory.record cm) .empty

/-- The history of one more event. -/
lemma history_concat (cm : CaseMap) (trace : List (CounterEvent σ)) (event : CounterEvent σ) :
    history cm (trace ++ [event]) = (history cm trace).record cm event := by
  rw [history, List.foldl_append]
  rfl

/-- How many of the increments went to a counter. -/
def tally (increments : List Increment) (b : Bucket) : ℕ :=
  increments.countP fun increment => increment.bucket = b

/-- Without increments nothing is counted. -/
@[simp] lemma tally_nil (b : Bucket) : tally [] b = 0 := rfl

/-- Increments that follow one another are counted together. -/
lemma tally_append (l l' : List Increment) (b : Bucket) :
    tally (l ++ l') b = tally l b + tally l' b :=
  List.countP_append

/-- A single increment counts in its own bucket. -/
lemma tally_singleton (n : ℕ) (b b' : Bucket) : tally [⟨n, b⟩] b' = if b = b' then 1 else 0 := by
  simp [tally, List.countP_singleton]

end System

/-! ## The statement -/

section Statement

variable {σ : Type*}

/-- How many requests an event counts in a counter. -/
def CounterEvent.madeCount (cm : CaseMap) (b : Bucket) : CounterEvent σ → ℕ
  | .counted env category => if bucketOf cm env category = b then 1 else 0
  | _ => 0

/-- How many requests of a counter an event reports. -/
def CounterEvent.reportedCount (b : Bucket) : CounterEvent σ → ℕ
  | .reported _ stats => stats.count b
  | _ => 0

/-- The number of increments that were made. -/
def madeCount (cm : CaseMap) (trace : List (CounterEvent σ)) (b : Bucket) : ℕ :=
  (trace.map (CounterEvent.madeCount cm b)).sum

/-- The sum of all reported statistics. -/
def reportedCount (trace : List (CounterEvent σ)) (b : Bucket) : ℕ :=
  (trace.map (CounterEvent.reportedCount b)).sum

/-- No `stop` is under way. -/
def CounterState.AtRest (s : CounterState σ) : Prop := ∀ t, s.phase t = .idle

/-- The sum of all reported statistics and the current counters is the number of increments. -/
def NoneLost (cm : CaseMap) (trace : List (CounterEvent σ)) (s : CounterState σ) : Prop :=
  ∀ b, reportedCount trace b + s.counter.count b = madeCount cm trace b

/-- No increment is reported twice. -/
def NoneTwice [DecidableEq σ] (cm : CaseMap) (trace : List (CounterEvent σ)) : Prop :=
  (history cm trace).reported.Nodup

/-- A `stop` has read counts and has not reset the counter yet. -/
def StopPhase.Holds : StopPhase → Prop
  | .idle => False
  | .read stats => 0 < stats.total
  | .logged => True

/-- A request is counted, or the counter is read. -/
def CounterEvent.Touches : CounterEvent σ → Prop
  | .counted _ _ => True
  | .read _ => True
  | _ => False

/-- The condition on a step: no request is counted and no `stop` reads the counter while a `stop`
has read counts and has not reset the counter yet. -/
def Undisturbed (s : CounterState σ) (events : List (CounterEvent σ)) : Prop :=
  ∀ event ∈ events, event.Touches → ∀ t, ¬ (s.phase t).Holds

/-- The runs whose steps all meet the condition. -/
def undisturbedSystem (σ : Type*) [DecidableEq σ] (cm : CaseMap) :
    System (CounterState σ) (CounterEvent σ) where
  init := CounterState.IsNew
  step s events s' := CounterStep cm s events s' ∧ Undisturbed s events

end Statement

/-! ## The numbers and the increments -/

section Invariant

variable {σ : Type*} [DecidableEq σ] {cm : CaseMap} {trace events : List (CounterEvent σ)}
  {s s' : CounterState σ}

/-- The numbers are the tallies of the increments behind them. -/
structure Tallied (cm : CaseMap) (trace : List (CounterEvent σ)) (s : CounterState σ) : Prop where
  counter : ∀ b, s.counter.count b = tally (history cm trace).pending b
  held : ∀ t stats, s.phase t = .read stats →
    ∀ b, stats.count b = tally ((history cm trace).held t) b
  reported : ∀ b, reportedCount trace b = tally (history cm trace).reported b

omit [DecidableEq σ] in
/-- The increments that one more event makes. -/
lemma madeCount_concat (cm : CaseMap) (trace : List (CounterEvent σ)) (event : CounterEvent σ)
    (b : Bucket) :
    madeCount cm (trace ++ [event]) b = madeCount cm trace b + event.madeCount cm b := by
  simp [madeCount]

omit [DecidableEq σ] in
/-- The increments that one more event reports. -/
lemma reportedCount_concat (trace : List (CounterEvent σ)) (event : CounterEvent σ) (b : Bucket) :
    reportedCount (trace ++ [event]) b = reportedCount trace b + event.reportedCount b := by
  simp [reportedCount]

/-- The number of increments is their tally. -/
lemma madeCount_eq_tally (cm : CaseMap) (trace : List (CounterEvent σ)) (b : Bucket) :
    madeCount cm trace b = tally (history cm trace).made b := by
  induction trace using List.reverseRecOn with
  | nil => rfl
  | append_singleton trace event ih =>
    rw [madeCount_concat, history_concat, ih]
    cases event with
    | counted env category =>
      rw [CountHistory.record, tally_append, tally_singleton]
      rfl
    | read _ | reported _ _ | reset _ => rfl

/-- The increments are numbered one after the other. -/
lemma map_number_made (cm : CaseMap) (trace : List (CounterEvent σ)) :
    (history cm trace).made.map Increment.number = List.range (history cm trace).made.length := by
  induction trace using List.reverseRecOn with
  | nil => rfl
  | append_singleton trace event ih =>
    rw [history_concat]
    cases event with
    | counted env category =>
      rw [CountHistory.record, List.map_append, ih, List.length_append, List.length_singleton,
        List.range_succ]
      rfl
    | read _ | reported _ _ | reset _ => exact ih

/-- No increment is made twice. -/
lemma nodup_made (cm : CaseMap) (trace : List (CounterEvent σ)) :
    (history cm trace).made.Nodup := by
  apply List.Nodup.of_map Increment.number
  rw [map_number_made]
  exact List.nodup_range

/-- A tracker that reaches a phase without statistics leaves what the trackers have read. -/
lemma read_of_setPhase {t t' : σ} {p : StopPhase} {stats : RequestStats}
    (hp : p = .idle ∨ p = .logged) (h : (s.setPhase t p).phase t' = .read stats) :
    s.phase t' = .read stats := by
  rw [phase_setPhase] at h
  split_ifs at h
  · rcases hp with rfl | rfl <;> cases h
  · exact h

/-- Every step keeps the numbers in line with the increments. -/
lemma Tallied.step (h : Tallied cm trace s) (hstep : CounterStep cm s events s') :
    Tallied cm (trace ++ events) s' := by
  cases hstep with
  | increment env category =>
    constructor
    · intro b
      rw [history_concat, CountHistory.record, tally_append, tally_singleton, ← h.counter]
      exact RequestStats.count_add _ _ _
    · intro t stats hphase b
      rw [history_concat]
      exact h.held t stats hphase b
    · intro b
      rw [reportedCount_concat, history_concat]
      exact h.reported b
  | getStats t hphase =>
    constructor
    · intro b
      rw [history_concat]
      exact h.counter b
    · intro t' stats hread b
      rw [phase_setPhase] at hread
      rw [history_concat]
      dsimp only [CountHistory.record]
      rw [Function.update_apply]
      split_ifs at hread ⊢ with ht
      · cases hread
        exact h.counter b
      · exact h.held t' stats hread b
    · intro b
      rw [reportedCount_concat, history_concat]
      exact h.reported b
  | skip t hphase hzero =>
    rw [List.append_nil]
    refine ⟨h.counter, fun t' stats hread => ?_, h.reported⟩
    exact h.held t' stats (read_of_setPhase (Or.inl rfl) hread)
  | @log t stats hphase hpos =>
    constructor
    · intro b
      rw [history_concat]
      exact h.counter b
    · intro t' stats' hread
      rw [history_concat]
      exact h.held t' stats' (read_of_setPhase (Or.inr rfl) hread)
    · intro b
      rw [reportedCount_concat, history_concat, CountHistory.record, tally_append, h.reported]
      exact congrArg (_ + ·) (h.held t stats hphase b)
  | reset t hphase =>
    constructor
    · intro b
      rw [history_concat]
      exact RequestStats.count_zero b
    · intro t' stats hread
      have hbefore : s.phase t' = .read stats := read_of_setPhase (Or.inl rfl) hread
      rw [history_concat]
      exact h.held t' stats hbefore
    · intro b
      rw [reportedCount_concat, history_concat]
      exact h.reported b

/-- A new counter has counted nothing. -/
lemma tallied_of_isNew (hnew : s.IsNew) : Tallied cm [] s where
  counter b := by
    rw [hnew.1]
    exact RequestStats.count_zero b
  held t stats hphase := by
    rw [hnew.2 t] at hphase
    cases hphase
  reported _ := rfl

/-- **The numbers.** In every run, whatever is lost or reported twice, the counters, the statistics
that were read and the reported ones are the tallies of the increments behind them. -/
theorem tallied_of_reach (hrun : (counterSystem σ cm).Reach trace s) : Tallied cm trace s :=
  System.Reach.invariant (fun _ => tallied_of_isNew) (fun _ _ _ _ h hstep => h.step hstep) hrun

/-! ## Undisturbed runs -/

/-- Where an undisturbed run is: no `stop` holds counts, or one does, and it has read or logged
exactly the increments in the counter. -/
inductive Settled (increments : CountHistory σ) (s : CounterState σ) : Prop
  /-- No `stop` holds counts. -/
  | free (hfree : ∀ t, ¬ (s.phase t).Holds)
      (hmade : increments.made = increments.reported ++ increments.pending)
  /-- One has read the counter. -/
  | reading (t : σ) (hothers : ∀ t', (s.phase t').Holds → t' = t)
      (hphase : s.phase t ≠ .logged) (hheld : increments.held t = increments.pending)
      (hmade : increments.made = increments.reported ++ increments.pending)
  /-- One has logged what it has read. -/
  | logged (t : σ) (hothers : ∀ t', (s.phase t').Holds → t' = t)
      (hphase : s.phase t = .logged) (hmade : increments.made = increments.reported)

omit [DecidableEq σ] in
/-- When no thread is stopping the counter, what is not reported is still pending. -/
lemma Settled.made_of_free {increments : CountHistory σ} (h : Settled increments s)
    (hfree : ∀ t, ¬ (s.phase t).Holds) :
    increments.made = increments.reported ++ increments.pending := by
  cases h with
  | free _ hmade => exact hmade
  | reading _ _ _ _ hmade => exact hmade
  | logged t _ hphase _ => exact absurd (by rw [hphase]; trivial) (hfree t)

omit [DecidableEq σ] in
/-- The reported increments are the first ones of all. -/
lemma Settled.reported_prefix {increments : CountHistory σ} (h : Settled increments s) :
    increments.reported <+: increments.made := by
  cases h with
  | free _ hmade => exact ⟨_, hmade.symm⟩
  | reading _ _ _ _ hmade => exact ⟨_, hmade.symm⟩
  | logged _ _ _ hmade => rw [hmade]

omit [DecidableEq σ] in
/-- The tracker that holds counts is the only one, and has read or logged what is in the counter. -/
lemma Settled.of_holds {increments : CountHistory σ} (h : Settled increments s) {t : σ}
    (hholds : (s.phase t).Holds) :
    (∀ t', (s.phase t').Holds → t' = t) ∧
      (s.phase t ≠ .logged ∧ increments.held t = increments.pending ∧
          increments.made = increments.reported ++ increments.pending ∨
        s.phase t = .logged ∧ increments.made = increments.reported) := by
  cases h with
  | free hfree _ => exact absurd hholds (hfree t)
  | reading t' hothers hphase hheld hmade =>
    obtain rfl := hothers t hholds
    exact ⟨hothers, Or.inl ⟨hphase, hheld, hmade⟩⟩
  | logged t' hothers hphase hmade =>
    obtain rfl := hothers t hholds
    exact ⟨hothers, Or.inr ⟨hphase, hmade⟩⟩

/-- A tracker that leaves a phase without counts changes nothing for the others. -/
lemma holds_setPhase_idle {t t' : σ} (h : ((s.setPhase t .idle).phase t').Holds) :
    (s.phase t').Holds := by
  rw [phase_setPhase] at h
  split_ifs at h
  · exact h.elim
  · exact h

/-- Every step that meets the condition keeps a run settled. -/
lemma Settled.step (h : Settled (history cm trace) s) (hstep : CounterStep cm s events s')
    (hcond : Undisturbed s events) : Settled (history cm (trace ++ events)) s' := by
  cases hstep with
  | increment env category =>
    have hfree := hcond _ List.mem_cons_self trivial
    rw [history_concat]
    refine .free hfree ?_
    dsimp only [CountHistory.record]
    rw [h.made_of_free hfree, List.append_assoc]
  | getStats t hphase =>
    have hfree := hcond _ List.mem_cons_self trivial
    have hmade := h.made_of_free hfree
    rw [history_concat]
    refine .reading t (fun t' hholds => ?_) ?_ (Function.update_self _ _ _) hmade
    · by_contra ht
      rw [phase_setPhase, if_neg ht] at hholds
      exact hfree t' hholds
    · rw [phase_setPhase, if_pos rfl]
      exact StopPhase.noConfusion
  | skip t hphase hzero =>
    rw [List.append_nil]
    have hnot : ¬ (s.phase t).Holds := by
      rw [hphase]
      exact hzero
    cases h with
    | free hfree hmade => exact .free (fun t' hholds => hfree t' (holds_setPhase_idle hholds)) hmade
    | reading t' hothers hread hheld hmade =>
      refine .reading t' (fun u hholds => hothers u (holds_setPhase_idle hholds)) ?_ hheld hmade
      rw [phase_setPhase]
      split_ifs
      · exact StopPhase.noConfusion
      · exact hread
    | logged t' hothers hlogged hmade =>
      refine .logged t' (fun u hholds => hothers u (holds_setPhase_idle hholds)) ?_ hmade
      rw [phase_setPhase, if_neg, hlogged]
      rintro rfl
      rw [hlogged] at hphase
      cases hphase
  | @log t stats hphase hpos =>
    have hholds : (s.phase t).Holds := by
      rw [hphase]
      exact hpos
    rw [history_concat]
    obtain ⟨hothers, ⟨-, hheld, hmade⟩ | ⟨hlogged, -⟩⟩ := h.of_holds hholds
    · refine .logged t (fun u hu => ?_) (by rw [phase_setPhase, if_pos rfl]) ?_
      · by_contra hne
        rw [phase_setPhase, if_neg hne] at hu
        exact hne (hothers u hu)
      · dsimp only [CountHistory.record]
        rw [hheld, hmade]
    · rw [hlogged] at hphase
      cases hphase
  | reset t hphase =>
    have hholds : (s.phase t).Holds := by
      rw [hphase]
      trivial
    rw [history_concat]
    obtain ⟨hothers, ⟨hread, -, -⟩ | ⟨-, hmade⟩⟩ := h.of_holds hholds
    · exact absurd hphase hread
    · refine .free (fun u hu => ?_) ?_
      · rw [phase_setPhase] at hu
        split_ifs at hu with hne
        · exact hu
        · exact hne (hothers u hu)
      · dsimp only [CountHistory.record]
        rw [hmade, List.append_nil]

/-- A new counter is settled. -/
lemma settled_of_isNew (hnew : s.IsNew) : Settled (history cm []) s := by
  refine .free (fun t => ?_) rfl
  rw [hnew.2 t]
  exact id

/-- An undisturbed run is a run. -/
lemma reach_of_undisturbed (hrun : (undisturbedSystem σ cm).Reach trace s) :
    (counterSystem σ cm).Reach trace s := by
  induction hrun with
  | start h => exact .start h
  | next _ h ih => exact ih.next h.1

/-- Along an undisturbed run the counter stays settled. -/
lemma settled_of_reach (hrun : (undisturbedSystem σ cm).Reach trace s) :
    Settled (history cm trace) s := by
  induction hrun with
  | start h => exact settled_of_isNew h
  | next _ h ih => exact ih.step h.1 h.2

/-- **No count is lost.** In every run in which no request is counted and the counter is not read
while a `stop` has read counts and has not reset the counter yet, the reported statistics and the
counters add up to the increments at every point where no `stop` is under way, and no increment is
reported twice.

**Proof sketch.** In such a run the `stop` that holds counts holds exactly the increments in the
counter. So the reported increments and those in the counter are together all increments, in order,
and the numbers are their tallies. -/
theorem counted_of_undisturbed (hrun : (undisturbedSystem σ cm).Reach trace s) :
    (s.AtRest → NoneLost cm trace s) ∧ NoneTwice cm trace := by
  have htallied := tallied_of_reach (reach_of_undisturbed hrun)
  have hsettled := settled_of_reach hrun
  constructor
  · intro hrest b
    have hfree : ∀ t, ¬ (s.phase t).Holds := fun t => by
      rw [hrest t]
      exact id
    rw [htallied.reported, htallied.counter, madeCount_eq_tally, hsettled.made_of_free hfree,
      tally_append]
  · exact (nodup_made cm trace).sublist hsettled.reported_prefix.sublist

end Invariant

/-! ## One tracker -/

/-- A new counter with one tracker. -/
def newCounter : CounterState Unit := ⟨.zero, fun _ => .idle⟩

/-- The counter of a process that starts is new. -/
lemma isNew_newCounter : newCounter.IsNew := ⟨rfl, fun _ => rfl⟩

/-- A request is counted, reported and cleared. -/
theorem counted_of_undisturbed_one : ∃ trace s,
    (undisturbedSystem Unit CaseMap.ascii).Reach trace s ∧ s.AtRest ∧
      madeCount CaseMap.ascii trace .prodExport = 1 ∧ NoneLost CaseMap.ascii trace s ∧
        NoneTwice CaseMap.ascii trace := by
  have hstart : (undisturbedSystem Unit CaseMap.ascii).Reach [] newCounter :=
    .start isNew_newCounter
  have hcounted := hstart.next ⟨.increment "PROD".toList "TP_export".toList,
    fun _ _ _ _ hholds => hholds⟩
  have hread := hcounted.next ⟨.getStats () rfl, fun _ _ _ _ hholds => hholds⟩
  have hlogged := hread.next ⟨.log () rfl (by decide), fun _ hevent htouches => by
    rw [List.mem_singleton.mp hevent] at htouches
    exact htouches.elim⟩
  have hreset := hlogged.next ⟨.reset () rfl, fun _ hevent htouches => by
    rw [List.mem_singleton.mp hevent] at htouches
    exact htouches.elim⟩
  obtain ⟨hlost, htwice⟩ := counted_of_undisturbed hreset
  exact ⟨_, _, hreset, fun _ => rfl, by decide, hlost fun _ => rfl, htwice⟩

/-- A request that is counted between the reading and the reset is never reported. -/
theorem not_noneLost_between : ¬ ∀ trace s, (counterSystem Unit CaseMap.ascii).Reach trace s →
    (s.AtRest → NoneLost CaseMap.ascii trace s) ∧ NoneTwice CaseMap.ascii trace := by
  intro h
  have hstart : (counterSystem Unit CaseMap.ascii).Reach [] newCounter := .start isNew_newCounter
  have hread := (hstart.next (.increment "PROD".toList "TP_export".toList)).next (.getStats () rfl)
  have hmore := hread.next (.increment "PROD".toList "TP_export".toList)
  have hreset := (hmore.next (.log () rfl (by decide))).next (.reset () rfl)
  have hlost := (h _ _ hreset).1 (fun _ => rfl) .prodExport
  revert hlost
  decide

end EntsoePipeline
