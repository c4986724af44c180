import EntsoePipeline.Lib.Pacing
import EntsoePipeline.Lib.Transition
import EntsoePipeline.Py.Str

set_option relaxedAutoImplicit false
set_option autoImplicit false

/-!
# The pacing of requests

A throttled session is shared by threads. Each request to the file server first passes a critical
section: the thread measures the time since the last dispatch, sleeps for what is missing of the
minimum interval, and stores the time of its own dispatch. Between any two reads the clock may move
on, and the threads take their steps in any order.

## Main definitions

* `EntsoePipeline.Session`, `EntsoePipeline.SendPhase` — the shared session, and how far a thread is
  in `send`.
* `EntsoePipeline.SessionStep` — one step of a thread or of the clock.
* `EntsoePipeline.dispatchTimes` — the stored dispatch times of a run, in order.
* `EntsoePipeline.Paced` — the invariant.

## Main results

* `EntsoePipeline.Paced.step` — every step keeps the invariant.
* `EntsoePipeline.dispatchTimes_spaced` — the dispatch times of every run are spaced, and no window
  holds more of them than fit.

## Implementation notes

The times are elements of any ordered field with a floor, so the arithmetic is exact. A sleep ends
at any time at which it has lasted as long as requested.
-/

namespace EntsoePipeline

open Py Transition Pacing

/-! ## The code -/

/-- `"fms.tp" in url`: only requests to the file server are paced. -/
def isFmsUrl (url : Str) : Bool := contains url "fms.tp".toList

/-- How far a thread is in `send`. -/
inductive SendPhase (K : Type*)
  /-- Not in the section. -/
  | idle
  /-- At the lock. -/
  | waiting
  /-- Holding the lock. -/
  | locked
  /-- The clock was read: `now = time.time()`. -/
  | measured (now : K)
  /-- Asleep, at least until a time. -/
  | sleeping (wakeAt : K)
  /-- Free to dispatch. -/
  | awake
  /-- The clock was read again. -/
  | stamped (time : K)
  /-- The time was stored; the lock is still held. -/
  | stored

/-- A session shared by the threads `τ`, and the clock. -/
structure Session (τ K : Type*) where
  /-- The clock. -/
  clock : K
  /-- `_last_request_time`. -/
  lastRequestTime : K
  /-- The holder of `_lock`. -/
  lock : Option τ
  /-- The phase of each thread. -/
  phase : τ → SendPhase K

/-- A stored dispatch time. -/
structure Dispatch (τ K : Type*) where
  /-- The thread. -/
  thread : τ
  /-- The time. -/
  time : K

namespace Session

variable {τ K : Type*} [DecidableEq τ]

/-- A thread reaches a phase. -/
def setPhase (s : Session τ K) (t : τ) (p : SendPhase K) : Session τ K :=
  { s with phase := Function.update s.phase t p }

variable (s : Session τ K) (t : τ) (p : SendPhase K)

/-- A phase does not move the clock. -/
@[simp] lemma clock_setPhase : (s.setPhase t p).clock = s.clock := rfl

/-- A phase does not change the time of the last request. -/
@[simp] lemma lastRequestTime_setPhase :
    (s.setPhase t p).lastRequestTime = s.lastRequestTime := rfl

/-- A phase does not change the holder of the lock. -/
@[simp] lemma lock_setPhase : (s.setPhase t p).lock = s.lock := rfl

/-- The thread that moves is in its new phase. -/
@[simp] lemma phase_setPhase_self : (s.setPhase t p).phase t = p := Function.update_self _ _ _

/-- The other threads stay in their phases. -/
lemma phase_setPhase_of_ne {t' : τ} (h : t' ≠ t) : (s.setPhase t p).phase t' = s.phase t' :=
  Function.update_of_ne h _ _

end Session

section Steps

variable {τ K : Type*} [DecidableEq τ] [Field K] [LinearOrder K]

/-- One step of the clock or of a thread, with the dispatch time it stores. -/
inductive SessionStep (minInterval : K) :
    Session τ K → List (Dispatch τ K) → Session τ K → Prop
  /-- The clock moves on. -/
  | tick {s : Session τ K} (clock : K) (h : s.clock ≤ clock) :
      SessionStep minInterval s [] { s with clock := clock }
  /-- A request to the file server goes to the lock. -/
  | send {s : Session τ K} (t : τ) (url : Str) (hphase : s.phase t = .idle)
      (hurl : isFmsUrl url = true) : SessionStep minInterval s [] (s.setPhase t .waiting)
  /-- Any other request is sent at once. -/
  | bypass {s : Session τ K} (t : τ) (url : Str) (hphase : s.phase t = .idle)
      (hurl : isFmsUrl url = false) : SessionStep minInterval s [] s
  /-- `with self._lock`. -/
  | acquire {s : Session τ K} (t : τ) (hphase : s.phase t = .waiting) (hfree : s.lock = none) :
      SessionStep minInterval s [] ({ s with lock := some t }.setPhase t .locked)
  /-- `now = time.time()`. -/
  | measure {s : Session τ K} (t : τ) (hphase : s.phase t = .locked) :
      SessionStep minInterval s [] (s.setPhase t (.measured s.clock))
  /-- Less than the interval has elapsed: `time.sleep(self.min_interval - elapsed)`. -/
  | sleep {s : Session τ K} (t : τ) {now : K} (hphase : s.phase t = .measured now)
      (helapsed : now - s.lastRequestTime < minInterval) :
      SessionStep minInterval s []
        (s.setPhase t (.sleeping (s.clock + (minInterval - (now - s.lastRequestTime)))))
  /-- The interval has elapsed. -/
  | pass {s : Session τ K} (t : τ) {now : K} (hphase : s.phase t = .measured now)
      (helapsed : ¬ now - s.lastRequestTime < minInterval) :
      SessionStep minInterval s [] (s.setPhase t .awake)
  /-- The sleep ends. -/
  | wake {s : Session τ K} (t : τ) {wakeAt : K} (hphase : s.phase t = .sleeping wakeAt)
      (htime : wakeAt ≤ s.clock) : SessionStep minInterval s [] (s.setPhase t .awake)
  /-- The clock is read for the dispatch. -/
  | stamp {s : Session τ K} (t : τ) (hphase : s.phase t = .awake) :
      SessionStep minInterval s [] (s.setPhase t (.stamped s.clock))
  /-- `self._last_request_time = time.time()`. -/
  | store {s : Session τ K} (t : τ) {time : K} (hphase : s.phase t = .stamped time) :
      SessionStep minInterval s [⟨t, time⟩]
        ({ s with lastRequestTime := time }.setPhase t .stored)
  /-- The lock is released, and the request is sent. -/
  | release {s : Session τ K} (t : τ) (hphase : s.phase t = .stored) :
      SessionStep minInterval s [] ({ s with lock := none }.setPhase t .idle)

/-- A new session, at any time of the clock. -/
def Session.IsNew (s : Session τ K) : Prop :=
  s.lastRequestTime = 0 ∧ s.lock = none ∧ ∀ t, s.phase t = .idle

/-- The runs of a session. -/
def sessionSystem (τ : Type*) [DecidableEq τ] (minInterval : K) :
    System (Session τ K) (Dispatch τ K) where
  init := Session.IsNew
  step := SessionStep minInterval

end Steps

/-! ## The invariant -/

section Phases

variable {τ K : Type*} [Field K] [LinearOrder K] {minInterval : K} {trace : List (Dispatch τ K)}
  {s : Session τ K}

/-- The stored dispatch times. -/
def dispatchTimes (trace : List (Dispatch τ K)) : List K := trace.map Dispatch.time

/-- The phases in which a thread holds the lock. -/
def SendPhase.Critical : SendPhase K → Prop
  | .idle => False
  | .waiting => False
  | _ => True

/-- What a thread knows in a phase: a wake-up time, a dispatch time, and the clock when the thread
is free to dispatch are all the interval behind the last dispatch. -/
def SendPhase.Knows (minInterval last clock : K) : SendPhase K → Prop
  | .measured now => now ≤ clock
  | .sleeping wakeAt => last + minInterval ≤ wakeAt
  | .awake => last + minInterval ≤ clock
  | .stamped time => last + minInterval ≤ time
  | _ => True

/-- The invariant of a session. -/
structure Paced (minInterval : K) (trace : List (Dispatch τ K)) (s : Session τ K) : Prop where
  /-- A thread in the section holds the lock. -/
  holder : ∀ t, (s.phase t).Critical → s.lock = some t
  knows : ∀ t, (s.phase t).Knows minInterval s.lastRequestTime s.clock
  spaced : Spaced minInterval (dispatchTimes trace)
  /-- The last dispatch time is the stored one. -/
  last : ∀ time ∈ (dispatchTimes trace).getLast?, time = s.lastRequestTime

/-- Outside the section there is nothing to know. -/
lemma SendPhase.knows_of_not_critical {p : SendPhase K} (h : ¬ p.Critical) (last clock : K) :
    p.Knows minInterval last clock := by
  cases p with
  | idle => trivial
  | waiting => trivial
  | _ => exact absurd trivial h

/-- What a thread knows stays true when the clock moves on. -/
lemma SendPhase.Knows.mono {p : SendPhase K} {last clock clock' : K}
    (h : p.Knows minInterval last clock) (hclock : clock ≤ clock') :
    p.Knows minInterval last clock' := by
  cases p with
  | measured now => exact le_trans h hclock
  | awake => exact le_trans h hclock
  | _ => exact h

/-- A thread without the lock is not in the section. -/
lemma Paced.not_critical (h : Paced minInterval trace s) {t : τ} (hlock : s.lock ≠ some t) :
    ¬ (s.phase t).Critical :=
  fun hcrit => hlock (h.holder t hcrit)

/-- A thread in the critical section holds the lock. -/
lemma Paced.holder_of_phase (h : Paced minInterval trace s) {t : τ} {p : SendPhase K}
    (hphase : s.phase t = p) (hcrit : p.Critical) : s.lock = some t :=
  h.holder t (by rwa [hphase])

/-- A thread knows what its phase says about the last request and the clock. -/
lemma Paced.knows_of_phase (h : Paced minInterval trace s) {t : τ} {p : SendPhase K}
    (hphase : s.phase t = p) : p.Knows minInterval s.lastRequestTime s.clock := by
  rw [← hphase]
  exact h.knows t

/-- The clock moves on. -/
lemma Paced.tick (h : Paced minInterval trace s) {clock : K} (hclock : s.clock ≤ clock) :
    Paced minInterval trace { s with clock := clock } where
  holder := h.holder
  knows t := (h.knows t).mono hclock
  spaced := h.spaced
  last := h.last

variable [DecidableEq τ]

/-- A thread changes its phase and nothing else. -/
lemma Paced.setPhase (h : Paced minInterval trace s) {t : τ} {p : SendPhase K}
    (hcrit : p.Critical → s.lock = some t)
    (hknows : p.Knows minInterval s.lastRequestTime s.clock) :
    Paced minInterval trace (s.setPhase t p) where
  holder t' := by
    by_cases ht : t' = t
    · subst ht
      rw [Session.phase_setPhase_self]
      exact hcrit
    · rw [Session.phase_setPhase_of_ne _ _ _ ht]
      exact h.holder t'
  knows t' := by
    by_cases ht : t' = t
    · subst ht
      rw [Session.phase_setPhase_self]
      exact hknows
    · rw [Session.phase_setPhase_of_ne _ _ _ ht]
      exact h.knows t'
  spaced := h.spaced
  last := h.last

/-- A thread takes the free lock. -/
lemma Paced.acquire (h : Paced minInterval trace s) (hfree : s.lock = none) (t : τ) :
    Paced minInterval trace ({ s with lock := some t }.setPhase t .locked) := by
  have hlocked : Paced minInterval trace { s with lock := some t } := by
    refine ⟨fun t' hcrit => ?_, h.knows, h.spaced, h.last⟩
    exact absurd hcrit (h.not_critical (by rw [hfree]; simp))
  exact hlocked.setPhase (fun _ => rfl) trivial

/-- The holder releases the lock. -/
lemma Paced.release (h : Paced minInterval trace s) {t : τ} (hphase : s.phase t = .stored) :
    Paced minInterval trace ({ s with lock := none }.setPhase t .idle) := by
  have hlock : s.lock = some t := h.holder_of_phase hphase trivial
  have hleft : Paced minInterval trace (s.setPhase t .idle) := h.setPhase False.elim trivial
  refine ⟨fun t' hcrit => ?_, hleft.knows, hleft.spaced, hleft.last⟩
  -- The thread itself has left the section, and nobody else held the lock.
  exfalso
  by_cases ht : t' = t
  · subst ht
    rw [Session.phase_setPhase_self] at hcrit
    exact hcrit
  · rw [Session.phase_setPhase_of_ne _ _ _ ht] at hcrit
    have hholder := h.holder t' hcrit
    rw [hlock, Option.some.injEq] at hholder
    exact ht hholder.symm

/-- The holder stores its dispatch time. -/
lemma Paced.store [IsStrictOrderedRing K] (h : Paced minInterval trace s) {t : τ} {time : K}
    (hphase : s.phase t = .stamped time) :
    Paced minInterval (trace ++ [⟨t, time⟩])
      ({ s with lastRequestTime := time }.setPhase t .stored) := by
  have hlock : s.lock = some t := h.holder_of_phase hphase trivial
  have hfar : s.lastRequestTime + minInterval ≤ time := h.knows_of_phase hphase
  have htimes : dispatchTimes (trace ++ [⟨t, time⟩]) = dispatchTimes trace ++ [time] := by
    rw [dispatchTimes, List.map_append]
    rfl
  constructor
  · intro t' hcrit
    by_cases ht : t' = t
    · subst ht
      exact hlock
    · rw [Session.phase_setPhase_of_ne _ _ _ ht] at hcrit
      exact h.holder t' hcrit
  · intro t'
    by_cases ht : t' = t
    · subst ht
      rw [Session.phase_setPhase_self]
      trivial
    · rw [Session.phase_setPhase_of_ne _ _ _ ht]
      refine SendPhase.knows_of_not_critical (h.not_critical ?_) _ _
      rw [hlock, Ne, Option.some.injEq]
      exact fun heq => ht heq.symm
  · rw [htimes, spaced_concat_iff]
    refine ⟨h.spaced, fun last hlast => ?_⟩
    rw [h.last last hlast]
    linarith
  · intro last hlast
    rw [htimes, List.getLast?_concat, Option.mem_some_iff] at hlast
    exact hlast.symm

/-- **A step.** Every step of the clock and of a thread keeps the invariant. -/
theorem Paced.step [IsStrictOrderedRing K] {events : List (Dispatch τ K)} {s' : Session τ K}
    (h : Paced minInterval trace s) (hstep : SessionStep minInterval s events s') :
    Paced minInterval (trace ++ events) s' := by
  cases hstep with
  | tick clock hclock =>
    rw [List.append_nil]
    exact h.tick hclock
  | send t url hphase hurl =>
    rw [List.append_nil]
    exact h.setPhase False.elim trivial
  | bypass t url hphase hurl =>
    rw [List.append_nil]
    exact h
  | acquire t hphase hfree =>
    rw [List.append_nil]
    exact h.acquire hfree t
  | measure t hphase =>
    rw [List.append_nil]
    exact h.setPhase (fun _ => h.holder_of_phase hphase trivial) (le_refl s.clock)
  | sleep t hphase helapsed =>
    rw [List.append_nil]
    refine h.setPhase (fun _ => h.holder_of_phase hphase trivial) ?_
    -- The clock has not gone back since it was read, so the sleep covers what is missing.
    have hclock := h.knows_of_phase hphase
    rw [SendPhase.Knows] at hclock
    rw [SendPhase.Knows]
    linarith
  | pass t hphase helapsed =>
    rw [List.append_nil]
    refine h.setPhase (fun _ => h.holder_of_phase hphase trivial) ?_
    have hclock := h.knows_of_phase hphase
    rw [SendPhase.Knows] at hclock
    rw [SendPhase.Knows]
    linarith
  | wake t hphase htime =>
    rw [List.append_nil]
    have hfree : s.lastRequestTime + minInterval ≤ s.clock :=
      le_trans (h.knows_of_phase hphase) htime
    exact h.setPhase (fun _ => h.holder_of_phase hphase trivial) hfree
  | stamp t hphase =>
    rw [List.append_nil]
    have hfree : s.lastRequestTime + minInterval ≤ s.clock := h.knows_of_phase hphase
    exact h.setPhase (fun _ => h.holder_of_phase hphase trivial) hfree
  | store t hphase => exact h.store hphase
  | release t hphase =>
    rw [List.append_nil]
    exact h.release hphase

end Phases

/-! ## Runs -/

section Runs

variable {τ K : Type*} [DecidableEq τ] [Field K] [LinearOrder K] [IsStrictOrderedRing K]
  {minInterval : K} {trace : List (Dispatch τ K)} {s : Session τ K}

/-- Every reachable state is paced. -/
lemma paced_of_reach (hrun : (sessionSystem τ minInterval).Reach trace s) :
    Paced minInterval trace s := by
  refine System.Reach.invariant (fun s hnew => ?_) (fun _ _ _ _ h hstep => h.step hstep) hrun
  obtain ⟨-, -, hidle⟩ := hnew
  refine ⟨fun t hcrit => ?_, fun t => ?_, spaced_nil minInterval, fun time htime => ?_⟩
  · rw [hidle] at hcrit
    exact hcrit.elim
  · rw [hidle]
    trivial
  · cases htime

/-- **Request pacing.** In every run of a session, any two successive dispatch times are at least
the minimum interval apart, and a closed window of length `T` holds at most
`⌊T / minInterval⌋ + 1` of them.

**Proof sketch.** The stored time is the last dispatch time. A thread that is free to dispatch knows
that the clock is the interval behind it, and no other thread can store a time before it does, as it
holds the lock. -/
theorem dispatchTimes_spaced [FloorRing K]
    (hrun : (sessionSystem τ minInterval).Reach trace s) :
    (∀ i a b, (dispatchTimes trace)[i]? = some a → (dispatchTimes trace)[i + 1]? = some b →
      minInterval ≤ b - a) ∧
    (0 < minInterval → ∀ a T, 0 ≤ T →
      (((dispatchTimes trace).filter fun time => a ≤ time ∧ time ≤ a + T).length : ℤ) ≤
        ⌊T / minInterval⌋ + 1) := by
  have hspaced := (paced_of_reach hrun).spaced
  exact ⟨fun i a b => hspaced.le_of_getElem?, fun hpos a T hT => hspaced.length_window_le hpos a hT⟩

end Runs

/-! ## Two threads -/

/-- A new session at time 5, shared by two threads. -/
def newSession : Session Bool ℚ := ⟨5, 0, none, fun _ => .idle⟩

/-- Both threads send a request; the second one sleeps until 5.637 and dispatches at 6. -/
theorem dispatchTimes_spaced_two : ∃ trace s,
    (sessionSystem Bool (637 / 1000 : ℚ)).Reach trace s ∧ dispatchTimes trace = [5, 6] ∧
      (∀ i a b, (dispatchTimes trace)[i]? = some a → (dispatchTimes trace)[i + 1]? = some b →
        637 / 1000 ≤ b - a) ∧
      ∀ a T, 0 ≤ T →
        (((dispatchTimes trace).filter fun time => a ≤ time ∧ time ≤ a + T).length : ℤ) ≤
          ⌊T / (637 / 1000)⌋ + 1 := by
  have hstart : (sessionSystem Bool (637 / 1000 : ℚ)).Reach [] newSession :=
    .start ⟨rfl, rfl, fun _ => rfl⟩
  have hsent := (hstart.next (.send false "https://fms.tp.entsoe.eu/listFolder".toList rfl
    (by decide))).next (.send true "https://fms.tp.entsoe.eu/listFolder".toList rfl (by decide))
  have hfirst := (((((hsent.next (.acquire false rfl rfl)).next (.measure false rfl)).next
    (.pass false rfl (by norm_num [newSession]))).next (.stamp false rfl)).next
    (.store false rfl)).next (.release false rfl)
  have hasleep := ((hfirst.next (.acquire true rfl rfl)).next (.measure true rfl)).next
    (.sleep true rfl (by norm_num [newSession]))
  have hsecond := (((hasleep.next (.tick 6 (by norm_num [newSession]))).next
    (.wake true rfl (by norm_num [newSession]))).next (.stamp true rfl)).next (.store true rfl)
  obtain ⟨hapart, hwindow⟩ := dispatchTimes_spaced hsecond
  exact ⟨_, _, hsecond, rfl, hapart, hwindow (by norm_num)⟩

end EntsoePipeline
