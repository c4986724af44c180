import EntsoePipeline.Py.Str

set_option relaxedAutoImplicit false
set_option autoImplicit false

/-!
# Python datetimes

A `datetime` is a reading of the wall clock, in microseconds, with an optional offset from UTC.
One without an offset is *naive*, one with an offset is *aware*. Python orders two naive
datetimes by their readings and two aware ones by the instants they denote, and refuses to
order a naive one against an aware one.

## Main definitions

* `Py.Datetime` — a wall-clock reading with an optional UTC offset.
* `Py.Datetime.instant` — the instant of an aware datetime.
* `Py.Datetime.assumeUtc` — `d.replace(tzinfo=UTC)` for a naive `d`.
* `Py.Datetime.gt?` — `d > e`, which fails on a naive and an aware argument.

## Main results

* `Py.Datetime.gt?_eq_ok_iff` — when a comparison is defined, and its value.
-/

namespace Py

/-- The failures of the modelled Python code that a caller can observe. -/
inductive PyError
  /-- A `TypeError`, such as the comparison of a naive with an aware datetime. -/
  | typeError
  /-- An `IndexError`. -/
  | indexError
  /-- A failed request to the file server. -/
  | apiError
  /-- A failed database statement. -/
  | dbError
  /-- A `RecursionError`. -/
  | recursionError
  deriving DecidableEq, Repr

/-- A `datetime`. -/
structure Datetime where
  /-- The reading of the wall clock, in microseconds. -/
  wall : ℤ
  /-- The offset from UTC in microseconds; `none` for a naive datetime. -/
  offset : Option ℤ
  deriving DecidableEq, Repr

namespace Datetime

/-- The aware datetime in UTC of an instant. -/
def utc (t : ℤ) : Datetime := ⟨t, some 0⟩

/-- The naive datetime of a wall-clock reading. -/
def naive (t : ℤ) : Datetime := ⟨t, none⟩

/-- `d.tzinfo is None`. -/
def isNaive (d : Datetime) : Bool := d.offset.isNone

/-- The number that `<` and `>` compare: the instant of an aware datetime and the reading of a
naive one. -/
def instant (d : Datetime) : ℤ := d.wall - d.offset.getD 0

/-- `d if d.tzinfo is not None else d.replace(tzinfo=UTC)`. -/
def assumeUtc (d : Datetime) : Datetime :=
  match d.offset with
  | some _ => d
  | none => { d with offset := some 0 }

/-- The instant of a time in UTC. -/
@[simp] lemma instant_utc (t : ℤ) : (utc t).instant = t := by simp [instant, utc]

/-- A time in UTC has a time zone. -/
@[simp] lemma isNaive_utc (t : ℤ) : (utc t).isNaive = false := rfl

/-- A time that is taken as UTC has a time zone. -/
@[simp] lemma isNaive_assumeUtc (d : Datetime) : d.assumeUtc.isNaive = false := by
  unfold assumeUtc isNaive
  cases h : d.offset <;> simp [h]

/-- Reading a naive datetime as UTC keeps its reading as the instant. -/
@[simp] lemma instant_assumeUtc (d : Datetime) : d.assumeUtc.instant = d.instant := by
  unfold assumeUtc instant
  cases h : d.offset <;> simp [h]

/-- `d > e`: a `TypeError` when exactly one of the two is naive. -/
def gt? (d e : Datetime) : Except PyError Bool :=
  if d.isNaive = e.isNaive then .ok (decide (e.instant < d.instant)) else .error .typeError

/-- A comparison is defined on two naive or two aware datetimes and compares their instants. -/
lemma gt?_eq_ok_iff {d e : Datetime} {b : Bool} :
    d.gt? e = .ok b ↔ d.isNaive = e.isNaive ∧ b = decide (e.instant < d.instant) := by
  unfold gt?
  split_ifs with h
  · simp [h, eq_comm]
  · simp [h]

end Datetime

end Py
