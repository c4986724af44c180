import Mathlib.Data.List.Infix
import Mathlib.Data.List.TakeWhile
import Mathlib.Tactic

set_option relaxedAutoImplicit false
set_option autoImplicit false

/-!
# Scans that stop early

A scan runs over a list of records, asks a verdict of each one and marks a state with every
record whose verdict is *stale*. An early-stopping scan ends after `k` consecutive records were
*fresh*. The verdict may fail, and then the scan fails.

## Main definitions

* `EarlyStop.scan`, `EarlyStop.scanAll` — the scan that stops after `k` consecutive fresh records
  and the scan of every record.
* `EarlyStop.processed`, `EarlyStop.skipped` — the records an early-stopping scan looks at, and
  the records behind its stop.
* `EarlyStop.trailing` — the number of fresh records at the end of a list.

## Main results

* `EarlyStop.scan_eq_ok_iff`, `EarlyStop.scanAll_eq_ok_iff` — both scans as folds over the stale
  records.
* `EarlyStop.scan_of_forall_take` — a scan that meets its `k` fresh records at once marks nothing.
* `EarlyStop.trailing_lt`, `EarlyStop.le_trailing_processed` — the processed records
  are the shortest prefix that ends in `k` fresh ones, or all records.
-/

namespace EarlyStop

variable {α σ ε : Type*}

/-! ## The records a scan looks at -/

section Processed

variable (k : ℕ) (fresh : α → Bool)

/-- The records a scan looks at when `c` fresh records came right before. -/
def processed : ℕ → List α → List α
  | _, [] => []
  | c, x :: xs =>
    if fresh x then (if k ≤ c + 1 then [x] else x :: processed (c + 1) xs)
    else x :: processed 0 xs

/-- The records behind the stop of the scan. -/
def skipped : ℕ → List α → List α
  | _, [] => []
  | c, x :: xs =>
    if fresh x then (if k ≤ c + 1 then xs else skipped (c + 1) xs) else skipped 0 xs

/-- The processed and the skipped records make up the list. -/
lemma processed_append_skipped (c : ℕ) (l : List α) :
    processed k fresh c l ++ skipped k fresh c l = l := by
  induction l generalizing c with
  | nil => rfl
  | cons x xs ih =>
    unfold processed skipped
    split_ifs with hf hk
    · rfl
    · rw [List.cons_append, ih]
    · rw [List.cons_append, ih]

variable {k fresh}

/-- What is processed is in the list. -/
lemma mem_of_mem_processed {c : ℕ} {l : List α} {x : α} (h : x ∈ processed k fresh c l) :
    x ∈ l := by
  rw [← processed_append_skipped k fresh c l]
  exact List.mem_append_left _ h

/-- A scan that lacks `k - c` fresh records for its stop looks at that many records at least. -/
lemma mem_processed_of_mem_take {c : ℕ} {l : List α} {x : α} (h : x ∈ l.take (k - c)) :
    x ∈ processed k fresh c l := by
  induction l generalizing c with
  | nil => simp at h
  | cons y ys ih =>
    obtain ⟨m, hm⟩ : ∃ m, k - c = m + 1 := by
      cases hk : k - c with
      | zero => simp [hk] at h
      | succ m => exact ⟨m, rfl⟩
    rw [hm, List.take_succ_cons] at h
    unfold processed
    rcases List.mem_cons.mp h with rfl | h
    · split_ifs <;> exact List.mem_cons_self
    · have hnext : m = k - (c + 1) := by omega
      split_ifs with hf hk
      · have hzero : m = 0 := by omega
        simp [hzero] at h
      · exact List.mem_cons_of_mem _ (ih (hnext ▸ h))
      · exact List.mem_cons_of_mem _ (ih ((List.take_subset_take_left _ (by omega)) h))

end Processed

/-! ## Where a scan stops -/

section Trailing

variable {k : ℕ} {fresh : α → Bool}

/-- The number of fresh records at the end of a list. -/
def trailing (fresh : α → Bool) (l : List α) : ℕ := (l.reverse.takeWhile fresh).length

/-- An empty list has no fresh end. -/
@[simp] lemma trailing_nil : trailing fresh [] = 0 := rfl

/-- The fresh end grows by a fresh item and is cut by another one. -/
lemma trailing_concat (l : List α) (x : α) :
    trailing fresh (l ++ [x]) = if fresh x then trailing fresh l + 1 else 0 := by
  unfold trailing
  rw [List.reverse_append, List.reverse_singleton, List.singleton_append, List.takeWhile_cons]
  split_ifs <;> rfl

/-- A scan that leaves records behind has just seen `k` fresh ones.

**Proof sketch.** Induction over the list, with the records already seen as a list `seen` whose
trailing fresh records are the count `c`. -/
lemma le_trailing_append_processed {l seen : List α} {c : ℕ} (hc : trailing fresh seen = c)
    (h : skipped k fresh c l ≠ []) : k ≤ trailing fresh (seen ++ processed k fresh c l) := by
  induction l generalizing seen c with
  | nil => exact absurd rfl h
  | cons x xs ih =>
    have hstep := @trailing_concat α fresh seen x
    unfold processed
    unfold skipped at h
    split_ifs at h ⊢ with hf hk
    · rw [hstep, if_pos hf, hc]
      exact hk
    · rw [← List.singleton_append, ← List.append_assoc]
      refine ih ?_ h
      rw [hstep, if_pos hf, hc]
    · rw [← List.singleton_append, ← List.append_assoc]
      refine ih ?_ h
      rw [hstep, if_neg hf]

/-- Before its last record a scan has never seen `k` fresh records in a row. -/
lemma trailing_append_lt {l seen q : List α} {c : ℕ} (hc : trailing fresh seen = c)
    (hck : c < k) (hq : q <+: processed k fresh c l) (hne : q ≠ processed k fresh c l) :
    trailing fresh (seen ++ q) < k := by
  induction l generalizing seen c q with
  | nil =>
    have hnil : q = [] := List.prefix_nil.mp hq
    exact absurd hnil hne
  | cons x xs ih =>
    have hstep := @trailing_concat α fresh seen x
    cases q with
    | nil =>
      rw [List.append_nil, hc]
      exact hck
    | cons y q =>
      unfold processed at hq hne
      split_ifs at hq hne with hf hk
      · obtain ⟨rfl, hq'⟩ := List.cons_prefix_cons.mp hq
        have hnil : q = [] := List.prefix_nil.mp hq'
        exact absurd (by rw [hnil]) hne
      · obtain ⟨rfl, hq'⟩ := List.cons_prefix_cons.mp hq
        have hseen : trailing fresh (seen ++ [y]) = c + 1 := by rw [hstep, if_pos hf, hc]
        rw [← List.singleton_append, ← List.append_assoc]
        exact ih hseen (by omega) hq' fun h => hne (by rw [h])
      · obtain ⟨rfl, hq'⟩ := List.cons_prefix_cons.mp hq
        have hseen : trailing fresh (seen ++ [y]) = 0 := by rw [hstep, if_neg hf]
        rw [← List.singleton_append, ← List.append_assoc]
        exact ih hseen (by omega) hq' fun h => hne (by rw [h])

/-- A scan that leaves records behind ends in `k` fresh records. -/
lemma le_trailing_processed {l : List α} (h : skipped k fresh 0 l ≠ []) :
    k ≤ trailing fresh (processed k fresh 0 l) :=
  @le_trailing_append_processed α k fresh l [] 0 rfl h

/-- No proper prefix of the processed records ends in `k` fresh records. -/
lemma trailing_lt {l q : List α} (hk : 0 < k) (hq : q <+: processed k fresh 0 l)
    (hne : q ≠ processed k fresh 0 l) : trailing fresh q < k :=
  @trailing_append_lt α k fresh l [] q 0 rfl hk hq hne

end Trailing

/-! ## Scans with a verdict that may fail -/

section Scan

variable (verdict : α → Except ε Bool) (mark : σ → α → σ)

/-- The scan that stops after `k` consecutive fresh records; `c` counts the fresh records right
before. -/
def scan (k : ℕ) : ℕ → σ → List α → Except ε σ
  | _, s, [] => .ok s
  | c, s, x :: xs =>
    match verdict x with
    | .error e => .error e
    | .ok true => if k ≤ c + 1 then .ok s else scan k (c + 1) s xs
    | .ok false => scan k 0 (mark s x) xs

/-- The scan of every record. -/
def scanAll : σ → List α → Except ε σ
  | s, [] => .ok s
  | s, x :: xs =>
    match verdict x with
    | .error e => .error e
    | .ok true => scanAll s xs
    | .ok false => scanAll (mark s x) xs

/-- The verdict is defined and fresh. -/
def isFresh (x : α) : Bool :=
  match verdict x with
  | .ok b => b
  | .error _ => false

/-- The verdict is defined on every record of the list. -/
def Defined (l : List α) : Prop := ∀ x ∈ l, ∃ b, verdict x = .ok b

variable {verdict mark}

/-- A verdict that is given decides whether an item is fresh. -/
lemma isFresh_of_eq_ok {x : α} {b : Bool} (h : verdict x = .ok b) : isFresh verdict x = b := by
  unfold isFresh
  rw [h]

/-- Where all verdicts are given, they are the decisions. -/
lemma Defined.verdict_eq {l : List α} (h : Defined verdict l) {x : α} (hx : x ∈ l) :
    verdict x = .ok (isFresh verdict x) := by
  obtain ⟨b, hb⟩ := h x hx
  rw [hb, isFresh_of_eq_ok hb]

/-- The full scan succeeds when every verdict is defined, and folds over the stale records. -/
lemma scanAll_eq_ok_iff {s s' : σ} {l : List α} :
    scanAll verdict mark s l = .ok s' ↔
      Defined verdict l ∧ s' = (l.filter fun x => !isFresh verdict x).foldl mark s := by
  induction l generalizing s with
  | nil => simp [scanAll, Defined, eq_comm]
  | cons x xs ih =>
    unfold scanAll
    cases hx : verdict x with
    | error e =>
      have hnd : ¬ Defined verdict (x :: xs) := by
        intro hd
        obtain ⟨b, hb⟩ := hd x List.mem_cons_self
        rw [hx] at hb
        cases hb
      simp [hnd]
    | ok b =>
      have hd : Defined verdict (x :: xs) ↔ Defined verdict xs := by
        unfold Defined
        rw [List.forall_mem_cons]
        exact and_iff_right ⟨b, hx⟩
      have hfresh := isFresh_of_eq_ok hx
      cases b with
      | true =>
        dsimp only
        rw [ih, hd, List.filter_cons_of_neg (by simp [hfresh])]
      | false =>
        dsimp only
        rw [ih, hd, List.filter_cons_of_pos (by simp [hfresh]), List.foldl_cons]

/-- The early-stopping scan succeeds when every verdict on the records it processes is defined, and
folds over the stale ones among them. -/
lemma scan_eq_ok_iff {k c : ℕ} {s s' : σ} {l : List α} :
    scan verdict mark k c s l = .ok s' ↔
      Defined verdict (processed k (isFresh verdict) c l) ∧
        s' = ((processed k (isFresh verdict) c l).filter fun x => !isFresh verdict x).foldl mark
          s := by
  induction l generalizing c s with
  | nil => simp [scan, processed, Defined, eq_comm]
  | cons x xs ih =>
    unfold scan processed
    cases hx : verdict x with
    | error e =>
      have hnd : ∀ l : List α, ¬ Defined verdict (x :: l) := by
        intro l hd
        obtain ⟨b, hb⟩ := hd x List.mem_cons_self
        rw [hx] at hb
        cases hb
      have hf : isFresh verdict x = false := by
        unfold isFresh
        rw [hx]
      simp [hf, hnd]
    | ok b =>
      have hd : ∀ l : List α, Defined verdict (x :: l) ↔ Defined verdict l := by
        intro l
        unfold Defined
        rw [List.forall_mem_cons]
        exact and_iff_right ⟨b, hx⟩
      have hfresh := isFresh_of_eq_ok hx
      cases b with
      | true =>
        dsimp only
        rw [if_pos hfresh]
        split_ifs with hk
        · rw [hd, List.filter_cons_of_neg (by simp [hfresh])]
          simp [Defined, eq_comm]
        · rw [ih, hd, List.filter_cons_of_neg (by simp [hfresh])]
      | false =>
        dsimp only
        rw [if_neg (by simp [hfresh]), ih, hd, List.filter_cons_of_pos (by simp [hfresh]),
          List.foldl_cons]

/-- Where the verdicts are defined, the early-stopping scan folds over the stale records among
those it processes. -/
lemma scan_eq_foldl {k c : ℕ} {s : σ} {l : List α} (h : Defined verdict l) :
    scan verdict mark k c s l =
      .ok (((processed k (isFresh verdict) c l).filter fun x => !isFresh verdict x).foldl mark
        s) :=
  scan_eq_ok_iff.mpr ⟨fun x hx => h x (mem_of_mem_processed hx), rfl⟩

/-- A scan whose first records are fresh, as many as it stops after, marks nothing. -/
lemma scan_of_forall_take {k c : ℕ} {s : σ} {l : List α} (hc : c < k)
    (h : ∀ x ∈ l.take (k - c), verdict x = .ok true) : scan verdict mark k c s l = .ok s := by
  induction l generalizing c with
  | nil => rfl
  | cons x xs ih =>
    obtain ⟨m, hm⟩ : ∃ m, k - c = m + 1 := ⟨k - c - 1, by omega⟩
    rw [hm, List.take_succ_cons] at h
    obtain ⟨hx, hxs⟩ := List.forall_mem_cons.mp h
    unfold scan
    rw [hx]
    dsimp only
    split_ifs with hk
    · rfl
    · have hnext : m = k - (c + 1) := by omega
      exact ih (by omega) (hnext ▸ hxs)

end Scan

end EarlyStop
