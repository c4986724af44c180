import EntsoePipeline.Py.Dict

set_option relaxedAutoImplicit false
set_option autoImplicit false

/-!
# Elements by their key

The fiber of a key is the list of the elements that have it. The fibers of distinct keys that cover
a list are a partition of it. A loop that appends each element to the bucket of its key fills the
buckets with the fibers, and fails at the first element whose key has no bucket.

## Main definitions

* `Fibers.fiber` — the elements of a key.
* `Fibers.fill` — the loop over buckets that are there from the start.

## Main results

* `Fibers.perm_flatMap_fiber` — the fibers are a partition.
* `Fibers.fill_eq_ok`, `Fibers.fill_eq_error` — how the loop ends.
-/

namespace Fibers

open Py

variable {κ α : Type*} [DecidableEq κ]

/-- The elements of a list that have a key. -/
def fiber (key : α → κ) (l : List α) (k : κ) : List α := l.filter fun a => key a = k

section Partition

variable {key : α → κ} {l : List α} {k : κ} {a : α}

/-- The fiber over a key has the members with the key. -/
@[simp] lemma mem_fiber : a ∈ fiber key l k ↔ a ∈ l ∧ key a = k := by
  rw [fiber, List.mem_filter, decide_eq_true_eq]

/-- A fiber of a list without repetitions has none. -/
lemma nodup_fiber (h : l.Nodup) (k : κ) : (fiber key l k).Nodup := h.filter _

/-- The fibers of the empty list are empty. -/
@[simp] lemma fiber_nil : fiber key [] k = [] := rfl

/-- The head is in the fiber over its key. -/
lemma fiber_cons_self (a : α) (l : List α) :
    fiber key (a :: l) (key a) = a :: fiber key l (key a) :=
  List.filter_cons_of_pos (by simp)

/-- The head is in no other fiber. -/
lemma fiber_cons_of_ne (h : key a ≠ k) : fiber key (a :: l) k = fiber key l k :=
  List.filter_cons_of_neg (by simpa using h)

/-- Dropping the elements of another key does not change a fiber. -/
lemma fiber_filter_ne {k' : κ} (h : k ≠ k') :
    fiber key (l.filter fun a => key a ≠ k') k = fiber key l k := by
  rw [fiber, List.filter_filter]
  apply List.filter_congr
  intro a _
  by_cases hk : key a = k
  · simp [hk, h]
  · simp [hk]

/-- The fibers of distinct keys that cover a list hold its elements, each once. -/
theorem perm_flatMap_fiber {keys : List κ} (hkeys : keys.Nodup) (hcover : ∀ a ∈ l, key a ∈ keys) :
    (keys.flatMap (fiber key l)).Perm l := by
  induction keys generalizing l with
  | nil =>
    obtain rfl : l = [] := List.eq_nil_iff_forall_not_mem.mpr fun a ha =>
      List.not_mem_nil (hcover a ha)
    exact List.Perm.nil
  | cons k keys ih =>
    rw [List.nodup_cons] at hkeys
    have hothers : ∀ a ∈ l.filter (fun a => key a ≠ k), key a ∈ keys := by
      intro a ha
      rw [List.mem_filter, decide_eq_true_eq] at ha
      exact (List.mem_cons.mp (hcover a ha.1)).resolve_left ha.2
    have hfibers : keys.flatMap (fiber key (l.filter fun a => key a ≠ k)) =
        keys.flatMap (fiber key l) := by
      apply List.flatMap_congr
      intro k' hk'
      exact fiber_filter_ne fun h => hkeys.1 (h ▸ hk')
    have hsplit : (fiber key l k ++ l.filter fun a => key a ≠ k).Perm l := by
      simpa [fiber] using List.filter_append_perm (fun a => decide (key a = k)) l
    rw [List.flatMap_cons, ← hfibers]
    exact ((ih hkeys.2 hothers).append_left _).trans hsplit

omit [DecidableEq κ] in
/-- A sum over lists one after the other is the sum of their sums. -/
lemma sum_map_flatMap {M : Type*} [AddCommMonoid M] (keys : List κ) (f : κ → List α)
    (weight : α → M) :
    ((keys.flatMap f).map weight).sum = (keys.map fun k => ((f k).map weight).sum).sum := by
  rw [List.map_flatMap, List.flatMap_def, List.sum_flatten, List.map_map]
  rfl

end Partition

/-! ## Buckets -/

/-- Append each element to the bucket of its key. -/
def fill (key : α → κ) : Dict κ (List α) → List α → Except κ (Dict κ (List α))
  | buckets, [] => .ok buckets
  | buckets, a :: l =>
    if key a ∈ buckets.keys then fill key (buckets.alter (key a) fun o => o.getD [] ++ [a]) l
    else .error (key a)

/-- Elements whose keys have buckets are appended to them, in their order. -/
theorem fill_eq_ok (key : α → κ) {buckets : Dict κ (List α)} {l : List α}
    (h : ∀ a ∈ l, key a ∈ buckets.keys) :
    ∃ filled, fill key buckets l = .ok filled ∧ filled.keys = buckets.keys ∧
      ∀ k, filled.get? k = (buckets.get? k).map (· ++ fiber key l k) := by
  induction l generalizing buckets with
  | nil =>
    refine ⟨buckets, rfl, rfl, fun k => ?_⟩
    simp
  | cons a l ih =>
    obtain ⟨ha, hl⟩ := List.forall_mem_cons.mp h
    have hkeys : (buckets.alter (key a) fun o => o.getD [] ++ [a]).keys = buckets.keys := by
      rw [Dict.keys_alter, if_pos ha]
    obtain ⟨filled, hfill, hfilled, hget⟩ := ih fun b hb => by
      rw [hkeys]
      exact hl b hb
    refine ⟨filled, by rw [fill, if_pos ha, hfill], hfilled.trans hkeys, fun k => ?_⟩
    rw [hget, Dict.get?_alter]
    split_ifs with hk
    · subst hk
      obtain ⟨bucket, hbucket⟩ := Dict.mem_keys_iff.mp ha
      rw [hbucket, fiber_cons_self]
      simp
    · rw [fiber_cons_of_ne (Ne.symm hk)]

/-- The first element whose key has no bucket ends the loop. -/
theorem fill_eq_error (key : α → κ) {buckets : Dict κ (List α)} {l : List α}
    (h : ¬ ∀ a ∈ l, key a ∈ buckets.keys) :
    ∃ a ∈ l, fill key buckets l = .error (key a) ∧ key a ∉ buckets.keys := by
  induction l generalizing buckets with
  | nil => exact absurd (List.forall_mem_nil _) h
  | cons a l ih =>
    by_cases ha : key a ∈ buckets.keys
    · have hkeys : (buckets.alter (key a) fun o => o.getD [] ++ [a]).keys = buckets.keys := by
        rw [Dict.keys_alter, if_pos ha]
      obtain ⟨b, hb, hfill, hkey⟩ := @ih (buckets.alter (key a) fun o => o.getD [] ++ [a]) (by
        rw [hkeys]
        exact fun hall => h (List.forall_mem_cons.mpr ⟨ha, hall⟩))
      rw [hkeys] at hkey
      exact ⟨b, List.mem_cons_of_mem _ hb, by rw [fill, if_pos ha, hfill], hkey⟩
    · exact ⟨a, List.mem_cons_self, by rw [fill, if_neg ha], ha⟩

end Fibers
