import EntsoePipeline.Lib.Merge
import Mathlib.Data.Set.Basic

set_option relaxedAutoImplicit false
set_option autoImplicit false

/-!
# Sets that are overwritten

Each of a list of writes takes elements out of a set and then adds others. What is left is what was
added and not taken out behind that. Merging rows into a table is such a write: it takes out the
rows whose key a merged row has.

## Main definitions

* `Overwrite.contents` — what is left behind a list of writes.
* `Sql.Replaces` — a row takes the place of another one in a merge.

## Main results

* `Overwrite.mem_contents_iff` — where the elements that are left come from.
* `Overwrite.exists_mem_contents` — what becomes of an element when it is taken out for another.
* `Sql.mem_merge_iff` — a merge is a write.
-/

namespace Overwrite

variable {α ω : Type*} {adds kills : ω → Set α} {s : Set α}

/-- What is left of a set behind writes. -/
def contents (adds kills : ω → Set α) (s : Set α) (writes : List ω) : Set α :=
  writes.foldl (fun s w => adds w ∪ (s \ kills w)) s

/-- Without writes the contents stay. -/
@[simp] lemma contents_nil : contents adds kills s [] = s := rfl

/-- The first write is followed by the others. -/
@[simp] lemma contents_cons (w : ω) (writes : List ω) :
    contents adds kills s (w :: writes) = contents adds kills (adds w ∪ (s \ kills w)) writes := rfl

/-- Writes that follow one another are carried out one after the other. -/
lemma contents_append (writes writes' : List ω) :
    contents adds kills s (writes ++ writes') =
      contents adds kills (contents adds kills s writes) writes' :=
  List.foldl_append ..

/-- **Where elements come from.** An element was there at the start and no write took it out, or
some write added it and no later one took it out. -/
theorem mem_contents_iff {x : α} {writes : List ω} :
    x ∈ contents adds kills s writes ↔ (x ∈ s ∧ ∀ w ∈ writes, x ∉ kills w) ∨
      ∃ before w after, writes = before ++ w :: after ∧ x ∈ adds w ∧ ∀ w' ∈ after,
        x ∉ kills w' := by
  induction writes generalizing s with
  | nil => simp
  | cons first writes ih =>
    rw [contents_cons, ih, List.forall_mem_cons]
    constructor
    · rintro (⟨hadded | ⟨hs, hfirst⟩, hrest⟩ | ⟨before, w, after, rfl, hw, hafter⟩)
      · exact Or.inr ⟨[], first, writes, rfl, hadded, hrest⟩
      · exact Or.inl ⟨hs, hfirst, hrest⟩
      · exact Or.inr ⟨first :: before, w, after, rfl, hw, hafter⟩
    · rintro (⟨hs, hfirst, hrest⟩ | ⟨before, w, after, heq, hw, hafter⟩)
      · exact Or.inl ⟨Or.inr ⟨hs, hfirst⟩, hrest⟩
      · cases before with
        | nil =>
          obtain ⟨rfl, rfl⟩ := List.cons.inj heq
          exact Or.inl ⟨Or.inl hw, hafter⟩
        | cons first' before =>
          obtain ⟨rfl, rfl⟩ := List.cons.inj heq
          exact Or.inr ⟨before, w, after, rfl, hw, hafter⟩

/-- **What becomes of an element.** When every write that takes an element out adds one that is
related to it, then an element that was there is left, or one that is related to it is. -/
theorem exists_mem_contents {R : α → α → Prop} (hrefl : ∀ x, R x x)
    (htrans : ∀ x y z, R x y → R y z → R x z) {writes : List ω}
    (h : ∀ w ∈ writes, ∀ x ∈ kills w, ∃ y ∈ adds w, R x y) {x : α} (hx : x ∈ s) :
    ∃ y ∈ contents adds kills s writes, R x y := by
  induction writes generalizing s x with
  | nil => exact ⟨x, hx, hrefl x⟩
  | cons w writes ih =>
    rw [List.forall_mem_cons] at h
    by_cases hkilled : x ∈ kills w
    · obtain ⟨y, hy, hxy⟩ := h.1 x hkilled
      have hadded : y ∈ adds w ∪ (s \ kills w) := Or.inl hy
      obtain ⟨z, hz, hyz⟩ := ih h.2 hadded
      exact ⟨z, hz, htrans x y z hxy hyz⟩
    · have hkept : x ∈ adds w ∪ (s \ kills w) := Or.inr ⟨hx, hkilled⟩
      exact ih h.2 hkept

/-- What a write added is left, or something related to it. -/
lemma exists_mem_contents_of_mem_adds {R : α → α → Prop} (hrefl : ∀ x, R x x)
    (htrans : ∀ x y z, R x y → R y z → R x z) {writes : List ω}
    (h : ∀ w ∈ writes, ∀ x ∈ kills w, ∃ y ∈ adds w, R x y) {w : ω} (hw : w ∈ writes) {x : α}
    (hx : x ∈ adds w) : ∃ y ∈ contents adds kills s writes, R x y := by
  obtain ⟨before, after, rfl⟩ := List.append_of_mem hw
  rw [contents_append, contents_cons]
  refine exists_mem_contents hrefl htrans (fun w' hw' => h w' ?_) (Or.inl hx)
  exact List.mem_append_right before (List.mem_cons_of_mem w hw')

end Overwrite

namespace Sql

variable {ρ κ ν : Type*} [DecidableEq ν] {cell : ρ → κ → Option ν} {keys : List κ}
  {target source result : List ρ} {r t s : ρ}

/-- A source row that matches a target row is what becomes of it. -/
lemma updateMatched_eq (h : merge cell keys target source = some result) (ht : t ∈ target)
    (hs : s ∈ source) (hmatch : matched cell keys t s = true) :
    updateMatched cell keys source t = s := by
  have hone : source.countP (matched cell keys t) < 2 := by
    by_contra htwo
    exact (merge_eq_some_iff.mp h).1 ⟨t, ht, by omega⟩
  have hmem : s ∈ source.filter (matched cell keys t) := List.mem_filter.mpr ⟨hs, hmatch⟩
  rw [List.countP_eq_length_filter] at hone
  rw [updateMatched, ← List.head?_filter]
  rcases hfilter : source.filter (matched cell keys t) with _ | ⟨first, others⟩
  · rw [hfilter] at hmem
    cases hmem
  · rw [hfilter, List.length_cons] at hone
    have hothers : others = [] := List.eq_nil_of_length_eq_zero (by omega)
    rw [hfilter, hothers, List.mem_singleton] at hmem
    rw [hmem]
    rfl

/-- **A merge is a write.** The rows behind a merge are the rows of the source and the target rows
that none of them matches. -/
theorem mem_merge_iff (h : merge cell keys target source = some result) :
    r ∈ result ↔ r ∈ source ∨ (r ∈ target ∧ ∀ s ∈ source, ¬ matched cell keys r s = true) := by
  rw [mem_merge h]
  constructor
  · rintro (⟨t, ht, rfl⟩ | ⟨hsource, -⟩)
    · rcases updateMatched_cases cell keys source t with ⟨heq, hnone⟩ | ⟨hmem, -⟩
      · rw [heq]
        exact Or.inr ⟨ht, hnone⟩
      · exact Or.inl hmem
    · exact Or.inl hsource
  · rintro (hsource | ⟨htarget, hnone⟩)
    · by_cases hnew : ∀ t ∈ target, ¬ matched cell keys t r = true
      · exact Or.inr ⟨hsource, hnew⟩
      · push Not at hnew
        obtain ⟨t, ht, hmatch⟩ := hnew
        exact Or.inl ⟨t, ht, updateMatched_eq h ht hsource hmatch⟩
    · exact Or.inl ⟨r, htarget, updateMatched_eq_self hnone⟩

/-- A row takes the place of another in a table with keys. -/
def Replaces (cell : ρ → κ → Option ν) (keys : List κ) (t s : ρ) : Prop :=
  keys ≠ [] ∧ matched cell keys t s = true

/-- A row is the same or was replaced, once or more often. -/
lemma eq_or_replaces_trans (h : r = t ∨ Replaces cell keys r t)
    (h' : t = s ∨ Replaces cell keys t s) : r = s ∨ Replaces cell keys r s := by
  rcases h with rfl | ⟨hkeys, hmatch⟩
  · exact h'
  · rcases h' with rfl | ⟨-, hmatch'⟩
    · exact Or.inr ⟨hkeys, hmatch⟩
    · refine Or.inr ⟨hkeys, matched_iff.mpr ⟨?_, (matched_iff.mp hmatch').2⟩⟩
      exact (matched_iff.mp hmatch).1.trans (matched_iff.mp hmatch').1

end Sql
