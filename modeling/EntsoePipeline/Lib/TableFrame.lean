import EntsoePipeline.Py.Dict

set_option relaxedAutoImplicit false
set_option autoImplicit false

/-!
# What a write to a table leaves alone

A table is a dictionary from keys to rows. A selection of a table is the list of its entries that
pass a test, such as the rows of one owner. Writes of rows that do not pass the test can change a
selection in one way only: an entry of it is overwritten and thereby lost.

## Main definitions

* `TableFrame.select` — the entries of a table that pass a test.
* `TableFrame.without` — the entries of a selection but for those of some keys.
* `TableFrame.Spares` — no key of a list has an entry that passes the test.

## Main results

* `TableFrame.select_setAll` — what writes of other rows leave of a selection.
* `TableFrame.select_setAll_eq_iff` — they leave all of it exactly when they spare it.
* `TableFrame.spares_of_length_eq` — otherwise it gets shorter.
* `TableFrame.items_setAll` — rows with new keys are appended.
-/

namespace TableFrame

open Py

variable {κ ν : Type*}

/-- The entries of a table that pass a test. -/
def select (p : κ → ν → Bool) (d : Dict κ ν) : List (κ × ν) :=
  d.items.filter fun entry => p entry.1 entry.2

/-- A selection of a filtered map is filtered. -/
lemma select_filter (p q : κ → ν → Bool) (d : Dict κ ν) :
    select p (d.filter q) = (select p d).filter fun entry => q entry.1 entry.2 := by
  unfold select
  rw [Dict.items_filter, List.filter_filter, List.filter_filter]
  simp only [Bool.and_comm]

/-- Deleting rows that do not pass the test leaves a selection alone. -/
lemma select_filter_of_imp {p q : κ → ν → Bool} (h : ∀ k v, p k v = true → q k v = true)
    (d : Dict κ ν) : select p (d.filter q) = select p d := by
  rw [select_filter, List.filter_eq_self]
  intro entry hentry
  exact h _ _ (List.mem_filter.mp hentry).2

variable [DecidableEq κ]

/-- The selected entries are those of the map that pass. -/
lemma mem_select_iff {p : κ → ν → Bool} {d : Dict κ ν} {k : κ} {v : ν} :
    (k, v) ∈ select p d ↔ d.get? k = some v ∧ p k v = true := by
  rw [select, List.mem_filter, Dict.mem_items_iff]

/-- The update of one entry to a row that does not pass the test drops that entry. -/
lemma filter_alterItems {p : κ → ν → Bool} (f : Option ν → ν) (k : κ)
    (hf : ∀ o, p k (f o) = false) {l : List (κ × ν)} (hl : (l.map Prod.fst).Nodup) :
    (Dict.alterItems f k l).filter (fun entry => p entry.1 entry.2) =
      (l.filter fun entry => p entry.1 entry.2).filter fun entry => decide (entry.1 ≠ k) := by
  induction l with
  | nil => simp [Dict.alterItems, hf]
  | cons entry l ih =>
    obtain ⟨k', v⟩ := entry
    rw [List.map_cons, List.nodup_cons] at hl
    rw [Dict.alterItems]
    split_ifs with hk
    · -- the entry is here, and no later one has its key
      subst hk
      have hrest : ∀ entry ∈ l.filter (fun entry => p entry.1 entry.2),
          decide (entry.1 ≠ k') = true := by
        intro entry hentry
        rw [decide_eq_true_eq]
        intro hkey
        have hmem : entry.1 ∈ l.map Prod.fst := List.mem_map_of_mem (List.mem_filter.mp hentry).1
        exact hl.1 (hkey ▸ hmem)
      rw [List.filter_cons_of_neg (by simp [hf]), List.filter_cons]
      split_ifs
      · rw [List.filter_cons_of_neg (by simp), List.filter_eq_self.mpr hrest]
      · rw [List.filter_eq_self.mpr hrest]
    · rw [List.filter_cons, ih hl.2, List.filter_cons]
      split_ifs
      · rw [List.filter_cons_of_pos (by simpa using hk)]
      · rfl

/-- An alteration to a value that does not pass takes the key out of the selection. -/
lemma select_alter {p : κ → ν → Bool} (d : Dict κ ν) (k : κ) (f : Option ν → ν)
    (hf : ∀ o, p k (f o) = false) :
    select p (d.alter k f) = (select p d).filter fun entry => decide (entry.1 ≠ k) :=
  filter_alterItems f k hf d.nodup

/-- The update of an entry whose key does not pass the test leaves a selection alone. -/
lemma select_alter_of_key {q : κ → Bool} (d : Dict κ ν) {k : κ} (hk : q k = false)
    (f : Option ν → ν) : select (fun k _ => q k) (d.alter k f) = select (fun k _ => q k) d := by
  rw [select_alter d k f fun _ => hk, List.filter_eq_self]
  intro entry hentry
  rw [decide_eq_true_eq]
  rintro rfl
  exact absurd (List.mem_filter.mp hentry).2 (by simp [hk])

/-! ## Several writes -/

/-- The entries of a selection whose keys are not in a list. -/
def without (keys : List κ) (l : List (κ × ν)) : List (κ × ν) :=
  l.filter fun entry => decide (entry.1 ∉ keys)

/-- No key of the list has an entry that passes the test. -/
def Spares (p : κ → ν → Bool) (d : Dict κ ν) (keys : List κ) : Prop :=
  ∀ k ∈ keys, ∀ v, d.get? k = some v → p k v = false

/-- Without some keys an entry stays when its key is none of them. -/
lemma mem_without_iff {keys : List κ} {l : List (κ × ν)} {entry : κ × ν} :
    entry ∈ without keys l ↔ entry ∈ l ∧ entry.1 ∉ keys := by
  rw [without, List.mem_filter, decide_eq_true_eq]

/-- Without some keys a list is a part of itself. -/
lemma without_sublist (keys : List κ) (l : List (κ × ν)) : (without keys l).Sublist l :=
  List.filter_sublist

/-- Without no keys a list is itself. -/
lemma without_nil (l : List (κ × ν)) : without [] l = l := by
  simp [without]

/-- Writes of rows that do not pass the test drop the entries of their keys. -/
lemma select_setAll {p : κ → ν → Bool} (d : Dict κ ν) {l : List (κ × ν)}
    (hl : ∀ entry ∈ l, p entry.1 entry.2 = false) :
    select p (d.setAll l) = without (l.map Prod.fst) (select p d) := by
  induction l generalizing d with
  | nil => exact (without_nil _).symm
  | cons entry l ih =>
    obtain ⟨hentry, hl⟩ := List.forall_mem_cons.mp hl
    rw [Dict.setAll_cons, ih _ hl, Dict.set, select_alter d entry.1 _ fun _ => hentry, without,
      without, List.filter_filter]
    congr 1
    funext entry'
    rw [List.map_cons, ← Bool.decide_and]
    congr 1
    rw [List.mem_cons, not_or, and_comm]

/-- Keys that are not selected can be left out. -/
lemma without_eq_self_iff {p : κ → ν → Bool} {d : Dict κ ν} {keys : List κ} :
    without keys (select p d) = select p d ↔ Spares p d keys := by
  rw [without, List.filter_eq_self]
  constructor
  · intro h k hk v hv
    by_contra hp
    exact absurd hk (by simpa using h (k, v) (mem_select_iff.mpr ⟨hv, by simpa using hp⟩))
  · rintro h ⟨k, v⟩ hentry
    obtain ⟨hv, hp⟩ := mem_select_iff.mp hentry
    rw [decide_eq_true_eq]
    intro hk
    rw [h k hk v hv] at hp
    cases hp

/-- **Writes and selections.** Writes of rows that do not pass the test leave a selection alone
exactly when they spare it. -/
theorem select_setAll_eq_iff {p : κ → ν → Bool} {d : Dict κ ν} {l : List (κ × ν)}
    (hl : ∀ entry ∈ l, p entry.1 entry.2 = false) :
    select p (d.setAll l) = select p d ↔ Spares p d (l.map Prod.fst) := by
  rw [select_setAll d hl, without_eq_self_iff]

/-- A selection that keeps its length has lost nothing. -/
lemma spares_of_length_eq {p : κ → ν → Bool} {d : Dict κ ν} {keys : List κ}
    (h : (without keys (select p d)).length = (select p d).length) : Spares p d keys :=
  without_eq_self_iff.mp ((without_sublist keys _).eq_of_length h)

/-- Writes under new, distinct keys append their rows. -/
lemma items_setAll {d : Dict κ ν} {l : List (κ × ν)} (hnodup : (l.map Prod.fst).Nodup)
    (hnew : ∀ k ∈ l.map Prod.fst, k ∉ d.keys) : (d.setAll l).items = d.items ++ l := by
  induction l generalizing d with
  | nil => simp
  | cons entry l ih =>
    obtain ⟨k, v⟩ := entry
    rw [List.map_cons, List.nodup_cons] at hnodup
    rw [List.map_cons, List.forall_mem_cons] at hnew
    have hset : (d.set k v).items = d.items ++ [(k, v)] :=
      Dict.alterItems_of_not_mem (fun _ => v) hnew.1
    rw [Dict.setAll_cons, ih hnodup.2, hset, List.append_assoc, List.singleton_append]
    intro k' hk'
    rw [Dict.set, Dict.mem_keys_alter, not_or]
    exact ⟨fun h => hnodup.1 (h ▸ hk'), hnew.2 k' hk'⟩

/-- A selection of a table after rows with new keys. -/
lemma select_setAll_of_new {p : κ → ν → Bool} {d : Dict κ ν} {l : List (κ × ν)}
    (hnodup : (l.map Prod.fst).Nodup) (hnew : ∀ k ∈ l.map Prod.fst, k ∉ d.keys) :
    select p (d.setAll l) = select p d ++ l.filter fun entry => p entry.1 entry.2 := by
  rw [select, items_setAll hnodup hnew, List.filter_append]
  rfl

end TableFrame
