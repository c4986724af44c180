import Mathlib.Data.List.Count
import Mathlib.Data.List.Nodup
import Mathlib.Tactic

set_option relaxedAutoImplicit false
set_option autoImplicit false

/-!
# The SQL statement `MERGE INTO`

A target table is merged with a source on the equality of key columns: a matched target row takes
the values of the source row, a source row that matches nothing is inserted. Comparisons are
three-valued, so a row with `NULL` in a key column matches nothing, and a target row that two source
rows match aborts the statement.

## Main definitions

* `Sql.Truth`, `Sql.eq`, `Sql.conj` — truth values, the comparison of two cells and conjunction.
* `Sql.keyTuple`, `Sql.NullFree`, `Sql.matched` — the key of a row and the join condition.
* `Sql.merge` — the statement, `none` when it aborts.
* `Sql.mergeInto` — the table after the statement, which an abort leaves as it was.
* `Sql.Unique` — no two rows have the same key.

## Main results

* `Sql.matched_iff` — two rows match when they have the same key without a `NULL`.
* `Sql.unique_merge`, `Sql.merge_merge` — a source with unique `NULL`-free keys keeps the keys of
  the table unique, and merging it again changes nothing.
* `Sql.unique_and_stable_iff` — otherwise one of the two fails, unless the statement aborts.
-/

namespace Sql

/-! ## Three-valued logic -/

/-- A truth value; `none` is unknown. -/
abbrev Truth := Option Bool

section Logic

variable {ν : Type*} [DecidableEq ν]

/-- The comparison `a = b`, unknown when one of the cells is `NULL`. -/
def eq : Option ν → Option ν → Truth
  | some a, some b => some (decide (a = b))
  | _, _ => none

/-- Conjunction: false decides, unknown spreads. -/
def and : Truth → Truth → Truth
  | some false, _ => some false
  | _, some false => some false
  | some true, some true => some true
  | _, _ => none

/-- The conjunction of a list. -/
def conj (conditions : List Truth) : Truth := conditions.foldr and (some true)

/-- An equation is true when both sides are the same value. -/
lemma eq_eq_true_iff {a b : Option ν} : eq a b = some true ↔ ∃ v, a = some v ∧ b = some v := by
  cases a with
  | none => simp [eq]
  | some a =>
    cases b with
    | none => simp [eq]
    | some b => simp [eq, eq_comm]

/-- A conjunction is true when both sides are. -/
lemma and_eq_true_iff {a b : Truth} : and a b = some true ↔ a = some true ∧ b = some true := by
  revert a b
  decide

/-- A conjunction is true when all conditions are. -/
lemma conj_eq_true_iff {conditions : List Truth} :
    conj conditions = some true ↔ ∀ a ∈ conditions, a = some true := by
  induction conditions with
  | nil => simp [conj]
  | cons a conditions ih =>
    rw [conj, List.foldr_cons, and_eq_true_iff, List.forall_mem_cons]
    exact and_congr_right fun _ => ih

end Logic

section Merge

variable {ρ κ ν : Type*} [DecidableEq ν] (cell : ρ → κ → Option ν) (keys : List κ)

/-! ## Keys -/

/-- The key of a row: its cells in the key columns. -/
def keyTuple (row : ρ) : List (Option ν) := keys.map (cell row)

/-- No key cell is `NULL`. -/
def NullFree (row : ρ) : Prop := none ∉ keyTuple cell keys row

instance (row : ρ) : Decidable (NullFree cell keys row) :=
  inferInstanceAs (Decidable (none ∉ keyTuple cell keys row))

/-- The join condition `t.k₁ = s.k₁ AND t.k₂ = s.k₂ AND …` is true. -/
def matched (t s : ρ) : Bool :=
  conj (keys.map fun k => eq (cell t k) (cell s k)) == some true

/-- No two rows have the same key, where `NULL` counts as a value. -/
def Unique (table : List ρ) : Prop := (table.map (keyTuple cell keys)).Nodup

instance (table : List ρ) : Decidable (Unique cell keys table) :=
  inferInstanceAs (Decidable (List.Nodup _))

/-! ## The statement -/

/-- Some target row is matched by two source rows. -/
def Ambiguous (target source : List ρ) : Prop :=
  ∃ t ∈ target, 2 ≤ source.countP (matched cell keys t)

instance (target source : List ρ) : Decidable (Ambiguous cell keys target source) :=
  inferInstanceAs (Decidable (∃ t ∈ target, _))

/-- `WHEN MATCHED THEN UPDATE SET *`: what becomes of a target row. -/
def updateMatched (source : List ρ) (t : ρ) : ρ := (source.find? (matched cell keys t)).getD t

/-- A source row that matches no target row. -/
def notMatched (target : List ρ) (s : ρ) : Bool := target.all fun t => !matched cell keys t s

/-- `MERGE INTO target USING source ON … WHEN MATCHED THEN UPDATE SET * WHEN NOT MATCHED THEN
INSERT *`. -/
def merge (target source : List ρ) : Option (List ρ) :=
  if Ambiguous cell keys target source then none
  else some (target.map (updateMatched cell keys source) ++
    source.filter (notMatched cell keys target))

/-- The table after the statement: an abort has no effect. -/
def mergeInto (target source : List ρ) : List ρ := (merge cell keys target source).getD target

variable {cell keys} {target source result : List ρ} {r s t : ρ}

/-! ## Matching -/

omit [DecidableEq ν] in
/-- A row is free of `NULL` when all its keys are. -/
lemma nullFree_iff : NullFree cell keys r ↔ ∀ k ∈ keys, cell r k ≠ none := by
  unfold NullFree keyTuple
  simp only [List.mem_map, not_exists, not_and, ne_eq]

/-- Two rows match when they have the same key and no cell of it is `NULL`. -/
lemma matched_iff :
    matched cell keys t s = true ↔ keyTuple cell keys t = keyTuple cell keys s ∧
      NullFree cell keys s := by
  have hkeys : keyTuple cell keys t = keyTuple cell keys s ↔ ∀ k ∈ keys, cell t k = cell s k := by
    unfold keyTuple
    exact List.map_inj_left
  rw [matched, beq_iff_eq, conj_eq_true_iff, List.forall_mem_map, hkeys, nullFree_iff]
  constructor
  · intro h
    refine ⟨?_, ?_⟩
    · intro k hk
      obtain ⟨v, ht, hs⟩ := eq_eq_true_iff.mp (h k hk)
      rw [ht, hs]
    · intro k hk
      obtain ⟨v, -, hs⟩ := eq_eq_true_iff.mp (h k hk)
      simp [hs]
  · rintro ⟨heq, hnull⟩ k hk
    obtain ⟨v, hv⟩ := Option.ne_none_iff_exists'.mp (hnull k hk)
    exact eq_eq_true_iff.mpr ⟨v, (heq k hk).trans hv, hv⟩

omit [DecidableEq ν] in
/-- A row with the keys of one without `NULL` has none. -/
lemma NullFree.of_keyTuple_eq (h : NullFree cell keys s)
    (heq : keyTuple cell keys t = keyTuple cell keys s) : NullFree cell keys t := by
  unfold NullFree at h ⊢
  rwa [heq]

/-- Whether a row matches is decided by its key. -/
lemma matched_congr (heq : keyTuple cell keys r = keyTuple cell keys t) :
    matched cell keys r = matched cell keys t := by
  funext s
  rw [Bool.eq_iff_iff, matched_iff, matched_iff, heq]

/-- A source row is not matched when no target row matches it. -/
lemma notMatched_iff :
    notMatched cell keys target s = true ↔ ∀ t ∈ target, ¬ matched cell keys t s = true := by
  simp [notMatched]

omit [DecidableEq ν] in
/-- In a table with unique keys a key determines the row. -/
lemma Unique.eq_of_keyTuple_eq {table : List ρ} (h : Unique cell keys table) (hr : r ∈ table)
    (hs : s ∈ table) (heq : keyTuple cell keys r = keyTuple cell keys s) : r = s :=
  List.inj_on_of_nodup_map h hr hs heq

/-- An updated row is the old one when no source row matches it. -/
lemma updateMatched_eq_self (h : ∀ s ∈ source, ¬ matched cell keys t s = true) :
    updateMatched cell keys source t = t := by
  rw [updateMatched, List.find?_eq_none.mpr h]
  rfl

variable (cell keys source t) in
/-- An updated row is the old one, which nothing matches, or a source row that matches it. -/
lemma updateMatched_cases :
    (updateMatched cell keys source t = t ∧ ∀ s ∈ source, ¬ matched cell keys t s = true) ∨
      (updateMatched cell keys source t ∈ source ∧
        matched cell keys t (updateMatched cell keys source t) = true) := by
  unfold updateMatched
  cases hfind : source.find? (matched cell keys t) with
  | none => exact Or.inl ⟨rfl, List.find?_eq_none.mp hfind⟩
  | some s => exact Or.inr ⟨List.mem_of_find?_eq_some hfind, List.find?_some hfind⟩

/-- An update keeps the key. -/
lemma keyTuple_updateMatched :
    keyTuple cell keys (updateMatched cell keys source t) = keyTuple cell keys t := by
  rcases updateMatched_cases cell keys source t with ⟨heq, -⟩ | ⟨-, hmatch⟩
  · rw [heq]
  · exact (matched_iff.mp hmatch).1.symm

/-! ## The result -/

/-- A source with unique keys is never ambiguous. -/
lemma not_ambiguous (h : Unique cell keys source) : ¬ Ambiguous cell keys target source := by
  rintro ⟨t, -, htwo⟩
  have hle : source.countP (matched cell keys t) ≤
      (source.map (keyTuple cell keys)).count (keyTuple cell keys t) := by
    rw [List.count, List.countP_map]
    apply List.countP_mono_left
    intro s _ hs
    simp [(matched_iff.mp hs).1]
  have hone := List.nodup_iff_count_le_one.mp h (keyTuple cell keys t)
  omega

/-- A merge that is not ambiguous updates the matched rows and inserts the others. -/
lemma merge_eq_some_iff :
    merge cell keys target source = some result ↔ ¬ Ambiguous cell keys target source ∧
      target.map (updateMatched cell keys source) ++
        source.filter (notMatched cell keys target) = result := by
  unfold merge
  split_ifs with h
  · simp [h]
  · simp [h]

/-- A merge fails when it is ambiguous. -/
lemma merge_eq_none_iff :
    merge cell keys target source = none ↔ Ambiguous cell keys target source := by
  simp [merge]

/-- The rows behind a merge. -/
lemma mem_merge (h : merge cell keys target source = some result) :
    r ∈ result ↔ (∃ t ∈ target, updateMatched cell keys source t = r) ∨
      (r ∈ source ∧ ∀ t ∈ target, ¬ matched cell keys t r = true) := by
  obtain ⟨-, rfl⟩ := merge_eq_some_iff.mp h
  simp only [List.mem_append, List.mem_map, List.mem_filter, notMatched_iff]

/-- A target row whose key no source row has is kept. -/
lemma mem_merge_of_keyTuple_ne (h : merge cell keys target source = some result) (ht : t ∈ target)
    (hne : ∀ s ∈ source, keyTuple cell keys t ≠ keyTuple cell keys s) : t ∈ result := by
  refine (mem_merge h).mpr (Or.inl ⟨t, ht, updateMatched_eq_self ?_⟩)
  intro s hs hmatch
  exact hne s hs (matched_iff.mp hmatch).1

/-- After the statement some row has the key of a given source row. -/
lemma exists_mem_merge_of_mem (h : merge cell keys target source = some result) (hs : s ∈ source) :
    ∃ r ∈ result, keyTuple cell keys r = keyTuple cell keys s := by
  by_cases hnew : ∀ t ∈ target, ¬ matched cell keys t s = true
  · exact ⟨s, (mem_merge h).mpr (Or.inr ⟨hs, hnew⟩), rfl⟩
  · push Not at hnew
    obtain ⟨t, ht, hmatch⟩ := hnew
    refine ⟨_, (mem_merge h).mpr (Or.inl ⟨t, ht, rfl⟩), ?_⟩
    rw [keyTuple_updateMatched]
    exact (matched_iff.mp hmatch).1

/-- **Keys stay unique** when the source has unique keys without a `NULL`. -/
theorem unique_merge (htarget : Unique cell keys target) (hsource : Unique cell keys source)
    (hnull : ∀ s ∈ source, NullFree cell keys s)
    (h : merge cell keys target source = some result) : Unique cell keys result := by
  obtain ⟨-, rfl⟩ := merge_eq_some_iff.mp h
  have hupdated : (target.map (updateMatched cell keys source)).map (keyTuple cell keys) =
      target.map (keyTuple cell keys) := by
    rw [List.map_map]
    exact List.map_congr_left fun t _ => keyTuple_updateMatched
  unfold Unique
  rw [List.map_append, hupdated, List.nodup_append]
  refine ⟨htarget, hsource.sublist (List.filter_sublist.map _), ?_⟩
  rintro a ha b hb rfl
  obtain ⟨t, ht, hkey⟩ := List.mem_map.mp ha
  obtain ⟨s, hs, rfl⟩ := List.mem_map.mp hb
  rw [List.mem_filter, notMatched_iff] at hs
  exact hs.2 t ht (matched_iff.mpr ⟨hkey, hnull s hs.1⟩)

/-- **Merging again changes nothing** when the source has unique keys without a `NULL`.

**Proof sketch.** Every row of the result that a source row matches is that source row, as the keys
of the source are unique. Every source row matches a row of the result: the one it was written to,
or itself. -/
theorem merge_merge (hsource : Unique cell keys source)
    (hnull : ∀ s ∈ source, NullFree cell keys s)
    (h : merge cell keys target source = some result) :
    merge cell keys result source = some result := by
  have hself : ∀ s ∈ source, updateMatched cell keys source s = s := by
    intro s hs
    rcases updateMatched_cases cell keys source s with ⟨heq, -⟩ | ⟨hmem, hmatch⟩
    · exact heq
    · exact (hsource.eq_of_keyTuple_eq hs hmem (matched_iff.mp hmatch).1).symm
  have hupdate : ∀ r ∈ result, updateMatched cell keys source r = r := by
    intro r hr
    rcases (mem_merge h).mp hr with ⟨t, -, rfl⟩ | ⟨hmem, -⟩
    · rcases updateMatched_cases cell keys source t with ⟨heq, hnone⟩ | ⟨hmem, -⟩
      · rw [heq, heq]
      · exact hself _ hmem
    · exact hself _ hmem
  have hmatched : ∀ s ∈ source, notMatched cell keys result s = false := by
    intro s hs
    rw [Bool.eq_false_iff, ne_eq, notMatched_iff]
    intro hnone
    obtain ⟨r, hr, hkey⟩ := exists_mem_merge_of_mem h hs
    exact hnone r hr (matched_iff.mpr ⟨hkey, hnull s hs⟩)
  refine merge_eq_some_iff.mpr ⟨not_ambiguous hsource, ?_⟩
  rw [List.map_congr_left hupdate, List.map_id', List.filter_eq_nil_iff.mpr, List.append_nil]
  intro s hs
  simp [hmatched s hs]

/-! ## Rows with and without a `NULL` key -/

/-- An update keeps whether a key is `NULL`. -/
lemma nullFree_updateMatched :
    NullFree cell keys (updateMatched cell keys source t) ↔ NullFree cell keys t := by
  unfold NullFree
  rw [keyTuple_updateMatched]

/-- A row of the result was there before or comes from the source. -/
lemma mem_or_mem_of_mem_merge (h : merge cell keys target source = some result) (hr : r ∈ result) :
    r ∈ target ∨ r ∈ source := by
  rcases (mem_merge h).mp hr with ⟨t, ht, rfl⟩ | ⟨hsource, -⟩
  · rcases updateMatched_cases cell keys source t with ⟨heq, -⟩ | ⟨hmem, -⟩
    · rw [heq]
      exact Or.inl ht
    · exact Or.inr hmem
  · exact Or.inr hsource

/-- Rows with a `NULL` key are kept, and those of the source are all inserted. -/
lemma filter_not_nullFree_merge (h : merge cell keys target source = some result) :
    result.filter (fun r => ¬ NullFree cell keys r) =
      target.filter (fun r => ¬ NullFree cell keys r) ++
        source.filter (fun r => ¬ NullFree cell keys r) := by
  obtain ⟨-, rfl⟩ := merge_eq_some_iff.mp h
  rw [List.filter_append, List.filter_map, List.filter_filter]
  congr 1
  · have hkept : target.filter ((fun r => decide ¬ NullFree cell keys r) ∘
        updateMatched cell keys source) = target.filter (fun r => ¬ NullFree cell keys r) := by
      refine List.filter_congr fun t _ => ?_
      simp only [Function.comp_apply, nullFree_updateMatched]
    rw [hkept]
    refine (List.map_congr_left ?_).trans (List.map_id _)
    intro t ht
    refine updateMatched_eq_self fun s _ hmatch => ?_
    have hnull : ¬ NullFree cell keys t := by simpa using (List.mem_filter.mp ht).2
    exact hnull ((matched_iff.mp hmatch).2.of_keyTuple_eq (matched_iff.mp hmatch).1)
  · refine List.filter_congr fun s _ => ?_
    by_cases hnull : NullFree cell keys s
    · simp [hnull]
    · have hnew : notMatched cell keys target s = true :=
        notMatched_iff.mpr fun t _ hmatch => hnull (matched_iff.mp hmatch).2
      simp [hnull, hnew]

/-- The keys without a `NULL` stay unique when those of the source are. -/
lemma unique_nullFree_merge
    (htarget : Unique cell keys (target.filter fun r => NullFree cell keys r))
    (hsource : Unique cell keys (source.filter fun r => NullFree cell keys r))
    (h : merge cell keys target source = some result) :
    Unique cell keys (result.filter fun r => NullFree cell keys r) := by
  obtain ⟨-, rfl⟩ := merge_eq_some_iff.mp h
  have hupdated : ((target.map (updateMatched cell keys source)).filter
      fun r => NullFree cell keys r).map (keyTuple cell keys) =
      (target.filter fun r => NullFree cell keys r).map (keyTuple cell keys) := by
    have hkept : target.filter ((fun r => decide (NullFree cell keys r)) ∘
        updateMatched cell keys source) = target.filter (fun r => NullFree cell keys r) := by
      refine List.filter_congr fun t _ => ?_
      simp only [Function.comp_apply, nullFree_updateMatched]
    rw [List.filter_map, hkept, List.map_map]
    exact List.map_congr_left fun t _ => keyTuple_updateMatched
  unfold Unique
  rw [List.filter_append, List.map_append, hupdated, List.nodup_append]
  refine ⟨htarget, hsource.sublist ((List.filter_sublist.filter _).map _), ?_⟩
  rintro a ha b hb rfl
  obtain ⟨t, ht, hkey⟩ := List.mem_map.mp ha
  obtain ⟨s, hs, rfl⟩ := List.mem_map.mp hb
  obtain ⟨hs, hnull⟩ := List.mem_filter.mp hs
  rw [List.mem_filter, notMatched_iff] at hs
  exact hs.2 t (List.mem_filter.mp ht).1 (matched_iff.mpr ⟨hkey, by simpa using hnull⟩)

/-! ## Sources that break one of the two -/

/-- Merging a source with a `NULL` key into any table makes the table longer. -/
lemma length_lt_length_merge (hs : s ∈ source) (hnull : ¬ NullFree cell keys s)
    (h : merge cell keys target source = some result) : target.length < result.length := by
  obtain ⟨-, rfl⟩ := merge_eq_some_iff.mp h
  have hmem : s ∈ source.filter (notMatched cell keys target) := by
    refine List.mem_filter.mpr ⟨hs, notMatched_iff.mpr ?_⟩
    intro t _ hmatch
    exact hnull (matched_iff.mp hmatch).2
  have hpos := List.length_pos_of_mem hmem
  rw [List.length_append, List.length_map]
  omega

/-- When the statement leaves the keys unique, the same source does not abort the next one.

**Proof sketch.** A row of the result that two source rows match has the key of a target row, which
the two matched before, or of no target row, and then both were inserted. -/
lemma not_ambiguous_merge (h : merge cell keys target source = some result)
    (hresult : Unique cell keys result) : ¬ Ambiguous cell keys result source := by
  obtain ⟨hamb, rfl⟩ := merge_eq_some_iff.mp h
  rintro ⟨r, -, htwo⟩
  by_cases hold : ∃ t ∈ target, keyTuple cell keys t = keyTuple cell keys r
  · obtain ⟨t, ht, hkey⟩ := hold
    exact hamb ⟨t, ht, by rwa [matched_congr hkey]⟩
  · have hle : source.countP (matched cell keys r) ≤
        ((source.filter (notMatched cell keys target)).map (keyTuple cell keys)).count
          (keyTuple cell keys r) := by
      rw [List.count_eq_countP, List.countP_map, List.countP_filter]
      apply List.countP_mono_left
      intro s _ hmatch
      rw [Bool.and_eq_true, notMatched_iff]
      refine ⟨beq_iff_eq.mpr (matched_iff.mp hmatch).1.symm, ?_⟩
      intro t ht hother
      exact hold ⟨t, ht, (matched_iff.mp hother).1.trans (matched_iff.mp hmatch).1.symm⟩
    have hone := List.nodup_iff_count_le_one.mp hresult (keyTuple cell keys r)
    rw [List.map_append, List.count_append] at hone
    omega

/-- When the statement leaves the keys unique, the keys of a `NULL`-free source are unique. -/
lemma unique_source (hnull : ∀ s ∈ source, NullFree cell keys s)
    (h : merge cell keys target source = some result) (hresult : Unique cell keys result) :
    Unique cell keys source := by
  have hamb := not_ambiguous_merge h hresult
  refine List.nodup_iff_count_le_one.mpr ?_
  intro key
  by_cases hkey : key ∈ source.map (keyTuple cell keys)
  · obtain ⟨s, hs, rfl⟩ := List.mem_map.mp hkey
    obtain ⟨r, hr, hrs⟩ := exists_mem_merge_of_mem h hs
    have hle : (source.map (keyTuple cell keys)).count (keyTuple cell keys s) ≤
        source.countP (matched cell keys r) := by
      rw [List.count_eq_countP, List.countP_map]
      apply List.countP_mono_left
      intro s' hs' hkey'
      exact matched_iff.mpr ⟨hrs.trans (beq_iff_eq.mp hkey').symm, hnull s' hs'⟩
    by_contra htwo
    exact hamb ⟨r, hr, by omega⟩
  · rw [List.count_eq_zero_of_not_mem hkey]
    exact Nat.zero_le 1

/-- **Unique and stable.** A merge into a table with unique keys keeps them unique and is changed by
no repetition if and only if it aborts or its source has unique keys without a `NULL`. -/
theorem unique_and_stable_iff (htarget : Unique cell keys target) :
    (Unique cell keys (mergeInto cell keys target source) ∧
      (mergeInto cell keys (mergeInto cell keys target source) source).Perm
        (mergeInto cell keys target source)) ↔
      Ambiguous cell keys target source ∨
        (Unique cell keys source ∧ ∀ s ∈ source, NullFree cell keys s) := by
  cases h : merge cell keys target source with
  | none =>
    have hafter : mergeInto cell keys target source = target := by
      rw [mergeInto, h]
      rfl
    rw [hafter, hafter]
    exact iff_of_true ⟨htarget, List.Perm.refl _⟩ (Or.inl (merge_eq_none_iff.mp h))
  | some result =>
    have hafter : mergeInto cell keys target source = result := by
      rw [mergeInto, h]
      rfl
    have hamb : ¬ Ambiguous cell keys target source := (merge_eq_some_iff.mp h).1
    rw [hafter, or_iff_right hamb]
    constructor
    · rintro ⟨hunique, hperm⟩
      have hnull : ∀ s ∈ source, NullFree cell keys s := by
        intro s hs
        by_contra hnot
        cases hagain : merge cell keys result source with
        | none =>
          exact not_ambiguous_merge h hunique (merge_eq_none_iff.mp hagain)
        | some again =>
          rw [mergeInto, hagain] at hperm
          have hlt := length_lt_length_merge hs hnot hagain
          have hlen : again.length = result.length := hperm.length_eq
          omega
      exact ⟨unique_source hnull h hunique, hnull⟩
    · rintro ⟨hunique, hnull⟩
      refine ⟨unique_merge htarget hunique hnull h, ?_⟩
      rw [mergeInto, merge_merge hunique hnull h]
      exact List.Perm.refl _

end Merge

end Sql
