import Mathlib.Data.List.Nodup
import Mathlib.Tactic

set_option relaxedAutoImplicit false
set_option autoImplicit false

/-!
# Tables with a primary key

A table is a list of rows no two of which have the same key. An insertion is refused when its key is
taken or when another constraint on the row does not hold; a list of rows is inserted one after the
other. A transaction is a sequence of statements, and a failure takes back what came before it.

## Main definitions

* `KeyedTable.Table` — rows with distinct keys.
* `KeyedTable.Table.insert?`, `KeyedTable.Table.insertAll?` — insertions.
* `KeyedTable.Table.deleteWhere`, `KeyedTable.Table.updateWhere` — the rows that pass a test are
  deleted or changed.
* `KeyedTable.atomically` — a transaction.

## Main results

* `KeyedTable.Table.insertAll?_eq_some_iff` — when a list of rows is inserted, and what it leaves.
* `KeyedTable.Table.eq_of_key_eq`, `KeyedTable.filter_eq_singleton` — a key determines its row.
-/

namespace KeyedTable

variable {ρ κ ε σ : Type*}

/-- The elements of a list with distinct keys that have the key of an element are that element. -/
lemma filter_eq_singleton [DecidableEq κ] {g : ρ → κ} {l : List ρ} (hl : (l.map g).Nodup) {x : ρ}
    (hx : x ∈ l) : l.filter (fun y => g y = g x) = [x] := by
  induction l with
  | nil => cases hx
  | cons y l ih =>
    rw [List.map_cons, List.nodup_cons] at hl
    rcases List.mem_cons.mp hx with rfl | hx
    · rw [List.filter_cons_of_pos (by simp), List.filter_eq_nil_iff.mpr]
      intro z hz
      rw [decide_eq_true_eq]
      intro hkey
      exact hl.1 (hkey ▸ List.mem_map_of_mem hz)
    · have hne : g y ≠ g x := fun hkey => hl.1 (hkey ▸ List.mem_map_of_mem hx)
      rw [List.filter_cons_of_neg (by simpa using hne), ih hl.2 hx]

/-- The search by a key finds the element that has it. -/
lemma find?_key_eq_some_iff [DecidableEq κ] {g : ρ → κ} {l : List ρ} (hl : (l.map g).Nodup) {k : κ}
    {x : ρ} : l.find? (fun y => g y = k) = some x ↔ x ∈ l ∧ g x = k := by
  constructor
  · intro h
    exact ⟨List.mem_of_find?_eq_some h, by simpa using List.find?_some h⟩
  · rintro ⟨hx, rfl⟩
    rw [← List.head?_filter, filter_eq_singleton hl hx, List.head?_cons]

/-- A table with a primary key. -/
structure Table (key : ρ → κ) where
  /-- The rows. -/
  rows : List ρ
  nodup : (rows.map key).Nodup

namespace Table

variable {key : ρ → κ}

/-- Tables with the same rows are the same. -/
@[ext] lemma ext {t t' : Table key} (h : t.rows = t'.rows) : t = t' := by
  cases t; cases t'; cases h; rfl

/-- The keys of the rows. -/
def keys (t : Table key) : List κ := t.rows.map key

/-- The table without rows. -/
def empty : Table key := ⟨[], List.nodup_nil⟩

/-- A key determines its row. -/
lemma eq_of_key_eq (t : Table key) {row row' : ρ} (h : row ∈ t.rows) (h' : row' ∈ t.rows)
    (hkey : key row = key row') : row = row' :=
  List.inj_on_of_nodup_map t.nodup h h' hkey

/-! ## Deletion and update -/

/-- `DELETE` of the rows that pass a test. -/
def deleteWhere (t : Table key) (p : ρ → Bool) : Table key where
  rows := t.rows.filter fun row => !p row
  nodup := (List.filter_sublist.map key).nodup t.nodup

/-- A deletion leaves the other rows. -/
@[simp] lemma rows_deleteWhere (t : Table key) (p : ρ → Bool) :
    (t.deleteWhere p).rows = t.rows.filter fun row => !p row := rfl

/-- `UPDATE` of the rows that pass a test, which leaves their keys alone. -/
def updateWhere (t : Table key) (p : ρ → Bool) (f : ρ → ρ) (hf : ∀ row, key (f row) = key row) :
    Table key where
  rows := t.rows.map fun row => if p row then f row else row
  nodup := by
    have hkeys : (t.rows.map fun row => if p row then f row else row).map key = t.rows.map key := by
      rw [List.map_map]
      refine List.map_congr_left fun row _ => ?_
      rw [Function.comp_apply]
      split_ifs
      · exact hf row
      · rfl
    rw [hkeys]
    exact t.nodup

/-- An update changes the selected rows. -/
@[simp] lemma rows_updateWhere (t : Table key) (p : ρ → Bool) (f : ρ → ρ)
    (hf : ∀ row, key (f row) = key row) :
    (t.updateWhere p f hf).rows = t.rows.map fun row => if p row then f row else row := rfl

/-- What an update does not change is the same for all rows. -/
lemma map_rows_updateWhere {α : Type*} (t : Table key) (p : ρ → Bool) (f : ρ → ρ)
    (hf : ∀ row, key (f row) = key row) {g : ρ → α} (hg : ∀ row, g (f row) = g row) :
    (t.updateWhere p f hf).rows.map g = t.rows.map g := by
  rw [rows_updateWhere, List.map_map]
  refine List.map_congr_left fun row _ => ?_
  rw [Function.comp_apply]
  split_ifs
  · exact hg row
  · rfl

/-! ## Insertion -/

variable [DecidableEq κ]

/-- `INSERT` of one row, refused when its key is taken or the row violates a constraint. -/
def insert? (valid : ρ → Bool) (t : Table key) (row : ρ) : Option (Table key) :=
  if h : valid row = true ∧ key row ∉ t.keys then
    some ⟨t.rows ++ [row], by
      rw [List.map_append]
      exact t.nodup.append (List.nodup_singleton _) (by simpa [keys] using h.2)⟩
  else none

/-- `INSERT` of a list of rows. -/
def insertAll? (valid : ρ → Bool) (t : Table key) (l : List ρ) : Option (Table key) :=
  l.foldlM (insert? valid) t

/-- A valid row with a new key can be inserted, and comes last. -/
lemma insert?_eq_some_iff {valid : ρ → Bool} {t t' : Table key} {row : ρ} :
    t.insert? valid row = some t' ↔
      (valid row = true ∧ key row ∉ t.keys) ∧ t'.rows = t.rows ++ [row] := by
  unfold insert?
  split_ifs with h
  · rw [Option.some.injEq, and_iff_right h]
    exact ⟨fun heq => by rw [← heq], fun hrows => (ext hrows).symm⟩
  · exact iff_of_false (by simp) fun hvalid => h hvalid.1

/-- **Insertion of a list of rows.** The rows are inserted when they meet the constraint, their keys
are distinct and none of them is taken; they then stand behind the others. -/
theorem insertAll?_eq_some_iff {valid : ρ → Bool} {t t' : Table key} {l : List ρ} :
    t.insertAll? valid l = some t' ↔
      ((∀ row ∈ l, valid row = true) ∧ (l.map key).Nodup ∧ ∀ row ∈ l, key row ∉ t.keys) ∧
        t'.rows = t.rows ++ l := by
  induction l generalizing t with
  | nil =>
    rw [List.append_nil]
    exact ⟨fun h => ⟨by simp, by cases h; rfl⟩, fun h => congrArg some (ext h.2.symm)⟩
  | cons row l ih =>
    unfold insertAll?
    rw [List.foldlM_cons, Option.bind_eq_bind, Option.bind_eq_some_iff]
    constructor
    · rintro ⟨mid, hmid, hrest⟩
      obtain ⟨⟨hvalid, hnew⟩, hrows⟩ := insert?_eq_some_iff.mp hmid
      obtain ⟨⟨hvalids, hnodup, hdisjoint⟩, hrows'⟩ := ih.mp hrest
      have hkeys : mid.keys = t.keys ++ [key row] := by
        rw [keys, hrows, List.map_append]
        rfl
      rw [hkeys] at hdisjoint
      refine ⟨⟨List.forall_mem_cons.mpr ⟨hvalid, hvalids⟩, ?_, ?_⟩, ?_⟩
      · rw [List.map_cons, List.nodup_cons, List.mem_map]
        refine ⟨?_, hnodup⟩
        rintro ⟨other, hother, hkey⟩
        exact hdisjoint other hother (by simp [hkey])
      · refine List.forall_mem_cons.mpr ⟨hnew, fun other hother hmem => ?_⟩
        exact hdisjoint other hother (List.mem_append_left _ hmem)
      · rw [hrows', hrows, List.append_assoc, List.singleton_append]
    · rintro ⟨⟨hvalids, hnodup, hdisjoint⟩, hrows⟩
      obtain ⟨hvalid, hvalids⟩ := List.forall_mem_cons.mp hvalids
      obtain ⟨hnew, hdisjoint⟩ := List.forall_mem_cons.mp hdisjoint
      rw [List.map_cons, List.nodup_cons] at hnodup
      obtain ⟨mid, hmid⟩ : ∃ mid, t.insert? valid row = some mid :=
        ⟨_, dif_pos ⟨hvalid, hnew⟩⟩
      have hmidrows := (insert?_eq_some_iff.mp hmid).2
      have hkeys : mid.keys = t.keys ++ [key row] := by
        rw [keys, hmidrows, List.map_append]
        rfl
      refine ⟨mid, hmid, ih.mpr ⟨⟨hvalids, hnodup.2, fun other hother => ?_⟩, ?_⟩⟩
      · rw [hkeys, List.mem_append, List.mem_singleton, not_or]
        exact ⟨hdisjoint other hother,
          fun hkey => hnodup.1 (hkey ▸ List.mem_map_of_mem hother)⟩
      · rw [hrows, hmidrows, List.append_assoc, List.singleton_append]

/-- A list of rows is refused when one of them violates the constraint, or a key is taken or occurs
twice. -/
lemma insertAll?_eq_none_iff {valid : ρ → Bool} {t : Table key} {l : List ρ} :
    t.insertAll? valid l = none ↔
      ¬ ((∀ row ∈ l, valid row = true) ∧ (l.map key).Nodup ∧ ∀ row ∈ l, key row ∉ t.keys) := by
  constructor
  · rintro hnone ⟨hvalid, hnodup, hnew⟩
    have hrows : ((t.rows ++ l).map key).Nodup := by
      rw [List.map_append]
      refine t.nodup.append hnodup fun k hold hk => ?_
      obtain ⟨row, hrow, rfl⟩ := List.mem_map.mp hk
      exact hnew row hrow hold
    have hsome : t.insertAll? valid l = some ⟨t.rows ++ l, hrows⟩ :=
      insertAll?_eq_some_iff.mpr ⟨⟨hvalid, hnodup, hnew⟩, rfl⟩
    rw [hnone] at hsome
    cases hsome
  · intro hnot
    cases hinsert : t.insertAll? valid l with
    | none => rfl
    | some t' => exact absurd (insertAll?_eq_some_iff.mp hinsert).1 hnot

end Table

/-! ## Transactions -/

/-- A transaction: the statements are committed when all of them succeed, and taken back when one
fails. -/
def atomically (body : σ → Except ε σ) (s : σ) : Except ε Unit × σ :=
  match body s with
  | .ok s' => (.ok (), s')
  | .error e => (.error e, s)

/-- A transaction that succeeds is carried out. -/
lemma atomically_of_ok {body : σ → Except ε σ} {s s' : σ} (h : body s = .ok s') :
    atomically body s = (.ok (), s') := by
  rw [atomically, h]

/-- A transaction that fails is taken back. -/
lemma atomically_of_error {body : σ → Except ε σ} {s : σ} {e : ε} (h : body s = .error e) :
    atomically body s = (.error e, s) := by
  rw [atomically, h]

end KeyedTable
