import Mathlib.Data.List.Nodup
import Mathlib.Tactic

set_option relaxedAutoImplicit false
set_option autoImplicit false

/-!
# Frames of named columns

A frame is a list of named columns. A reference to a column is resolved by comparing names through a
key, as an engine does that ignores letter case, and fails when there is no such column or more than
one. Columns are replaced one after the other, or renamed one after the other. The text of a
reference need not be the name it refers to, as where an engine reads quotes in it.

## Main definitions

* `Frames.Frame` — a list of named columns.
* `Frames.column?` — the column that a reference resolves to.
* `Frames.withColumn`, `Frames.update` — the replacement of a column, and by a function of itself.
* `Frames.updateAll` — the replacement of several columns in turn.
* `Frames.updateAllFrom`, `Frames.RefersToItself` — the same where a reference is read first, and
  the names that are read as themselves.
* `Frames.rename`, `Frames.renameAll` — a new name for a column, and for several in turn.

## Main results

* `Frames.updateAll_filter` — some of the distinct columns are replaced, each by its function.
* `Frames.distinct_of_updateAll` — a run of replacements meets no repeated column.
* `Frames.weight_updateAll` — each replacement adds its weight.
* `Frames.refersToItself_of_faithful` — when every column ends up made of its own, every name was
  read as itself.
* `Frames.nodup_renameAll_iff` — when a run of renamings keeps the columns distinct.
-/

namespace Frames

variable {N K X : Type*}

/-- A list of named columns. -/
abbrev Frame (N X : Type*) := List (N × X)

variable [DecidableEq K] (key : N → K)

/-- The column that a name refers to, when there is exactly one. -/
def column? (frame : Frame N X) (name : N) : Option X :=
  match frame.filter fun column => key column.1 = key name with
  | [column] => some column.2
  | _ => none

/-- Replace the columns of a name, or append a column. -/
def withColumn (frame : Frame N X) (name : N) (x : X) : Frame N X :=
  if ∃ column ∈ frame, key column.1 = key name then
    frame.map fun column => if key column.1 = key name then (name, x) else column
  else frame ++ [(name, x)]

/-- Replace a column by a function of itself. -/
def update (frame : Frame N X) (name : N) (f : X → X) : Option (Frame N X) :=
  (column? key frame name).map fun x => withColumn key frame name (f x)

/-- Replace several columns, one after the other. -/
def updateAll (frame : Frame N X) : List (N × (X → X)) → Option (Frame N X)
  | [] => some frame
  | (name, f) :: rest => (update key frame name f).bind fun frame => updateAll frame rest

/-- Replace a column by a function of the one that its name refers to. -/
def updateFrom (refer : N → Option N) (frame : Frame N X) (name : N) (f : X → X) :
    Option (Frame N X) :=
  (refer name).bind fun referred =>
    (column? key frame referred).map fun x => withColumn key frame name (f x)

/-- Replace several columns, one after the other, each by a function of the one that its name refers
to. -/
def updateAllFrom (refer : N → Option N) (frame : Frame N X) :
    List (N × (X → X)) → Option (Frame N X)
  | [] => some frame
  | (name, f) :: rest =>
    (updateFrom key refer frame name f).bind fun frame => updateAllFrom refer frame rest

/-- A name is read as a reference to itself. -/
def RefersToItself (refer : N → Option N) (name : N) : Prop :=
  ∃ referred, refer name = some referred ∧ key referred = key name

/-- Every column is made of one of its name. -/
def Faithful (tag : X → N) (frame : Frame N X) : Prop :=
  ∀ column ∈ frame, key (tag column.2) = key column.1

/-- Give the columns of a name a new name. -/
def rename (frame : Frame N X) (name newName : N) : Frame N X :=
  frame.map fun column => if key column.1 = key name then (newName, column.2) else column

/-- Give several names new ones, one after the other. -/
def renameAll (frame : Frame N X) (renames : List (N × N)) : Frame N X :=
  renames.foldl (fun frame r => rename key frame r.1 r.2) frame

/-- The keys of the columns. -/
def keys (frame : Frame N X) : List K := frame.map fun column => key column.1

section Update

variable {key} {frame frame' : Frame N X} {name : N} {f : X → X}

/-- A name that no column has finds none. -/
lemma filter_key_eq_nil {l : Frame N X} (h : ∀ column ∈ l, key column.1 ≠ key name) :
    (l.filter fun column => key column.1 = key name) = [] :=
  List.filter_eq_nil_iff.mpr fun column hmem => by simpa using h column hmem

/-- A reference resolves to the only column of its name. -/
lemma column?_eq_some_iff {x : X} : column? key frame name = some x ↔
    ∃ front n back, frame = front ++ (n, x) :: back ∧ key n = key name ∧
      ∀ other ∈ front ++ back, key other.1 ≠ key name := by
  unfold column?
  constructor
  · intro h
    split at h
    · rename_i column hfilter
      obtain ⟨front, back, rfl, hfront, hkey, hback⟩ := List.filter_eq_cons_iff.mp hfilter
      have hback := List.filter_eq_nil_iff.mp hback
      cases h
      refine ⟨front, column.1, back, rfl, by simpa using hkey, fun other hmem => ?_⟩
      rcases List.mem_append.mp hmem with hmem | hmem
      · simpa using hfront other hmem
      · simpa using hback other hmem
    · cases h
  · rintro ⟨front, n, back, rfl, hkey, hne⟩
    rw [List.filter_append, List.filter_cons_of_pos (by simpa using hkey),
      filter_key_eq_nil fun other hmem => hne other (List.mem_append_left _ hmem),
      filter_key_eq_nil fun other hmem => hne other (List.mem_append_right _ hmem), List.nil_append]

/-- Among distinct columns every reference to one of them resolves. -/
lemma column?_of_mem {x : X} (h : (keys key frame).Nodup) (hmem : (name, x) ∈ frame) :
    column? key frame name = some x := by
  obtain ⟨front, back, rfl⟩ := List.append_of_mem hmem
  rw [keys, List.map_append, List.map_cons, List.nodup_middle, List.nodup_cons, ← List.map_append]
    at h
  refine column?_eq_some_iff.mpr ⟨front, name, back, rfl, rfl, fun other hother heq => h.1 ?_⟩
  rw [← heq]
  exact List.mem_map_of_mem hother

/-- What a replacement needs, and what it does. -/
lemma update_eq_some_iff : update key frame name f = some frame' ↔
    ∃ front column back, frame = front ++ column :: back ∧ key column.1 = key name ∧
      (∀ other ∈ front ++ back, key other.1 ≠ key name) ∧
        frame' = front ++ (name, f column.2) :: back := by
  have hother : ∀ l : Frame N X, (∀ other ∈ l, key other.1 ≠ key name) → ∀ x : X,
      (l.map fun column => if key column.1 = key name then (name, x) else column) = l := by
    intro l hl x
    rw [List.map_congr_left fun other hmem => if_neg (hl other hmem), List.map_id']
  have hwith : ∀ front column back, key column.1 = key name →
      (∀ other ∈ front ++ back, key other.1 ≠ key name) → ∀ x : X,
        withColumn key (front ++ column :: back) name x = front ++ (name, x) :: back := by
    intro front column back hkey hne x
    have hexists : ∃ c ∈ front ++ column :: back, key c.1 = key name :=
      ⟨column, List.mem_append_right _ List.mem_cons_self, hkey⟩
    rw [withColumn, if_pos hexists, List.map_append, List.map_cons, if_pos hkey,
      hother front fun other hmem => hne other (List.mem_append_left _ hmem),
      hother back fun other hmem => hne other (List.mem_append_right _ hmem)]
  unfold update
  rw [Option.map_eq_some_iff]
  constructor
  · rintro ⟨x, hx, rfl⟩
    obtain ⟨front, n, back, rfl, hkey, hne⟩ := column?_eq_some_iff.mp hx
    exact ⟨front, (n, x), back, rfl, hkey, hne, hwith front (n, x) back hkey hne _⟩
  · rintro ⟨front, column, back, rfl, hkey, hne, rfl⟩
    exact ⟨column.2, column?_eq_some_iff.mpr ⟨front, column.1, back, rfl, hkey, hne⟩,
      hwith front column back hkey hne _⟩

/-- An update keeps the names. -/
lemma keys_update (h : update key frame name f = some frame') :
    keys key frame' = keys key frame := by
  obtain ⟨front, column, back, rfl, hkey, -, rfl⟩ := update_eq_some_iff.mp h
  simp [keys, hkey]

/-- A replaced column is not repeated. -/
lemma count_keys_of_update (h : update key frame name f = some frame') :
    (keys key frame).count (key name) = 1 := by
  obtain ⟨front, column, back, rfl, hkey, hne, -⟩ := update_eq_some_iff.mp h
  have hcount : ∀ l : Frame N X, (∀ other ∈ l, key other.1 ≠ key name) →
      (l.map fun column => key column.1).count (key name) = 0 := by
    intro l hl
    rw [List.count_eq_zero]
    intro hmem
    obtain ⟨other, hother, heq⟩ := List.mem_map.mp hmem
    exact hl other hother heq
  rw [keys, List.map_append, List.map_cons, List.count_append, hkey, List.count_cons_self,
    hcount front fun other hmem => hne other (List.mem_append_left _ hmem),
    hcount back fun other hmem => hne other (List.mem_append_right _ hmem)]

end Update

/-! ## Several columns -/

section UpdateAll

variable {key} {frame frame' : Frame N X}

/-- Updates in a row keep the names. -/
lemma keys_updateAll {updates : List (N × (X → X))}
    (h : updateAll key frame updates = some frame') : keys key frame' = keys key frame := by
  induction updates generalizing frame with
  | nil =>
    cases h
    rfl
  | cons u updates ih =>
    obtain ⟨middle, hmiddle, hrest⟩ := Option.bind_eq_some_iff.mp h
    rw [ih hrest, keys_update hmiddle]

/-- A run of replacements meets every replaced column exactly once in the frame. -/
lemma count_keys_of_updateAll {updates : List (N × (X → X))}
    (h : updateAll key frame updates = some frame') {u : N × (X → X)} (hu : u ∈ updates) :
    (keys key frame).count (key u.1) = 1 := by
  induction updates generalizing frame with
  | nil => exact absurd hu List.not_mem_nil
  | cons v updates ih =>
    obtain ⟨middle, hmiddle, hrest⟩ := Option.bind_eq_some_iff.mp h
    rcases List.mem_cons.mp hu with rfl | hu
    · exact count_keys_of_update hmiddle
    · rw [← keys_update hmiddle]
      exact ih hrest hu

/-- When every column of the frame is replaced in a run, the columns are distinct. -/
lemma distinct_of_updateAll {updates : List (N × (X → X))}
    (h : updateAll key frame updates = some frame')
    (hall : ∀ k ∈ keys key frame, ∃ u ∈ updates, key u.1 = k) : (keys key frame).Nodup := by
  rw [List.nodup_iff_count_eq_one]
  intro k hk
  obtain ⟨u, hu, rfl⟩ := hall k hk
  exact count_keys_of_updateAll h hu

/-- A weight to which each replacement adds the same counts the replacements. -/
lemma weight_updateAll {weight : X → ℕ} {n : ℕ} {updates : List (N × (X → X))}
    (hweight : ∀ u ∈ updates, ∀ x, weight (u.2 x) = weight x + n)
    (h : updateAll key frame updates = some frame') :
    (frame'.map fun column => weight column.2).sum =
      (frame.map fun column => weight column.2).sum + updates.length * n := by
  induction updates generalizing frame with
  | nil =>
    cases h
    rw [List.length_nil, Nat.zero_mul, Nat.add_zero]
  | cons u updates ih =>
    rw [List.forall_mem_cons] at hweight
    obtain ⟨middle, hmiddle, hrest⟩ := Option.bind_eq_some_iff.mp h
    obtain ⟨front, column, back, rfl, -, -, rfl⟩ := update_eq_some_iff.mp hmiddle
    rw [ih hweight.2 hrest]
    simp only [List.map_append, List.map_cons, List.sum_append, List.sum_cons, List.length_cons,
      hweight.1, Nat.succ_mul]
    omega

/-- Some of the distinct columns behind others are replaced, each by its function. -/
lemma updateAll_append_filter {β : Type*} (name : β → N) (x : β → X) (f : β → X → X) (p : β → Bool)
    (front : Frame N X) (l : List β)
    (h : (keys key (front ++ l.map fun b => (name b, x b))).Nodup) :
    updateAll key (front ++ l.map fun b => (name b, x b))
        ((l.filter p).map fun b => (name b, f b)) =
      some (front ++ l.map fun b => (name b, if p b then f b (x b) else x b)) := by
  induction l generalizing front with
  | nil => rfl
  | cons b l ih =>
    have hkeys (y : X) : keys key ((front ++ [(name b, y)]) ++ l.map fun b => (name b, x b)) =
        keys key (front ++ (b :: l).map fun b => (name b, x b)) := by
      simp [keys]
    cases hp : p b with
    | false =>
      have hih := ih (front ++ [(name b, x b)]) (by rw [hkeys]; exact h)
      rw [List.filter_cons_of_neg (by simp [hp]), List.map_cons, List.append_cons, hih,
        List.map_cons, hp, if_neg Bool.false_ne_true, List.append_assoc, List.singleton_append]
    | true =>
      have hmiddle : keys key (front ++ (b :: l).map fun b => (name b, x b)) =
          keys key front ++ key (name b) :: keys key (l.map fun b => (name b, x b)) := by
        simp [keys]
      have hne : ∀ other ∈ front ++ l.map fun b => (name b, x b), key other.1 ≠ key (name b) := by
        rw [hmiddle, List.nodup_middle, List.nodup_cons] at h
        intro other hmem heq
        refine h.1 ?_
        rw [← heq, keys, keys, ← List.map_append]
        exact List.mem_map_of_mem hmem
      have hupdate : update key (front ++ (b :: l).map fun b => (name b, x b)) (name b) (f b) =
          some ((front ++ [(name b, f b (x b))]) ++ l.map fun b => (name b, x b)) :=
        update_eq_some_iff.mpr ⟨front, (name b, x b), _, rfl, rfl, hne, by simp⟩
      rw [List.filter_cons_of_pos hp]
      change (update key (front ++ (b :: l).map fun b => (name b, x b)) (name b) (f b)).bind
        (fun frame => updateAll key frame ((l.filter p).map fun b => (name b, f b))) = _
      rw [hupdate, Option.bind_some, ih _ (by rw [hkeys]; exact h), List.map_cons, hp, if_pos rfl,
        List.append_assoc, List.singleton_append]

/-- Some distinct columns are replaced, each by its function. -/
theorem updateAll_filter {β : Type*} {name : β → N} {x : β → X} {f : β → X → X} {p : β → Bool}
    {l : List β} (h : (l.map fun b => key (name b)).Nodup) :
    updateAll key (l.map fun b => (name b, x b)) ((l.filter p).map fun b => (name b, f b)) =
      some (l.map fun b => (name b, if p b then f b (x b) else x b)) := by
  refine updateAll_append_filter name x f p [] l ?_
  rw [List.nil_append, keys, List.map_map]
  exact h

/-- Distinct columns are replaced, each by its function. -/
theorem updateAll_map {β : Type*} {name : β → N} {x : β → X} {f : β → X → X} {l : List β}
    (h : (l.map fun b => key (name b)).Nodup) :
    updateAll key (l.map fun b => (name b, x b)) (l.map fun b => (name b, f b)) =
      some (l.map fun b => (name b, f b (x b))) := by
  have hfilter := @updateAll_filter N K X _ key β name x f (fun _ => true) l h
  simp only [List.filter_true, if_true] at hfilter
  exact hfilter

end UpdateAll

/-! ## References -/

section Refer

variable {key} {refer : N → Option N} {frame frame' : Frame N X} {tag : X → N}

/-- References to names that compare equal resolve alike. -/
lemma column?_congr {name name' : N} (h : key name = key name') :
    column? key frame name = column? key frame name' := by
  unfold column?
  rw [h]

/-- A name that is read as itself is replaced by a function of itself. -/
lemma updateFrom_eq {name : N} (f : X → X) (h : RefersToItself key refer name) :
    updateFrom key refer frame name f = update key frame name f := by
  obtain ⟨referred, hrefer, hkey⟩ := h
  rw [updateFrom, hrefer, Option.bind_some, column?_congr hkey]
  rfl

/-- Names that are read as themselves are replaced by functions of themselves. -/
lemma updateAllFrom_eq {updates : List (N × (X → X))}
    (h : ∀ u ∈ updates, RefersToItself key refer u.1) :
    updateAllFrom key refer frame updates = updateAll key frame updates := by
  induction updates generalizing frame with
  | nil => rfl
  | cons u updates ih =>
    rw [List.forall_mem_cons] at h
    rw [updateAllFrom, updateFrom_eq _ h.1]
    exact congrArg _ (funext fun middle => ih h.2)

/-- The new column is there. -/
lemma mem_withColumn_self (frame : Frame N X) (name : N) (x : X) :
    (name, x) ∈ withColumn key frame name x := by
  unfold withColumn
  split_ifs with hexists
  · obtain ⟨column, hcolumn, hkey⟩ := hexists
    exact List.mem_map.mpr ⟨column, hcolumn, if_pos hkey⟩
  · exact List.mem_append_right _ (List.mem_singleton_self _)

/-- The columns of other names stay. -/
lemma mem_withColumn_of_ne {name : N} (x : X) {column : N × X} (hcolumn : column ∈ frame)
    (hne : key column.1 ≠ key name) : column ∈ withColumn key frame name x := by
  unfold withColumn
  split_ifs
  · exact List.mem_map.mpr ⟨column, hcolumn, if_neg hne⟩
  · exact List.mem_append_left _ hcolumn

/-- When the columns behind a replacement are made of their own, its name was read as itself, and
the columns before it were made of their own. -/
lemma refersToItself_of_updateFrom {name : N} {f : X → X} (htag : ∀ x, tag (f x) = tag x)
    (h : updateFrom key refer frame name f = some frame') (hfaithful : Faithful key tag frame') :
    Faithful key tag frame ∧ RefersToItself key refer name := by
  obtain ⟨referred, hrefer, hcolumn⟩ := Option.bind_eq_some_iff.mp h
  obtain ⟨x, hx, rfl⟩ := Option.map_eq_some_iff.mp hcolumn
  obtain ⟨front, n, back, hframe, hkey, -⟩ := column?_eq_some_iff.mp hx
  have hnew := hfaithful _ (mem_withColumn_self frame name (f x))
  rw [htag] at hnew
  -- a column that was copied elsewhere would still be made of its own
  have hself : key referred = key name := by
    by_contra hne
    have hmem : (n, x) ∈ frame := hframe ▸ List.mem_append_right _ List.mem_cons_self
    have hkept := hfaithful _ (mem_withColumn_of_ne (f x) hmem (hkey.trans_ne hne))
    exact hne (hkey.symm.trans (hkept.symm.trans hnew))
  refine ⟨?_, referred, hrefer, hself⟩
  have hupdate : update key frame name f = some (withColumn key frame name (f x)) := by
    rw [update, ← column?_congr hself, hx]
    rfl
  obtain ⟨front, column, back, rfl, hcolumn, -, hframe'⟩ := update_eq_some_iff.mp hupdate
  rw [hframe'] at hfaithful
  intro other hother
  rcases List.mem_append.mp hother with hother | hother
  · exact hfaithful other (List.mem_append_left _ hother)
  · rcases List.mem_cons.mp hother with rfl | hother
    · have hown := hfaithful (name, f other.2) (List.mem_append_right _ List.mem_cons_self)
      rw [htag] at hown
      exact hown.trans hcolumn.symm
    · exact hfaithful other (List.mem_append_right _ (List.mem_cons_of_mem _ hother))

/-- When every column ends up made of its own, every name was read as itself.

**Proof sketch.** Backwards over the replacements: the last name that was read as another would
leave two columns made of one. -/
theorem refersToItself_of_faithful {updates : List (N × (X → X))}
    (htag : ∀ u ∈ updates, ∀ x, tag (u.2 x) = tag x)
    (h : updateAllFrom key refer frame updates = some frame')
    (hfaithful : Faithful key tag frame') :
    Faithful key tag frame ∧ ∀ u ∈ updates, RefersToItself key refer u.1 := by
  induction updates generalizing frame with
  | nil =>
    cases h
    exact ⟨hfaithful, fun u hu => absurd hu List.not_mem_nil⟩
  | cons u updates ih =>
    rw [List.forall_mem_cons] at htag
    obtain ⟨middle, hmiddle, hrest⟩ := Option.bind_eq_some_iff.mp h
    obtain ⟨hmiddleFaithful, hothers⟩ := ih htag.2 hrest
    obtain ⟨hframe, hself⟩ := refersToItself_of_updateFrom htag.1 hmiddle hmiddleFaithful
    exact ⟨hframe, List.forall_mem_cons.mpr ⟨hself, hothers⟩⟩

end Refer

/-! ## Renaming -/

section Rename

variable {key} {frame : Frame N X}

/-- A renaming replaces the names that compare equal. -/
lemma map_fst_rename (name newName : N) : (rename key frame name newName).map Prod.fst =
    (frame.map Prod.fst).map fun n => if key n = key name then newName else n := by
  rw [rename, List.map_map, List.map_map]
  refine List.map_congr_left fun column _ => ?_
  rw [Function.comp_apply, Function.comp_apply]
  split_ifs <;> rfl

/-- Columns of the same name keep having the same name. -/
lemma nodup_of_renameAll {renames : List (N × N)}
    (h : ((renameAll key frame renames).map Prod.fst).Nodup) : (frame.map Prod.fst).Nodup := by
  induction renames generalizing frame with
  | nil => exact h
  | cons r renames ih =>
    have hstep := @ih (rename key frame r.1 r.2) h
    rw [map_fst_rename] at hstep
    exact hstep.of_map

/-- A name that no column has is renamed without effect. -/
lemma rename_of_forall_ne {name newName : N} (h : ∀ column ∈ frame, key column.1 ≠ key name) :
    rename key frame name newName = frame := by
  rw [rename, List.map_congr_left fun column hcolumn => if_neg (h column hcolumn), List.map_id']

/-- The first of the columns still to be renamed gets its name. -/
lemma rename_append_cons {front back : Frame N X} {column : N × X} {newName : N}
    (hfront : ∀ other ∈ front, key other.1 ≠ key column.1)
    (hback : ∀ other ∈ back, key other.1 ≠ key column.1) :
    rename key (front ++ column :: back) column.1 newName =
      front ++ (newName, column.2) :: back := by
  have happend : rename key (front ++ column :: back) column.1 newName =
      rename key front column.1 newName ++ (newName, column.2) ::
        rename key back column.1 newName := by
    simp [rename]
  rw [happend, rename_of_forall_ne hfront, rename_of_forall_ne hback]

variable {β : Type*} (name newName : β → N) (x : β → X)

/-- The columns behind some others get their new names, when no name on the way is that of a column
still to be renamed. -/
lemma renameAll_append_map (front : Frame N X) (l : List β)
    (hdistinct : (l.map fun b => key (name b)).Nodup)
    (hfront : ∀ column ∈ front, ∀ b ∈ l, key column.1 ≠ key (name b))
    (hfree : l.Pairwise fun b b' => key (newName b) ≠ key (name b')) :
    renameAll key (front ++ l.map fun b => (name b, x b)) (l.map fun b => (name b, newName b)) =
      front ++ l.map fun b => (newName b, x b) := by
  induction l generalizing front with
  | nil => rfl
  | cons b l ih =>
    rw [List.map_cons, List.nodup_cons] at hdistinct
    rw [List.pairwise_cons] at hfree
    have hback : ∀ column ∈ l.map fun b => (name b, x b), key column.1 ≠ key (name b) := by
      intro column hcolumn heq
      obtain ⟨b', hb', rfl⟩ := List.mem_map.mp hcolumn
      exact hdistinct.1 (heq ▸ List.mem_map_of_mem hb')
    have hstep : rename key (front ++ (b :: l).map fun b => (name b, x b)) (name b) (newName b) =
        front ++ (newName b, x b) :: l.map fun b => (name b, x b) :=
      rename_append_cons (fun column hcolumn => hfront column hcolumn b List.mem_cons_self) hback
    change renameAll key (rename key (front ++ (b :: l).map fun b => (name b, x b)) (name b)
      (newName b)) (l.map fun b => (name b, newName b)) = _
    rw [hstep, List.append_cons, ih _ hdistinct.2 ?_ hfree.2, List.map_cons, List.append_assoc,
      List.singleton_append]
    intro column hcolumn b' hb'
    rcases List.mem_append.mp hcolumn with hcolumn | hcolumn
    · exact hfront column hcolumn b' (List.mem_cons_of_mem _ hb')
    · rw [List.mem_singleton.mp hcolumn]
      exact hfree.1 b' hb'

/-- When the renamed columns are distinct, no new name was that of a column still to be renamed. -/
lemma free_of_nodup_renameAll (front : Frame N X) (l : List β)
    (hdistinct : (l.map fun b => key (name b)).Nodup)
    (h : ((renameAll key (front ++ l.map fun b => (name b, x b))
      (l.map fun b => (name b, newName b))).map Prod.fst).Nodup) :
    (∀ column ∈ front, ∀ b ∈ l, key column.1 ≠ key (name b)) ∧
      l.Pairwise fun b b' => key (newName b) ≠ key (name b') := by
  induction l generalizing front with
  | nil => exact ⟨fun _ _ b hb => absurd hb List.not_mem_nil, List.Pairwise.nil⟩
  | cons b l ih =>
    rw [List.map_cons, List.nodup_cons] at hdistinct
    have hback : ∀ column ∈ l.map fun b => (name b, x b), key column.1 ≠ key (name b) := by
      intro column hcolumn heq
      obtain ⟨b', hb', rfl⟩ := List.mem_map.mp hcolumn
      exact hdistinct.1 (heq ▸ List.mem_map_of_mem hb')
    change ((renameAll key (rename key (front ++ (b :: l).map fun b => (name b, x b)) (name b)
      (newName b)) (l.map fun b => (name b, newName b))).map Prod.fst).Nodup at h
    -- a column in front with the name of this one would get the same new name
    have hfront : ∀ column ∈ front, key column.1 ≠ key (name b) := by
      intro column hcolumn heq
      have hnodup := nodup_of_renameAll h
      rw [map_fst_rename, List.map_append, List.map_append, List.nodup_append] at hnodup
      refine hnodup.2.2 (newName b) ?_ (newName b) ?_ rfl
      · exact List.mem_map.mpr ⟨column.1, List.mem_map_of_mem hcolumn, if_pos heq⟩
      · exact List.mem_map.mpr ⟨name b, by simp, if_pos rfl⟩
    have hstep : rename key (front ++ (b :: l).map fun b => (name b, x b)) (name b) (newName b) =
        front ++ (newName b, x b) :: l.map fun b => (name b, x b) :=
      rename_append_cons hfront hback
    rw [hstep, List.append_cons] at h
    obtain ⟨hnew, hfree⟩ := ih _ hdistinct.2 h
    refine ⟨fun column hcolumn b' hb' => ?_, List.pairwise_cons.mpr ⟨fun b' hb' => ?_, hfree⟩⟩
    · rcases List.mem_cons.mp hb' with rfl | hb'
      · exact hfront column hcolumn
      · exact hnew column (List.mem_append_left _ hcolumn) b' hb'
    · exact hnew (newName b, x b) (List.mem_append_right _ (List.mem_singleton_self _)) b' hb'

variable {name newName x} {l : List β}

/-- Distinct columns get their new names when no new name is that of a later column. -/
theorem renameAll_map (hdistinct : (l.map fun b => key (name b)).Nodup)
    (hfree : l.Pairwise fun b b' => key (newName b) ≠ key (name b')) :
    renameAll key (l.map fun b => (name b, x b)) (l.map fun b => (name b, newName b)) =
      l.map fun b => (newName b, x b) :=
  renameAll_append_map name newName x [] l hdistinct
    (fun _ hcolumn => absurd hcolumn List.not_mem_nil) hfree

/-- Distinct columns are distinct after a run of renamings exactly when the new names are, and no
new name is that of a later column. -/
theorem nodup_renameAll_iff (hdistinct : (l.map fun b => key (name b)).Nodup) :
    ((renameAll key (l.map fun b => (name b, x b)) (l.map fun b => (name b, newName b))).map
        Prod.fst).Nodup ↔
      (l.Pairwise fun b b' => key (newName b) ≠ key (name b')) ∧ (l.map newName).Nodup := by
  have hnames (hfree : l.Pairwise fun b b' => key (newName b) ≠ key (name b')) :
      (renameAll key (l.map fun b => (name b, x b)) (l.map fun b => (name b, newName b))).map
        Prod.fst = l.map newName := by
    rw [renameAll_map hdistinct hfree, List.map_map]
    rfl
  constructor
  · intro h
    have hfree := (free_of_nodup_renameAll name newName x [] l hdistinct h).2
    rw [hnames hfree] at h
    exact ⟨hfree, h⟩
  · rintro ⟨hfree, h⟩
    rw [hnames hfree]
    exact h

end Rename

end Frames
