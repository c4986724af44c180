import EntsoePipeline.Delta.Log

set_option relaxedAutoImplicit false
set_option autoImplicit false

/-!
# Leaf directories of the capacity evolution

The files of the capacity evolution are named after their day, their two areas and their
publication, joined by `_`, and are stored in a directory for each month, day and out-area. The
delta refresh takes the month, the day and the out-area to be the first four parts of the name
between two `_`. This is the directory of the file as long as these four contain no `_` themselves;
and since the name does not tell where the out-area ends and the in-area begins, nothing else can be
read from it.

## Main definitions

* `EntsoePipeline.oceFileName` — the name of a file of the capacity evolution.
* `EntsoePipeline.oceLeaf` — the directory that it is stored in.

## Main results

* `EntsoePipeline.resolveExactFmsFolder_eq_oceLeaf_iff` — when the delta refresh finds the directory
  of a file.
-/

namespace EntsoePipeline

open Py

/-- The name of a file of the capacity evolution. -/
def oceFileName (year month day outArea inArea folder : Str) : Str :=
  join ['_'] [year, month, day, outArea, inArea, folder]

/-- The directory of the files of a day and an out-area. -/
def oceLeaf (folder year month day outArea : Str) : Str :=
  join ['/'] [folder, join ['_'] [year, month], join ['_'] [year, month, day], outArea]

section Leaves

variable {folder year month day outArea : Str}

/-- Two beginnings of one text that are followed by the same character, and in another text both by
another one, are the same. -/
lemma eq_of_append_cons_eq {c d : Char} (hne : c ≠ d) {p w r t u v : Str}
    (hc : p ++ c :: r = w ++ c :: t) (hd : p ++ d :: u = w ++ d :: v) : p = w := by
  rcases List.append_eq_append_iff.mp hd with ⟨q, rfl, hq⟩ | ⟨q, rfl, hq⟩
  · cases q with
    | nil => rw [List.append_nil]
    | cons x q =>
      rw [List.append_assoc, List.append_cancel_left_eq] at hc
      exact absurd ((List.cons.inj hc).1.trans (List.cons.inj hq).1.symm) hne
  · cases q with
    | nil => rw [List.append_nil]
    | cons x q =>
      rw [List.append_assoc, List.append_cancel_left_eq] at hc
      exact absurd ((List.cons.inj hc).1.symm.trans (List.cons.inj hq).1.symm) hne

/-- A text that two parts without `_` make up with one `_` between them has no other. -/
lemma not_mem_of_append_cons_eq {c : Char} {a b x y : Str} (ha : c ∉ a) (hb : c ∉ b)
    (h : a ++ c :: b = x ++ c :: y) : c ∉ x ∧ c ∉ y := by
  have hcount := congrArg (List.count c) h
  rw [List.count_append, List.count_append, List.count_cons_self, List.count_cons_self,
    List.count_eq_zero_of_not_mem ha, List.count_eq_zero_of_not_mem hb] at hcount
  exact ⟨List.count_eq_zero.mp (by omega), List.count_eq_zero.mp (by omega)⟩

/-- The text of a path of four parts. -/
lemma join_path (a b d : Str) : join ['/'] [folder, a, b, d] =
    folder ++ '/' :: (a ++ '/' :: (b ++ '/' :: d)) := by
  rw [join_cons (List.cons_ne_nil _ _), join_cons (List.cons_ne_nil _ _),
    join_cons (List.cons_ne_nil _ _), join_singleton]

/-- The text of the directory of a day and an out-area. -/
lemma oceLeaf_eq : oceLeaf folder year month day outArea =
    join ['/'] [folder, year ++ '_' :: month, year ++ '_' :: (month ++ '_' :: day), outArea] := by
  rw [oceLeaf, join_cons (List.cons_ne_nil month []), join_cons (List.cons_ne_nil month [day]),
    join_cons (List.cons_ne_nil day []), join_singleton, join_singleton]

/-- The name of a file with its parts bracketed from the left. -/
lemma oceFileName_eq (inArea : Str) : oceFileName year month day outArea inArea folder =
    (year ++ '_' :: month) ++ '_' :: (day ++ '_' :: (outArea ++ '_' ::
      join ['_'] [inArea, folder])) := by
  rw [oceFileName, join_cons (List.cons_ne_nil _ _), join_cons (List.cons_ne_nil _ _),
    join_cons (List.cons_ne_nil _ _), join_cons (List.cons_ne_nil _ _), List.append_assoc]
  rfl

/-- The `_` before the last part of a day may be read as the one after its first two parts. -/
lemma append_day_append (a b d t : Str) :
    (a ++ '_' :: (b ++ '_' :: d)) ++ '/' :: t = (a ++ '_' :: b) ++ '_' :: (d ++ '/' :: t) := by
  simp

/-- Parts that make up the beginning of a name and the path after its publication are the ones that
the name and the path were made from. The month is followed by `_` in the name and by `/` in the
path, so that it is the same in both; and so is the day. -/
lemma eq_of_name_of_path {y m d out rest tail : Str}
    (hname : (y ++ '_' :: m) ++ '_' :: (d ++ '_' :: rest) =
      (year ++ '_' :: month) ++ '_' :: (day ++ '_' :: tail))
    (hpath : (y ++ '_' :: m) ++ '/' :: ((y ++ '_' :: (m ++ '_' :: d)) ++ '/' :: out) =
      (year ++ '_' :: month) ++ '/' :: ((year ++ '_' :: (month ++ '_' :: day)) ++ '/' :: outArea)) :
    y ++ '_' :: m = year ++ '_' :: month ∧ d = day ∧ out = outArea := by
  have hmonth : y ++ '_' :: m = year ++ '_' :: month :=
    eq_of_append_cons_eq (by decide) hname hpath
  have hrest : d ++ '_' :: rest = day ++ '_' :: tail := by
    rw [hmonth] at hname
    exact (List.cons.inj (List.append_cancel_left hname)).2
  have hleaf : d ++ '/' :: out = day ++ '/' :: outArea := by
    rw [append_day_append, append_day_append, hmonth] at hpath
    have hdays := (List.cons.inj (List.append_cancel_left hpath)).2
    exact (List.cons.inj (List.append_cancel_left hdays)).2
  obtain rfl : d = day := eq_of_append_cons_eq (by decide) hrest hleaf
  exact ⟨hmonth, rfl, (List.cons.inj (List.append_cancel_left hleaf)).2⟩

/-- **Leaf directories.** The delta refresh finds the directory of a file of the capacity evolution
exactly when its year, month, day and out-area contain no `_`. The in-area may contain one.

**Proof sketch.** When the first four parts of the name make up the path of the directory, they are
the ones that the path was made from; and a part between two `_` contains none. -/
theorem resolveExactFmsFolder_eq_oceLeaf_iff
    (hfolder : contains folder "OfferedTransferCapacitiesContinuousEvolution".toList = true)
    (inArea : Str) :
    resolveExactFmsFolder folder (oceFileName year month day outArea inArea folder) =
        oceLeaf folder year month day outArea ↔
      '_' ∉ year ∧ '_' ∉ month ∧ '_' ∉ day ∧ '_' ∉ outArea := by
  have hname := @oceFileName_eq folder year month day outArea inArea
  unfold resolveExactFmsFolder
  rw [if_pos hfolder, oceLeaf_eq, join_path]
  constructor
  · intro h
    have hparts : ∀ p ∈ split '_' (oceFileName year month day outArea inArea folder), '_' ∉ p :=
      fun p hp => not_mem_of_mem_split hp
    have hjoin := join_split '_' (oceFileName year month day outArea inArea folder)
    split at h
    · rename_i y m d out rest hsplit
      rw [hsplit] at hparts hjoin
      rw [join_cons (List.cons_ne_nil _ _), join_cons (List.cons_ne_nil _ _),
        join_cons (List.cons_ne_nil _ _), hname] at hjoin
      rw [join_path] at h
      obtain ⟨hmonth, rfl, rfl⟩ := eq_of_name_of_path
        ((List.append_assoc _ _ _).trans hjoin) (List.cons.inj (List.append_cancel_left h)).2
      obtain ⟨hyear, hmonth⟩ :=
        not_mem_of_append_cons_eq (hparts y (by simp)) (hparts m (by simp)) hmonth
      exact ⟨hyear, hmonth, hparts d (by simp), hparts out (by simp)⟩
    · exact absurd (congrArg List.length h) (by simp)
  · rintro ⟨hyear, hmonth, hday, hout⟩
    rw [hname, List.append_assoc, List.cons_append, split_cons_of_not_mem hyear,
      split_cons_of_not_mem hmonth, split_cons_of_not_mem hday, split_cons_of_not_mem hout]
    exact join_path _ _ _

end Leaves

/-! ## Areas with and without an underscore -/

/-- The publication of the capacity evolution. -/
def oceFolder : Str := "OfferedTransferCapacitiesContinuousEvolution_11.1_r3.1".toList

/-- The directory of a file from Hungary to Slovakia. -/
theorem resolveExactFmsFolder_hungary :
    resolveExactFmsFolder oceFolder (oceFileName "2026".toList "07".toList "08".toList "HU".toList
      "SK".toList oceFolder) = oceLeaf oceFolder "2026".toList "07".toList
        "08".toList "HU".toList :=
  (resolveExactFmsFolder_eq_oceLeaf_iff (by decide +kernel) _).mpr (by decide)

/-- A file from Germany and Luxembourg to France is taken for one from Germany. No other reading
would do for both: the file from Germany to an area `LU_FR` has the same name, and is stored in
another directory. -/
theorem resolveExactFmsFolder_germanyLuxembourg :
    resolveExactFmsFolder oceFolder (oceFileName "2026".toList "07".toList "08".toList
        "DE_LU".toList "FR".toList oceFolder) ≠
      oceLeaf oceFolder "2026".toList "07".toList "08".toList "DE_LU".toList ∧
    oceFileName "2026".toList "07".toList "08".toList "DE_LU".toList "FR".toList oceFolder =
      oceFileName "2026".toList "07".toList "08".toList "DE".toList "LU_FR".toList oceFolder ∧
    oceLeaf oceFolder "2026".toList "07".toList "08".toList "DE_LU".toList ≠
      oceLeaf oceFolder "2026".toList "07".toList "08".toList "DE".toList := by
  decide +kernel

end EntsoePipeline
