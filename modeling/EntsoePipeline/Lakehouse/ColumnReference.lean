import EntsoePipeline.Lib.Frames
import EntsoePipeline.Py.Str

set_option relaxedAutoImplicit false
set_option autoImplicit false

/-!
# References to columns

`col(name)` is not the column of this name: Spark splits the text at its dots, reads quotes in it
and takes an asterisk for all columns. A column of a frame is found by a text of one part.

## Main definitions

* `EntsoePipeline.parseAttributeName` — the parts of a reference.
* `EntsoePipeline.reference` — the name of the column that a reference asks for.
* `EntsoePipeline.IsPlain` — a name without a dot, a quote or the asterisk alone.

## Main results

* `EntsoePipeline.reference_of_isPlain` — a plain name is read as itself.
* `EntsoePipeline.refersToItself_iff` — the names that are read as themselves.

## Implementation notes

A reference of several parts asks for a field of a column, and the columns of a text file have none.
The hidden column of the metadata of the files is left out.
-/

namespace EntsoePipeline

open Py Frames

/-! ## The parts of a reference -/

/-- The parts of the rest of a reference: the character before, whether a quote is open, and what
was read of the current part. In a quote, two quotes are one. -/
def parseParts : Option Char → Bool → Str → Str → Option (List Str)
  | _, false, part, [] => some [part]
  | _, true, _, [] => none
  | _, true, part, ['`'] => some [part]
  | _, true, part, '`' :: '`' :: rest => parseParts (some '`') true (part ++ ['`']) rest
  | _, true, part, '`' :: '.' :: rest => parseParts (some '`') false part ('.' :: rest)
  | _, true, part, c :: rest =>
    if c = '`' then none else parseParts (some c) true (part ++ [c]) rest
  | before, false, part, c :: rest =>
    if c = '`' then if part = [] then parseParts (some c) true [] rest else none
    else if c = '.' then
      if before = none ∨ before = some '.' ∨ rest = [] then none
      else (parseParts (some c) false [] rest).map (part :: ·)
    else parseParts (some c) false (part ++ [c]) rest

/-- `UnresolvedAttribute.parseAttributeName`. -/
def parseAttributeName (name : Str) : Option (List Str) := parseParts none false [] name

/-- The name of the column that `col(name)` asks for, when it asks for one. -/
def reference (name : Str) : Option Str :=
  if name = ['*'] ∨ endsWith name ".*".toList then none
  else match parseAttributeName name with
    | some [part] => some part
    | _ => none

example : reference "`Price[EUR/MWh]`".toList = some "Price[EUR/MWh]".toList := by decide

/-! ## Plain names -/

/-- A name without a dot and without a quote that is not the asterisk alone. -/
def IsPlain (name : Str) : Prop := '.' ∉ name ∧ '`' ∉ name ∧ name ≠ ['*']

instance (name : Str) : Decidable (IsPlain name) := inferInstanceAs (Decidable (_ ∧ _ ∧ _))

/-- Without dots and quotes there is one part. -/
lemma parseParts_of_not_mem (before : Option Char) (part : Str) {s : Str} (hdot : '.' ∉ s)
    (hquote : '`' ∉ s) : parseParts before false part s = some [part ++ s] := by
  induction s generalizing before part with
  | nil => rw [parseParts, List.append_nil]
  | cons c s ih =>
    rw [List.mem_cons, not_or] at hdot hquote
    rw [parseParts, if_neg (Ne.symm hquote.1), if_neg (Ne.symm hdot.1), ih _ _ hdot.2 hquote.2,
      List.append_assoc, List.singleton_append]

/-- **A plain name is read as itself.** -/
lemma reference_of_isPlain {name : Str} (h : IsPlain name) : reference name = some name := by
  obtain ⟨hdot, hquote, hstar⟩ := h
  have hend : ¬ endsWith name ".*".toList = true := by
    rw [endsWith_iff]
    exact fun hsuffix => hdot (hsuffix.subset (by decide))
  rw [reference, if_neg (not_or_intro hstar hend), parseAttributeName,
    parseParts_of_not_mem none [] hdot hquote]
  rfl

/-- A reference has a part. -/
lemma ne_nil_of_parseParts {before : Option Char} {quoted : Bool} {part s : Str}
    {parts : List Str} (h : parseParts before quoted part s = some parts) : parts ≠ [] := by
  fun_induction parseParts before quoted part s generalizing parts with
  | case1 | case3 => cases h; exact List.cons_ne_nil _ _
  | case2 | case6 | case9 | case10 => cases h
  | case4 _ _ _ ih | case5 _ _ _ ih | case8 _ _ ih => exact ih h
  | case7 _ _ _ _ _ _ _ _ ih | case12 _ _ _ _ _ _ ih => exact ih h
  | case11 =>
    obtain ⟨parts, -, rfl⟩ := Option.map_eq_some_iff.mp h
    exact List.cons_ne_nil _ _

/-- A single part is not longer than what it is read from, and shorter when a quote was open or
there is a dot or a quote.

**Proof sketch.** The quotes around a part are not in it, and a dot outside of them begins another
part. -/
lemma length_of_parseParts {before : Option Char} {quoted : Bool} {part s result : Str}
    (h : parseParts before quoted part s = some [result]) :
    result.length ≤ part.length + s.length ∧
      (quoted = true ∨ '.' ∈ s ∨ '`' ∈ s → result.length < part.length + s.length) := by
  fun_induction parseParts before quoted part s with
  | case2 | case6 | case9 | case10 => cases h
  | case1 before part =>
    cases h
    simp
  | case3 before part =>
    cases h
    simp
  | case4 before part rest ih =>
    -- two quotes were read as one
    have hrest := (ih h).1
    simp only [List.length_append, List.length_cons, List.length_nil] at hrest ⊢
    omega
  | case5 before part rest ih =>
    have hrest := (ih h).1
    simp only [List.length_cons] at hrest ⊢
    omega
  | case7 before part c rest _ _ _ _ ih =>
    have hrest := (ih h).2 (Or.inl rfl)
    simp only [List.length_append, List.length_cons, List.length_nil] at hrest ⊢
    omega
  | case8 before rest ih =>
    have hrest := (ih h).1
    simp only [List.length_cons, List.length_nil] at hrest ⊢
    omega
  | case11 before part rest =>
    obtain ⟨parts, hparts, heq⟩ := Option.map_eq_some_iff.mp h
    exact absurd (List.cons.inj heq).2 (ne_nil_of_parseParts hparts)
  | case12 before part c rest hquote hdot ih =>
    obtain ⟨hle, hlt⟩ := ih h
    simp only [List.length_append, List.length_cons, List.length_nil] at hle hlt ⊢
    refine ⟨by omega, fun hspecial => ?_⟩
    simp only [Bool.false_eq_true, List.mem_cons, Ne.symm hquote, Ne.symm hdot, false_or]
      at hspecial hlt
    have := hlt hspecial
    omega

/-- **The names that are read as themselves** are the plain ones, when names that compare equal have
the same length. -/
theorem refersToItself_iff {key : Str → Str}
    (hlength : ∀ a b, key a = key b → a.length = b.length) {name : Str} :
    RefersToItself key reference name ↔ IsPlain name := by
  constructor
  · rintro ⟨referred, hrefer, hkey⟩
    unfold reference at hrefer
    split_ifs at hrefer with hstar
    rw [not_or] at hstar
    have hparts : parseAttributeName name = some [referred] := by
      split at hrefer
      · rename_i part hpart
        rw [hpart, Option.some.inj hrefer]
      · cases hrefer
    have hlt := (length_of_parseParts hparts).2
    have heq := hlength _ _ hkey
    simp only [Bool.false_eq_true, false_or, List.length_nil, Nat.zero_add] at hlt
    refine ⟨fun hdot => ?_, fun hquote => ?_, hstar.1⟩
    · exact absurd heq (hlt (Or.inl hdot)).ne
    · exact absurd heq (hlt (Or.inr hquote)).ne
  · exact fun h => ⟨name, reference_of_isPlain h, rfl⟩

end EntsoePipeline
