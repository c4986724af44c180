import Mathlib

set_option relaxedAutoImplicit false
set_option autoImplicit false

/-!
# Python strings

Python's `str` as a list of code points, with the methods the modelled programs use. The
methods are executable (they are structural recursions or Mathlib's own list functions), so
a closed instance is decided by evaluation.

## Main definitions

* `Py.Str` — a string, the list of its characters.
* `Py.startsWith`, `Py.endsWith`, `Py.contains` — `s.startswith(p)`, `s.endswith(p)` and
  `sub in s`.
* `Py.split`, `Py.join`, `Py.strip` — `s.split(c)`, `sep.join(parts)` and `s.strip(c)` for a
  single character `c`.
* `Py.squeeze` — `s.replace(cc, c)`.
* `Py.encodeUtf8` — `s.encode("utf-8")`.
* `Py.CaseMap` — `str.lower`, `str.upper` and the decimal digits.
* `Py.Segment` — a path segment: a non-empty text without the separator.

## Main results

* `Py.split_join`, `Py.join_split` — splitting and joining are inverse to each other.
* `Py.append_cons_inj_of_not_mem` — the last separator of a text cuts it in one way.
* `Py.strip_renderPath`, `Py.strip_wrapped_renderPath`, `Py.squeeze_renderPath` — stripping and
  squeezing the separators of a path of segments.
* `Py.strInt_injective`, `Py.sep_not_mem_strInt` — the decimal text of an integer determines
  it and contains no underscore.

## Implementation notes

Only `str.lower`, `str.upper` and the decimal digits depend on the Unicode tables. They are a
parameter (`CaseMap`) that is only known to be as for ASCII on ASCII texts and to be idempotent in
lower case, so that what is proved holds for the tables of every Unicode version.
-/

namespace Py

/-- A Python string: the list of its code points. -/
abbrev Str := List Char

instance : LawfulBEq Str := inferInstanceAs (LawfulBEq (List Char))

/-! ## Prefixes, suffixes and substrings -/

/-- `s.startswith(p)`. -/
def startsWith (s p : Str) : Bool := p.isPrefixOf s

/-- `s.endswith(p)`. -/
def endsWith (s p : Str) : Bool := p.isSuffixOf s

/-- `s.endswith(ps)` for a tuple `ps`: one of its entries is a suffix. -/
def endsWithAny (s : Str) (ps : List Str) : Bool := ps.any (endsWith s)

/-- `sub in s`. -/
def contains (s sub : Str) : Bool := decide (sub <:+: s)

/-- A text starts with its prefixes. -/
@[simp] lemma startsWith_iff {s p : Str} : startsWith s p = true ↔ p <+: s := by
  simp [startsWith]

/-- A text ends with its suffixes. -/
@[simp] lemma endsWith_iff {s p : Str} : endsWith s p = true ↔ p <:+ s := by
  simp [endsWith]

/-- A text ends with one of its suffixes. -/
@[simp] lemma endsWithAny_iff {s : Str} {ps : List Str} :
    endsWithAny s ps = true ↔ ∃ p ∈ ps, p <:+ s := by
  simp [endsWithAny]

/-- A text contains its infixes. -/
@[simp] lemma contains_iff {s sub : Str} : contains s sub = true ↔ sub <:+: s := by
  simp [contains]

/-! ## Splitting and joining -/

/-- `s.split(c)`. -/
def split (c : Char) (s : Str) : List Str := s.splitOn c

/-- `sep.join(parts)`. -/
def join (sep : Str) (parts : List Str) : Str := sep.intercalate parts

/-- A split has at least one part. -/
@[simp] lemma split_ne_nil (c : Char) (s : Str) : split c s ≠ [] := List.splitOn_ne_nil c s

/-- Joining the parts of a split gives the text back. -/
@[simp] lemma join_split (c : Char) (s : Str) : join [c] (split c s) = s :=
  List.intercalate_splitOn c

/-- Splitting a joined list of separator-free parts gives the parts back. -/
lemma split_join {c : Char} {parts : List Str} (h : ∀ p ∈ parts, c ∉ p) (hne : parts ≠ []) :
    split c (join [c] parts) = parts :=
  List.splitOn_intercalate c h hne

/-- A text without the separator is its own only part. -/
lemma split_of_not_mem {c : Char} {s : Str} (h : c ∉ s) : split c s = [s] :=
  List.splitOn_eq_singleton h

/-- Splitting at a separator splits both sides. -/
lemma split_append_cons (c : Char) (s t : Str) :
    split c (s ++ c :: t) = split c s ++ split c t :=
  List.splitOn_append_cons_self s t

/-- Splitting after a separator-free first part. -/
lemma split_cons_of_not_mem {c : Char} {s : Str} (h : c ∉ s) (t : Str) :
    split c (s ++ c :: t) = s :: split c t := by
  rw [split_append_cons, split_of_not_mem h]
  rfl

/-- The last separator of a text determines what is before it and what is behind it. -/
lemma append_cons_inj_of_not_mem {c : Char} {a a' b b' : Str} (hb : c ∉ b) (hb' : c ∉ b') :
    a ++ c :: b = a' ++ c :: b' ↔ a = a' ∧ b = b' := by
  constructor
  · intro h
    have hsplit := congrArg (split c) h
    rw [split_append_cons, split_append_cons, split_of_not_mem hb, split_of_not_mem hb'] at hsplit
    obtain ⟨hfront, hlast⟩ := List.append_inj' hsplit rfl
    have hjoin := congrArg (join [c]) hfront
    rw [join_split, join_split] at hjoin
    exact ⟨hjoin, (List.cons.inj hlast).1⟩
  · rintro ⟨rfl, rfl⟩
    rfl

/-- The parts of a split contain no separator. -/
lemma not_mem_of_mem_split {c : Char} {s p : Str} (hp : p ∈ split c s) : c ∉ p := by
  induction s generalizing p with
  | nil =>
    obtain rfl : p = [] := by simpa [split] using hp
    simp
  | cons x s ih =>
    rw [split, List.splitOn_cons_eq_if_modifyHead] at hp
    by_cases hx : x = c
    · simp only [hx, beq_self_eq_true, if_true, List.mem_cons] at hp
      rcases hp with rfl | hp
      · simp
      · exact ih hp
    · have hxc : (x == c) = false := by simpa using hx
      rw [hxc, if_neg (by simp)] at hp
      cases hs : s.splitOn c with
      | nil => exact absurd hs (List.splitOn_ne_nil c s)
      | cons q qs =>
        rw [hs, List.modifyHead_cons, List.mem_cons] at hp
        rcases hp with rfl | hp
        · have hq : c ∉ q := ih (by rw [split, hs]; exact List.mem_cons_self)
          simpa [Ne.symm hx] using hq
        · exact ih (by rw [split, hs]; exact List.mem_cons_of_mem _ hp)

/-- One part is joined without a separator. -/
@[simp] lemma join_singleton (sep s : Str) : join sep [s] = s := by simp [join]

/-- The first of several parts is followed by a separator. -/
lemma join_cons {c : Char} {s : Str} {parts : List Str} (h : parts ≠ []) :
    join [c] (s :: parts) = s ++ c :: join [c] parts := by
  cases parts with
  | nil => exact absurd rfl h
  | cons p ps => simp [join, List.intercalate]

/-- Joining a list followed by one more part. -/
lemma join_concat {c : Char} {parts : List Str} (h : parts ≠ []) (s : Str) :
    join [c] (parts ++ [s]) = join [c] parts ++ c :: s := by
  induction parts with
  | nil => exact absurd rfl h
  | cons p ps ih =>
    cases ps with
    | nil => simp [join_cons]
    | cons q qs =>
      rw [List.cons_append, join_cons (by simp), ih (by simp),
        @join_cons c p (q :: qs) (by simp), List.append_assoc, List.cons_append]

/-- Joining two non-empty lists of parts. -/
lemma join_append {c : Char} {ps qs : List Str} (hp : ps ≠ []) (hq : qs ≠ []) :
    join [c] (ps ++ qs) = join [c] ps ++ c :: join [c] qs := by
  induction ps with
  | nil => exact absurd rfl hp
  | cons p ps ih =>
    cases ps with
    | nil => rw [List.singleton_append, join_cons hq, join_singleton]
    | cons p' ps =>
      rw [List.cons_append, join_cons (by simp), ih (by simp),
        @join_cons c p (p' :: ps) (by simp), List.append_assoc, List.cons_append]

/-- A joined text contains the characters of its parts. -/
lemma mem_join {c x : Char} {parts : List Str} {p : Str} (hp : p ∈ parts) (hx : x ∈ p) :
    x ∈ join [c] parts := by
  induction parts with
  | nil => cases hp
  | cons q qs ih =>
    cases qs with
    | nil =>
      rw [List.mem_singleton] at hp
      rwa [join_singleton, ← hp]
    | cons q' qs =>
      rw [join_cons (by simp), List.mem_append]
      rcases List.mem_cons.mp hp with rfl | hp
      · exact Or.inl hx
      · exact Or.inr (List.mem_cons_of_mem _ (ih hp))

/-! ## Stripping a character -/

/-- `s.strip(c)` for a single character `c`. -/
def strip (c : Char) (s : Str) : Str := (s.dropWhile (· == c)).rdropWhile (· == c)

/-- `c.isspace()`. -/
def isSpace (c : Char) : Bool :=
  let n := c.toNat
  (9 ≤ n && n ≤ 13) || (28 ≤ n && n ≤ 32) || n == 133 || n == 160 || n == 5760 ||
    (8192 ≤ n && n ≤ 8202) || n == 8232 || n == 8233 || n == 8239 || n == 8287 || n == 12288

/-- `s.strip()`. -/
def stripSpaces (s : Str) : Str := (s.dropWhile isSpace).rdropWhile isSpace

/-- A stripped text does not begin with the character. -/
lemma head?_strip_ne {c : Char} {s : Str} : (strip c s).head? ≠ some c := by
  intro h
  have hpre : strip c s <+: s.dropWhile (· == c) := List.rdropWhile_prefix _ _
  obtain ⟨t, ht⟩ := hpre
  have hhead : (s.dropWhile (· == c)).head? = some c := by
    rw [← ht, List.head?_append, h]
    rfl
  have hnot := List.head?_dropWhile_not (· == c) s
  rw [hhead] at hnot
  simp at hnot

/-- A text with another character than the stripped one is not stripped to nothing. -/
lemma strip_ne_nil {c x : Char} {s : Str} (hx : x ∈ s) (hne : x ≠ c) : strip c s ≠ [] := by
  intro h
  rw [strip, List.rdropWhile_eq_nil_iff] at h
  have hall : ∀ y ∈ s, y = c := by
    intro y hy
    rw [← List.takeWhile_append_dropWhile (p := (· == c)) (l := s), List.mem_append] at hy
    rcases hy with hy | hy
    · simpa using List.mem_takeWhile_imp hy
    · simpa using h y hy
  exact hne (hall x hx)

/-- A non-empty text whose first and last characters are not `c` is not changed. -/
lemma strip_eq_self {c : Char} {s : Str} (hh : s.head? ≠ some c) (hl : s.getLast? ≠ some c) :
    strip c s = s := by
  cases s with
  | nil => rfl
  | cons x s =>
    have hx : (x == c) = false := by simpa using hh
    rw [strip, List.dropWhile_cons_of_neg (by simp [hx]), List.rdropWhile_eq_self_iff]
    intro hne hlast
    apply hl
    rw [List.getLast?_eq_some_getLast hne, beq_iff_eq.mp hlast]

/-- Stripping removes one `c` on each side of such a text. -/
lemma strip_wrapped {c : Char} {s : Str} (hne : s ≠ []) (hh : s.head? ≠ some c)
    (hl : s.getLast? ≠ some c) : strip c (c :: (s ++ [c])) = s := by
  have hd : (c :: (s ++ [c])).dropWhile (· == c) = s ++ [c] := by
    cases s with
    | nil => exact absurd rfl hne
    | cons x s =>
      have hx : (x == c) = false := by simpa using hh
      simp [hx]
  have h := strip_eq_self hh hl
  rw [strip] at h ⊢
  rw [hd, List.rdropWhile_concat_pos _ _ _ (by simp)]
  have hd' : s.dropWhile (· == c) = s := by
    cases s with
    | nil => rfl
    | cons x s =>
      have hx : (x == c) = false := by simpa using hh
      simp [hx]
  rwa [hd'] at h

/-- `s.replace(cc, c)`: every non-overlapping pair `cc`, from the left, becomes one `c`. -/
def squeeze (c : Char) : Str → Str
  | [] => []
  | [x] => [x]
  | x :: y :: s => if x = c ∧ y = c then c :: squeeze c s else x :: squeeze c (y :: s)

/-- Another character in front is kept. -/
lemma squeeze_cons_of_ne {c x : Char} (h : x ≠ c) (s : Str) :
    squeeze c (x :: s) = x :: squeeze c s := by
  cases s with
  | nil => rfl
  | cons y s => rw [squeeze, if_neg fun hxy => h hxy.1]

/-- A part without the character is not changed. -/
lemma squeeze_append_of_not_mem {c : Char} {a : Str} (h : c ∉ a) (t : Str) :
    squeeze c (a ++ t) = a ++ squeeze c t := by
  induction a with
  | nil => rfl
  | cons x a ih =>
    simp only [List.mem_cons, not_or] at h
    rw [List.cons_append, squeeze_cons_of_ne (Ne.symm h.1), ih h.2, List.cons_append]

/-! ## Path segments -/

/-- A path segment: a non-empty text without the separator. -/
structure Segment (c : Char) where
  /-- The characters of the segment. -/
  text : Str
  ne_nil : text ≠ []
  sep_not_mem : c ∉ text

namespace Segment

variable {c : Char}

/-- A segment is determined by its text. -/
@[ext] lemma ext {a b : Segment c} (h : a.text = b.text) : a = b := by
  cases a; cases b; cases h; rfl

instance : DecidableEq (Segment c) := fun a b =>
  decidable_of_iff (a.text = b.text) ⟨ext, fun h => h ▸ rfl⟩

/-- A segment does not begin with the separator. -/
lemma head?_ne (a : Segment c) : a.text.head? ≠ some c := fun h =>
  a.sep_not_mem (List.mem_of_head? h)

/-- A segment does not end with the separator. -/
lemma getLast?_ne (a : Segment c) : a.text.getLast? ≠ some c := fun h =>
  a.sep_not_mem (List.mem_of_getLast? h)

/-- The segment of a text. -/
def ofText? (text : Str) : Option (Segment c) :=
  if h : text ≠ [] ∧ c ∉ text then some ⟨text, h.1, h.2⟩ else none

/-- The text of a segment is read as this segment. -/
@[simp] lemma ofText?_text (a : Segment c) : ofText? a.text = some a :=
  dif_pos ⟨a.ne_nil, a.sep_not_mem⟩

end Segment

section Paths

variable {c : Char}

/-- The path text of a list of segments. -/
def renderPath (segs : List (Segment c)) : Str := join [c] (segs.map Segment.text)

/-- The first of several segments is followed by a separator. -/
lemma renderPath_cons {a : Segment c} {segs : List (Segment c)} (h : segs ≠ []) :
    renderPath (a :: segs) = a.text ++ c :: renderPath segs := by
  rw [renderPath, List.map_cons, join_cons (by simpa using h)]
  rfl

/-- A path of segments is not empty. -/
lemma renderPath_ne_nil {segs : List (Segment c)} (h : segs ≠ []) : renderPath segs ≠ [] := by
  cases segs with
  | nil => exact absurd rfl h
  | cons a segs =>
    cases segs with
    | nil => simpa [renderPath] using a.ne_nil
    | cons b segs => simp [renderPath_cons]

/-- Splitting a path gives its segments. -/
lemma split_renderPath {segs : List (Segment c)} (h : segs ≠ []) :
    split c (renderPath segs) = segs.map Segment.text := by
  apply split_join
  · intro p hp
    obtain ⟨a, -, rfl⟩ := List.mem_map.mp hp
    exact a.sep_not_mem
  · simpa using h

/-- A path does not begin with the separator. -/
lemma renderPath_head? {segs : List (Segment c)} : (renderPath segs).head? ≠ some c := by
  cases segs with
  | nil => simp [renderPath, join]
  | cons a segs =>
    have ha : ∀ t, (a.text ++ t).head? ≠ some c := by
      intro t
      rw [List.head?_append_of_ne_nil _ a.ne_nil]
      exact a.head?_ne
    cases segs with
    | nil => simpa [renderPath] using a.head?_ne
    | cons b segs =>
      rw [renderPath_cons (by simp)]
      exact ha _

/-- A path does not end with the separator. -/
lemma renderPath_getLast? {segs : List (Segment c)} : (renderPath segs).getLast? ≠ some c := by
  induction segs with
  | nil => simp [renderPath, join]
  | cons a segs ih =>
    cases segs with
    | nil => simpa [renderPath] using a.getLast?_ne
    | cons b segs =>
      have hne : renderPath (b :: segs) ≠ [] := renderPath_ne_nil (by simp)
      rw [renderPath_cons (by simp), List.getLast?_append_of_ne_nil _ (by simp),
        List.getLast?_cons_of_ne_nil hne]
      exact ih

/-- A separator before a segment is kept. -/
lemma squeeze_cons_segment (a : Segment c) (t : Str) :
    squeeze c (c :: (a.text ++ t)) = c :: (a.text ++ squeeze c t) := by
  have hsqueeze := squeeze_append_of_not_mem a.sep_not_mem t
  cases hx : a.text with
  | nil => exact absurd hx a.ne_nil
  | cons x s =>
    have hxc : x ≠ c := by
      rintro rfl
      exact a.sep_not_mem (by rw [hx]; exact List.mem_cons_self)
    rw [hx, List.cons_append] at hsqueeze
    rw [List.cons_append, squeeze, if_neg fun h => hxc h.2, hsqueeze, List.cons_append]

/-- The double separators of a path are those behind its segments. -/
lemma squeeze_cons_renderPath_append {segs : List (Segment c)} (h : segs ≠ []) (t : Str) :
    squeeze c (c :: (renderPath segs ++ t)) = c :: (renderPath segs ++ squeeze c t) := by
  induction segs with
  | nil => exact absurd rfl h
  | cons a segs ih =>
    cases segs with
    | nil =>
      have hpath : renderPath [a] = a.text := join_singleton _ _
      rw [hpath, squeeze_cons_segment]
    | cons b segs =>
      rw [renderPath_cons (by simp), List.append_assoc, List.cons_append, squeeze_cons_segment,
        ih (by simp), List.append_assoc, List.cons_append]

/-- A path in front is kept. -/
lemma squeeze_renderPath_append {segs : List (Segment c)} (h : segs ≠ []) (t : Str) :
    squeeze c (renderPath segs ++ t) = renderPath segs ++ squeeze c t := by
  cases segs with
  | nil => exact absurd rfl h
  | cons a segs =>
    cases segs with
    | nil =>
      have hpath : renderPath [a] = a.text := join_singleton _ _
      rw [hpath, squeeze_append_of_not_mem a.sep_not_mem]
    | cons b segs =>
      rw [renderPath_cons (by simp), List.append_assoc, List.cons_append,
        squeeze_append_of_not_mem a.sep_not_mem, squeeze_cons_renderPath_append (by simp),
        List.append_assoc, List.cons_append]

/-- A path after a separator has no double separator. -/
lemma squeeze_renderPath {segs : List (Segment c)} :
    squeeze c (c :: renderPath segs) = c :: renderPath segs := by
  cases segs with
  | nil => rfl
  | cons a segs => simpa [squeeze] using squeeze_cons_renderPath_append (List.cons_ne_nil a segs) []

/-- The path of two lists of segments. -/
lemma renderPath_append {segs segs' : List (Segment c)} (h : segs ≠ []) (h' : segs' ≠ []) :
    renderPath (segs ++ segs') = renderPath segs ++ c :: renderPath segs' := by
  rw [renderPath, List.map_append, join_append (by simpa using h) (by simpa using h')]
  rfl

/-- A path carries no separator at its ends, so stripping does not change it. -/
lemma strip_renderPath {segs : List (Segment c)} : strip c (renderPath segs) = renderPath segs :=
  strip_eq_self renderPath_head? renderPath_getLast?

/-- Stripping the separators around a path. -/
lemma strip_wrapped_renderPath {segs : List (Segment c)} (h : segs ≠ []) :
    strip c (c :: (renderPath segs ++ [c])) = renderPath segs :=
  strip_wrapped (renderPath_ne_nil h) renderPath_head? renderPath_getLast?

/-- The segments of a path between separators. -/
def parsePath (path : Str) : Option (List (Segment c)) :=
  (split c (strip c path)).mapM Segment.ofText?

/-- Reading a path between separators gives its segments. -/
lemma parsePath_wrapped_renderPath {segs : List (Segment c)} (h : segs ≠ []) :
    parsePath (c :: (renderPath segs ++ [c])) = some segs := by
  have htexts : ∀ segs : List (Segment c), (segs.map Segment.text).mapM Segment.ofText? =
      some segs := by
    intro segs
    induction segs with
    | nil => rfl
    | cons a segs ih =>
      rw [List.map_cons, List.mapM_cons, Segment.ofText?_text, ih]
      rfl
  rw [parsePath, strip_wrapped_renderPath h, split_renderPath h, htexts]

/-- A path determines its segments. -/
lemma renderPath_injective {segs segs' : List (Segment c)} (h : segs ≠ []) (h' : segs' ≠ [])
    (heq : renderPath segs = renderPath segs') : segs = segs' := by
  have hmap : segs.map Segment.text = segs'.map Segment.text := by
    rw [← split_renderPath h, ← split_renderPath h', heq]
  exact List.map_injective_iff.mpr (fun _ _ => Segment.ext) hmap

end Paths

/-! ## Integers -/

/-- `str(n)` for an integer `n`. -/
def strInt : ℤ → Str
  | Int.ofNat n => Nat.toDigits 10 n
  | Int.negSucc n => '-' :: Nat.toDigits 10 (n + 1)

/-- The decimal digits of a number determine it. -/
lemma toDigits_injective {m n : ℕ} (h : Nat.toDigits 10 m = Nat.toDigits 10 n) : m = n := by
  rw [← @Nat.ofDigitChars_ten_toDigits m, h, Nat.ofDigitChars_ten_toDigits]

/-- The digits of a number contain no minus. -/
lemma minus_not_mem_toDigits (n : ℕ) : '-' ∉ Nat.toDigits 10 n := fun h =>
  absurd (Nat.isDigit_of_mem_toDigits (by decide) (by decide) h) (by decide)

/-- The decimal text of an integer determines it. -/
lemma strInt_injective : Function.Injective strInt := by
  intro a b h
  cases a with
  | ofNat m =>
    cases b with
    | ofNat n => rw [toDigits_injective h]
    | negSucc n =>
      have hm : '-' ∈ Nat.toDigits 10 m := by
        simp only [strInt] at h
        simp [h]
      exact absurd hm (minus_not_mem_toDigits m)
  | negSucc m =>
    cases b with
    | ofNat n =>
      have hn : '-' ∈ Nat.toDigits 10 n := by
        simp only [strInt] at h
        simp [← h]
      exact absurd hn (minus_not_mem_toDigits n)
    | negSucc n =>
      simp only [strInt, List.cons.injEq, true_and] at h
      have := toDigits_injective h
      congr 1
      omega

/-- The decimal text of an integer contains no underscore. -/
lemma sep_not_mem_strInt (a : ℤ) : '_' ∉ strInt a := by
  cases a with
  | ofNat n => exact Nat.underscore_not_in_toDigits
  | negSucc n =>
    simp only [strInt, List.mem_cons, not_or]
    exact ⟨by decide, Nat.underscore_not_in_toDigits⟩

/-! ## Encoding -/

/-- `s.encode("utf-8")`. -/
def encodeUtf8 (s : Str) : List UInt8 := s.flatMap String.utf8EncodeChar

/-- The encoding of a text determines it. -/
lemma encodeUtf8_injective : Function.Injective encodeUtf8 := by
  intro s t h
  have hbytes : (String.ofList s).toByteArray = (String.ofList t).toByteArray := by
    rw [String.toByteArray_ofList, String.toByteArray_ofList]
    exact congrArg List.toByteArray h
  exact String.ofList_injective (String.toByteArray_inj.mp hbytes)

/-! ## Letter case -/

/-- The texts without a character above `U+007F`. -/
def IsAscii (s : Str) : Prop := ∀ ch ∈ s, ch.toNat < 128

instance (s : Str) : Decidable (IsAscii s) :=
  decidable_of_iff (s.all fun ch => decide (ch.toNat < 128)) (by simp [IsAscii])

/-- `str.lower`, `str.upper` and the decimal digits, as far as Unicode decides them. -/
structure CaseMap where
  /-- `s.lower()`. -/
  lower : Str → Str
  /-- `s.upper()`. -/
  upper : Str → Str
  /-- The value of a digit, of those that `\d` matches and `int` reads. -/
  digit : Char → Option ℕ
  lower_ascii : ∀ s, IsAscii s → lower s = s.map Char.toLower
  upper_ascii : ∀ s, IsAscii s → upper s = s.map Char.toUpper
  lower_lower : ∀ s, lower (lower s) = lower s
  digit_ascii : ∀ ch : Char, ch.toNat < 128 →
    digit ch = if ch.isDigit then some (ch.toNat - '0'.toNat) else none

/-- The empty text has no letters. -/
lemma CaseMap.lower_nil (cm : CaseMap) : cm.lower [] = [] :=
  cm.lower_ascii [] fun _ h => absurd h List.not_mem_nil

/-- The conversion that changes ASCII letters only, with the ASCII digits. -/
def CaseMap.ascii : CaseMap where
  lower s := s.map Char.toLower
  upper s := s.map Char.toUpper
  digit ch := if ch.isDigit then some (ch.toNat - '0'.toNat) else none
  lower_ascii _ _ := rfl
  upper_ascii _ _ := rfl
  digit_ascii _ _ := rfl
  lower_lower s := by simp [Function.comp_def]

end Py
