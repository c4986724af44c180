import Mathlib.Tactic

set_option relaxedAutoImplicit false
set_option autoImplicit false

/-!
# Substitution with greedy patterns

A greedy pattern is a sequence of literal texts, single characters of a class, optional ones and
runs. An optional character is taken when the rest of the pattern matches behind it, and a run is
given up character by character until the rest matches. A substitution goes over a text from left to
right and replaces each match that begins at the beginning of a line.

## Main definitions

* `Greedy.Item`, `Greedy.matchItems` — patterns, and the match at the front of a text.
* `Greedy.substitute` — the substitution.

## Main results

* `Greedy.flatten_of_matchItems` — a match is a prefix of the text.
* `Greedy.matchItems_many` — a run is not given up when the rest cannot match inside of it.
* `Greedy.substitute_of_match`, `Greedy.substitute_of_no_match` — one step of the substitution.
* `Greedy.substitute_append` — a text without a match is copied.
* `Greedy.exists_first` — the first match of a text.
-/

namespace Greedy

variable {α : Type*}

/-- A part of a pattern. -/
inductive Item (α : Type*)
  /-- The given text. -/
  | text (w : List α)
  /-- One character of a class. -/
  | one (p : α → Bool)
  /-- At most one character of a class. -/
  | optional (p : α → Bool)
  /-- Any number of characters of a class. -/
  | many (p : α → Bool)

/-- A match: the text of each item, and the text behind it. -/
abbrev Match (α : Type*) := List (List α) × List α

/-- Put the text of an item in front of a match of the items behind it. -/
def capture (w : List α) (m : Option (Match α)) : Option (Match α) :=
  m.map fun m => (w :: m.1, m.2)

/-- The longest run of a class behind which the next items match. -/
def longest (p : α → Bool) (next : List α → Option (Match α)) :
    List α → List α → Option (Match α)
  | run, [] => capture run (next [])
  | run, c :: s =>
    if p c then (longest p next (run ++ [c]) s).or (capture run (next (c :: s)))
    else capture run (next (c :: s))

section Match

variable [DecidableEq α]

/-- The match of a pattern at the front of a text. -/
def matchItems : List (Item α) → List α → Option (Match α)
  | [], s => some ([], s)
  | .text w :: items, s =>
    if w <+: s then capture w (matchItems items (s.drop w.length)) else none
  | .one p :: items, s =>
    match s with
    | [] => none
    | c :: t => if p c then capture [c] (matchItems items t) else none
  | .optional p :: items, s =>
    match s with
    | [] => capture [] (matchItems items [])
    | c :: t =>
      if p c then (capture [c] (matchItems items t)).or (capture [] (matchItems items (c :: t)))
      else capture [] (matchItems items (c :: t))
  | .many p :: items, s => longest p (matchItems items) [] s

end Match

/-! ## The match -/

/-- Nothing is captured of no match. -/
@[simp] lemma capture_none (w : List α) : capture w none = none := rfl

/-- A capture is put in front of the others. -/
@[simp] lemma capture_some (w : List α) (m : Match α) : capture w (some m) = some (w :: m.1, m.2) :=
  rfl

/-- A match with a capture comes from one without it. -/
lemma capture_eq_some {w : List α} {m : Option (Match α)} {r : Match α} :
    capture w m = some r ↔ ∃ m', m = some m' ∧ r = (w :: m'.1, m'.2) := by
  rw [capture, Option.map_eq_some_iff]
  simp only [eq_comm]

/-- A run is not given up when the rest matches behind all of it. -/
lemma longest_of_some {p : α → Bool} {next : List α → Option (Match α)} {run s : List α}
    {m : Match α} (h : next (s.dropWhile p) = some m) :
    longest p next run s = some ((run ++ s.takeWhile p) :: m.1, m.2) := by
  induction s generalizing run with
  | nil =>
    rw [longest, show next [] = some m from h, List.takeWhile_nil, List.append_nil, capture_some]
  | cons c s ih =>
    rw [longest]
    by_cases hc : p c
    · rw [List.dropWhile_cons_of_pos hc] at h
      rw [if_pos hc, ih h, List.takeWhile_cons_of_pos hc, List.append_assoc]
      rfl
    · rw [List.dropWhile_cons_of_neg hc] at h
      rw [if_neg hc, h, List.takeWhile_cons_of_neg hc, List.append_nil, capture_some]

/-- There is no match when the rest matches neither behind the run nor inside of it. -/
lemma longest_of_none {p : α → Bool} {next : List α → Option (Match α)} {run s : List α}
    (hinside : ∀ c t, p c → next (c :: t) = none) (h : next (s.dropWhile p) = none) :
    longest p next run s = none := by
  induction s generalizing run with
  | nil => rw [longest, show next [] = none from h, capture_none]
  | cons c s ih =>
    rw [longest]
    by_cases hc : p c
    · rw [List.dropWhile_cons_of_pos hc] at h
      rw [if_pos hc, ih h, hinside c s hc, capture_none, Option.none_or]
    · rw [List.dropWhile_cons_of_neg hc] at h
      rw [if_neg hc, h, capture_none]

/-- The captures of the longest run make up the text. -/
lemma flatten_of_longest {p : α → Bool} {next : List α → Option (Match α)} {run s : List α}
    {m : Match α} (hnext : ∀ t m, next t = some m → m.1.flatten ++ m.2 = t)
    (h : longest p next run s = some m) : m.1.flatten ++ m.2 = run ++ s := by
  have hcapture : ∀ t, capture run (next t) = some m → m.1.flatten ++ m.2 = run ++ t := by
    intro t ht
    obtain ⟨m', hm', rfl⟩ := capture_eq_some.mp ht
    rw [List.flatten_cons, List.append_assoc, hnext t m' hm']
  induction s generalizing run with
  | nil => exact hcapture [] h
  | cons c s ih =>
    rw [longest] at h
    split_ifs at h with hc
    · rcases Option.or_eq_some_iff.mp h with hlonger | ⟨-, hhere⟩
      · have hrun := ih hlonger fun t ht => by
          obtain ⟨m', hm', rfl⟩ := capture_eq_some.mp ht
          rw [List.flatten_cons, List.append_assoc, hnext t m' hm']
        rw [hrun, List.append_assoc]
        rfl
      · exact hcapture _ hhere
    · exact hcapture _ h

section Match

variable [DecidableEq α] {items : List (Item α)}

/-- The texts of a match and the text behind it are the whole text. -/
theorem flatten_of_matchItems {s : List α} {m : Match α} (h : matchItems items s = some m) :
    m.1.flatten ++ m.2 = s := by
  induction items generalizing s m with
  | nil =>
    rw [matchItems, Option.some.injEq] at h
    rw [← h]
    rfl
  | cons item items ih =>
    have hcapture : ∀ w t, capture w (matchItems items t) = some m →
        m.1.flatten ++ m.2 = w ++ t := by
      intro w t ht
      obtain ⟨m', hm', rfl⟩ := capture_eq_some.mp ht
      rw [List.flatten_cons, List.append_assoc, ih hm']
    cases item with
    | text w =>
      rw [matchItems] at h
      split_ifs at h with hw
      rw [hcapture w _ h]
      exact List.prefix_iff_eq_append.mp hw
    | one p =>
      cases s with
      | nil => cases h
      | cons c t =>
        rw [matchItems] at h
        split_ifs at h
        exact hcapture [c] t h
    | optional p =>
      cases s with
      | nil => exact hcapture [] [] h
      | cons c t =>
        rw [matchItems] at h
        split_ifs at h
        · rcases Option.or_eq_some_iff.mp h with htaken | ⟨-, hleft⟩
          · exact hcapture [c] t htaken
          · exact hcapture [] _ hleft
        · exact hcapture [] _ h
    | many p => exact flatten_of_longest (fun t m hm => ih hm) h

/-- A literal text is the front of the text. -/
lemma matchItems_text (w s : List α) :
    matchItems (.text w :: items) (w ++ s) = capture w (matchItems items s) := by
  rw [matchItems, if_pos (List.prefix_append w s), List.drop_left]

/-- A literal that is not in front does not match. -/
lemma matchItems_text_of_not_prefix {w s : List α} (h : ¬ w <+: s) :
    matchItems (.text w :: items) s = none := by
  rw [matchItems, if_neg h]

/-- A run is not given up when the rest cannot match at a character of the run. -/
theorem matchItems_many {p : α → Bool} (hinside : ∀ c t, p c → matchItems items (c :: t) = none)
    (s : List α) : matchItems (.many p :: items) s =
      capture (s.takeWhile p) (matchItems items (s.dropWhile p)) := by
  rw [matchItems]
  cases hm : matchItems items (s.dropWhile p) with
  | none => rw [longest_of_none hinside hm, capture_none]
  | some m => rw [longest_of_some hm, List.nil_append, capture_some]

end Match

/-! ## The substitution -/

section Substitute

variable [DecidableEq α] (newline : α) (items : List (Item α))
  (template : List (List α) → List α)

/-- Replace each match at the beginning of a line, for a pattern without empty matches. The first
argument is whether a line begins here, and the second one counts the characters that the last match
has taken. -/
def substitute : Bool → ℕ → List α → List α
  | _, _, [] => []
  | _, taken + 1, c :: s => substitute (c = newline) taken s
  | false, 0, c :: s => c :: substitute (c = newline) 0 s
  | true, 0, c :: s =>
    match matchItems items (c :: s) with
    | none => c :: substitute (c = newline) 0 s
    | some m => template m.1 ++ substitute (c = newline) (s.length - m.2.length) s

variable {newline items template}

/-- Nothing is replaced in the empty text. -/
@[simp] lemma substitute_nil (start : Bool) (taken : ℕ) :
    substitute newline items template start taken [] = [] := by
  rw [substitute]

/-- The rest of a line is copied. -/
lemma substitute_line {l s : List α} (hl : newline ∉ l) :
    substitute newline items template false 0 (l ++ s) =
      l ++ substitute newline items template false 0 s := by
  induction l with
  | nil => rfl
  | cons c l ih =>
    have hc : c ≠ newline := fun h => hl (h ▸ List.mem_cons_self)
    rw [List.cons_append, substitute, decide_eq_false hc,
      ih fun h => hl (List.mem_cons_of_mem _ h), List.cons_append]

/-- A line begins behind a line break. -/
lemma substitute_newline (s : List α) :
    substitute newline items template false 0 (newline :: s) =
      newline :: substitute newline items template true 0 s := by
  rw [substitute, decide_eq_true rfl]

/-- Where the pattern does not match, the text is copied. -/
lemma substitute_of_no_match {s : List α} (h : matchItems items s = none) :
    substitute newline items template true 0 s = substitute newline items template false 0 s := by
  cases s with
  | nil => rw [substitute_nil, substitute_nil]
  | cons c s => simp only [substitute, h]

/-- The characters of a match are taken with it. -/
lemma substitute_taken {front : List α} {c : α} (hc : c ≠ newline) (start : Bool) (s : List α) :
    substitute newline items template start (front.length + 1) (front ++ c :: s) =
      substitute newline items template false 0 s := by
  induction front generalizing start with
  | nil => rw [List.nil_append, List.length_nil, substitute, decide_eq_false hc]
  | cons d front ih => rw [List.cons_append, List.length_cons, substitute, ih]

/-- A match that does not end with a line break is replaced, and its line goes on behind it. -/
theorem substitute_of_match {s front rest : List α} {c : α} {texts : List (List α)}
    (h : matchItems items s = some (texts, rest)) (htexts : texts.flatten = front ++ [c])
    (hc : c ≠ newline) :
    substitute newline items template true 0 s =
      template texts ++ substitute newline items template false 0 rest := by
  have hs := flatten_of_matchItems h
  rw [htexts, List.append_assoc] at hs
  cases front with
  | nil =>
    rw [← hs] at h ⊢
    rw [List.nil_append, List.singleton_append] at h ⊢
    rw [substitute, h, decide_eq_false hc]
    dsimp only
    rw [Nat.sub_self]
  | cons d front =>
    rw [← hs] at h ⊢
    rw [List.cons_append, List.singleton_append] at h ⊢
    have hlength : (front ++ c :: rest).length - rest.length = front.length + 1 := by
      rw [List.length_append, List.length_cons]
      omega
    rw [substitute, h]
    dsimp only
    rw [hlength, substitute_taken hc]

/-! ### The first match -/

/-- Whether a line begins behind a text. The first argument is whether one begins in front of it. -/
def lineStart (newline : α) (start : Bool) (s : List α) : Bool :=
  s.getLast?.elim start fun c => c = newline

/-- In front of a text begins what began before. -/
@[simp] lemma lineStart_nil (start : Bool) : lineStart newline start [] = start := rfl

/-- Behind a character a line begins where it begins behind a line break. -/
@[simp] lemma lineStart_cons (start : Bool) (c : α) (s : List α) :
    lineStart newline start (c :: s) = lineStart newline (decide (c = newline)) s := by
  rw [lineStart, lineStart, List.getLast?_cons]
  cases s.getLast? <;> rfl

/-- Where a line begins is decided by the last text that is not empty. -/
lemma lineStart_append_of_ne_nil {s : List α} (hs : s ≠ []) (start : Bool) (t : List α) :
    lineStart newline start (t ++ s) = lineStart newline false s := by
  rw [lineStart, lineStart, List.getLast?_append_of_ne_nil _ hs]
  obtain ⟨s, c, rfl⟩ := (List.eq_nil_or_concat' s).resolve_left hs
  simp

/-- Behind a text in which no match begins, the substitution goes on. -/
theorem substitute_append {start : Bool} {s t : List α}
    (h : ∀ a b, s = a ++ b → b ≠ [] → lineStart newline start a = true →
      matchItems items (b ++ t) = none) :
    substitute newline items template start 0 (s ++ t) =
      s ++ substitute newline items template (lineStart newline start s) 0 t := by
  induction s generalizing start with
  | nil => rfl
  | cons c s ih =>
    have hrest : substitute newline items template (decide (c = newline)) 0 (s ++ t) =
        s ++ substitute newline items template (lineStart newline start (c :: s)) 0 t := by
      rw [lineStart_cons]
      refine ih fun a b hs hb ha => h (c :: a) b (by rw [hs]; rfl) hb ?_
      rwa [lineStart_cons]
    cases start with
    | false => rw [List.cons_append, substitute, hrest, List.cons_append]
    | true =>
      have hhere := h [] (c :: s) rfl (List.cons_ne_nil c s) rfl
      rw [List.cons_append] at hhere
      rw [List.cons_append, substitute, hhere]
      dsimp only
      rw [hrest, List.cons_append]

/-- A text without a match is copied. -/
lemma substitute_eq_self {start : Bool} {s : List α}
    (h : ∀ a b, s = a ++ b → b ≠ [] → lineStart newline start a = true →
      matchItems items b = none) :
    substitute newline items template start 0 s = s := by
  have hcopy := @substitute_append _ _ newline items template start s [] fun a b hs hb ha => by
    rw [List.append_nil]
    exact h a b hs hb ha
  rwa [List.append_nil, substitute_nil, List.append_nil] at hcopy

/-- A text has no match, or a first one. -/
theorem exists_first (newline : α) (items : List (Item α)) (start : Bool) (s : List α) :
    (∀ a b, s = a ++ b → b ≠ [] → lineStart newline start a = true → matchItems items b = none) ∨
      ∃ a b, s = a ++ b ∧ lineStart newline start a = true ∧ matchItems items b ≠ none ∧
        ∀ a' b', a = a' ++ b' → b' ≠ [] → lineStart newline start a' = true →
          matchItems items (b' ++ b) = none := by
  induction s generalizing start with
  | nil => exact .inl fun a b hs hb => absurd (List.append_eq_nil_iff.mp hs.symm).2 hb
  | cons c s ih =>
    by_cases hhere : start = true ∧ matchItems items (c :: s) ≠ none
    · refine .inr ⟨[], c :: s, rfl, hhere.1, hhere.2, fun a' b' hnil hb' => ?_⟩
      exact absurd (List.append_eq_nil_iff.mp hnil.symm).2 hb'
    -- no match begins at the first character
    have hnone : start = true → matchItems items (c :: s) = none := by
      intro hstart
      by_contra hmatch
      exact hhere ⟨hstart, hmatch⟩
    rcases ih (decide (c = newline)) with hno | ⟨a, b, rfl, ha, hb, hfirst⟩
    · refine .inl fun a b hs hb ha => ?_
      cases a with
      | nil =>
        obtain rfl : c :: s = b := hs
        exact hnone ha
      | cons d a =>
        obtain ⟨rfl, rfl⟩ := List.cons.inj hs
        rw [lineStart_cons] at ha
        exact hno a b rfl hb ha
    · refine .inr ⟨c :: a, b, rfl, by rwa [lineStart_cons], hb, fun a' b' hs hb' ha' => ?_⟩
      cases a' with
      | nil =>
        obtain rfl : c :: a = b' := hs
        exact hnone ha'
      | cons d a' =>
        obtain ⟨rfl, rfl⟩ := List.cons.inj hs
        rw [lineStart_cons] at ha'
        exact hfirst a' b' rfl hb' ha'

end Substitute

end Greedy
