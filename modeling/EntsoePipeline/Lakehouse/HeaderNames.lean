import EntsoePipeline.Lakehouse.CsvReader
import EntsoePipeline.Lakehouse.SchemaAgreement

set_option relaxedAutoImplicit false
set_option autoImplicit false

/-!
# The column names of a header

Where a publication has no columns, and for the technical logs, the headers of a file become the
columns of a table. The markers of units are removed, the rest is cut into words, and the words are
joined in lower case.

## Main definitions

* `EntsoePipeline.wordsFrom`, `EntsoePipeline.headerWords` — the words of a header.
* `EntsoePipeline.ValidColumns` — legal and distinct column names.
* `EntsoePipeline.columnDefinitions` — the columns of the statement that creates the table.
* `EntsoePipeline.ReadableHeaders` — the headers have words, and different ones.

## Main results

* `EntsoePipeline.toSnakeCase_eq_join` — a column name is the words of its header.
* `EntsoePipeline.sanitisedHeaders_iff` — when the column names are legal and distinct.
* `EntsoePipeline.not_sanitisedHeaders_units` — one price in two units gives one column name.
-/

namespace EntsoePipeline

open Py Frames

/-! ## The words of a header -/

/-- A character of a run that separates words. -/
def isBreak (c : Char) : Bool := isSpace c || c == '-' || c == '.'

/-- A capital letter begins a word behind a small letter or a digit, and in front of a small letter
behind any character of its line. -/
def startsWord (prev : Option Char) (c : Char) (next : Option Char) : Bool :=
  c.isUpper && prev.any fun p =>
    p.isLower || p.isDigit || (p != '\n' && next.any Char.isLower)

/-- Put a character in front of the first word. -/
def consHead (c : Char) : List Str → List Str
  | [] => [[c]]
  | word :: words => (c :: word) :: words

/-- The words of a text behind a character; the first one continues the word of that character. -/
def wordsFrom : Option Char → Str → List Str
  | _, [] => [[]]
  | prev, c :: s =>
    if isBreak c then
      if prev.any isBreak then wordsFrom (some c) s else [] :: wordsFrom (some c) s
    else if c = '_' then [] :: wordsFrom (some c) s
    else if startsWord prev c s.head? then [] :: consHead c (wordsFrom (some c) s)
    else consHead c (wordsFrom (some c) s)

/-- A list without the empty words at its ends. -/
def trimWords (words : List Str) : List Str :=
  (words.dropWhile (· = [])).rdropWhile (· = [])

/-- The words of a header in lower case, without its markers. -/
def headerWords (cm : CaseMap) (name : Str) : List Str :=
  trimWords ((wordsFrom none (stripSpaces (removeMarkers 0 name))).map cm.lower)

example : headerWords .ascii "TotalLoadValue[MW]".toList =
    ["total".toList, "load".toList, "value".toList] := by decide

/-! ## The passes -/

/-- The two passes that mark the capital letters which begin a word, as one. -/
def breakCapitals : Option Char → Str → Str
  | _, [] => []
  | prev, c :: s =>
    if startsWord prev c s.head? then '_' :: c :: breakCapitals (some c) s
    else c :: breakCapitals (some c) s

section Capitals

/-- A capital letter is no small one. -/
lemma not_isLower_of_isUpper {c : Char} (h : c.isUpper = true) : c.isLower = false := by
  grind [Char.isUpper, Char.isLower]

/-- A capital letter is no digit. -/
lemma not_isDigit_of_isUpper {c : Char} (h : c.isUpper = true) : c.isDigit = false := by
  grind [Char.isUpper, Char.isDigit]

/-- The second pass at one character: the flag never matters, as a capital letter is no small letter
and no digit. -/
lemma splitCapitals_cons (c : Char) (s : Str) : splitCapitals false (c :: s) =
    if (c.isLower ∨ c.isDigit) ∧ s.head?.any Char.isUpper then c :: '_' :: splitCapitals false s
    else c :: splitCapitals false s := by
  rw [splitCapitals]
  split_ifs with h
  · cases s with
    | nil => simp at h
    | cons u t =>
      have hupper : u.isUpper = true := by simpa using h.2
      have hnot : ¬ ((u.isLower ∨ u.isDigit) ∧ t.head?.any Char.isUpper) := by
        simp [not_isLower_of_isUpper hupper, not_isDigit_of_isUpper hupper]
      rw [splitCapitals, splitCapitals, if_neg hnot]
  · rfl

/-- A pass over the words keeps the first character. -/
lemma head?_splitWords (n : ℕ) (s : Str) : (splitWords n s).head? = s.head? := by
  cases s with
  | nil =>
    cases n <;> rfl
  | cons c s =>
    cases n with
    | succ n => rfl
    | zero =>
      cases s with
      | nil => rfl
      | cons u t =>
        rw [splitWords]
        split_ifs <;> rfl

/-- The first pass has no more to copy than small letters, and copies one at least behind the
capital letter. -/
def Copying (n : ℕ) (p : Char) (s : Str) : Prop :=
  (∀ c ∈ s.take n, c.isLower = true) ∧ n ≤ s.length ∧ (n = 0 → p.isLower = true)

/-- A capital letter in front of small ones that the first pass takes begins a word. -/
lemma startsWord_of_match {p u : Char} {t : Str} (hline : p ≠ '\n') (hupper : u.isUpper = true)
    (hlower : t.takeWhile Char.isLower ≠ []) : startsWord (some p) u t.head? = true := by
  have hnext : t.head?.any Char.isLower = true := by
    cases t with
    | nil => simp at hlower
    | cons c t =>
      by_contra hc
      exact hlower (List.takeWhile_cons_of_neg (by simpa using hc))
  simp [startsWord, hupper, hline, hnext]

/-- Where the first pass takes nothing, a capital letter begins a word behind a small letter or a
digit. -/
lemma startsWord_of_no_match {p u : Char} {t : Str}
    (h : ¬ (p ≠ '\n' ∧ u.isUpper = true ∧ t.takeWhile Char.isLower ≠ [])) :
    startsWord (some p) u t.head? = true ↔ (p.isLower ∨ p.isDigit) ∧ u.isUpper = true := by
  unfold startsWord
  cases t with
  | nil => simp [and_comm]
  | cons c t =>
    have hnot : u.isUpper = true → p ≠ '\n' → c.isLower = false := by
      intro hupper hline
      by_contra hlower
      rw [Bool.not_eq_false] at hlower
      refine h ⟨hline, hupper, ?_⟩
      rw [List.takeWhile_cons_of_pos hlower]
      exact List.cons_ne_nil _ _
    by_cases hupper : u.isUpper = true
    · by_cases hline : p = '\n'
      · simp [hupper, hline]
      · simp [hupper, hnot hupper hline]
    · simp [hupper]

/-- Behind a match the first pass copies the small letters. -/
lemma copying_takeWhile {u : Char} {t : Str} (hlower : t.takeWhile Char.isLower ≠ []) :
    Copying (t.takeWhile Char.isLower).length u t := by
  refine ⟨fun c hc => ?_, (List.takeWhile_sublist _).length_le, fun hzero => ?_⟩
  · rw [← List.prefix_iff_eq_take.mp (List.takeWhile_prefix _)] at hc
    exact List.mem_takeWhile_imp hc
  · exact absurd (List.eq_nil_of_length_eq_zero hzero) hlower

/-- The two passes behind a character, which the first one copies or takes for a new match. -/
lemma splitCapitals_splitWords_cons (p : Char) (s : Str) :
    splitCapitals false (splitWords 0 (p :: s)) = p :: breakCapitals (some p) s ∧
      ∀ n, Copying n p s →
        splitCapitals false (splitWords (n + 1) (p :: s)) = p :: breakCapitals (some p) s := by
  induction s generalizing p with
  | nil =>
    refine ⟨by simp [splitWords, splitCapitals, breakCapitals], fun n _ => ?_⟩
    cases n <;> simp [splitWords, splitCapitals, breakCapitals]
  | cons u t ih =>
    obtain ⟨hmatch, hcopy⟩ := ih u
    constructor
    · rw [splitWords]
      split_ifs with h
      · obtain ⟨hline, hupper, hlower⟩ := h
        rw [splitCapitals_cons, if_neg (by simp), splitCapitals_cons,
          if_neg fun hcase => absurd hcase.1 (by decide), Nat.add_comm,
          hcopy _ (copying_takeWhile hlower), breakCapitals,
          if_pos (startsWord_of_match hline hupper hlower)]
      · rw [splitCapitals_cons, head?_splitWords, hmatch, breakCapitals]
        have hstarts := startsWord_of_no_match h
        rw [List.head?_cons, Option.any_some]
        by_cases hcase : (p.isLower ∨ p.isDigit) ∧ u.isUpper = true
        · rw [if_pos hcase, if_pos (hstarts.mpr hcase)]
        · rw [if_neg hcase, if_neg (mt hstarts.mp hcase)]
    · intro n hcopying
      rw [splitWords, splitCapitals_cons, head?_splitWords, breakCapitals]
      cases n with
      | zero =>
        have hlower := hcopying.2.2 rfl
        have hstarts : startsWord (some p) u t.head? = u.isUpper := by
          simp [startsWord, hlower]
        rw [hmatch, hstarts]
        cases hupper : u.isUpper with
        | false => simp [hupper]
        | true => simp [hlower, hupper]
      | succ n =>
        have hlower : u.isLower = true := hcopying.1 u (by simp)
        have hupper : u.isUpper = false := by
          by_contra hupper
          rw [Bool.not_eq_false] at hupper
          rw [not_isLower_of_isUpper hupper] at hlower
          cases hlower
        have hstarts : startsWord (some p) u t.head? = false := by
          simp [startsWord, hupper]
        rw [hcopy n ⟨fun c hc => hcopying.1 c (by simp [hc]),
          by simpa using hcopying.2.1, fun _ => hlower⟩, hstarts]
        simp [hupper]

/-- The two passes mark the capital letters that begin a word. -/
lemma splitCapitals_splitWords (s : Str) :
    splitCapitals false (splitWords 0 s) = breakCapitals none s := by
  cases s with
  | nil => rfl
  | cons p s =>
    rw [(splitCapitals_splitWords_cons p s).1, breakCapitals, if_neg (by simp [startsWord])]

end Capitals

section Words

/-- A character that separates words is no capital letter. -/
lemma not_isUpper_of_isBreak {c : Char} (h : isBreak c = true) : c.isUpper = false := by
  by_contra hupper
  rw [Bool.not_eq_false, Char.isUpper, decide_eq_true_eq] at hupper
  have hlow : 65 ≤ c.toNat := UInt32.le_iff_toNat_le.mp hupper.1
  have hhigh : c.toNat ≤ 90 := UInt32.le_iff_toNat_le.mp hupper.2
  have hdash : c ≠ '-' := by
    rintro rfl
    exact absurd hlow (by decide)
  have hdot : c ≠ '.' := by
    rintro rfl
    exact absurd hlow (by decide)
  have hspace : isSpace c = false := by
    grind [isSpace]
  simp [isBreak, hdash, hdot, hspace] at h

/-- A character that starts a word does not separate words. -/
lemma not_isBreak_of_startsWord {prev next : Option Char} {c : Char}
    (h : startsWord prev c next = true) : isBreak c = false := by
  by_contra hbreak
  rw [Bool.not_eq_false] at hbreak
  rw [startsWord, not_isUpper_of_isBreak hbreak] at h
  cases h

/-- A text has at least one word. -/
lemma wordsFrom_ne_nil (prev : Option Char) (s : Str) : wordsFrom prev s ≠ [] := by
  induction s generalizing prev with
  | nil => exact List.cons_ne_nil _ _
  | cons c s ih =>
    have hcons : ∀ words, consHead c words ≠ [] := fun words => by cases words <;> simp [consHead]
    rw [wordsFrom]
    split_ifs
    · exact ih _
    · exact List.cons_ne_nil _ _
    · exact List.cons_ne_nil _ _
    · exact List.cons_ne_nil _ _
    · exact hcons _

/-- A character in front of the first word is in front of the joined words. -/
lemma join_consHead {c : Char} {words : List Str} (h : words ≠ []) :
    join ['_'] (consHead c words) = c :: join ['_'] words := by
  cases words with
  | nil => exact absurd rfl h
  | cons word words =>
    cases words with
    | nil => rw [consHead, join_singleton, join_singleton]
    | cons word' words =>
      rw [consHead, join_cons (List.cons_ne_nil _ _), join_cons (List.cons_ne_nil _ _),
        List.cons_append]

/-- The words of a text contain no underscore. -/
lemma underscore_not_mem_wordsFrom {prev : Option Char} {s word : Str}
    (h : word ∈ wordsFrom prev s) : '_' ∉ word := by
  induction s generalizing prev word with
  | nil =>
    rw [wordsFrom, List.mem_singleton] at h
    rw [h]
    exact List.not_mem_nil
  | cons c s ih =>
    have hnil : ∀ {words : List Str}, (∀ w ∈ words, '_' ∉ w) → word ∈ [] :: words → '_' ∉ word := by
      intro words hwords hmem
      rcases List.mem_cons.mp hmem with rfl | hmem
      · exact List.not_mem_nil
      · exact hwords _ hmem
    have hhead : c ≠ '_' → ∀ {w : Str}, w ∈ consHead c (wordsFrom (some c) s) → '_' ∉ w := by
      intro hc w hw
      cases hwords : wordsFrom (some c) s with
      | nil => exact absurd hwords (wordsFrom_ne_nil _ _)
      | cons first words =>
        rw [hwords] at hw
        rcases List.mem_cons.mp hw with rfl | hw
        · have hfirst : '_' ∉ first := @ih (some c) first (hwords ▸ List.mem_cons_self)
          rw [List.mem_cons, not_or]
          exact ⟨fun heq => hc heq.symm, hfirst⟩
        · exact @ih (some c) w (hwords ▸ List.mem_cons_of_mem _ hw)
    rw [wordsFrom] at h
    split_ifs at h with hbreak hrun hunderscore hstarts
    · exact ih h
    · exact hnil (fun w hw => ih hw) h
    · exact hnil (fun w hw => ih hw) h
    · exact hnil (fun w hw => hhead hunderscore hw) h
    · exact hhead hunderscore h

/-- The last pass joins the words with underscores. -/
lemma joinWords_breakCapitals (prev : Option Char) (s : Str) :
    joinWords (prev.any isBreak) (breakCapitals prev s) = join ['_'] (wordsFrom prev s) := by
  have hseparator (c : Char) : (isSpace c ∨ c = '-' ∨ c = '.') ↔ isBreak c = true := by
    simp [isBreak, or_assoc]
  induction s generalizing prev with
  | nil => rw [breakCapitals, joinWords, wordsFrom, join_singleton]
  | cons c s ih =>
    have hrest : joinWords (isBreak c) (breakCapitals (some c) s) =
        join ['_'] (wordsFrom (some c) s) := ih (some c)
    have hwords := wordsFrom_ne_nil (some c) s
    have hcons : consHead c (wordsFrom (some c) s) ≠ [] := by
      cases wordsFrom (some c) s <;> simp [consHead]
    rw [breakCapitals, wordsFrom]
    by_cases hstarts : startsWord prev c s.head? = true
    · have hbreak := not_isBreak_of_startsWord hstarts
      have hunderscore : c ≠ '_' := by
        rintro rfl
        cases hstarts
      rw [hbreak] at hrest
      rw [if_pos hstarts, if_neg (by simp [hbreak]), if_neg hunderscore, if_pos hstarts, joinWords,
        if_neg (by decide), joinWords, if_neg (by simp [hseparator, hbreak]), hrest,
          join_cons hcons,
        join_consHead hwords, List.nil_append]
    · rw [if_neg hstarts, joinWords]
      by_cases hbreak : isBreak c = true
      · rw [hbreak] at hrest
        rw [if_pos ((hseparator c).mpr hbreak), if_pos hbreak, hrest]
        split_ifs
        · rfl
        · rw [join_cons hwords, List.nil_append]
      · rw [Bool.not_eq_true] at hbreak
        rw [hbreak] at hrest
        rw [if_neg (by simp [hseparator, hbreak]), if_neg (by simp [hbreak]), hrest]
        by_cases hunderscore : c = '_'
        · rw [if_pos hunderscore, join_cons hwords, hunderscore, List.nil_append]
        · rw [if_neg hunderscore, if_neg hstarts, join_consHead hwords]

end Words

section Strip

variable {words : List Str}

/-- A character of joined words is an underscore or one of a word. -/
lemma exists_of_mem_join {c : Char} (h : c ∈ join ['_'] words) :
    c = '_' ∨ ∃ word ∈ words, c ∈ word := by
  induction words with
  | nil => exact absurd h List.not_mem_nil
  | cons word words ih =>
    cases words with
    | nil =>
      rw [join_singleton] at h
      exact Or.inr ⟨word, List.mem_cons_self, h⟩
    | cons word' words =>
      rw [join_cons (List.cons_ne_nil _ _), List.mem_append, List.mem_cons] at h
      rcases h with h | h | h
      · exact Or.inr ⟨word, List.mem_cons_self, h⟩
      · exact Or.inl h
      · rcases ih h with h | ⟨w, hw, hc⟩
        · exact Or.inl h
        · exact Or.inr ⟨w, List.mem_cons_of_mem _ hw, hc⟩

/-- Leading underscores of joined words come from empty words. -/
lemma dropWhile_join (h : ∀ word ∈ words, '_' ∉ word) :
    (join ['_'] words).dropWhile (· == '_') = join ['_'] (words.dropWhile (· = [])) := by
  induction words with
  | nil => rfl
  | cons word words ih =>
    rw [List.forall_mem_cons] at h
    cases word with
    | nil =>
      rw [List.dropWhile_cons_of_pos (by simp), ← ih h.2]
      cases words with
      | nil => rfl
      | cons word words =>
        rw [join_cons (List.cons_ne_nil _ _), List.nil_append, List.dropWhile_cons_of_pos (by simp)]
    | cons c word =>
      have hc : c ≠ '_' := fun heq => h.1 (heq ▸ List.mem_cons_self)
      rw [List.dropWhile_cons_of_neg (by simp)]
      cases words with
      | nil => rw [join_singleton, List.dropWhile_cons_of_neg (by simpa using hc)]
      | cons word' words =>
        rw [join_cons (List.cons_ne_nil _ _), List.cons_append,
          List.dropWhile_cons_of_neg (by simpa using hc)]

/-- Joined words backwards are the words backwards in the other order. -/
lemma reverse_join (words : List Str) :
    (join ['_'] words).reverse = join ['_'] (words.map List.reverse).reverse := by
  induction words with
  | nil => rfl
  | cons word words ih =>
    cases words with
    | nil => rw [join_singleton, List.map_singleton, List.reverse_singleton, join_singleton]
    | cons word' words =>
      have hne : (List.map List.reverse (word' :: words)).reverse ≠ [] := by simp
      have hlast : (List.map List.reverse (word :: word' :: words)).reverse =
          (List.map List.reverse (word' :: words)).reverse ++ [word.reverse] := List.reverse_cons
      rw [join_cons (List.cons_ne_nil _ _), List.reverse_append, List.reverse_cons, ih, hlast,
        join_concat hne, List.append_assoc, List.singleton_append]

/-- To strip underscores is to leave out the empty words at the ends. -/
lemma strip_join (h : ∀ word ∈ words, '_' ∉ word) :
    strip '_' (join ['_'] words) = join ['_'] (trimWords words) := by
  have hfront : ∀ word ∈ ((words.dropWhile (· = [])).map List.reverse).reverse, '_' ∉ word := by
    intro word hword
    obtain ⟨w, hw, rfl⟩ := List.mem_map.mp (List.mem_reverse.mp hword)
    rw [List.mem_reverse]
    exact h w ((List.dropWhile_sublist _).subset hw)
  have hempty : ((fun word : Str => decide (word = [])) ∘ List.reverse) =
      fun word : Str => decide (word = []) := by
    funext word
    rw [Function.comp_apply, decide_eq_decide]
    exact List.reverse_eq_nil_iff
  have hreverse : ((words.dropWhile (· = [])).map List.reverse).reverse =
      (words.dropWhile (· = [])).reverse.map List.reverse := List.map_reverse.symm
  unfold strip trimWords
  rw [dropWhile_join h, List.rdropWhile, reverse_join, dropWhile_join hfront, reverse_join,
    hreverse, List.dropWhile_map, hempty, List.map_map, List.reverse_involutive.comp_self,
    List.map_id]
  rfl

/-- Trimming adds no words. -/
lemma trimWords_subset : trimWords words ⊆ words := fun _ h =>
  (List.dropWhile_sublist _).subset ((List.rdropWhile_prefix _ _).subset h)

/-- A word is left when any is. -/
lemma exists_ne_nil_of_trimWords (h : trimWords words ≠ []) :
    ∃ word ∈ trimWords words, word ≠ [] := by
  refine ⟨_, List.getLast_mem h, fun hlast => ?_⟩
  exact List.rdropWhile_last_not _ _ h (decide_eq_true hlast)

end Strip

/-! ## The column names -/

/-- The conversion to lower case neither makes an underscore nor looks across one. -/
structure KeepsUnderscores (cm : CaseMap) : Prop where
  append : ∀ s t, cm.lower (s ++ '_' :: t) = cm.lower s ++ '_' :: cm.lower t
  mem : ∀ s, '_' ∈ cm.lower s → '_' ∈ s

/-- The conversion of ASCII letters keeps underscores. -/
lemma keepsUnderscores_ascii : KeepsUnderscores .ascii where
  append s t := by simp [CaseMap.ascii]
  mem s h := by
    obtain ⟨c, hc, hlower⟩ := List.mem_map.mp h
    unfold Char.toLower at hlower
    split_ifs at hlower with hupper
    · have hval : (c.val + 32).toNat = 95 := congrArg (fun c => c.val.toNat) hlower
      have hlow := UInt32.le_iff_toNat_le.mp hupper.1
      have hhigh := UInt32.le_iff_toNat_le.mp hupper.2
      rw [UInt32.toNat_add] at hval
      change 65 ≤ c.val.toNat at hlow
      change c.val.toNat ≤ 90 at hhigh
      change (c.val.toNat + 32) % 2 ^ 32 = 95 at hval
      omega
    · exact hlower ▸ hc

section Names

variable {cm : CaseMap} (hlower : KeepsUnderscores cm)
include hlower

/-- Joined words in lower case are the words in lower case. -/
lemma lower_join (words : List Str) :
    cm.lower (join ['_'] words) = join ['_'] (words.map cm.lower) := by
  induction words with
  | nil => exact cm.lower_nil
  | cons word words ih =>
    cases words with
    | nil => rw [join_singleton, List.map_singleton, join_singleton]
    | cons word' words =>
      have hne : (word' :: words).map cm.lower ≠ [] := by simp
      rw [join_cons (List.cons_ne_nil _ _), hlower.append, ih]
      exact (join_cons hne).symm

/-- A word in lower case has no underscore. -/
lemma underscore_not_mem_lower {s word : Str} (h : word ∈ (wordsFrom none s).map cm.lower) :
    '_' ∉ word := by
  obtain ⟨w, hw, rfl⟩ := List.mem_map.mp h
  exact fun hmem => underscore_not_mem_wordsFrom hw (hlower.mem w hmem)

/-- **The column name of a header** is its words, joined with underscores. -/
theorem toSnakeCase_eq_join (name : Str) :
    toSnakeCase cm name = join ['_'] (headerWords cm name) := by
  have hjoin := joinWords_breakCapitals none (stripSpaces (removeMarkers 0 name))
  rw [Option.any_none] at hjoin
  unfold toSnakeCase headerWords
  dsimp only
  rw [splitCapitals_splitWords, hjoin, lower_join hlower,
    strip_join fun word hword => underscore_not_mem_lower hlower hword]

/-- A word of a header has no underscore. -/
lemma underscore_not_mem_headerWords {name word : Str} (h : word ∈ headerWords cm name) :
    '_' ∉ word := underscore_not_mem_lower hlower (trimWords_subset h)

/-- Headers with words have the same column name when they have the same words. -/
lemma headerWords_eq_of_toSnakeCase_eq {name name' : Str} (hname : headerWords cm name ≠ [])
    (hname' : headerWords cm name' ≠ []) (h : toSnakeCase cm name = toSnakeCase cm name') :
    headerWords cm name = headerWords cm name' := by
  rw [toSnakeCase_eq_join hlower, toSnakeCase_eq_join hlower] at h
  rw [← split_join (fun word hword => underscore_not_mem_headerWords hlower hword) hname, h,
    split_join (fun word hword => underscore_not_mem_headerWords hlower hword) hname']

end Names

/-! ## Legal and distinct names -/

/-- The name is not empty and consists of small letters, digits and underscores. -/
def LegalName (name : Str) : Prop := name ≠ [] ∧ ∀ c ∈ name, c.isLower ∨ c.isDigit ∨ c = '_'

/-- The names of the columns are legal and distinct. -/
structure ValidColumns (names : List Str) : Prop where
  legal : ∀ name ∈ names, LegalName name
  nodup : names.Nodup

/-- The definitions of the columns in the statement that creates the table. `simpleString` names the
types. -/
def columnDefinitions (simpleString : SparkType → Str) (fields : List SparkField) : List Str :=
  fields.map fun field => stripSpaces ('`' :: field.name ++ "` ".toList ++
    simpleString field.dataType ++ ' ' :: if field.nullable then [] else "NOT NULL".toList)

/-- The name between the quotes of a definition. -/
def quotedName (definition : Str) : Str := (definition.drop 1).takeWhile (· ≠ '`')

/-- The columns of a table are valid, in the schema and in the statement that creates it. -/
def CreatesTable (names : List Str) : Prop :=
  ValidColumns names ∧ ∀ simpleString fields, fields.map SparkField.name = names →
    ValidColumns ((columnDefinitions simpleString fields).map quotedName)

/-- Every header has words of small letters and digits, when in lower case, and no two headers have
the same ones. -/
structure ReadableHeaders (cm : CaseMap) (headers : List Str) : Prop where
  hasWord : ∀ name ∈ headers, headerWords cm name ≠ []
  letters : ∀ name ∈ headers, ∀ word ∈ headerWords cm name, ∀ c ∈ word, c.isLower ∨ c.isDigit
  nodup : (headers.map (headerWords cm)).Nodup

section Valid

variable {cm : CaseMap}

/-- Nothing is dropped in front of a character that stays. -/
lemma rdropWhile_append_cons {p : Char → Bool} {c : Char} (hc : p c = false) (s t : Str) :
    (s ++ c :: t).rdropWhile p = s ++ c :: t.rdropWhile p := by
  rw [List.rdropWhile, List.reverse_append, List.reverse_cons, List.append_assoc,
    List.singleton_append, List.dropWhile_append, List.rdropWhile]
  split_ifs with hempty
  · rw [List.isEmpty_iff.mp hempty, List.dropWhile_cons_of_neg (by simp [hc])]
    simp
  · simp

/-- The name of a column is read back from its definition. -/
lemma quotedName_definition {name : Str} (h : '`' ∉ name) (rest : Str) :
    quotedName (stripSpaces ('`' :: (name ++ '`' :: rest))) = name := by
  have hquote : isSpace '`' = false := by decide
  unfold quotedName stripSpaces
  rw [List.dropWhile_cons_of_neg (by simp [hquote]), ← List.cons_append,
    rdropWhile_append_cons hquote, List.cons_append, List.drop_one, List.tail_cons,
    List.takeWhile_append_of_pos, List.takeWhile_cons_of_neg (by simp), List.append_nil]
  intro c hc
  have hne : c ≠ '`' := fun heq => h (heq ▸ hc)
  simpa using hne

/-- The statement that creates the table declares the columns of the schema. -/
lemma createsTable_iff {names : List Str} : CreatesTable names ↔ ValidColumns names := by
  refine ⟨And.left, fun h => ⟨h, fun simpleString fields hfields => ?_⟩⟩
  have hnames : (columnDefinitions simpleString fields).map quotedName = names := by
    unfold columnDefinitions
    rw [← hfields, List.map_map]
    refine List.map_congr_left fun field hfield => ?_
    have hlegal := h.legal field.name (hfields ▸ List.mem_map_of_mem hfield)
    have hquote : '`' ∉ field.name := fun hmem => absurd (hlegal.2 '`' hmem) (by decide)
    rw [Function.comp_apply, List.cons_append, List.cons_append, List.cons_append,
      List.append_assoc, List.append_assoc]
    exact quotedName_definition hquote _
  rw [hnames]
  exact h

/-- A converted header is legal when it has words, all of small letters and digits. -/
lemma legalName_toSnakeCase_iff (hlower : KeepsUnderscores cm) {name : Str} :
    LegalName (toSnakeCase cm name) ↔ headerWords cm name ≠ [] ∧
      ∀ word ∈ headerWords cm name, ∀ c ∈ word, c.isLower ∨ c.isDigit := by
  rw [toSnakeCase_eq_join hlower]
  constructor
  · rintro ⟨hne, hlegal⟩
    refine ⟨fun hnil => hne (by rw [hnil]; rfl), fun word hword c hc => ?_⟩
    rcases hlegal c (mem_join hword hc) with h | h | rfl
    · exact Or.inl h
    · exact Or.inr h
    · exact absurd hc (underscore_not_mem_headerWords hlower hword)
  · rintro ⟨hne, hletters⟩
    obtain ⟨word, hword, hwordNe⟩ := exists_ne_nil_of_trimWords hne
    obtain ⟨c, hc⟩ := List.exists_mem_of_ne_nil word hwordNe
    refine ⟨List.ne_nil_of_mem (mem_join hword hc), fun c hc => ?_⟩
    rcases exists_of_mem_join hc with h | ⟨w, hw, hc⟩
    · exact Or.inr (Or.inr h)
    · exact (hletters w hw c hc).imp_right Or.inl

/-- The column names of some headers are valid exactly when the headers are readable. -/
lemma validColumns_toSnakeCase_iff (hlower : KeepsUnderscores cm) {headers : List Str} :
    ValidColumns (headers.map (toSnakeCase cm)) ↔ ReadableHeaders cm headers := by
  constructor
  · rintro ⟨hlegal, hnodup⟩
    rw [List.forall_mem_map] at hlegal
    have hwords := fun name hname => (legalName_toSnakeCase_iff hlower).mp (hlegal name hname)
    refine ⟨fun name hname => (hwords name hname).1, fun name hname => (hwords name hname).2, ?_⟩
    have hnames : (headers.map (headerWords cm)).map (join ['_']) =
        headers.map (toSnakeCase cm) := by
      rw [List.map_map]
      exact List.map_congr_left fun name _ => (toSnakeCase_eq_join hlower name).symm
    rw [← hnames] at hnodup
    exact hnodup.of_map
  · intro h
    refine ⟨List.forall_mem_map.mpr fun name hname =>
      (legalName_toSnakeCase_iff hlower).mpr ⟨h.hasWord name hname, h.letters name hname⟩, ?_⟩
    refine List.Nodup.map_on (fun a ha b hb heq => ?_) h.nodup.of_map
    exact List.inj_on_of_nodup_map h.nodup ha hb
      (headerWords_eq_of_toSnakeCase_eq hlower (h.hasWord a ha) (h.hasWord b hb) heq)

end Valid

/-! ## The two paths -/

section Paths

variable {J : Type*} {cm : CaseMap} {key : Str → Str} {header : CsvHeader key}

/-- No header is, for Spark, the name that the words of an earlier header make. -/
def NoneTaken (cm : CaseMap) (key : Str → Str) (headers : List Str) : Prop :=
  headers.Pairwise fun name name' => key (join ['_'] (headerWords cm name)) ≠ key name'

/-- All columns of a header are renamed to their converted names. -/
lemma sanitizeColumns_eq : sanitizeColumns cm key header =
    renameAll key (header.names.map fun name => (name, ColumnExpr.source name))
      (header.names.map fun name => (name, toSnakeCase cm name)) := by
  unfold sanitizeColumns renameAll CsvHeader.frame
  rw [List.foldl_map]

/-- The columns that are renamed one after the other are valid when the headers are readable and no
renaming meets a column that has been renamed before. -/
lemma validColumns_sanitizeColumns_iff (hlower : KeepsUnderscores cm) :
    ValidColumns ((sanitizeColumns cm key header).map Prod.fst) ↔
      ReadableHeaders cm header.names ∧ NoneTaken cm key header.names := by
  have hfree : (header.names.Pairwise fun name name' => key (toSnakeCase cm name) ≠ key name') ↔
      NoneTaken cm key header.names := by
    simp only [NoneTaken, toSnakeCase_eq_join hlower]
  have hnames (h : NoneTaken cm key header.names) :
      (sanitizeColumns cm key header).map Prod.fst = header.names.map (toSnakeCase cm) := by
    rw [sanitizeColumns_eq, renameAll_map header.nodup (hfree.mpr h), List.map_map]
    rfl
  constructor
  · intro h
    have hnodup := h.nodup
    rw [sanitizeColumns_eq, nodup_renameAll_iff header.nodup] at hnodup
    have htaken := hfree.mp hnodup.1
    rw [hnames htaken] at h
    exact ⟨(validColumns_toSnakeCase_iff hlower).mp h, htaken⟩
  · rintro ⟨hreadable, htaken⟩
    rw [hnames htaken]
    exact (validColumns_toSnakeCase_iff hlower).mpr hreadable

/-- **The sanitised headers.** The columns of a publication without a schema and those of a
technical log are legal and distinct exactly when the headers have words of letters and digits, no
two of them have the same words, and no header is the name of an earlier one. -/
theorem sanitisedHeaders_iff (hlower : KeepsUnderscores cm)
    {load : List Str → Option (CsvHeader key)} {landingBucket : Str}
    {publications : Dict Str (List FormattedColumn)} {s3Keys : List Str} {fmsName : Str}
    (hkeys : s3Keys ≠ []) (hget : publications.get? fmsName = some [])
    (hload : load (s3Keys.map (s3aPath landingBucket)) = some header)
    (src : SchemaSources J) (endpoint : Str) {fields : List SparkField}
    (hfields : fields.map SparkField.name = header.names) :
    ((∃ frame, LandingCsvReader.readLandingCsvDataset cm key load landingBucket publications
        s3Keys fmsName = .ok frame ∧ CreatesTable (frame.map Prod.fst)) ∧
        CreatesTable ((fields.map (technicalField cm src endpoint)).map SparkField.name)) ↔
      ReadableHeaders cm header.names ∧ NoneTaken cm key header.names := by
  have hread :
      LandingCsvReader.readLandingCsvDataset cm key load landingBucket publications s3Keys fmsName =
      .ok (sanitizeColumns cm key header) := by
    unfold LandingCsvReader.readLandingCsvDataset
    rw [if_neg hkeys, hget]
    dsimp only
    rw [hload]
    dsimp only
    rw [if_pos rfl]
  have htechnical : (fields.map (technicalField cm src endpoint)).map SparkField.name =
      header.names.map (toSnakeCase cm) := by
    rw [← hfields, List.map_map, List.map_map]
    rfl
  rw [htechnical, createsTable_iff, validColumns_toSnakeCase_iff hlower]
  constructor
  · rintro ⟨⟨frame, hframe, hcreates⟩, -⟩
    rw [hread, Except.ok.injEq] at hframe
    rw [← hframe, createsTable_iff, validColumns_sanitizeColumns_iff hlower] at hcreates
    exact hcreates
  · intro h
    exact ⟨⟨_, hread, createsTable_iff.mpr ((validColumns_sanitizeColumns_iff hlower).mpr h)⟩, h.1⟩

end Paths

/-! ### Two units -/

/-- The header of a file with a value and its time. -/
def loadHeader : CsvHeader id where
  names := ["DateTime(UTC)".toList, "TotalLoadValue[MW]".toList]
  ne_nil := by decide
  nodup := by decide

/-- The columns of this file. -/
def loadFields : List SparkField :=
  [⟨"DateTime(UTC)".toList, .timestamp, true, ∅⟩, ⟨"TotalLoadValue[MW]".toList, .double, true, ∅⟩]

/-- The header of a file with one price in two units. -/
def twoUnitsHeader : CsvHeader id where
  names := ["Price [EUR/MWh]".toList, "Price [EUR/MW]".toList]
  ne_nil := by decide
  nodup := by decide

/-- The read of a file of a publication without columns. -/
def readInferred (header : CsvHeader id) : Except ReadError (Frame Str ColumnExpr) :=
  LandingCsvReader.readLandingCsvDataset .ascii id (fun _ => some header) "landing-zone".toList
    (Dict.ofList [("Prices_r3".toList, [])]) ["iop/TP_export/Market/Prices_r3/2026_04.csv".toList]
    "Prices_r3".toList

/-- A value and its time make a table. -/
theorem sanitisedHeaders_load : ∃ frame, readInferred loadHeader = .ok frame ∧
    CreatesTable (frame.map Prod.fst) := by
  have hfields : loadFields.map SparkField.name = loadHeader.names := rfl
  have hwords : loadHeader.names.map (headerWords .ascii) =
      [["date".toList, "time".toList], ["total".toList, "load".toList, "value".toList]] := by
    decide +kernel
  have hletters : (loadHeader.names.all fun name => (headerWords .ascii name).all fun word =>
      word.all fun c => c.isLower || c.isDigit) = true := by
    decide +kernel
  simp only [List.all_eq_true, Bool.or_eq_true] at hletters
  refine ((sanitisedHeaders_iff keepsUnderscores_ascii (List.cons_ne_nil _ _) rfl rfl bareSources
    "Export_log_r3.csv".toList hfields).mpr ⟨⟨?_, ?_, ?_⟩, ?_⟩).1
  · decide +kernel
  · exact hletters
  · rw [hwords]
    decide
  · have hname : join ['_'] (headerWords .ascii "DateTime(UTC)".toList) = "date_time".toList := by
      decide +kernel
    refine List.pairwise_pair.mpr ?_
    rw [hname]
    decide

/-- One price in two units gives the same column name twice, and a header that is only a unit gives
an empty one. -/
theorem not_sanitisedHeaders_units :
    (∀ frame, readInferred twoUnitsHeader = .ok frame → ¬ CreatesTable (frame.map Prod.fst)) ∧
      toSnakeCase .ascii "[MW]".toList = [] := by
  have hframe : readInferred twoUnitsHeader =
      .ok [("price".toList, .source "Price [EUR/MWh]".toList),
        ("price".toList, .source "Price [EUR/MW]".toList)] := by decide +kernel
  refine ⟨fun frame hread hcreates => ?_, by decide +kernel⟩
  rw [hframe, Except.ok.injEq] at hread
  have hnodup := hcreates.1.nodup
  rw [← hread] at hnodup
  revert hnodup
  decide +kernel

end EntsoePipeline
