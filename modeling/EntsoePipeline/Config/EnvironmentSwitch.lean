import EntsoePipeline.Py.Str
import EntsoePipeline.Lib.Greedy

set_option relaxedAutoImplicit false
set_option autoImplicit false

/-!
# The switch of the environment

The switch replaces a word behind the key of the active environment in the text of the environment
file. White space may be between the key and the word, over any number of lines, and a quote in
front of the word.

## Main definitions

* `EntsoePipeline.switchEnvironment` — the switch.
* `EntsoePipeline.Cut`, `EntsoePipeline.cut` — a text around its first word.
* `EntsoePipeline.switchLines` — what the switch does to the lines of a text.

## Main results

* `EntsoePipeline.matchItems_activePattern` — the pattern cuts the text behind a key.
* `EntsoePipeline.split_switchContent` — the switch works line by line.
* `EntsoePipeline.switchContent_switchContent` — the last of two switches counts.

## Implementation notes

Which characters are word characters for a regular expression is a parameter. No space is one, and
among the ASCII characters they are the letters, the digits and the underscore.
-/

namespace EntsoePipeline

open Py Greedy

/-! ## The code -/

/-- The environment to switch to: one of the names that the command line accepts. -/
inductive Target
  /-- The production environment. -/
  | prod
  /-- The test environment. -/
  | iop
  deriving DecidableEq

/-- The name of an environment. -/
def Target.name : Target → Str
  | .prod => "PROD".toList
  | .iop => "IOP".toList

/-- The key of the active environment. -/
def activeKey : Str := "active_environment".toList

/-- The key without quotes, and its colon directly behind it. -/
def plainKey : Str := activeKey ++ [':']

/-- A quote. -/
def isQuote (c : Char) : Bool := c == '"' || c == '\''

/-- The word characters of regular expressions. -/
structure WordClass where
  /-- `\\w`. -/
  isWord : Char → Bool
  isWord_ascii : ∀ c : Char, c.toNat < 128 → isWord c = (c.isAlphanum || c == '_')
  not_isSpace : ∀ c, isWord c = true → isSpace c = false

/-- The ASCII word characters. -/
def WordClass.ascii : WordClass where
  isWord c := c.toNat < 128 && (c.isAlphanum || c == '_')
  isWord_ascii c hc := by simp [hc]
  not_isSpace c hc := by
    simp only [Bool.and_eq_true, decide_eq_true_eq] at hc
    have hall : ∀ n < 128, ((Char.ofNat n).isAlphanum || Char.ofNat n == '_') = true →
        isSpace (Char.ofNat n) = false := by
      decide +kernel
    have hchar := hall c.toNat hc.1
    rw [Char.ofNat_toNat] at hchar
    exact hchar hc.2

/-- The file to switch does not exist. -/
inductive SwitchError
  /-- A `FileNotFoundError`. -/
  | fileNotFound
  deriving DecidableEq

section Code

variable (cls : WordClass)

/-- `^(active_environment:\\s*["']?)\\w+(["']?)`, without its anchor. -/
def activePattern : List (Item Char) :=
  [.text "active_environment:".toList, .many isSpace, .optional isQuote,
    .one cls.isWord, .many cls.isWord, .optional isQuote]

/-- `\\g<1>{target_env}\\g<2>`. -/
def activeTemplate (target : Target) : List Str → Str
  | [key, white, quote, _, _, quote'] => key ++ (white ++ (quote ++ (target.name ++ quote')))
  | _ => []

/-- The text of the file after the switch. -/
def switchContent (target : Target) (content : Str) : Str :=
  substitute '\n' (activePattern cls) (activeTemplate target) true 0 content

/-- The switch writes the file and prints a message. -/
def switchEnvironment (target : Target) (configFile : Option Str) :
    Except SwitchError (Str × Str) :=
  match configFile with
  | none => .error .fileNotFound
  | some content => .ok (switchContent cls target content,
      "[ENV] Successfully switched active environment to ".toList ++ (target.name ++ ['.']))

end Code

/-! ## A line behind its key -/

/-- The quote that a text begins with. -/
def openQuote (s : Str) : Str := (s.take 1).filter isQuote

/-- A text cut around its first word. -/
structure Cut where
  /-- The white space in front. -/
  white : Str
  /-- The quote in front of the word. -/
  quote : Str
  /-- The word; empty when there is something else. -/
  word : Str
  /-- The text behind the word. -/
  tail : Str

section Cut

variable (cls : WordClass)

/-- Cut a text around its first word. -/
def cut (s : Str) : Cut :=
  let value := s.dropWhile isSpace
  let text := value.drop (openQuote value).length
  { white := s.takeWhile isSpace
    quote := openQuote value
    word := text.takeWhile cls.isWord
    tail := text.dropWhile cls.isWord }

/-- Replace the first word of a text. -/
def replaceWord (target : Target) (s : Str) : Str :=
  if (cut cls s).word = [] then s
  else (cut cls s).white ++ ((cut cls s).quote ++ (target.name ++ (cut cls s).tail))

/-- The line has only white space. -/
def isBlank (line : Str) : Bool := line.all isSpace

/-- What the switch does to lines. Its first argument is whether the key was met on a line above and
nothing but white space since. -/
def switchLines (target : Target) : Bool → List Str → List Str
  | _, [] => []
  | true, line :: lines =>
    if isBlank line then line :: switchLines target true lines
    else replaceWord cls target line :: switchLines target false lines
  | false, line :: lines =>
    if plainKey <+: line then
      if isBlank (line.drop plainKey.length) then line :: switchLines target true lines
      else (plainKey ++ replaceWord cls target (line.drop plainKey.length)) ::
        switchLines target false lines
    else line :: switchLines target false lines

end Cut

/-! ### Classes of characters -/

section Classes

variable {cls : WordClass}

/-- The name of a target consists of word characters. -/
lemma isWord_of_mem_name {target : Target} {c : Char} (hc : c ∈ target.name) :
    cls.isWord c = true := by
  have hascii : (target.name.all fun c =>
      decide (c.toNat < 128) && (c.isAlphanum || c == '_')) = true := by
    cases target <;> decide +kernel
  have hchar := List.all_eq_true.mp hascii c hc
  rw [Bool.and_eq_true, decide_eq_true_eq] at hchar
  rw [cls.isWord_ascii c hchar.1]
  exact hchar.2

/-- The name of a target is not empty. -/
lemma name_ne_nil (target : Target) : target.name ≠ [] := by
  cases target <;> decide

/-- White space is no word character. -/
lemma not_isWord_of_isSpace {c : Char} (hc : isSpace c = true) : cls.isWord c = false := by
  by_contra hword
  rw [Bool.not_eq_false] at hword
  rw [cls.not_isSpace c hword] at hc
  cases hc

/-- An ASCII character that is no letter, digit or underscore is no word character. -/
lemma not_isWord_of_ascii {c : Char} (hascii : c.toNat < 128)
    (hc : (c.isAlphanum || c == '_') = false) : cls.isWord c = false := by
  rw [cls.isWord_ascii c hascii, hc]

/-- A quote is no word character. -/
lemma not_isWord_of_isQuote {c : Char} (hc : isQuote c = true) : cls.isWord c = false := by
  rw [isQuote, Bool.or_eq_true, beq_iff_eq, beq_iff_eq] at hc
  rcases hc with rfl | rfl <;> exact not_isWord_of_ascii (by decide) (by decide)

/-- A quote is no white space. -/
lemma not_isSpace_of_isQuote {c : Char} (hc : isQuote c = true) : isSpace c = false := by
  rw [isQuote, Bool.or_eq_true, beq_iff_eq, beq_iff_eq] at hc
  rcases hc with rfl | rfl <;> decide

end Classes

/-! ### The cut of a text -/

section CutLemmas

variable {cls : WordClass} {target : Target}

/-- A text that begins with a quote has it as its opening quote. -/
lemma openQuote_cons_of_pos {c : Char} (hc : isQuote c = true) (s : Str) :
    openQuote (c :: s) = [c] := by
  simp [openQuote, hc]

/-- A text that begins with another character has no opening quote. -/
lemma openQuote_cons_of_neg {c : Char} (hc : isQuote c = false) (s : Str) :
    openQuote (c :: s) = [] := by
  simp [openQuote, hc]

/-- An opening quote is a quote. -/
lemma isQuote_of_mem_openQuote {s : Str} {c : Char} (hc : c ∈ openQuote s) : isQuote c = true :=
  (List.mem_filter.mp hc).2

/-- A text is its opening quote and the rest. -/
lemma openQuote_append_drop (s : Str) : openQuote s ++ s.drop (openQuote s).length = s := by
  cases s with
  | nil => rfl
  | cons c s =>
    cases hc : isQuote c with
    | true =>
      rw [openQuote_cons_of_pos hc]
      rfl
    | false =>
      rw [openQuote_cons_of_neg hc]
      rfl

/-- The parts of a cut are the text. -/
lemma cut_append (s : Str) : (cut cls s).white ++ ((cut cls s).quote ++
    ((cut cls s).word ++ (cut cls s).tail)) = s := by
  simp only [cut]
  rw [List.takeWhile_append_dropWhile, openQuote_append_drop, List.takeWhile_append_dropWhile]

/-- The first part of a cut is white space. -/
lemma isSpace_of_mem_white {s : Str} {c : Char} (hc : c ∈ (cut cls s).white) : isSpace c = true :=
  List.mem_takeWhile_imp hc

/-- The word of a cut consists of word characters. -/
lemma isWord_of_mem_word {s : Str} {c : Char} (hc : c ∈ (cut cls s).word) :
    cls.isWord c = true := List.mem_takeWhile_imp hc

/-- A cut has no quote or one. -/
lemma quote_eq (s : Str) : (cut cls s).quote = [] ∨
    ∃ c, isQuote c = true ∧ (cut cls s).quote = [c] := by
  simp only [cut]
  cases s.dropWhile isSpace with
  | nil => exact .inl rfl
  | cons c t =>
    cases hc : isQuote c with
    | true => exact .inr ⟨c, hc, openQuote_cons_of_pos hc t⟩
    | false => exact .inl (openQuote_cons_of_neg hc t)

/-- The rest of a cut does not begin with a word character. -/
lemma head?_tail (s : Str) : ∀ c ∈ (cut cls s).tail.head?, cls.isWord c = false := by
  intro c hc
  have hnot := List.head?_dropWhile_not cls.isWord
    ((s.dropWhile isSpace).drop (openQuote (s.dropWhile isSpace)).length)
  simp only [cut] at hc
  rw [Option.mem_def.mp hc] at hnot
  exact hnot

/-- White space, at most one quote, a word and a text that does not go on with it are the parts of
their cut. -/
lemma cut_eq {white quote word tail : Str} (hwhite : ∀ c ∈ white, isSpace c = true)
    (hquote : quote = [] ∨ ∃ c, isQuote c = true ∧ quote = [c]) (hne : word ≠ [])
    (hword : ∀ c ∈ word, cls.isWord c = true)
    (htail : ∀ c ∈ tail.head?, cls.isWord c = false) :
    cut cls (white ++ (quote ++ (word ++ tail))) = ⟨white, quote, word, tail⟩ := by
  have htaken : (word ++ tail).takeWhile cls.isWord = word ∧
      (word ++ tail).dropWhile cls.isWord = tail := by
    rw [List.takeWhile_append_of_pos hword, List.dropWhile_append_of_pos hword]
    cases tail with
    | nil => exact ⟨List.append_nil _, rfl⟩
    | cons c tail =>
      have hc : ¬ cls.isWord c = true := by simp [htail c rfl]
      rw [List.takeWhile_cons_of_neg hc, List.dropWhile_cons_of_neg hc]
      exact ⟨List.append_nil _, rfl⟩
  obtain ⟨first, word, rfl⟩ := List.exists_cons_of_ne_nil hne
  have hfirst := hword first List.mem_cons_self
  have hspace : ¬ isSpace first = true := by simp [cls.not_isSpace first hfirst]
  have hfirstQuote : isQuote first = false := by
    by_contra hquote
    rw [Bool.not_eq_false] at hquote
    rw [not_isWord_of_isQuote hquote] at hfirst
    cases hfirst
  rcases hquote with rfl | ⟨c, hc, rfl⟩
  · rw [cut, List.dropWhile_append_of_pos hwhite, List.takeWhile_append_of_pos hwhite,
      List.nil_append, List.cons_append, List.dropWhile_cons_of_neg hspace,
      List.takeWhile_cons_of_neg hspace, openQuote_cons_of_neg hfirstQuote, List.append_nil,
      List.length_nil, List.drop_zero, ← List.cons_append, htaken.1, htaken.2]
  · have hcSpace : ¬ isSpace c = true := by simp [not_isSpace_of_isQuote hc]
    rw [cut, List.dropWhile_append_of_pos hwhite, List.takeWhile_append_of_pos hwhite,
      List.singleton_append, List.dropWhile_cons_of_neg hcSpace,
      List.takeWhile_cons_of_neg hcSpace, openQuote_cons_of_pos hc, List.append_nil,
      List.length_singleton, List.drop_one, List.tail_cons, htaken.1, htaken.2]

/-- The cut of a replaced word has the name of the target for the word. -/
lemma cut_replaceWord {s : Str} (h : (cut cls s).word ≠ []) :
    cut cls (replaceWord cls target s) =
      ⟨(cut cls s).white, (cut cls s).quote, target.name, (cut cls s).tail⟩ := by
  rw [replaceWord, if_neg h]
  exact cut_eq (fun c hc => isSpace_of_mem_white hc) (quote_eq s) (name_ne_nil target)
    (fun c hc => isWord_of_mem_name hc) (head?_tail s)

/-- Behind a word that is replaced, the second replacement replaces the first one. -/
lemma replaceWord_replaceWord (target target' : Target) (s : Str) :
    replaceWord cls target' (replaceWord cls target s) = replaceWord cls target' s := by
  by_cases h : (cut cls s).word = []
  · have hs : replaceWord cls target s = s := if_pos h
    rw [hs]
  · have hcut := @cut_replaceWord cls target s h
    rw [replaceWord, hcut, if_neg (name_ne_nil target), replaceWord, if_neg h]

end CutLemmas

/-! ### The match of the pattern -/

section PatternMatch

variable {cls : WordClass}

/-- The closing quote is matched when there is one. -/
lemma matchItems_closeQuote (s : Str) : matchItems [.optional isQuote] s =
    some ([openQuote s], s.drop (openQuote s).length) := by
  cases s with
  | nil => rfl
  | cons c s =>
    cases hc : isQuote c with
    | true =>
      rw [openQuote_cons_of_pos hc, matchItems, if_pos hc]
      rfl
    | false =>
      rw [openQuote_cons_of_neg hc, matchItems, if_neg (by simp [hc])]
      rfl

/-- A word with its closing quote is matched when it is not empty. -/
lemma matchItems_word (s : Str) :
    matchItems [.one cls.isWord, .many cls.isWord, .optional isQuote] s =
      match s.takeWhile cls.isWord with
      | [] => none
      | c :: word => some ([[c], word, openQuote (s.dropWhile cls.isWord)],
          (s.dropWhile cls.isWord).drop (openQuote (s.dropWhile cls.isWord)).length) := by
  cases s with
  | nil => rfl
  | cons c s =>
    by_cases hc : cls.isWord c = true
    · rw [matchItems, List.takeWhile_cons_of_pos hc, List.dropWhile_cons_of_pos hc]
      dsimp only
      rw [if_pos hc, matchItems, longest_of_some (matchItems_closeQuote _), List.nil_append,
        capture_some]
    · rw [matchItems, List.takeWhile_cons_of_neg hc]
      exact if_neg hc

/-- Behind a quote there is no word before it. -/
lemma matchItems_quote (s : Str) :
    matchItems [.optional isQuote, .one cls.isWord, .many cls.isWord, .optional isQuote] s =
      capture (openQuote s) (matchItems [.one cls.isWord, .many cls.isWord, .optional isQuote]
        (s.drop (openQuote s).length)) := by
  cases s with
  | nil => rfl
  | cons c s =>
    cases hc : isQuote c with
    | true =>
      have hword : ¬ cls.isWord c = true := by simp [not_isWord_of_isQuote hc]
      have hnone : matchItems [.one cls.isWord, .many cls.isWord, .optional isQuote] (c :: s) =
          none := by
        rw [matchItems_word, List.takeWhile_cons_of_neg hword]
      rw [matchItems, openQuote_cons_of_pos hc, if_pos hc, hnone, capture_none, Option.or_none]
      rfl
    | false =>
      rw [matchItems, openQuote_cons_of_neg hc, if_neg (by simp [hc])]
      rfl

/-- The match behind a key is the cut of the text there. -/
lemma matchItems_activePattern (s : Str) :
    matchItems (activePattern cls) (plainKey ++ s) =
      match (cut cls s).word with
      | [] => none
      | c :: word => some ([plainKey, (cut cls s).white, (cut cls s).quote, [c], word,
          openQuote (cut cls s).tail], (cut cls s).tail.drop
            (openQuote (cut cls s).tail).length) := by
  have hinside : ∀ c t, isSpace c = true → matchItems
      [.optional isQuote, .one cls.isWord, .many cls.isWord, .optional isQuote]
        (c :: t) = none := by
    intro c t hc
    have hword : ¬ cls.isWord c = true := by simp [not_isWord_of_isSpace hc]
    have hquote : isQuote c = false := by
      by_contra hquote
      rw [Bool.not_eq_false] at hquote
      rw [not_isSpace_of_isQuote hquote] at hc
      cases hc
    rw [matchItems_quote, openQuote_cons_of_neg hquote, List.length_nil, List.drop_zero,
      matchItems_word, List.takeWhile_cons_of_neg hword, capture_none]
  rw [activePattern, show "active_environment:".toList = plainKey from rfl, matchItems_text,
    matchItems_many hinside, matchItems_quote, matchItems_word]
  simp only [cut]
  cases ((s.dropWhile isSpace).drop (openQuote (s.dropWhile isSpace)).length).takeWhile cls.isWord
    with
  | nil => rfl
  | cons c word => rfl

/-- Without the key the pattern does not match. -/
lemma matchItems_of_no_key {s : Str} (h : ¬ plainKey <+: s) :
    matchItems (activePattern cls) s = none :=
  matchItems_text_of_not_prefix h

end PatternMatch

/-! ### The text of a file, line by line -/

section Simulation

variable {cls : WordClass} {target : Target}

/-- The rest of the text behind a key, after the switch. -/
def switchBehind (cls : WordClass) (target : Target) (s : Str) : Str :=
  if (cut cls s).word = [] then switchContent cls target s
  else (cut cls s).white ++ ((cut cls s).quote ++ (target.name ++
    substitute '\n' (activePattern cls) (activeTemplate target) false 0 (cut cls s).tail))

/-- The key lies in one line. -/
lemma newline_not_mem_plainKey : '\n' ∉ plainKey := by decide

/-- The key of the active environment is a word. -/
lemma isWord_of_mem_activeKey {c : Char} (hc : c ∈ activeKey) : cls.isWord c = true := by
  have hword : (activeKey.all fun c => decide (c.toNat < 128) && (c.isAlphanum || c == '_')) =
      true := by decide +kernel
  have hchar := List.all_eq_true.mp hword c hc
  rw [Bool.and_eq_true, decide_eq_true_eq] at hchar
  rw [cls.isWord_ascii c hchar.1]
  exact hchar.2

/-- A key is itself a word. -/
lemma cut_plainKey (s : Str) : cut cls (plainKey ++ s) = ⟨[], [], activeKey, ':' :: s⟩ := by
  have hcolon : cls.isWord ':' = false := not_isWord_of_ascii (by decide) (by decide)
  have hcut := @cut_eq cls [] [] activeKey (':' :: s) (by simp) (.inl rfl) (by decide)
    (fun c hc => isWord_of_mem_activeKey hc) (by simp [hcolon])
  rw [List.nil_append, List.nil_append] at hcut
  rw [plainKey, List.append_assoc]
  exact hcut

/-- A text with the key has a word in front of its colon. -/
lemma not_prefix_of_no_word {s : Str} (h : (cut cls s).word = []) : ¬ plainKey <+: s := by
  rintro ⟨t, rfl⟩
  rw [cut_plainKey] at h
  have hne : activeKey ≠ [] := by decide
  exact hne h

/-- Where no key is, the line is copied. -/
lemma switchContent_of_no_key {s : Str} (h : ¬ plainKey <+: s) : switchContent cls target s =
    substitute '\n' (activePattern cls) (activeTemplate target) false 0 s :=
  substitute_of_no_match (matchItems_of_no_key h)

/-- A quote is no line break. -/
lemma newline_of_isQuote {c : Char} (hc : isQuote c = true) : c ≠ '\n' := by
  rintro rfl
  exact absurd hc (by decide)

/-- A word character is no line break. -/
lemma newline_of_isWord {c : Char} (hc : cls.isWord c = true) : c ≠ '\n' := by
  rintro rfl
  rw [not_isWord_of_isSpace (by decide)] at hc
  cases hc

/-- Behind a key the first word is replaced. -/
lemma switchContent_plainKey (s : Str) :
    switchContent cls target (plainKey ++ s) = plainKey ++ switchBehind cls target s := by
  have hmatch := @matchItems_activePattern cls s
  rw [switchBehind]
  cases hword : (cut cls s).word with
  | nil =>
    rw [hword] at hmatch
    rw [if_pos rfl, switchContent, substitute_of_no_match hmatch,
      substitute_line newline_not_mem_plainKey,
      switchContent_of_no_key (not_prefix_of_no_word hword)]
  | cons c word =>
    rw [hword] at hmatch
    have hquote : '\n' ∉ openQuote (cut cls s).tail := fun hmem =>
      newline_of_isQuote (isQuote_of_mem_openQuote hmem) rfl
    have htail := @substitute_line _ _ '\n' (activePattern cls) (activeTemplate target) _
      ((cut cls s).tail.drop (openQuote (cut cls s).tail).length) hquote
    rw [openQuote_append_drop] at htail
    -- the match ends with a character of the word or with a quote
    obtain ⟨front, last, hfront⟩ :=
      (List.eq_nil_or_concat' ((c :: word) ++ openQuote (cut cls s).tail)).resolve_left
        (List.append_ne_nil_of_left_ne_nil (List.cons_ne_nil c word) _)
    have hlast : last ≠ '\n' := by
      have hmem : last ∈ (c :: word) ++ openQuote (cut cls s).tail := by
        rw [hfront]
        simp
      rcases List.mem_append.mp hmem with hmem | hmem
      · rw [← hword] at hmem
        exact newline_of_isWord (isWord_of_mem_word hmem)
      · exact newline_of_isQuote (isQuote_of_mem_openQuote hmem)
    have hflatten : [plainKey, (cut cls s).white, (cut cls s).quote, [c], word,
        openQuote (cut cls s).tail].flatten =
        (plainKey ++ ((cut cls s).white ++ ((cut cls s).quote ++ front))) ++ [last] := by
      simp [← hfront]
    rw [if_neg (List.cons_ne_nil _ _), switchContent, substitute_of_match hmatch hflatten hlast,
      htail]
    simp [activeTemplate]

/-! #### Lines -/

/-- A blank line is white space. -/
lemma isBlank_iff {line : Str} : isBlank line = true ↔ ∀ c ∈ line, isSpace c = true :=
  List.all_eq_true

/-- Over a blank line the match goes on. -/
lemma cut_blank {line : Str} (h : isBlank line = true) (s : Str) :
    cut cls (line ++ '\n' :: s) =
      ⟨line ++ '\n' :: (cut cls s).white, (cut cls s).quote, (cut cls s).word,
        (cut cls s).tail⟩ := by
  rw [isBlank_iff] at h
  rw [cut, List.dropWhile_append_of_pos h, List.takeWhile_append_of_pos h,
    List.dropWhile_cons_of_pos (by decide), List.takeWhile_cons_of_pos (by decide)]
  rfl

/-- In a blank line is no word. -/
lemma cut_of_isBlank {line : Str} (h : isBlank line = true) : (cut cls line).word = [] := by
  rw [isBlank_iff] at h
  have hdrop : line.dropWhile isSpace = [] := List.dropWhile_eq_nil_iff.mpr h
  simp only [cut]
  rw [hdrop]
  rfl

/-- A run of characters ends where a text begins that does not go on with it. -/
lemma takeWhile_append_of_head? {p : Char → Bool} {s t : Str}
    (ht : ∀ c ∈ t.head?, p c = false) :
    (s ++ t).takeWhile p = s.takeWhile p ∧ (s ++ t).dropWhile p = s.dropWhile p ++ t := by
  induction s with
  | nil =>
    cases t with
    | nil => exact ⟨rfl, rfl⟩
    | cons c t =>
      have hc : ¬ p c = true := by simp [ht c rfl]
      exact ⟨List.takeWhile_cons_of_neg hc, List.dropWhile_cons_of_neg hc⟩
  | cons c s ih =>
    rw [List.cons_append]
    by_cases hc : p c = true
    · rw [List.takeWhile_cons_of_pos hc, List.takeWhile_cons_of_pos hc,
        List.dropWhile_cons_of_pos hc, List.dropWhile_cons_of_pos hc, ih.1, ih.2]
      exact ⟨rfl, rfl⟩
    · rw [List.takeWhile_cons_of_neg hc, List.takeWhile_cons_of_neg hc,
        List.dropWhile_cons_of_neg hc, List.dropWhile_cons_of_neg hc]
      exact ⟨rfl, rfl⟩

/-- The text behind a line does not change the cut of the line. -/
lemma cut_line {line tail : Str} (h : isBlank line = false) (htail : ∀ c ∈ tail.head?, c = '\n') :
    cut cls (line ++ tail) = ⟨(cut cls line).white, (cut cls line).quote, (cut cls line).word,
      (cut cls line).tail ++ tail⟩ := by
  obtain ⟨c, value, hvalue⟩ : ∃ c value, line.dropWhile isSpace = c :: value := by
    cases hdrop : line.dropWhile isSpace with
    | nil =>
      rw [List.dropWhile_eq_nil_iff] at hdrop
      rw [isBlank_iff.mpr hdrop] at h
      cases h
    | cons c value => exact ⟨c, value, rfl⟩
  have hdrop : (line ++ tail).dropWhile isSpace = (c :: value) ++ tail := by
    rw [List.dropWhile_append, hvalue]
    rfl
  have htake : (line ++ tail).takeWhile isSpace = line.takeWhile isSpace := by
    have hwhole := @List.takeWhile_append_dropWhile _ isSpace (line ++ tail)
    have hline := @List.takeWhile_append_dropWhile _ isSpace line
    rw [hdrop] at hwhole
    rw [hvalue] at hline
    have heq : (line ++ tail).takeWhile isSpace ++ ((c :: value) ++ tail) =
        line.takeWhile isSpace ++ ((c :: value) ++ tail) := by
      rw [hwhole, ← List.append_assoc, hline]
    exact List.append_cancel_right heq
  have hquote : openQuote ((c :: value) ++ tail) = openQuote (c :: value) := rfl
  have hlength : (openQuote (c :: value)).length ≤ (c :: value).length :=
    List.IsPrefix.length_le ⟨_, openQuote_append_drop (c :: value)⟩
  have htext : ((c :: value) ++ tail).drop (openQuote ((c :: value) ++ tail)).length =
      (c :: value).drop (openQuote (c :: value)).length ++ tail := by
    rw [hquote, List.drop_append_of_le_length hlength]
  have hword : ∀ c ∈ tail.head?, cls.isWord c = false := fun c hc => by
    rw [htail c hc]
    exact not_isWord_of_isSpace (by decide)
  simp only [cut]
  rw [hdrop, htake, htext, hvalue, hquote, (takeWhile_append_of_head? hword).1,
    (takeWhile_append_of_head? hword).2]

/-- A key is in one line. -/
lemma prefix_line {line tail : Str} (htail : ∀ c ∈ tail.head?, c = '\n')
    (h : plainKey <+: line ++ tail) : plainKey <+: line := by
  rcases List.prefix_or_prefix_of_prefix h (List.prefix_append line tail) with hkey | ⟨rest, hrest⟩
  · exact hkey
  · rw [← hrest, List.prefix_append_right_inj] at h
    cases rest with
    | nil => exact ⟨[], by rw [← hrest, List.append_nil, List.append_nil]⟩
    | cons c rest =>
      obtain ⟨tail', rfl⟩ := h
      have hc : c = '\n' := htail c rfl
      refine absurd ?_ newline_not_mem_plainKey
      rw [← hrest, hc]
      simp

/-- A line without a key is copied. -/
lemma switchContent_line {line : Str} (hline : '\n' ∉ line) (hkey : ¬ plainKey <+: line) :
    switchContent cls target line = line ∧ ∀ s, switchContent cls target (line ++ '\n' :: s) =
      line ++ '\n' :: switchContent cls target s := by
  constructor
  · have hcopy := @substitute_line _ _ '\n' (activePattern cls) (activeTemplate target) line []
      hline
    rw [List.append_nil, substitute_nil, List.append_nil] at hcopy
    rw [switchContent_of_no_key hkey, hcopy]
  · intro s
    have hbegins : ¬ plainKey <+: line ++ '\n' :: s := fun h =>
      hkey (prefix_line (by simp) h)
    rw [switchContent_of_no_key hbegins, substitute_line hline, substitute_newline]
    rfl

/-- A blank line behind a key is copied, and the match goes on in the next line. -/
lemma switchBehind_blank {line : Str} (hline : '\n' ∉ line) (h : isBlank line = true) :
    switchBehind cls target line = line ∧ ∀ s, switchBehind cls target (line ++ '\n' :: s) =
      line ++ '\n' :: switchBehind cls target s := by
  have hkey : ¬ plainKey <+: line := not_prefix_of_no_word (@cut_of_isBlank cls line h)
  constructor
  · rw [switchBehind, if_pos (cut_of_isBlank h), (switchContent_line hline hkey).1]
  · intro s
    rw [switchBehind, switchBehind, cut_blank h]
    split_ifs
    · exact (switchContent_line hline hkey).2 s
    · simp

/-- In another line behind a key the first word is replaced. -/
lemma switchBehind_line {line : Str} (hline : '\n' ∉ line) (h : isBlank line = false) :
    switchBehind cls target line = replaceWord cls target line ∧
      ∀ s, switchBehind cls target (line ++ '\n' :: s) =
        replaceWord cls target line ++ '\n' :: switchContent cls target s := by
  have htail : '\n' ∉ (cut cls line).tail := fun hmem => hline (by
    rw [← @cut_append cls line]
    simp [hmem])
  have hcopy := @substitute_line _ _ '\n' (activePattern cls) (activeTemplate target) _ [] htail
  rw [List.append_nil, substitute_nil, List.append_nil] at hcopy
  constructor
  · rw [switchBehind, replaceWord]
    split_ifs with hword
    · exact (switchContent_line hline (not_prefix_of_no_word hword)).1
    · rw [hcopy]
  · intro s
    rw [switchBehind, replaceWord, cut_line h (by simp)]
    dsimp only
    split_ifs with hword
    · exact (switchContent_line hline (not_prefix_of_no_word hword)).2 s
    · rw [substitute_line htail, substitute_newline]
      simp [switchContent]

/-! #### The lines of a switch -/

/-- Behind a key a blank line is passed over. -/
lemma switchLines_of_isBlank {line : Str} (h : isBlank line = true) (lines : List Str) :
    switchLines cls target true (line :: lines) = line :: switchLines cls target true lines := by
  rw [switchLines, if_pos h]

/-- Behind a key the next line that is not blank has the word. -/
lemma switchLines_of_value {line : Str} (h : ¬ isBlank line = true) (lines : List Str) :
    switchLines cls target true (line :: lines) =
      replaceWord cls target line :: switchLines cls target false lines := by
  rw [switchLines, if_neg h]

/-- A line without the key stays as it is. -/
lemma switchLines_of_no_key {line : Str} (h : ¬ plainKey <+: line) (lines : List Str) :
    switchLines cls target false (line :: lines) = line :: switchLines cls target false lines := by
  rw [switchLines, if_neg h]

/-- Put a text in front of the first line. -/
def prependFirst (s : Str) : List Str → List Str
  | [] => []
  | line :: lines => (s ++ line) :: lines

/-- Behind its key a line is treated as the lines below it are. -/
lemma switchLines_plainKey (rest : Str) (lines : List Str) :
    switchLines cls target false ((plainKey ++ rest) :: lines) =
      prependFirst plainKey (switchLines cls target true (rest :: lines)) := by
  by_cases hblank : isBlank rest = true
  · rw [switchLines_of_isBlank hblank, switchLines, if_pos (List.prefix_append _ _),
      List.drop_left, if_pos hblank]
    rfl
  · rw [switchLines_of_value hblank, switchLines, if_pos (List.prefix_append _ _),
      List.drop_left, if_neg hblank]
    rfl

/-- A switch leaves at least one line. -/
lemma switchLines_ne_nil {behind : Bool} {line : Str} {lines : List Str} :
    switchLines cls target behind (line :: lines) ≠ [] := by
  cases behind with
  | true =>
    rw [switchLines]
    split_ifs <;> exact List.cons_ne_nil _ _
  | false =>
    rw [switchLines]
    split_ifs <;> exact List.cons_ne_nil _ _

/-- A text in front of the first line is in front of the joined lines. -/
lemma join_prependFirst {lines : List Str} (h : lines ≠ []) (s : Str) :
    join ['\n'] (prependFirst s lines) = s ++ join ['\n'] lines := by
  match lines with
  | [] => exact absurd rfl h
  | [line] => rw [prependFirst, join_singleton, join_singleton]
  | line :: next :: lines =>
    rw [prependFirst, join_cons (List.cons_ne_nil _ _), join_cons (List.cons_ne_nil _ _),
      List.append_assoc]

/-- A switch of a text is a switch of its lines, with and without a key in front of them. -/
lemma switch_join {lines : List Str} {line : Str} (hline : '\n' ∉ line)
    (hlines : ∀ l ∈ lines, '\n' ∉ l) :
    switchContent cls target (join ['\n'] (line :: lines)) =
        join ['\n'] (switchLines cls target false (line :: lines)) ∧
      switchBehind cls target (join ['\n'] (line :: lines)) =
        join ['\n'] (switchLines cls target true (line :: lines)) := by
  induction lines generalizing line with
  | nil =>
    have hbehind : ∀ line : Str, '\n' ∉ line → switchBehind cls target line =
        join ['\n'] (switchLines cls target true [line]) := by
      intro line hline
      by_cases hblank : isBlank line = true
      · rw [(switchBehind_blank hline hblank).1, switchLines_of_isBlank hblank, switchLines,
          join_singleton]
      · rw [switchLines_of_value hblank, (switchBehind_line hline (by simpa using hblank)).1,
          switchLines, join_singleton]
    rw [join_singleton]
    refine ⟨?_, hbehind line hline⟩
    by_cases hkey : plainKey <+: line
    · obtain ⟨rest, rfl⟩ := hkey
      rw [switchContent_plainKey, switchLines_plainKey, join_prependFirst switchLines_ne_nil,
        hbehind rest fun h => hline (List.mem_append_right _ h)]
    · rw [(switchContent_line hline hkey).1, switchLines_of_no_key hkey, switchLines,
        join_singleton]
  | cons next lines ih =>
    obtain ⟨hnext, hlines⟩ := List.forall_mem_cons.mp hlines
    obtain ⟨ihContent, ihBehind⟩ := ih hnext hlines
    have hbehind : ∀ line : Str, '\n' ∉ line →
        switchBehind cls target (join ['\n'] (line :: next :: lines)) =
          join ['\n'] (switchLines cls target true (line :: next :: lines)) := by
      intro line hline
      rw [join_cons (List.cons_ne_nil _ _)]
      by_cases hblank : isBlank line = true
      · rw [(switchBehind_blank hline hblank).2, ihBehind, switchLines_of_isBlank hblank,
          join_cons switchLines_ne_nil]
      · rw [(switchBehind_line hline (by simpa using hblank)).2, ihContent,
          switchLines_of_value hblank, join_cons switchLines_ne_nil]
    refine ⟨?_, hbehind line hline⟩
    by_cases hkey : plainKey <+: line
    · obtain ⟨rest, rfl⟩ := hkey
      have hrest : '\n' ∉ rest := fun h => hline (List.mem_append_right _ h)
      rw [switchLines_plainKey, join_prependFirst switchLines_ne_nil, ← hbehind rest hrest,
        join_cons (List.cons_ne_nil _ _), join_cons (List.cons_ne_nil _ _), List.append_assoc,
        switchContent_plainKey]
    · rw [join_cons (List.cons_ne_nil _ _), (switchContent_line hline hkey).2, ihContent,
        switchLines_of_no_key hkey, join_cons switchLines_ne_nil]

/-- The switch works line by line. -/
theorem switchContent_join {lines : List Str} (hne : lines ≠ []) (h : ∀ l ∈ lines, '\n' ∉ l) :
    switchContent cls target (join ['\n'] lines) =
      join ['\n'] (switchLines cls target false lines) := by
  obtain ⟨line, lines, rfl⟩ := List.exists_cons_of_ne_nil hne
  obtain ⟨hline, hlines⟩ := List.forall_mem_cons.mp h
  exact (switch_join hline hlines).1

/-- The replaced word brings no line break. -/
lemma newline_not_mem_replaceWord {line : Str} (hline : '\n' ∉ line) :
    '\n' ∉ replaceWord cls target line := by
  rw [replaceWord]
  split_ifs
  · exact hline
  · intro hmem
    rw [← @cut_append cls line] at hline
    simp only [List.mem_append, not_or] at hline hmem
    rcases hmem with hmem | hmem | hmem | hmem
    · exact hline.1 hmem
    · exact hline.2.1 hmem
    · exact @newline_of_isWord cls _ (isWord_of_mem_name hmem) rfl
    · exact hline.2.2.2 hmem

/-- The lines of a switch have no line breaks. -/
lemma newline_not_mem_switchLines {lines : List Str} (h : ∀ l ∈ lines, '\n' ∉ l) :
    ∀ behind, ∀ l ∈ switchLines cls target behind lines, '\n' ∉ l := by
  induction lines with
  | nil => exact fun behind l hl => absurd hl (by cases behind <;> exact List.not_mem_nil)
  | cons line lines ih =>
    obtain ⟨hline, hlines⟩ := List.forall_mem_cons.mp h
    have hbehind : ∀ line, '\n' ∉ line →
        ∀ l ∈ switchLines cls target true (line :: lines), '\n' ∉ l := by
      intro line hline
      by_cases hblank : isBlank line = true
      · rw [switchLines_of_isBlank hblank]
        exact List.forall_mem_cons.mpr ⟨hline, ih hlines true⟩
      · rw [switchLines_of_value hblank]
        exact List.forall_mem_cons.mpr ⟨newline_not_mem_replaceWord hline, ih hlines false⟩
    intro behind
    cases behind with
    | true => exact hbehind line hline
    | false =>
      by_cases hkey : plainKey <+: line
      · obtain ⟨rest, rfl⟩ := hkey
        have hrest := hbehind rest fun h => hline (List.mem_append_right _ h)
        rw [switchLines_plainKey]
        cases hswitch : switchLines cls target true (rest :: lines) with
        | nil => exact absurd hswitch switchLines_ne_nil
        | cons first others =>
          rw [hswitch] at hrest
          obtain ⟨hfirst, hothers⟩ := List.forall_mem_cons.mp hrest
          refine List.forall_mem_cons.mpr ⟨fun hmem => ?_, hothers⟩
          rcases List.mem_append.mp hmem with hmem | hmem
          · exact newline_not_mem_plainKey hmem
          · exact hfirst hmem
      · rw [switchLines_of_no_key hkey]
        exact List.forall_mem_cons.mpr ⟨hline, ih hlines false⟩

/-- The lines of the text after the switch. -/
theorem split_switchContent (content : Str) : split '\n' (switchContent cls target content) =
    switchLines cls target false (split '\n' content) := by
  have hlines : ∀ l ∈ split '\n' content, '\n' ∉ l := fun l hl => not_mem_of_mem_split hl
  have hjoin := @switchContent_join cls target _ (split_ne_nil '\n' content) hlines
  rw [join_split] at hjoin
  rw [hjoin]
  obtain ⟨line, lines, hsplit⟩ := List.exists_cons_of_ne_nil (split_ne_nil '\n' content)
  rw [hsplit] at hlines ⊢
  exact split_join (newline_not_mem_switchLines hlines false) switchLines_ne_nil

/-- A switch of a text is a switch of its lines. -/
lemma switchContent_eq_join (content : Str) : switchContent cls target content =
    join ['\n'] (switchLines cls target false (split '\n' content)) := by
  rw [← split_switchContent, join_split]

/-- A line with a value has one after the replacement. -/
lemma not_isBlank_replaceWord {line : Str} (h : ¬ isBlank line = true) :
    ¬ isBlank (replaceWord cls target line) = true := by
  intro hblank
  have hword := @cut_of_isBlank cls _ hblank
  by_cases hcut : (cut cls line).word = []
  · have hsame : replaceWord cls target line = line := if_pos hcut
    rw [hsame] at hblank
    exact h hblank
  · rw [cut_replaceWord hcut] at hword
    exact name_ne_nil target hword

/-- The second switch replaces what the first one wrote. -/
lemma switchLines_switchLines (target target' : Target) (lines : List Str) :
    ∀ behind, switchLines cls target' behind (switchLines cls target behind lines) =
      switchLines cls target' behind lines := by
  induction lines with
  | nil => exact fun behind => by cases behind <;> rfl
  | cons line lines ih =>
    have hbehind : ∀ line, switchLines cls target' true
        (switchLines cls target true (line :: lines)) =
        switchLines cls target' true (line :: lines) := by
      intro line
      by_cases hblank : isBlank line = true
      · rw [switchLines_of_isBlank hblank, switchLines_of_isBlank hblank, ih,
          switchLines_of_isBlank hblank]
      · rw [switchLines_of_value hblank, switchLines_of_value (not_isBlank_replaceWord hblank), ih,
          replaceWord_replaceWord, switchLines_of_value hblank]
    intro behind
    cases behind with
    | true => exact hbehind line
    | false =>
      by_cases hkey : plainKey <+: line
      · obtain ⟨rest, rfl⟩ := hkey
        have hrest := hbehind rest
        rw [switchLines_plainKey, switchLines_plainKey, ← hrest]
        cases hswitch : switchLines cls target true (rest :: lines) with
        | nil => exact absurd hswitch switchLines_ne_nil
        | cons first others => rw [prependFirst, switchLines_plainKey]
      · rw [switchLines_of_no_key hkey, switchLines_of_no_key hkey, ih, switchLines_of_no_key hkey]

/-- The last of two switches counts. -/
theorem switchContent_switchContent (target target' : Target) (content : Str) :
    switchContent cls target' (switchContent cls target content) =
      switchContent cls target' content := by
  rw [switchContent_eq_join (switchContent cls target content), split_switchContent,
    switchLines_switchLines, ← switchContent_eq_join]

end Simulation

end EntsoePipeline
