import EntsoePipeline.Config.EnvironmentSwitch

set_option relaxedAutoImplicit false
set_option autoImplicit false

/-!
# The environment file

The environment file is a YAML mapping with one entry for the active environment. Its parser is a
parameter. Of a text it says where the value of the active environment is, which text the value
stands for, and what the other entries and the comments are.

## Main definitions

* `EntsoePipeline.Document` — what a parser says of a file.
* `EntsoePipeline.YamlParser` — a parser, and what is known of the values that stand for a name.
* `EntsoePipeline.entryParser` — a parser of the files in which the entry follows a given text.

## Main results

* `EntsoePipeline.parseEntry_eq_some_iff` — the files of this parser.

## Implementation notes

The text is the one that the reading of the file gives, in which every line break is a newline. A
value is the text of its node, with its quotes, its tag and its anchor. It begins directly behind
the colon when it is empty.
-/

namespace EntsoePipeline

open Py Greedy

/-- What a parser says of an environment file. -/
structure Document (ο : Type*) where
  /-- The text in front of the value of the active environment. -/
  front : Str
  /-- The value as it is written. -/
  value : Str
  /-- The text behind the value. -/
  back : Str
  /-- The active environment, where the value stands for a text. -/
  active : Option Str
  /-- The other keys with their values, and the comments. -/
  others : ο
  deriving DecidableEq

/-- A name is a run of word characters. -/
structure IsName (cls : WordClass) (name : Str) : Prop where
  ne_nil : name ≠ []
  isWord : ∀ c ∈ name, cls.isWord c = true

/-- A parser of YAML files with one entry for the active environment. -/
structure YamlParser (cls : WordClass) (ο : Type*) where
  /-- The document that a text is. -/
  parse : Str → Option (Document ο)
  /-- The value is a part of the text. -/
  text_eq : ∀ {text : Str} {document : Document ο}, parse text = some document →
    document.front ++ (document.value ++ document.back) = text
  /-- In the place of a name without quotes another one can be written. -/
  parse_plain : ∀ {text : Str} {document : Document ο}, parse text = some document →
    IsName cls document.value → ∀ target : Target,
      parse (document.front ++ (target.name ++ document.back)) =
        some { document with value := target.name, active := some target.name }
  /-- In the place of a name in quotes another one can be written. -/
  parse_quoted : ∀ {text : Str} {document : Document ο}, parse text = some document →
    ∀ {q : Char} {name tail : Str}, isQuote q = true → document.value = q :: (name ++ tail) →
      IsName cls name → document.active = some name → ∀ name' : Str, IsName cls name' →
        parse (document.front ++ (q :: (name' ++ tail) ++ document.back)) =
          some { document with value := q :: (name' ++ tail), active := some name' }
  /-- A scalar without quotes that stands for a name is the name. -/
  tail_eq_nil : ∀ {text : Str} {document : Document ο}, parse text = some document →
    ∀ {name tail : Str}, document.active = some name → IsName cls name →
      document.value = name ++ tail → tail = []
  /-- What stands for a name does not begin with a space. -/
  head_value : ∀ {text : Str} {document : Document ο}, parse text = some document →
    ∀ {name : Str}, document.active = some name → IsName cls name →
      ∀ c ∈ document.value.head?, isSpace c = false
  /-- It is behind a colon or a space. -/
  getLast_front : ∀ {text : Str} {document : Document ο}, parse text = some document →
    ∀ {name : Str}, document.active = some name → IsName cls name →
      ∀ c ∈ document.front.getLast?, isSpace c = true ∨ c = ':'
  /-- A line of it does not begin with a key and a colon. -/
  no_key : ∀ {text : Str} {document : Document ο}, parse text = some document →
    ∀ {name : Str}, document.active = some name → IsName cls name →
      ∀ a b, document.value = a ++ (plainKey ++ b) → lineStart '\n' true a = false

/-! ## A parser of an entry behind a given text -/

section Entry

variable (cls : WordClass) (head : Str)

/-- White space in a line. -/
def isWhite (c : Char) : Bool := c == ' ' || c == '\t'

/-- The value in front of a text: a scalar in quotes, or a run of word characters. -/
def parseValue (front : Str) : Str → Option (Document Str)
  | [] => some ⟨front, [], [], none, []⟩
  | c :: s =>
    if isQuote c then
      match s.dropWhile (· ≠ c) with
      | [] => none
      | _ :: back => some ⟨front, c :: (s.takeWhile (· ≠ c) ++ [c]), back,
          some (s.takeWhile (· ≠ c)), back⟩
    else
      some ⟨front, (c :: s).takeWhile cls.isWord, (c :: s).dropWhile cls.isWord,
        if cls.isWord c then some ((c :: s).takeWhile cls.isWord) else none,
        (c :: s).dropWhile cls.isWord⟩

/-- The file in which the entry of the active environment follows the given text. -/
def parseEntry (text : Str) : Option (Document Str) :=
  if head ++ plainKey <+: text then
    let rest := text.drop (head ++ plainKey).length
    parseValue cls (head ++ (plainKey ++ rest.takeWhile isWhite)) (rest.dropWhile isWhite)
  else none

variable {cls head}

/-- The documents of this parser: a scalar in quotes, a name, or no value. -/
inductive IsEntry (cls : WordClass) : Document Str → Prop
  /-- The value is in quotes. -/
  | quoted {front : Str} {q : Char} {name : Str} {back : Str} (hq : isQuote q = true)
      (hname : q ∉ name) : IsEntry cls ⟨front, q :: (name ++ [q]), back, some name, back⟩
  /-- The value is a name. -/
  | name {front name back : Str} (hname : IsName cls name)
      (hback : ∀ c ∈ back.head?, cls.isWord c = false) :
      IsEntry cls ⟨front, name, back, some name, back⟩
  /-- There is no value. -/
  | empty {front back : Str}
      (hback : ∀ c ∈ back.head?, cls.isWord c = false ∧ isQuote c = false ∧ isWhite c = false) :
      IsEntry cls ⟨front, [], back, none, back⟩

/-- White space in a line is a space. -/
lemma isSpace_of_isWhite {c : Char} (hc : isWhite c = true) : isSpace c = true := by
  rw [isWhite, Bool.or_eq_true, beq_iff_eq, beq_iff_eq] at hc
  rcases hc with rfl | rfl <;> decide

/-- A word character is no white space. -/
lemma not_isWhite_of_isWord {c : Char} (hc : cls.isWord c = true) : isWhite c = false := by
  by_contra hwhite
  rw [Bool.not_eq_false] at hwhite
  rw [not_isWord_of_isSpace (isSpace_of_isWhite hwhite)] at hc
  cases hc

/-- A word character is no quote. -/
lemma not_isQuote_of_isWord {c : Char} (hc : cls.isWord c = true) : isQuote c = false := by
  by_contra hquote
  rw [Bool.not_eq_false] at hquote
  rw [not_isWord_of_isQuote hquote] at hc
  cases hc

/-- A name begins with a word character. -/
lemma IsName.exists_cons {name : Str} (h : IsName cls name) :
    ∃ c rest, name = c :: rest ∧ cls.isWord c = true := by
  obtain ⟨c, rest, rfl⟩ := List.exists_cons_of_ne_nil h.ne_nil
  exact ⟨c, rest, rfl, h.isWord c List.mem_cons_self⟩

/-- The value that is read in front of a text. -/
lemma isEntry_of_parseValue {front s : Str} {document : Document Str}
    (hs : ∀ c ∈ s.head?, isWhite c = false) (h : parseValue cls front s = some document) :
    document.front = front ∧ IsEntry cls document ∧ document.value ++ document.back = s := by
  cases s with
  | nil =>
    obtain rfl := Option.some.inj h
    exact ⟨rfl, .empty (by simp), rfl⟩
  | cons c s =>
    rw [parseValue] at h
    by_cases hquote : isQuote c = true
    · rw [if_pos hquote] at h
      cases hdrop : s.dropWhile (fun d => decide (d ≠ c)) with
      | nil =>
        rw [hdrop] at h
        cases h
      | cons d back =>
        rw [hdrop] at h
        obtain rfl := Option.some.inj h
        have hd := List.head?_dropWhile_not (fun d => decide (d ≠ c)) s
        rw [hdrop] at hd
        have hdc : d = c := by simpa using hd
        have hs := @List.takeWhile_append_dropWhile _ (fun d => decide (d ≠ c)) s
        rw [hdrop, hdc] at hs
        refine ⟨rfl, .quoted hquote fun hmem => ?_, ?_⟩
        · simpa using List.mem_takeWhile_imp hmem
        · rw [List.cons_append, List.append_assoc]
          exact congrArg (List.cons c) hs
    · rw [if_neg hquote] at h
      obtain rfl := Option.some.inj h
      refine ⟨rfl, ?_, List.takeWhile_append_dropWhile⟩
      by_cases hc : cls.isWord c = true
      · rw [if_pos hc]
        refine .name ⟨?_, fun d hd => List.mem_takeWhile_imp hd⟩ fun d hd => ?_
        · rw [List.takeWhile_cons_of_pos hc]
          exact List.cons_ne_nil _ _
        · have hnot := List.head?_dropWhile_not cls.isWord (c :: s)
          rw [Option.mem_def.mp hd] at hnot
          exact hnot
      · rw [if_neg hc, List.takeWhile_cons_of_neg hc, List.dropWhile_cons_of_neg hc]
        refine .empty fun d hd => ?_
        obtain rfl := Option.some.inj hd
        exact ⟨by simpa using hc, by simpa using hquote, hs c rfl⟩

/-- A value is read back. -/
lemma parseValue_of_isEntry {document : Document Str} (h : IsEntry cls document) :
    parseValue cls document.front (document.value ++ document.back) = some document := by
  cases h with
  | @quoted front q name back hq hname =>
    have hne : ∀ d ∈ name, (decide (d ≠ q)) = true := by
      intro d hd
      rw [decide_eq_true_eq]
      rintro rfl
      exact hname hd
    rw [List.cons_append, List.append_assoc, parseValue, if_pos hq,
      List.dropWhile_append_of_pos hne, List.takeWhile_append_of_pos hne]
    simp
  | @name front name back hname hback =>
    obtain ⟨htake, hdrop⟩ := @takeWhile_append_of_head? cls.isWord name back hback
    rw [List.takeWhile_eq_self_iff.mpr hname.isWord] at htake
    rw [List.dropWhile_eq_nil_iff.mpr hname.isWord, List.nil_append] at hdrop
    obtain ⟨c, rest, rfl, hc⟩ := hname.exists_cons
    rw [List.cons_append] at htake hdrop ⊢
    rw [parseValue, if_neg (by simp [not_isQuote_of_isWord hc]), htake, hdrop, if_pos hc]
  | @empty front back hback =>
    rw [List.nil_append]
    cases back with
    | nil => rfl
    | cons c back =>
      obtain ⟨hword, hquote, -⟩ := hback c rfl
      have hc : ¬ cls.isWord c = true := by simp [hword]
      rw [parseValue, if_neg (by simp [hquote]), List.takeWhile_cons_of_neg hc,
        List.dropWhile_cons_of_neg hc, if_neg hc]

/-- The text at a value does not begin with white space. -/
lemma head?_of_isEntry {document : Document Str} (h : IsEntry cls document) :
    ∀ c ∈ (document.value ++ document.back).head?, isWhite c = false := by
  cases h with
  | quoted hq =>
    intro c hc
    obtain rfl := Option.some.inj hc
    by_contra hwhite
    rw [Bool.not_eq_false] at hwhite
    have hspace := isSpace_of_isWhite hwhite
    rw [not_isSpace_of_isQuote hq] at hspace
    cases hspace
  | name hname =>
    obtain ⟨c, rest, rfl, hc⟩ := hname.exists_cons
    intro d hd
    obtain rfl := Option.some.inj hd
    exact not_isWhite_of_isWord hc
  | empty hback => exact fun c hc => (hback c hc).2.2

/-- The parser reads an entry with white space in front of its value, and nothing else. -/
theorem parseEntry_eq_some_iff {text : Str} {document : Document Str} :
    parseEntry cls head text = some document ↔ IsEntry cls document ∧
      (∃ white : Str, (∀ c ∈ white, isWhite c = true) ∧
        document.front = head ++ (plainKey ++ white)) ∧
      document.front ++ (document.value ++ document.back) = text := by
  constructor
  · intro h
    rw [parseEntry] at h
    split_ifs at h with hhead
    obtain ⟨rest, rfl⟩ := hhead
    rw [List.drop_left] at h
    obtain ⟨hfront, hentry, hrest⟩ := isEntry_of_parseValue (fun c hc => by
      have hnot := List.head?_dropWhile_not isWhite rest
      rw [Option.mem_def.mp hc] at hnot
      exact hnot) h
    refine ⟨hentry, ⟨_, fun c hc => List.mem_takeWhile_imp hc, hfront⟩, ?_⟩
    rw [hfront, hrest, List.append_assoc, List.append_assoc, List.takeWhile_append_dropWhile,
      ← List.append_assoc]
  · rintro ⟨hentry, ⟨white, hwhite, hfront⟩, rfl⟩
    have htext : document.front ++ (document.value ++ document.back) =
        (head ++ plainKey) ++ (white ++ (document.value ++ document.back)) := by
      rw [hfront]
      simp
    obtain ⟨htake, hdrop⟩ := @takeWhile_append_of_head? isWhite white _ (head?_of_isEntry hentry)
    rw [List.takeWhile_eq_self_iff.mpr hwhite] at htake
    rw [List.dropWhile_eq_nil_iff.mpr hwhite, List.nil_append] at hdrop
    rw [parseEntry, htext, if_pos (List.prefix_append _ _), List.drop_left]
    dsimp only
    rw [htake, hdrop, ← hfront, parseValue_of_isEntry hentry]

/-- Where another value has the same text around it, it is read in its place. -/
lemma parseEntry_replace {text : Str} {document document' : Document Str}
    (h : parseEntry cls head text = some document) (hentry : IsEntry cls document')
    (hfront : document'.front = document.front) :
    parseEntry cls head (document.front ++ (document'.value ++ document'.back)) =
      some document' := by
  obtain ⟨-, ⟨white, hwhite, hhead⟩, -⟩ := parseEntry_eq_some_iff.mp h
  exact parseEntry_eq_some_iff.mpr ⟨hentry, ⟨white, hwhite, hfront.trans hhead⟩, by rw [hfront]⟩

/-- A name is no key: it has no colon. -/
lemma IsName.colon_not_mem {name : Str} (h : IsName cls name) : ':' ∉ name := fun hmem => by
  have hcolon := h.isWord ':' hmem
  rw [not_isWord_of_ascii (by decide) (by decide)] at hcolon
  cases hcolon

/-- The name of an environment is a name. -/
lemma Target.isName (target : Target) : IsName cls target.name :=
  ⟨name_ne_nil target, fun _ hc => isWord_of_mem_name hc⟩

/-- The value of an entry has a colon only in quotes. -/
lemma colon_not_mem_of_isEntry {document : Document Str} (h : IsEntry cls document) {name : Str}
    (hactive : document.active = some name) (hname : IsName cls name) : ':' ∉ document.value := by
  cases h with
  | quoted hq =>
    obtain rfl := Option.some.inj hactive
    intro hmem
    rcases List.mem_cons.mp hmem with rfl | hmem
    · exact absurd hq (by decide)
    rcases List.mem_append.mp hmem with hmem | hmem
    · exact hname.colon_not_mem hmem
    · rw [← List.mem_singleton.mp hmem] at hq
      exact absurd hq (by decide)
  | name =>
    obtain rfl := Option.some.inj hactive
    exact hname.colon_not_mem
  | empty => cases hactive

/-- The parser of the entries behind a given text. -/
def entryParser (cls : WordClass) (head : Str) : YamlParser cls Str where
  parse := parseEntry cls head
  text_eq h := (parseEntry_eq_some_iff.mp h).2.2
  parse_plain h hname target := by
    have hentry := (parseEntry_eq_some_iff.mp h).1
    cases hentry with
    | quoted hq =>
      have hword := hname.isWord _ List.mem_cons_self
      rw [not_isWord_of_isQuote hq] at hword
      cases hword
    | name _ hback => exact parseEntry_replace h (.name target.isName hback) rfl
    | empty => exact absurd rfl hname.ne_nil
  parse_quoted h q name tail hq hvalue hname hactive name' hname' := by
    have hentry := (parseEntry_eq_some_iff.mp h).1
    cases hentry with
    | quoted =>
      obtain ⟨rfl, htail⟩ := List.cons.inj hvalue
      obtain rfl := Option.some.inj hactive
      obtain rfl := List.append_cancel_left htail
      refine parseEntry_replace h (.quoted hq fun hmem => ?_) rfl
      have hword := hname'.isWord _ hmem
      rw [not_isWord_of_isQuote hq] at hword
      cases hword
    | name hplain =>
      dsimp only at hvalue
      subst hvalue
      have hword := hplain.isWord q List.mem_cons_self
      rw [not_isWord_of_isQuote hq] at hword
      cases hword
    | empty => cases hactive
  tail_eq_nil h name tail hactive hname hvalue := by
    have hentry := (parseEntry_eq_some_iff.mp h).1
    cases hentry with
    | quoted hq =>
      obtain ⟨c, rest, rfl, hc⟩ := hname.exists_cons
      obtain ⟨rfl, -⟩ := List.cons.inj hvalue
      rw [not_isWord_of_isQuote hq] at hc
      cases hc
    | name =>
      obtain rfl := Option.some.inj hactive
      exact List.self_eq_append_right.mp hvalue
    | empty => cases hactive
  head_value h name hactive hname := by
    have hentry := (parseEntry_eq_some_iff.mp h).1
    cases hentry with
    | quoted hq =>
      intro c hc
      obtain rfl := Option.some.inj hc
      exact not_isSpace_of_isQuote hq
    | name hplain =>
      obtain ⟨c, rest, rfl, hc⟩ := hplain.exists_cons
      intro d hd
      obtain rfl := Option.some.inj hd
      exact cls.not_isSpace _ hc
    | empty => cases hactive
  getLast_front h name hactive hname c hc := by
    obtain ⟨-, ⟨white, hwhite, hfront⟩, -⟩ := parseEntry_eq_some_iff.mp h
    rw [hfront, plainKey] at hc
    rcases List.eq_nil_or_concat' white with rfl | ⟨white, d, rfl⟩
    · rw [List.append_nil, ← List.append_assoc, List.getLast?_concat] at hc
      exact .inr (Option.some.inj hc).symm
    · rw [← List.append_assoc, ← List.append_assoc, List.getLast?_concat] at hc
      obtain rfl := Option.some.inj hc
      exact .inl (isSpace_of_isWhite (hwhite d (by simp)))
  no_key h name hactive hname a b hvalue := by
    refine absurd ?_ (colon_not_mem_of_isEntry (parseEntry_eq_some_iff.mp h).1 hactive hname)
    rw [hvalue]
    simp [plainKey]

end Entry

end EntsoePipeline
