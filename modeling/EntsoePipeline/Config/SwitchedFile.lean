import EntsoePipeline.Config.EnvironmentFile

set_option relaxedAutoImplicit false
set_option autoImplicit false

/-!
# The environment file after a switch

A switch sets the active environment, and leaves the rest of the file as it is, when the key begins
a line, is written without quotes and with its colon directly behind it, the value is one word
behind nothing but white space, and no other line goes on in the same way.

## Main definitions

* `EntsoePipeline.SwitchesFile` — every switch sets the active environment and nothing else, and the
  last of two switches counts.
* `EntsoePipeline.Switchable` — the layout of an entry that the switch knows.

## Main results

* `EntsoePipeline.switchFrom_cases` — the first key that the switch finds.
* `EntsoePipeline.switchesFile_iff` — when the switch does what it is for.
* `EntsoePipeline.not_switchesFile_empty` — it does not when there is no value.
-/

namespace EntsoePipeline

open Py Greedy

/-- Every switch of a file sets the active environment and changes no other key, no other value and
no comment, nor anything else around the value, and of two switches the last one counts. -/
structure SwitchesFile {cls : WordClass} {ο : Type*} (yaml : YamlParser cls ο) (text : Str)
    (document : Document ο) : Prop where
  sets : ∀ target written message,
    switchEnvironment cls target (some text) = .ok (written, message) →
    ∃ value : Str, yaml.parse written =
      some { document with value := value, active := some target.name }
  last : ∀ target target' once twice message message',
    switchEnvironment cls target (some text) = .ok (once, message) →
    switchEnvironment cls target' (some once) = .ok (twice, message') →
    switchEnvironment cls target' (some text) = .ok (twice, message')

/-- The entry of the active environment, cut around the word that a switch replaces. -/
structure SwitchableEntry {ο : Type*} (cls : WordClass) (text : Str) (document : Document ο)
    (before white quote word tail : Str) : Prop where
  /-- The key has no quotes, and nothing but white space is between its colon and the value. -/
  front : document.front = before ++ (plainKey ++ white)
  white : ∀ c ∈ white, isSpace c = true
  /-- The key begins a line. -/
  margin : lineStart '\n' true before = true
  /-- The value is a word without quotes, or one in quotes with nothing else in them. -/
  value : document.value = quote ++ (word ++ tail)
  isName : IsName cls word
  quotes : (quote = [] ∧ tail = []) ∨
    ((∃ q, isQuote q = true ∧ quote = [q]) ∧ document.active = some word)
  wordEnd : ∀ c ∈ (tail ++ document.back).head?, cls.isWord c = false
  /-- In no line in front of the key or behind the word is a word behind the key. -/
  others : ∀ a s, text = a ++ (plainKey ++ s) → lineStart '\n' true a = true →
    a.length < before.length ∨ (document.front ++ (quote ++ word)).length ≤ a.length →
      (cut cls s).word = []

/-- The entry of the active environment has the layout that the switch knows. -/
def Switchable {ο : Type*} (cls : WordClass) (text : Str) (document : Document ο) : Prop :=
  ∃ before white quote word tail, SwitchableEntry cls text document before white quote word tail

/-! ## The keys that a switch finds -/

section Keys

variable {cls : WordClass}

/-- The switch of a text. The first argument that is not the target is whether a line begins in
front of it. -/
def switchFrom (cls : WordClass) (target : Target) (start : Bool) (s : Str) : Str :=
  substitute '\n' (activePattern cls) (activeTemplate target) start 0 s

/-- The pattern matches a key with a word behind it. -/
lemma matchItems_ne_none_iff {s : Str} : matchItems (activePattern cls) s ≠ none ↔
    ∃ rest, s = plainKey ++ rest ∧ (cut cls rest).word ≠ [] := by
  constructor
  · intro h
    have hkey : plainKey <+: s := by
      by_contra hkey
      exact h (matchItems_of_no_key hkey)
    obtain ⟨rest, rfl⟩ := hkey
    refine ⟨rest, rfl, fun hword => h ?_⟩
    rw [matchItems_activePattern, hword]
  · rintro ⟨rest, rfl, hword⟩
    rw [matchItems_activePattern]
    obtain ⟨c, word, hcut⟩ := List.exists_cons_of_ne_nil hword
    rw [hcut]
    exact Option.some_ne_none _

/-- Behind a key with a word the switch goes on behind the word. -/
lemma switchFrom_key {s : Str} (h : (cut cls s).word ≠ []) (target : Target) :
    switchFrom cls target true (plainKey ++ s) = plainKey ++ ((cut cls s).white ++
      ((cut cls s).quote ++ (target.name ++ switchFrom cls target false (cut cls s).tail))) := by
  have hkey := @switchContent_plainKey cls target s
  rw [switchBehind, if_neg h] at hkey
  exact hkey

/-- The keys of a text with words behind them, at the beginnings of lines. -/
def IsKey (cls : WordClass) (start : Bool) (text a s : Str) : Prop :=
  text = a ++ (plainKey ++ s) ∧ lineStart '\n' start a = true ∧ (cut cls s).word ≠ []

/-- A text has no key, or a first one. Without a key the switch leaves it. Otherwise the switch
replaces the word behind the first key, and goes on behind it. -/
theorem switchFrom_cases (cls : WordClass) (start : Bool) (text : Str) :
    ((∀ a s, ¬ IsKey cls start text a s) ∧ ∀ target, switchFrom cls target start text = text) ∨
      ∃ a s, IsKey cls start text a s ∧
        (∀ a' s', IsKey cls start text a' s' → a.length ≤ a'.length) ∧
        ∀ target, switchFrom cls target start text = a ++ (plainKey ++ ((cut cls s).white ++
          ((cut cls s).quote ++ (target.name ++
            switchFrom cls target false (cut cls s).tail)))) := by
  rcases exists_first '\n' (activePattern cls) start text with hno | ⟨a, b, rfl, ha, hb, hfirst⟩
  · refine .inl ⟨fun a s hkey => ?_, fun target => substitute_eq_self hno⟩
    obtain ⟨htext, ha, hword⟩ := hkey
    exact matchItems_ne_none_iff.mpr ⟨s, rfl, hword⟩ (hno a _ htext (by simp [plainKey]) ha)
  · obtain ⟨s, rfl, hword⟩ := matchItems_ne_none_iff.mp hb
    refine .inr ⟨a, s, ⟨rfl, ha, hword⟩, fun a' s' hkey => ?_, fun target => ?_⟩
    · obtain ⟨htext, ha', hword'⟩ := hkey
      by_contra hlength
      -- a key in front of the first one
      obtain ⟨b', rfl⟩ := List.prefix_of_prefix_length_le ⟨_, htext.symm⟩
        (List.prefix_append a (plainKey ++ s)) (by omega : a'.length ≤ a.length)
      have hb' : b' ≠ [] := by
        rintro rfl
        exact hlength (by simp)
      rw [List.append_assoc, List.append_cancel_left_eq] at htext
      refine matchItems_ne_none_iff.mpr ⟨s', rfl, hword'⟩ ?_
      rw [← htext]
      exact hfirst a' b' rfl hb' ha'
    · rw [switchFrom, substitute_append hfirst, ha]
      exact congrArg (a ++ ·) (switchFrom_key hword target)

/-- Behind the last word that is replaced the switch leaves the text. -/
lemma exists_last (cls : WordClass) (text : Str) : ∃ back, ∀ target, ∃ front,
    target.name ++ switchFrom cls target false text = front ++ (target.name ++ back) := by
  obtain ⟨n, hn⟩ : ∃ n, text.length = n := ⟨_, rfl⟩
  induction n using Nat.strong_induction_on generalizing text with
  | _ n ih =>
    rcases switchFrom_cases cls false text with ⟨-, hsame⟩ | ⟨a, s, hkey, -, hswitch⟩
    · exact ⟨text, fun target => ⟨[], by rw [hsame, List.nil_append]⟩⟩
    · have hlength : (cut cls s).tail.length < n := by
        have hs := congrArg List.length (@cut_append cls s)
        have htext := congrArg List.length hkey.1
        have hkeyLength : plainKey.length = 19 := by decide
        simp only [List.length_append] at hs htext
        omega
      obtain ⟨back, hback⟩ := ih _ hlength (cut cls s).tail rfl
      refine ⟨back, fun target => ?_⟩
      obtain ⟨front, hfront⟩ := hback target
      exact ⟨target.name ++ (a ++ (plainKey ++ ((cut cls s).white ++ ((cut cls s).quote ++
        front)))), by rw [hswitch, hfront]; simp⟩

end Keys

/-! ## Texts around two names -/

/-- The front of two texts that go on with different characters is a front of what they share. -/
lemma prefix_of_apart {s shared t t' : Str} {x y : Char} (h : s <+: shared ++ x :: t)
    (h' : s <+: shared ++ y :: t') (hne : x ≠ y) : s <+: shared := by
  induction shared generalizing s with
  | nil =>
    cases s with
    | nil => exact List.prefix_rfl
    | cons c s => exact absurd ((List.cons_prefix_cons.mp h).1.symm.trans
        (List.cons_prefix_cons.mp h').1) hne
  | cons d shared ih =>
    cases s with
    | nil => exact List.nil_prefix
    | cons c s =>
      obtain ⟨rfl, hrest⟩ := List.cons_prefix_cons.mp h
      exact List.cons_prefix_cons.mpr ⟨rfl, ih hrest (List.cons_prefix_cons.mp h').2⟩

/-- What is in front of both names is in front of the place of the name. -/
lemma prefix_of_names {s shared : Str}
    (h : ∀ target : Target, ∃ rest, s <+: shared ++ (target.name ++ rest)) : s <+: shared := by
  obtain ⟨prod, hprod⟩ := h .prod
  obtain ⟨iop, hiop⟩ := h .iop
  exact prefix_of_apart hprod hiop (by decide)

/-- What is behind both names is behind the place of the name. -/
lemma suffix_of_names {s shared : Str}
    (h : ∀ target : Target, ∃ rest, s <:+ rest ++ (target.name ++ shared)) : s <:+ shared := by
  obtain ⟨prod, hprod⟩ := h .prod
  obtain ⟨iop, hiop⟩ := h .iop
  rw [← List.reverse_prefix] at hprod hiop ⊢
  rw [List.reverse_append, List.reverse_append, List.append_assoc] at hprod hiop
  exact prefix_of_apart hprod hiop (by decide)

/-! ## The entry that a switch sets -/

section Switch

variable {cls : WordClass} {ο : Type*} {yaml : YamlParser cls ο} {text : Str}
    {document : Document ο}

/-- Where a line begins behind the last text that is not empty. -/
lemma lineStart_true_of_append {front s : Str} (h : lineStart '\n' true (front ++ s) = true) :
    lineStart '\n' true s = true := by
  cases s with
  | nil => rfl
  | cons c s =>
    rw [lineStart_append_of_ne_nil (List.cons_ne_nil c s)] at h
    rwa [lineStart_cons] at h ⊢

/-- A value that stands for a name begins neither in the key nor in the white space behind it. -/
lemma begins_behind_key {before white inside name : Str} (h : yaml.parse text = some document)
    (hactive : document.active = some name) (hname : IsName cls name)
    (hvalue : inside <+: document.value)
    (hfront : before ++ (plainKey ++ white) = document.front ++ inside)
    (hbefore : lineStart '\n' true before = true) (hwhite : ∀ c ∈ white, isSpace c = true) :
    inside = [] := by
  by_contra hne
  obtain ⟨rest, hvalue⟩ := hvalue
  obtain ⟨first, inside', hinside⟩ := List.exists_cons_of_ne_nil hne
  have hfirst : isSpace first = false :=
    yaml.head_value h hactive hname first (by rw [← hvalue, hinside]; rfl)
  have hnotWhite : ∀ y, white = y ++ inside → False := fun y hy => by
    rw [hwhite first (by rw [hy, hinside]; simp)] at hfirst
    cases hfirst
  rw [← List.append_assoc] at hfront
  rcases List.append_eq_append_iff.mp hfront.symm with ⟨y, hkey, hy⟩ | ⟨y, -, hy⟩
  · -- the value begins in front of the white space
    have hyNe : y ≠ [] := by
      rintro rfl
      exact hnotWhite [] (by simpa using hy.symm)
    have hnoKey : ∀ z, y = z ++ plainKey → lineStart '\n' true z = false := fun z hz =>
      yaml.no_key h hactive hname z (white ++ rest) (by rw [← hvalue, hy, hz]; simp)
    rcases List.append_eq_append_iff.mp hkey with ⟨z, hz, hyz⟩ | ⟨z, hz, hyz⟩
    · rcases List.eq_nil_or_concat' z with rfl | ⟨z, last, rfl⟩
      · exact absurd (hnoKey [] hyz.symm) (by simp)
      · -- the text in front of it ends inside of the key
        have hlast := yaml.getLast_front h hactive hname last (by
          rw [hz, ← List.append_assoc, List.getLast?_concat]
          rfl)
        have hmem : last ∈ activeKey := by
          obtain ⟨y, colon, rfl⟩ := (List.eq_nil_or_concat' y).resolve_left hyNe
          rw [plainKey, ← List.append_assoc] at hyz
          rw [(List.append_inj' hyz rfl).1]
          simp
        have hword : cls.isWord last = true := isWord_of_mem_activeKey hmem
        rcases hlast with hspace | rfl
        · rw [not_isWord_of_isSpace hspace] at hword
          cases hword
        · exact absurd hmem (by decide)
    · rw [hz] at hbefore
      have hmargin := hnoKey z hyz
      rw [lineStart_true_of_append hbefore] at hmargin
      cases hmargin
  · exact hnotWhite y hy

/-- What is replaced is the word of the value: in front of it the value has its quote. -/
lemma inside_eq_quote {before white quote inside name : Str}
    (h : yaml.parse text = some document) (hactive : document.active = some name)
    (hname : IsName cls name) (hvalue : inside <+: document.value)
    (hfront : before ++ (plainKey ++ (white ++ quote)) = document.front ++ inside)
    (hbefore : lineStart '\n' true before = true) (hwhite : ∀ c ∈ white, isSpace c = true)
    (hquote : ∀ c ∈ quote, isQuote c = true) :
    inside = quote ∧ document.front = before ++ (plainKey ++ white) := by
  have hparts : document.front ++ inside = (before ++ (plainKey ++ white)) ++ quote := by
    rw [← hfront]
    simp
  rcases List.append_eq_append_iff.mp hparts with ⟨y, hy, hinside⟩ | ⟨y, hy, hquoteEq⟩
  · have hyNil : y = [] := by
      refine begins_behind_key h hactive hname (List.IsPrefix.trans ?_ hvalue) hy hbefore hwhite
      exact hinside ▸ List.prefix_append y quote
    rw [hyNil, List.append_nil] at hy
    rw [hyNil, List.nil_append] at hinside
    exact ⟨hinside, hy.symm⟩
  · rcases List.eq_nil_or_concat' y with rfl | ⟨y, last, rfl⟩
    · exact ⟨hquoteEq.symm, by rw [hy, List.append_nil]⟩
    · -- the text in front of the value does not end with a quote
      have hlast := yaml.getLast_front h hactive hname last (by
        rw [hy, ← List.append_assoc, List.getLast?_concat]
        rfl)
      have hmark : isQuote last = true := hquote last (by rw [hquoteEq]; simp)
      rcases hlast with hspace | rfl
      · rw [not_isSpace_of_isQuote hmark] at hspace
        cases hspace
      · exact absurd hmark (by decide)

/-- Behind a name no line begins. -/
lemma lineStart_of_isName {name : Str} (h : IsName cls name) (front : Str) :
    lineStart '\n' true (front ++ name) = false := by
  obtain ⟨name', last, hlast⟩ := (List.eq_nil_or_concat' name).resolve_left h.ne_nil
  have hword : cls.isWord last = true := h.isWord last (by rw [hlast]; simp)
  have hne : last ≠ '\n' := newline_of_isWord hword
  rw [hlast, ← List.append_assoc, lineStart, List.getLast?_concat]
  simp [hne]

/-- Two switches that set the value leave the text behind the word that they replace. -/
lemma no_key_behind {inside tail : Str} {valueOf : Target → Str}
    (hsets : ∀ target, yaml.parse (switchContent cls target text) =
      some { document with value := valueOf target, active := some target.name })
    (hvalue : ∀ target, valueOf target ++ document.back =
      inside ++ (target.name ++ switchFrom cls target false tail)) :
    (∀ a s, ¬ IsKey cls false tail a s) ∧ ∀ target, switchFrom cls target false tail = tail := by
  rcases switchFrom_cases cls false tail with hno | ⟨a, s, hkey, -, hswitch⟩
  · exact hno
  exfalso
  obtain ⟨last, hlast⟩ := exists_last cls (cut cls s).tail
  have hparts : ∀ target, ∃ middle, valueOf target ++ document.back =
      (inside ++ (target.name ++ a)) ++ (plainKey ++ (middle ++ (target.name ++ last))) := by
    intro target
    obtain ⟨front, hfront⟩ := hlast target
    refine ⟨(cut cls s).white ++ ((cut cls s).quote ++ front), ?_⟩
    rw [hvalue, hswitch, hfront]
    simp
  have hback : document.back <:+ last := by
    refine suffix_of_names fun target => ?_
    obtain ⟨middle, hmiddle⟩ := hparts target
    refine ⟨(inside ++ (target.name ++ a)) ++ (plainKey ++ middle), valueOf target, ?_⟩
    rw [hmiddle]
    simp
  obtain ⟨rest, rfl⟩ := hback
  obtain ⟨middle, hmiddle⟩ := hparts .prod
  have hprod : valueOf .prod = (inside ++ (Target.prod.name ++ a)) ++
      (plainKey ++ (middle ++ (Target.prod.name ++ rest))) := by
    refine List.append_cancel_right (?_ : _ ++ document.back = _)
    rw [hmiddle]
    simp
  have hmargin := yaml.no_key (hsets .prod) rfl Target.prod.isName _ _ hprod
  -- the key behind the word begins a line
  have hne : a ≠ [] := by
    rintro rfl
    exact absurd hkey.2.1 (by simp)
  rw [← List.append_assoc, lineStart_append_of_ne_nil hne, hkey.2.1] at hmargin
  cases hmargin

/-- Switches that set the value write the name into it: what they write in front of the name ends
inside of the value, and the value ends in front of the next key. -/
lemma exists_valueOf {shared tail : Str} {valueOf : Target → Str}
    (hsets : ∀ target, yaml.parse (switchContent cls target text) =
      some { document with value := valueOf target, active := some target.name })
    (hwritten : ∀ target, switchContent cls target text =
      shared ++ (target.name ++ switchFrom cls target false tail)) :
    ∃ inside rest, document.front ++ inside = shared ∧ tail = rest ++ document.back ∧
      (∀ target, valueOf target = inside ++ (target.name ++ rest)) ∧
        ∀ a s, ¬ IsKey cls false tail a s := by
  have hparts : ∀ target, document.front ++ (valueOf target ++ document.back) =
      shared ++ (target.name ++ switchFrom cls target false tail) := fun target =>
    (yaml.text_eq (hsets target)).trans (hwritten target)
  obtain ⟨inside, rfl⟩ := prefix_of_names fun target => ⟨_, _, hparts target⟩
  have hvalue : ∀ target, valueOf target ++ document.back =
      inside ++ (target.name ++ switchFrom cls target false tail) := by
    intro target
    have hline := hparts target
    rw [List.append_assoc, List.append_cancel_left_eq] at hline
    exact hline
  obtain ⟨hnoKey, hsame⟩ := no_key_behind hsets hvalue
  obtain ⟨rest, rfl⟩ : document.back <:+ tail := by
    refine suffix_of_names fun target => ⟨inside, valueOf target, ?_⟩
    rw [hvalue, hsame]
  refine ⟨inside, rest, rfl, rfl, fun target => ?_, hnoKey⟩
  refine List.append_cancel_right (?_ : _ ++ document.back = _)
  rw [hvalue, hsame]
  simp

/-- The word in quotes that a switch replaces is the active environment: it can be written back. -/
lemma active_of_quoted (h : yaml.parse text = some document) {written : Str} {target : Target}
    {q : Char} {word rest : Str} (hq : isQuote q = true) (hname : IsName cls word)
    (hwritten : yaml.parse written = some { document with
      value := q :: (target.name ++ rest), active := some target.name })
    (hvalue : document.value = q :: (word ++ rest)) : document.active = some word := by
  have hback := yaml.parse_quoted hwritten hq rfl target.isName rfl word hname
  have hsource : document.front ++ (q :: (word ++ rest) ++ document.back) = text := by
    rw [← hvalue]
    exact yaml.text_eq h
  dsimp only at hback
  rw [hsource, h] at hback
  exact congrArg Document.active (Option.some.inj hback)

/-- A key behind a name is a key of the text behind it. -/
lemma isKey_of_behind {front name back a s : Str} (hname : IsName cls name)
    (hkey : IsKey cls true ((front ++ name) ++ back) a s)
    (hle : (front ++ name).length ≤ a.length) : ∃ b, IsKey cls false back b s := by
  obtain ⟨htext, ha, hword⟩ := hkey
  obtain ⟨b, rfl⟩ := List.prefix_of_prefix_length_le (List.prefix_append (front ++ name) back)
    ⟨_, htext.symm⟩ hle
  rw [List.append_assoc _ b, List.append_cancel_left_eq] at htext
  refine ⟨b, htext, ?_, hword⟩
  by_cases hnil : b = []
  · -- no line begins directly behind the name
    rw [hnil, List.append_nil, lineStart_of_isName hname] at ha
    cases ha
  · rwa [lineStart_append_of_ne_nil hnil] at ha

/-- A switch that sets the active environment and nothing else has found a switchable file.

**Proof sketch.** Both switches find the same key, and what they write is the same up to the name.
So the value begins in front of the word, with its quote alone, and ends in front of the next
key. -/
theorem switchable_of_sets (h : yaml.parse text = some document) {valueOf : Target → Str}
    (hsets : ∀ target, yaml.parse (switchContent cls target text) =
      some { document with value := valueOf target, active := some target.name }) :
    Switchable cls text document := by
  rcases switchFrom_cases cls true text with ⟨-, hsame⟩ | ⟨before, s, hkey, hfirst, hswitch⟩
  · -- without a key both switches leave the text
    have hprod := hsets .prod
    have hiop := hsets .iop
    rw [show switchContent cls _ text = text from hsame _] at hprod hiop
    have hactive := congrArg Document.active (Option.some.inj (hprod.symm.trans hiop))
    exact absurd (Option.some.inj hactive) (by decide)
  obtain ⟨htext, hbefore, hword⟩ := hkey
  have hparts := @cut_append cls s
  have hwhite := fun c => @isSpace_of_mem_white cls s c
  have hquote := @quote_eq cls s
  have hwordEnd := @head?_tail cls s
  have hname : IsName cls (cut cls s).word := ⟨hword, fun c hc => isWord_of_mem_word hc⟩
  revert hswitch hparts hwhite hquote hwordEnd hname
  generalize cut cls s = c
  obtain ⟨white, quote, word, tail⟩ := c
  intro hswitch hparts hwhite hquote hwordEnd hname
  dsimp only at hswitch hparts hwhite hquote hwordEnd hname
  have hwritten : ∀ target, switchContent cls target text =
      (before ++ (plainKey ++ (white ++ quote))) ++
        (target.name ++ switchFrom cls target false tail) := by
    intro target
    rw [show switchContent cls target text = switchFrom cls target true text from rfl, hswitch]
    simp
  obtain ⟨inside, rest, hinside, rfl, hvalueOf, hnoKey⟩ := exists_valueOf hsets hwritten
  obtain ⟨rfl, hfront⟩ := inside_eq_quote (hsets .prod) rfl Target.prod.isName
    ⟨_, (hvalueOf .prod).symm⟩ hinside.symm hbefore hwhite (by
      rcases hquote with rfl | ⟨q, hq, rfl⟩
      · simp
      · simpa using hq)
  dsimp only at hfront
  have hdocument : document.value = inside ++ (word ++ rest) := by
    have hvalue := yaml.text_eq h
    rw [htext, ← hparts, hfront] at hvalue
    refine List.append_cancel_right (?_ : _ ++ document.back = _)
    simpa using hvalue
  refine ⟨before, white, inside, word, rest, hfront, hwhite, hbefore, hdocument, hname, ?_,
    hwordEnd, fun a s' hs' ha hlength => ?_⟩
  · have hprod := hsets .prod
    rw [hvalueOf] at hprod
    rcases hquote with rfl | ⟨q, hq, rfl⟩
    · exact .inl ⟨rfl, yaml.tail_eq_nil hprod rfl Target.prod.isName rfl⟩
    · exact .inr ⟨⟨q, hq, rfl⟩, active_of_quoted h hq hname hprod hdocument⟩
  · by_contra hword'
    rcases hlength with hlt | hle
    · have hle := hfirst a s' ⟨hs', ha, hword'⟩
      omega
    · have hvalue : ((document.front ++ inside) ++ word) ++ (rest ++ document.back) = text := by
        rw [← yaml.text_eq h, hdocument]
        simp
      rw [← List.append_assoc] at hle
      obtain ⟨b, hb⟩ := isKey_of_behind hname ⟨hvalue.trans hs', ha, hword'⟩ hle
      exact hnoKey b s' hb

/-- A switch of a switchable file replaces the word of its value. -/
theorem switchContent_of_entry (h : yaml.parse text = some document)
    {before white quote word tail : Str}
    (hentry : SwitchableEntry cls text document before white quote word tail) (target : Target) :
    switchContent cls target text =
      document.front ++ (quote ++ (target.name ++ tail) ++ document.back) := by
  have hquote : quote = [] ∨ ∃ c, isQuote c = true ∧ quote = [c] :=
    hentry.quotes.imp And.left And.left
  have htext : text = before ++ (plainKey ++
      (white ++ (quote ++ (word ++ (tail ++ document.back))))) := by
    rw [← yaml.text_eq h, hentry.front, hentry.value]
    simp
  have hcut := @cut_eq cls white quote word (tail ++ document.back) hentry.white hquote
    hentry.isName.ne_nil hentry.isName.isWord hentry.wordEnd
  have hkey : IsKey cls true text before (white ++ (quote ++ (word ++ (tail ++ document.back)))) :=
    ⟨htext, hentry.margin, by rw [hcut]; exact hentry.isName.ne_nil⟩
  -- behind the word the text is left
  have hsame : switchFrom cls target false (tail ++ document.back) = tail ++ document.back := by
    rcases switchFrom_cases cls false (tail ++ document.back) with
      ⟨-, hsame⟩ | ⟨a, s, ⟨hs, ha, hword⟩, -⟩
    · exact hsame target
    · refine absurd (hentry.others ((document.front ++ (quote ++ word)) ++ a) s ?_ ?_ (.inr ?_))
        hword
      · rw [htext, hs, hentry.front]
        simp
      · have hne : a ≠ [] := by
          rintro rfl
          exact absurd ha (by simp)
        rwa [lineStart_append_of_ne_nil hne]
      · simp
  rcases switchFrom_cases cls true text with ⟨hno, -⟩ | ⟨a, s, ⟨hs, ha, hword⟩, hfirst, hswitch⟩
  · exact absurd hkey (hno _ _)
  have hle := hfirst _ _ hkey
  obtain hlt | heq := hle.lt_or_eq
  · exact absurd (hentry.others a s hs ha (.inl hlt)) hword
  obtain ⟨rfl, hrest⟩ := List.append_inj (hs.symm.trans htext) heq
  obtain rfl := List.append_cancel_left hrest
  rw [show switchContent cls target text = switchFrom cls target true text from rfl, hswitch, hcut,
    hsame, hentry.front]
  simp

/-- A switch sets the active environment and nothing else, and the last of two switches counts,
exactly when the file is switchable. -/
theorem switchesFile_iff (h : yaml.parse text = some document) :
    SwitchesFile yaml text document ↔ Switchable cls text document := by
  constructor
  · intro hswitch
    choose valueOf hsets using fun target => hswitch.sets target _ _ rfl
    exact switchable_of_sets h hsets
  · rintro ⟨before, white, quote, word, tail, hentry⟩
    refine ⟨fun target written message hwritten => ?_, ?_⟩
    · obtain ⟨rfl, -⟩ := Prod.mk.inj (Except.ok.inj hwritten)
      rw [switchContent_of_entry h hentry]
      rcases hentry.quotes with ⟨rfl, rfl⟩ | ⟨⟨q, hq, rfl⟩, hactive⟩
      · have hvalue : document.value = word := by
          rw [hentry.value, List.nil_append, List.append_nil]
        rw [List.nil_append, List.append_nil]
        exact ⟨_, yaml.parse_plain h (hvalue ▸ hentry.isName) target⟩
      · have hvalue : document.value = q :: (word ++ tail) := hentry.value
        exact ⟨_, yaml.parse_quoted h hq hvalue hentry.isName hactive _ target.isName⟩
    · intro target target' once twice message message' honce htwice
      obtain ⟨rfl, -⟩ := Prod.mk.inj (Except.ok.inj honce)
      rw [← htwice, switchEnvironment, switchEnvironment, switchContent_switchContent]

end Switch

/-- What is in front of the entry of a described file. -/
def describedHead : Str := "# Configuration file\n".toList

/-- What is behind the value of a described file: a comment, and an indented key of the same
name. -/
def describedBack : Str :=
  " # current\n\nmetadata:\n  active_environment:\n    type: string".toList

/-- A file with its value in quotes, with comments and other entries. -/
def describedText : Str := describedHead ++ ("active_environment: \"IOP\"".toList ++ describedBack)

/-- What the text is. -/
def describedDocument : Document Str where
  front := describedHead ++ "active_environment: ".toList
  value := "\"IOP\"".toList
  back := describedBack
  active := some "IOP".toList
  others := describedBack

/-- A value in quotes is switched. -/
theorem switchesFile_described :
    SwitchesFile (entryParser .ascii describedHead) describedText describedDocument := by
  have hkeys : ∀ a ∈ describedText.inits, lineStart '\n' true a = true →
      plainKey <+: describedText.drop a.length → a.length = describedHead.length := by
    decide +kernel
  have hwhite : ∀ c ∈ [' '], isSpace c = true := List.forall_mem_singleton.mpr (by decide)
  have hquote : ∀ c ∈ ['"'].head?, WordClass.ascii.isWord c = false := by
    rintro _ ⟨⟩
    decide
  refine (switchesFile_iff (by decide +kernel)).mpr ⟨describedHead, [' '], ['"'], "IOP".toList,
    ['"'], rfl, hwhite, by decide +kernel, rfl, Target.iop.isName, .inr ⟨⟨'"', rfl, rfl⟩, rfl⟩,
    hquote, fun a s hs ha hlength => ?_⟩
  have hlengthEq := hkeys a ((List.mem_inits _ _).mpr ⟨_, hs.symm⟩) ha (by
    rw [hs, List.drop_left]
    exact List.prefix_append _ _)
  have hfront : describedHead.length < describedDocument.front.length := by decide
  rw [List.length_append] at hlength
  omega

/-- A file without a value. -/
def emptyText : Str := "active_environment:\nenvironments: none".toList

/-- Where the value is empty, the switch replaces the key of the next entry, and the value stays
empty. -/
theorem not_switchesFile_empty : ∃ document,
    (entryParser .ascii []).parse emptyText = some document ∧
      switchContent .ascii .prod emptyText = "active_environment:\nPROD: none".toList ∧
        ¬ SwitchesFile (entryParser .ascii []) emptyText document := by
  refine ⟨⟨plainKey, [], "\nenvironments: none".toList, none, "\nenvironments: none".toList⟩,
    by decide +kernel, by decide +kernel, fun h => ?_⟩
  obtain ⟨value, hread⟩ := h.sets .prod _ _ rfl
  have hwritten : (entryParser .ascii []).parse (switchContent .ascii .prod emptyText) =
      some ⟨plainKey, [], "\nPROD: none".toList, none, "\nPROD: none".toList⟩ := by
    decide +kernel
  rw [hwritten] at hread
  cases congrArg Document.active (Option.some.inj hread)

end EntsoePipeline
