import Mathlib.Data.List.Infix
import Mathlib.Tactic

set_option relaxedAutoImplicit false
set_option autoImplicit false

/-!
# Patterns of SQL `LIKE`

A `LIKE` pattern over an arbitrary alphabet: a wildcard for any text, a wildcard for one
character, and literal characters, of which the special ones are escaped.

## Main definitions

* `Like.Tok`, `Like.parse` — the tokens of a pattern text.
* `Like.Matches` — the texts a token list matches.
* `Like.like` — the executable match.

## Main results

* `Like.like_iff` — the executable match decides `Like.Matches`.
* `Like.matches_append` — concatenated patterns match concatenated texts.
* `Like.matches_parse_self` — a pattern without escapes matches its own text.
-/

namespace Like

variable {α : Type*}

/-- A token of a pattern. -/
inductive Tok (α : Type*)
  /-- Any text. -/
  | any
  /-- One arbitrary character. -/
  | one
  /-- The given character. -/
  | lit (x : α)
  deriving DecidableEq

/-- The special characters of a pattern text. -/
structure Specials (α : Type*) where
  /-- Stands for any text. -/
  any : α
  /-- Stands for one character. -/
  one : α
  /-- Makes the next character literal. -/
  escape : α

/-- The texts a list of tokens matches. -/
inductive Matches : List (Tok α) → List α → Prop
  | nil : Matches [] []
  | any {ts : List (Tok α)} (s : List α) {t : List α} (h : Matches ts t) :
      Matches (.any :: ts) (s ++ t)
  | one {ts : List (Tok α)} (x : α) {t : List α} (h : Matches ts t) :
      Matches (.one :: ts) (x :: t)
  | lit {ts : List (Tok α)} (x : α) {t : List α} (h : Matches ts t) :
      Matches (.lit x :: ts) (x :: t)

/-- Concatenated patterns match concatenated texts. -/
lemma matches_append {ts us : List (Tok α)} {s t : List α} (hs : Matches ts s)
    (ht : Matches us t) : Matches (ts ++ us) (s ++ t) := by
  induction hs with
  | nil => exact ht
  | any s _ ih =>
    rw [List.append_assoc]
    exact .any s ih
  | one x _ ih => exact .one x ih
  | lit x _ ih => exact .lit x ih

/-- The wildcard for any text matches everything. -/
lemma matches_any (s : List α) : Matches [.any] s := by
  have := Matches.any s (@Matches.nil α)
  rwa [List.append_nil] at this

section Decidable

variable [DecidableEq α]

/-- The token of an unescaped character. -/
def tokOf (p : Specials α) (x : α) : Tok α :=
  if x = p.any then .any else if x = p.one then .one else .lit x

/-- The tokens of a pattern text. An escape at the very end stands for itself. -/
def parse (p : Specials α) : List α → List (Tok α)
  | [] => []
  | [x] => if x = p.escape then [.lit x] else [tokOf p x]
  | x :: y :: xs =>
    if x = p.escape then .lit y :: parse p xs else tokOf p x :: parse p (y :: xs)

/-- Whether a list of tokens matches a text. -/
def like : List (Tok α) → List α → Bool
  | [], s => s.isEmpty
  | .any :: ts, s => s.tails.any fun t => like ts t
  | .one :: ts, s =>
    match s with
    | [] => false
    | _ :: t => like ts t
  | .lit x :: ts, s =>
    match s with
    | [] => false
    | y :: t => decide (x = y) && like ts t

/-- The executable match decides the relation. -/
lemma like_iff {ts : List (Tok α)} {s : List α} : like ts s = true ↔ Matches ts s := by
  induction ts generalizing s with
  | nil =>
    rw [like, List.isEmpty_iff]
    constructor
    · rintro rfl
      exact .nil
    · rintro ⟨⟩
      rfl
  | cons tok ts ih =>
    cases tok with
    | any =>
      simp only [like, List.any_eq_true, List.mem_tails]
      constructor
      · rintro ⟨t, ⟨pre, rfl⟩, ht⟩
        exact .any pre (ih.mp ht)
      · rintro ⟨⟩
        rename_i pre t h
        exact ⟨t, ⟨pre, rfl⟩, ih.mpr h⟩
    | one =>
      cases s with
      | nil =>
        constructor
        · intro h
          cases h
        · rintro ⟨⟩
      | cons x t =>
        show like ts t = true ↔ _
        rw [ih]
        constructor
        · intro h
          exact .one x h
        · rintro ⟨⟩
          assumption
    | lit x =>
      cases s with
      | nil =>
        constructor
        · intro h
          cases h
        · rintro ⟨⟩
      | cons y t =>
        show (decide (x = y) && like ts t) = true ↔ _
        rw [Bool.and_eq_true, decide_eq_true_eq, ih]
        constructor
        · rintro ⟨rfl, h⟩
          exact .lit x h
        · rintro ⟨⟩
          exact ⟨rfl, by assumption⟩

variable {p : Specials α}

/-- The token of a character matches the character. -/
lemma matches_tokOf {x : α} {ts : List (Tok α)} {t : List α} (h : Matches ts t) :
    Matches (tokOf p x :: ts) (x :: t) := by
  unfold tokOf
  split_ifs
  · exact .any [x] h
  · exact .one x h
  · exact .lit x h

/-- A character that is no escape is a token of its own. -/
lemma parse_cons {x : α} (hx : x ≠ p.escape) (xs : List α) :
    parse p (x :: xs) = tokOf p x :: parse p xs := by
  cases xs with
  | nil => simp [parse, hx]
  | cons y ys => rw [parse, if_neg hx]

/-- The tokens of a text that starts without escapes. -/
lemma parse_append {xs : List α} (hxs : p.escape ∉ xs) (ys : List α) :
    parse p (xs ++ ys) = parse p xs ++ parse p ys := by
  induction xs with
  | nil => rfl
  | cons x xs ih =>
    have hx : x ≠ p.escape := fun h => hxs (h ▸ List.mem_cons_self)
    have hxs' : p.escape ∉ xs := fun h => hxs (List.mem_cons_of_mem _ h)
    rw [List.cons_append, parse_cons hx, ih hxs', parse_cons hx, List.cons_append]

/-- A pattern text without escapes matches itself. -/
lemma matches_parse_self {xs : List α} (hxs : p.escape ∉ xs) : Matches (parse p xs) xs := by
  induction xs with
  | nil => exact .nil
  | cons x xs ih =>
    have hx : x ≠ p.escape := fun h => hxs (h ▸ List.mem_cons_self)
    have hxs' : p.escape ∉ xs := fun h => hxs (List.mem_cons_of_mem _ h)
    rw [parse_cons hx]
    exact matches_tokOf (ih hxs')

/-- A text without escapes between two wildcards matches every text it occurs in. -/
lemma matches_infix {xs s : List α} (hany : p.any ≠ p.escape) (hxs : p.escape ∉ xs)
    (h : xs <:+: s) : Matches (parse p (p.any :: (xs ++ [p.any]))) s := by
  obtain ⟨pre, post, rfl⟩ := h
  have htok : tokOf p p.any = .any := if_pos rfl
  have hlast : parse p [p.any] = [.any] := by rw [parse_cons hany, htok, parse]
  rw [parse_cons hany, parse_append hxs, hlast, htok, List.append_assoc]
  exact .any pre (matches_append (matches_parse_self hxs) (matches_any post))

/-- A text without escapes in front of a wildcard matches every text that it begins. -/
lemma matches_prefix {xs s : List α} (hany : p.any ≠ p.escape) (hxs : p.escape ∉ xs)
    (h : xs <+: s) : Matches (parse p (xs ++ [p.any])) s := by
  obtain ⟨post, rfl⟩ := h
  have htok : tokOf p p.any = .any := if_pos rfl
  have hlast : parse p [p.any] = [.any] := by rw [parse_cons hany, htok, parse]
  rw [parse_append hxs, hlast]
  exact matches_append (matches_parse_self hxs) (matches_any post)

end Decidable

end Like
