import Mathlib

set_option relaxedAutoImplicit false
set_option autoImplicit false

/-!
# First matches of prefixes

A list of rules, each with a text, is searched for the first one whose text is a prefix of a given
one. When no text of a rule is a prefix of that of another rule, at most one rule matches, and the
search does not depend on the order of the rules.

## Main definitions

* `FirstMatch.Apart` — neither text of two rules is a prefix of the other.
* `FirstMatch.PrefixFree` — no text of a list of rules is a prefix of that of another rule.

## Main results

* `FirstMatch.PrefixFree.length_filter_le_one` — at most one rule matches.
* `FirstMatch.PrefixFree.find?_eq_of_perm` — the search does not depend on the order.
* `FirstMatch.PrefixFree.congr` — another reading of the texts, with prefixes only where the first
  one has them.
-/

namespace FirstMatch

variable {ι α β : Type*}

/-- Neither text of two rules is a prefix of the other. -/
def Apart (text : ι → List α) (a b : ι) : Prop := ¬ text a <+: text b ∧ ¬ text b <+: text a

instance [DecidableEq α] (text : ι → List α) : DecidableRel (Apart text) := fun _ _ =>
  inferInstanceAs (Decidable (_ ∧ _))

instance (text : ι → List α) : Std.Symm (Apart text) := ⟨fun _ _ h => ⟨h.2, h.1⟩⟩

/-- No text of a rule is a prefix of that of another one. -/
def PrefixFree (text : ι → List α) (rules : List ι) : Prop := rules.Pairwise (Apart text)

instance [DecidableEq α] (text : ι → List α) (rules : List ι) : Decidable (PrefixFree text rules) :=
  inferInstanceAs (Decidable (rules.Pairwise _))

/-- Two texts that are prefixes of one are not apart. -/
lemma not_apart_of_common {text : ι → List α} {a b : ι} {s : List α} (ha : text a <+: s)
    (hb : text b <+: s) : ¬ Apart text a b := fun hab =>
  (List.prefix_or_prefix_of_prefix ha hb).elim hab.1 hab.2

namespace PrefixFree

variable {text : ι → List α} {rules rules' : List ι}

/-- A part of a prefix-free list is prefix-free. -/
lemma sublist (h : PrefixFree text rules) (hsub : rules'.Sublist rules) : PrefixFree text rules' :=
  List.Pairwise.sublist hsub h

/-- The texts may be read in another way, in which they are prefixes only where they are in this
one. -/
lemma congr {text' : ι → List β} (h : PrefixFree text rules)
    (htexts : ∀ a ∈ rules, ∀ b ∈ rules, text' a <+: text' b → text a <+: text b) :
    PrefixFree text' rules :=
  List.Pairwise.imp_of_mem (fun {a b} ha hb hab => ⟨fun hpre => hab.1 (htexts a ha b hb hpre),
    fun hpre => hab.2 (htexts b hb a ha hpre)⟩) h

section Matches

variable [DecidableEq α]

/-- At most one rule matches. -/
theorem length_filter_le_one (h : PrefixFree text rules) (s : List α) :
    (rules.filter fun rule => (text rule).isPrefixOf s).length ≤ 1 := by
  have hfilter := h.sublist (List.filter_sublist (p := fun rule => (text rule).isPrefixOf s))
  have hall : ∀ rule ∈ rules.filter fun rule => (text rule).isPrefixOf s, text rule <+: s :=
    fun rule hmem => by simpa using (List.mem_filter.mp hmem).2
  match hlist : rules.filter fun rule => (text rule).isPrefixOf s with
  | [] => exact Nat.zero_le 1
  | [_] => exact le_refl 1
  | a :: b :: rest =>
    rw [hlist] at hfilter hall
    have hab := List.rel_of_pairwise_cons hfilter (List.mem_cons_self : b ∈ b :: rest)
    exact absurd hab (not_apart_of_common (hall a (by simp)) (hall b (by simp)))

/-- The first match does not depend on the order of the rules. -/
theorem find?_eq_of_perm (h : PrefixFree text rules) (hperm : rules.Perm rules') (s : List α) :
    rules.find? (fun rule => (text rule).isPrefixOf s) =
      rules'.find? fun rule => (text rule).isPrefixOf s := by
  refine List.find?_eq_find?_of_perm hperm ?_
  rintro a ⟨ha, hpre⟩ b ⟨hb, hpre'⟩
  rw [List.isPrefixOf_iff_prefix] at hpre hpre'
  by_contra hne
  exact not_apart_of_common hpre hpre' (List.Pairwise.forall h ha hb hne)

end Matches

end PrefixFree

end FirstMatch
