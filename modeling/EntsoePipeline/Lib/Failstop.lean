import Mathlib.Data.List.Basic
import Mathlib.Tactic

set_option relaxedAutoImplicit false
set_option autoImplicit false

/-!
# Loops that end at the first failure

A loop makes a pass over each item of a list. A pass has a result and changes the state, also when
it fails; after a failed pass the rest of the items is not looked at.

## Main definitions

* `Failstop.run` — the results of the passes that were made, and the state behind them.
* `Failstop.turn` — the state at the turn of an item, when no pass before it failed.
* `Failstop.Clean` — no pass fails.

## Main results

* `Failstop.getElem?_run` — an item has its turn exactly when no pass before it fails.
* `Failstop.run_preserves_of_fails` — no item behind one whose pass always fails has its turn.
* `Failstop.settled_turn` — a clean loop settles every item, when a pass settles its own item and
  unsettles no other.
* `Failstop.run_of_settled` — a loop over settled items changes nothing.
* `Failstop.fst_run_of_separate` — the results when no pass depends on another.
-/

namespace Failstop

variable {σ ι ε : Type*} (pass : ι → σ → ε × σ) (fails : ε → Bool)

/-- The loop. -/
def run : List ι → σ → List ε × σ
  | [], s => ([], s)
  | item :: items, s =>
    let result := pass item s
    if fails result.1 then ([result.1], result.2)
    else
      let rest := run items result.2
      (result.1 :: rest.1, rest.2)

/-- The state behind the items when the loop goes on after every pass. -/
def turn (items : List ι) (s : σ) : σ := items.foldl (fun s item => (pass item s).2) s

/-- No pass over the items fails. -/
def Clean (items : List ι) (s : σ) : Prop :=
  ∀ before item after, items = before ++ item :: after →
    fails (pass item (turn pass before s)).1 = false

variable {pass fails}

/-- Without items the state stays. -/
@[simp] lemma turn_nil (s : σ) : turn pass [] s = s := rfl

/-- The first item is passed first. -/
@[simp] lemma turn_cons (item : ι) (items : List ι) (s : σ) :
    turn pass (item :: items) s = turn pass items (pass item s).2 := rfl

/-- Items that follow one another are passed one after the other. -/
lemma turn_append (l l' : List ι) (s : σ) :
    turn pass (l ++ l') s = turn pass l' (turn pass l s) := List.foldl_append

/-- A loop without items is clean. -/
lemma clean_nil (s : σ) : Clean pass fails [] s := by
  intro before item after h
  cases before <;> cases h

/-- A loop is clean when its first item does not fail and the rest is clean. -/
lemma clean_cons_iff {item : ι} {items : List ι} {s : σ} :
    Clean pass fails (item :: items) s ↔
      fails (pass item s).1 = false ∧ Clean pass fails items (pass item s).2 := by
  constructor
  · intro h
    refine ⟨h [] item items rfl, fun before item' after heq => ?_⟩
    exact h (item :: before) item' after (by rw [heq, List.cons_append])
  · rintro ⟨hitem, hitems⟩ before item' after heq
    cases before with
    | nil =>
      obtain ⟨rfl, rfl⟩ := List.cons.inj heq
      exact hitem
    | cons first before =>
      obtain ⟨rfl, rfl⟩ := List.cons.inj heq
      exact hitems before item' after rfl

/-- A loop is clean when both of its parts are. -/
lemma clean_append_iff {l l' : List ι} {s : σ} :
    Clean pass fails (l ++ l') s ↔
      Clean pass fails l s ∧ Clean pass fails l' (turn pass l s) := by
  induction l generalizing s with
  | nil => simp [clean_nil]
  | cons item items ih =>
    rw [List.cons_append, clean_cons_iff, clean_cons_iff, ih, turn_cons, and_assoc]

/-! ## The turns -/

/-- A clean loop comes to its end. -/
lemma run_of_clean {items : List ι} {s : σ} (h : Clean pass fails items s) :
    (run pass fails items s).2 = turn pass items s := by
  induction items generalizing s with
  | nil => rfl
  | cons item items ih =>
    obtain ⟨hitem, hitems⟩ := clean_cons_iff.mp h
    simp only [run, hitem, Bool.false_eq_true, if_false, turn_cons]
    exact ih hitems

/-- Behind clean items the loop goes on with the others. -/
lemma run_append_of_clean {l : List ι} (l' : List ι) {s : σ} (h : Clean pass fails l s) :
    run pass fails (l ++ l') s = ((run pass fails l s).1 ++ (run pass fails l' (turn pass l s)).1,
      (run pass fails l' (turn pass l s)).2) := by
  induction l generalizing s with
  | nil => rfl
  | cons item items ih =>
    obtain ⟨hitem, hitems⟩ := clean_cons_iff.mp h
    simp only [List.cons_append, run, hitem, Bool.false_eq_true, if_false, turn_cons, ih hitems]

/-- A loop is clean exactly when none of its results is a failure. -/
lemma clean_iff_forall_run {items : List ι} {s : σ} :
    Clean pass fails items s ↔ ∀ e ∈ (run pass fails items s).1, fails e = false := by
  induction items generalizing s with
  | nil => exact iff_of_true (clean_nil s) (by simp [run])
  | cons item items ih =>
    rw [clean_cons_iff]
    cases hitem : fails (pass item s).1 with
    | true => simp [run, hitem]
    | false =>
      simp only [run, hitem, Bool.false_eq_true, if_false, true_and, List.forall_mem_cons]
      exact ih

/-- **The turn of an item.** An item has its turn when no pass before it fails, and then its result
is that of its pass; otherwise the loop has ended before it. -/
theorem getElem?_run (before : List ι) (item : ι) (after : List ι) (s : σ) :
    (Clean pass fails before s ∧ (run pass fails (before ++ item :: after) s).1[before.length]? =
        some (pass item (turn pass before s)).1) ∨
      (¬ Clean pass fails before s ∧
        (run pass fails (before ++ item :: after) s).1[before.length]? = none) := by
  induction before generalizing s with
  | nil =>
    refine Or.inl ⟨clean_nil s, ?_⟩
    simp only [List.nil_append, run, List.length_nil, turn_nil]
    split_ifs <;> rfl
  | cons first before ih =>
    rw [clean_cons_iff]
    cases hfirst : fails (pass first s).1 with
    | true => simp [run, hfirst]
    | false =>
      simp only [List.cons_append, run, hfirst, Bool.false_eq_true, if_false, true_and, turn_cons,
        List.length_cons, List.getElem?_cons_succ]
      exact ih _

/-! ## Invariants -/

/-- What every pass keeps, the loop keeps. -/
lemma run_preserves {I : σ → Prop} {items : List ι}
    (hkeep : ∀ item ∈ items, ∀ s, I s → I (pass item s).2) {s : σ} (h : I s) :
    I (run pass fails items s).2 := by
  induction items generalizing s with
  | nil => exact h
  | cons item items ih =>
    obtain ⟨hitem, hitems⟩ := List.forall_mem_cons.mp hkeep
    unfold run
    dsimp only
    split_ifs
    · exact hitem s h
    · exact ih hitems (hitem s h)

/-- A loop never comes behind an item whose pass always fails: what the passes up to it keep, the
loop keeps. -/
lemma run_preserves_of_fails {I : σ → Prop} {before : List ι} {item : ι}
    (hkeep : ∀ item' ∈ before, ∀ s, I s → I (pass item' s).2)
    (hitem : ∀ s, I s → fails (pass item s).1 = true ∧ I (pass item s).2) (after : List ι) {s : σ}
    (h : I s) : I (run pass fails (before ++ item :: after) s).2 := by
  induction before generalizing s with
  | nil =>
    obtain ⟨hfails, hstate⟩ := hitem s h
    simp only [List.nil_append, run, hfails, if_true]
    exact hstate
  | cons first before ih =>
    obtain ⟨hfirst, hbefore⟩ := List.forall_mem_cons.mp hkeep
    rw [List.cons_append, run]
    dsimp only
    split_ifs
    · exact hfirst s h
    · exact ih hbefore (hfirst s h)

/-! ## Settled items -/

section Settled

variable {Settled : ι → σ → Prop}

/-- What no pass unsettles stays settled. -/
lemma settled_turn_of_settled {item : ι} {items : List ι}
    (hkeep : ∀ later ∈ items, ∀ s, Settled item s → Settled item (pass later s).2) {s : σ}
    (h : Settled item s) : Settled item (turn pass items s) := by
  induction items generalizing s with
  | nil => exact h
  | cons later items ih =>
    exact ih (fun later' hmem => hkeep later' (List.mem_cons_of_mem _ hmem))
      (hkeep later List.mem_cons_self s h)

/-- **A clean loop settles every item**, when a pass that does not fail settles its own item and a
pass over a later item unsettles no earlier one.

**Proof sketch.** Induction over the items: the pass over the first item settles it, and the passes
over the others keep it settled. -/
theorem settled_turn {items : List ι}
    (hself : ∀ item ∈ items, ∀ s, fails (pass item s).1 = false → Settled item (pass item s).2)
    (hkeep : items.Pairwise fun item later => ∀ s, Settled item s → Settled item (pass later s).2)
    {s : σ} (h : Clean pass fails items s) : ∀ item ∈ items, Settled item (turn pass items s) := by
  induction items generalizing s with
  | nil => simp
  | cons first items ih =>
    obtain ⟨hfirst, hitems⟩ := clean_cons_iff.mp h
    obtain ⟨hkeep, hkeeps⟩ := List.pairwise_cons.mp hkeep
    rw [List.forall_mem_cons]
    constructor
    · exact settled_turn_of_settled hkeep (hself first List.mem_cons_self s hfirst)
    · exact ih (fun item hmem => hself item (List.mem_cons_of_mem _ hmem)) hkeeps hitems

/-- **A loop over settled items changes nothing**, when a pass over a settled item does not fail and
leaves the state as it is. -/
theorem run_of_settled {items : List ι} {s : σ}
    (hskip : ∀ item ∈ items, fails (pass item s).1 = false ∧ (pass item s).2 = s) :
    run pass fails items s = (items.map fun item => (pass item s).1, s) := by
  induction items with
  | nil => rfl
  | cons item items ih =>
    obtain ⟨⟨hfails, hstate⟩, hrest⟩ := List.forall_mem_cons.mp hskip
    simp only [run, hfails, Bool.false_eq_true, if_false, hstate, ih hrest, List.map_cons]

end Settled

/-! ## Passes that do not depend on each other -/

/-- **A clean loop over items that do not depend on each other.** When the result of a pass is not
changed by a pass over an earlier item, every result is that of the pass on the initial state. -/
theorem fst_run_of_separate {items : List ι}
    (hseparate : items.Pairwise fun item later =>
      ∀ s, (pass later (pass item s).2).1 = (pass later s).1)
    {s : σ} (h : Clean pass fails items s) :
    (run pass fails items s).1 = items.map fun item => (pass item s).1 := by
  induction items generalizing s with
  | nil => rfl
  | cons first items ih =>
    obtain ⟨hfirst, hitems⟩ := clean_cons_iff.mp h
    obtain ⟨hsep, hseps⟩ := List.pairwise_cons.mp hseparate
    simp only [run, hfirst, Bool.false_eq_true, if_false, ih hseps hitems, List.map_cons]
    congr 1
    exact List.map_congr_left fun later hlater => hsep later hlater s

end Failstop
