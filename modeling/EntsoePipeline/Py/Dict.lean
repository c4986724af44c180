import Mathlib.Data.List.Dedup
import Mathlib.Data.List.Nodup
import Mathlib.Tactic

set_option relaxedAutoImplicit false
set_option autoImplicit false

/-!
# Python dictionaries

A dictionary is a list of items with pairwise distinct keys, in insertion order. Assigning to a
present key keeps its position and assigning to a new key appends it, as in Python; this is
where it differs from Mathlib's `AList`, whose `insert` moves the key to the front. The same
type serves as a database table with a primary key, the key being the key and the other
columns the value.

## Main definitions

* `Py.Dict` — an insertion-ordered dictionary.
* `Py.Dict.get?`, `Py.Dict.alter`, `Py.Dict.set` — `d.get(k)`, the update of one entry by a
  function of the old value, and `d[k] = v`.
* `Py.Dict.ofList` — the dictionary comprehension over a list of pairs.
* `Py.Dict.filter` — the items whose key and value pass a test.
* `Py.Dict.gather` — the loop that updates the entry of each element's key, in list order.

## Main results

* `Py.Dict.get?_alter`, `Py.Dict.keys_alter` — what one update changes.
* `Py.Dict.mem_items_iff` — the items are the graph of `get?`.
* `Py.Dict.get?_ofList`, `Py.Dict.keys_ofList` — a comprehension keeps the last value of each
  key at the position of its first occurrence.
* `Py.Dict.get?_setAll_eq_some_iff` — the entries after an assignment of distinct keys.
* `Py.Dict.get?_gather` — a gathering loop leaves in each entry what its own elements made of it.
-/

namespace Py

/-- The first hit of a test is a given hit of it when nothing before that hit passes. -/
lemma find?_eq_some_iff_takeWhile {α : Type*} [DecidableEq α] {l : List α} {p : α → Bool} {x : α}
    (hx : x ∈ l) (hp : p x = true) :
    l.find? p = some x ↔ ∀ y ∈ l.takeWhile (· ≠ x), ¬ p y = true := by
  induction l with
  | nil => cases hx
  | cons y ys ih =>
    by_cases hxy : y = x
    · subst hxy
      rw [List.find?_cons_of_pos hp, List.takeWhile_cons_of_neg (by simp)]
      simp
    · have hys : x ∈ ys := (List.mem_cons.mp hx).resolve_left (Ne.symm hxy)
      rw [List.takeWhile_cons_of_pos (by simpa using hxy)]
      by_cases hpy : p y = true
      · rw [List.find?_cons_of_pos hpy]
        constructor
        · intro h
          exact absurd (Option.some.inj h) hxy
        · intro h
          exact absurd hpy (h y List.mem_cons_self)
      · rw [List.find?_cons_of_neg hpy, ih hys, List.forall_mem_cons]
        exact (and_iff_right hpy).symm

/-- A Python dictionary: its items in insertion order, no key twice. -/
structure Dict (κ ν : Type*) where
  /-- The items, in insertion order. -/
  items : List (κ × ν)
  nodup : (items.map Prod.fst).Nodup

namespace Dict

variable {κ ν : Type*}

/-- The empty dictionary. -/
def empty : Dict κ ν := ⟨[], List.nodup_nil⟩

instance : EmptyCollection (Dict κ ν) := ⟨empty⟩

/-- The empty dictionary has no items. -/
@[simp] lemma items_empty : (∅ : Dict κ ν).items = [] := rfl

/-- A dictionary is determined by its items. -/
@[ext] lemma ext {d e : Dict κ ν} (h : d.items = e.items) : d = e := by
  cases d; cases e; cases h; rfl

/-- `d.keys()`. -/
def keys (d : Dict κ ν) : List κ := d.items.map Prod.fst

/-- `d.values()`. -/
def values (d : Dict κ ν) : List ν := d.items.map Prod.snd

/-- The empty dictionary has no keys. -/
@[simp] lemma keys_empty : (∅ : Dict κ ν).keys = [] := rfl

/-- The empty dictionary has no values. -/
@[simp] lemma values_empty : (∅ : Dict κ ν).values = [] := rfl

/-- The items whose key and value pass the test. -/
def filter (d : Dict κ ν) (p : κ → ν → Bool) : Dict κ ν where
  items := d.items.filter fun kv => p kv.1 kv.2
  nodup := (List.filter_sublist.map Prod.fst).nodup d.nodup

/-- The items behind a filter. -/
@[simp] lemma items_filter (d : Dict κ ν) (p : κ → ν → Bool) :
    (d.filter p).items = d.items.filter fun kv => p kv.1 kv.2 := rfl

section MapValues

variable {μ : Type*} (f : ν → μ) (d : Dict κ ν)

/-- `{k: f(v) for k, v in d.items()}`. -/
def mapValues : Dict κ μ where
  items := d.items.map fun kv => (kv.1, f kv.2)
  nodup := by
    rw [List.map_map]
    exact d.nodup

/-- The items with their mapped values. -/
@[simp] lemma items_mapValues : (d.mapValues f).items = d.items.map fun kv => (kv.1, f kv.2) := rfl

/-- Mapping the values keeps the keys. -/
lemma keys_mapValues : (d.mapValues f).keys = d.keys := by
  unfold keys
  rw [items_mapValues, List.map_map]
  rfl

/-- The mapped values are those of the old ones, in order. -/
lemma values_mapValues : (d.mapValues f).values = d.values.map f := by
  unfold values
  rw [items_mapValues, List.map_map, List.map_map]
  rfl

end MapValues

variable [DecidableEq κ]

instance [DecidableEq ν] : DecidableEq (Dict κ ν) := fun d e =>
  decidable_of_iff (d.items = e.items) ⟨ext, fun h => h ▸ rfl⟩

/-! ## Lookup -/

/-- `d.get(k)`. -/
def get? (d : Dict κ ν) (k : κ) : Option ν := d.items.lookup k

/-- The empty dictionary has no entry. -/
@[simp] lemma get?_empty (k : κ) : (∅ : Dict κ ν).get? k = none := rfl

/-- A lookup passes over another key. -/
lemma lookup_cons_of_ne {k k' : κ} (h : k ≠ k') (v : ν) (l : List (κ × ν)) :
    ((k', v) :: l).lookup k = l.lookup k := by
  rw [List.lookup_cons, beq_eq_false_iff_ne.mpr h]

/-- In a list without a repeated key, a lookup finds every pair. -/
lemma lookup_eq_some_of_mem {l : List (κ × ν)} (hl : (l.map Prod.fst).Nodup) {k : κ} {v : ν}
    (h : (k, v) ∈ l) : l.lookup k = some v := by
  induction l with
  | nil => simp at h
  | cons kv l ih =>
    obtain ⟨k', v'⟩ := kv
    rw [List.map_cons, List.nodup_cons] at hl
    rcases List.mem_cons.mp h with heq | h
    · cases heq
      exact List.lookup_cons_self
    · have hmem : k ∈ l.map Prod.fst := List.mem_map.mpr ⟨(k, v), h, rfl⟩
      have hne : k ≠ k' := fun hk => hl.1 (hk ▸ hmem)
      rw [lookup_cons_of_ne hne]
      exact ih hl.2 h

/-- What a lookup finds is in the list. -/
lemma mem_of_lookup_eq_some {l : List (κ × ν)} {k : κ} {v : ν} (h : l.lookup k = some v) :
    (k, v) ∈ l := by
  induction l with
  | nil => simp at h
  | cons kv l ih =>
    obtain ⟨k', v'⟩ := kv
    by_cases hk : k = k'
    · subst hk
      rw [List.lookup_cons_self, Option.some.injEq] at h
      rw [h]
      exact List.mem_cons_self
    · rw [lookup_cons_of_ne hk] at h
      exact List.mem_cons_of_mem _ (ih h)

/-- The items of a dictionary are the graph of its lookup. -/
lemma mem_items_iff {d : Dict κ ν} {k : κ} {v : ν} : (k, v) ∈ d.items ↔ d.get? k = some v :=
  ⟨lookup_eq_some_of_mem d.nodup, mem_of_lookup_eq_some⟩

/-- The keys are those with an entry. -/
lemma mem_keys_iff {d : Dict κ ν} {k : κ} : k ∈ d.keys ↔ ∃ v, d.get? k = some v := by
  simp only [keys, List.mem_map, Prod.exists, exists_and_right, exists_eq_right, mem_items_iff]

/-- The values are those of the entries. -/
lemma mem_values_iff {d : Dict κ ν} {v : ν} : v ∈ d.values ↔ ∃ k, d.get? k = some v := by
  simp only [values, List.mem_map, Prod.exists, exists_eq_right, mem_items_iff]

/-- The entry of a key is mapped. -/
lemma get?_mapValues {μ : Type*} (f : ν → μ) (d : Dict κ ν) (k : κ) :
    (d.mapValues f).get? k = (d.get? k).map f := by
  have hlookup : ∀ l : List (κ × ν),
      (l.map fun kv => (kv.1, f kv.2)).lookup k = (l.lookup k).map f := by
    intro l
    induction l with
    | nil => rfl
    | cons kv l ih =>
      rw [List.map_cons, List.lookup_cons, List.lookup_cons, ih]
      split <;> rfl
  exact hlookup d.items

/-- The entry of a key is kept when it passes the test. -/
lemma get?_filter (d : Dict κ ν) (p : κ → ν → Bool) (k : κ) :
    (d.filter p).get? k = (d.get? k).filter (p k) := by
  rw [Option.ext_iff]
  intro v
  rw [← mem_items_iff, items_filter, List.mem_filter, mem_items_iff, Option.filter_eq_some_iff]

/-! ## Updating one entry -/

/-- The items after the entry of `k` is replaced by `f` of its old value. -/
def alterItems (f : Option ν → ν) (k : κ) : List (κ × ν) → List (κ × ν)
  | [] => [(k, f none)]
  | (k', v) :: l => if k' = k then (k, f (some v)) :: l else (k', v) :: alterItems f k l

/-- A replaced entry keeps its place, and a new key comes last. -/
lemma keys_alterItems (f : Option ν → ν) (k : κ) (l : List (κ × ν)) :
    (alterItems f k l).map Prod.fst =
      if k ∈ l.map Prod.fst then l.map Prod.fst else l.map Prod.fst ++ [k] := by
  induction l with
  | nil => simp [alterItems]
  | cons kv l ih =>
    obtain ⟨k', v⟩ := kv
    by_cases hk : k' = k
    · simp [alterItems, hk]
    · rw [alterItems, if_neg hk, List.map_cons, ih]
      by_cases hm : k ∈ l.map Prod.fst
      · rw [if_pos hm, List.map_cons, if_pos (List.mem_cons_of_mem _ hm)]
      · rw [if_neg hm, List.map_cons, if_neg (by simp [Ne.symm hk, hm]), List.cons_append]

/-- A new key is appended. -/
lemma alterItems_of_not_mem (f : Option ν → ν) {k : κ} {l : List (κ × ν)}
    (h : k ∉ l.map Prod.fst) : alterItems f k l = l ++ [(k, f none)] := by
  induction l with
  | nil => rfl
  | cons kv l ih =>
    rw [List.map_cons, List.mem_cons, not_or] at h
    rw [alterItems, if_neg (Ne.symm h.1), ih h.2, List.cons_append]

/-- Replacing an entry repeats no key. -/
lemma nodup_alterItems (f : Option ν → ν) (k : κ) {l : List (κ × ν)}
    (h : (l.map Prod.fst).Nodup) : ((alterItems f k l).map Prod.fst).Nodup := by
  rw [keys_alterItems]
  split_ifs with hk
  · exact h
  · exact h.append (List.nodup_singleton k) (by simpa using hk)

/-- A lookup behind a replacement. -/
lemma lookup_alterItems (f : Option ν → ν) (k k₁ : κ) (l : List (κ × ν)) :
    (alterItems f k l).lookup k₁ = if k₁ = k then some (f (l.lookup k)) else l.lookup k₁ := by
  induction l with
  | nil =>
    by_cases hk : k₁ = k
    · rw [alterItems, hk, List.lookup_cons_self, if_pos rfl, List.lookup_nil]
    · rw [alterItems, lookup_cons_of_ne hk, if_neg hk]
  | cons kv l ih =>
    obtain ⟨k', v⟩ := kv
    by_cases hk : k' = k
    · subst hk
      rw [alterItems, if_pos rfl, List.lookup_cons_self]
      by_cases hk₁ : k₁ = k'
      · rw [hk₁, List.lookup_cons_self, if_pos rfl]
      · rw [lookup_cons_of_ne hk₁, if_neg hk₁, lookup_cons_of_ne hk₁]
    · rw [alterItems, if_neg hk, lookup_cons_of_ne (Ne.symm hk)]
      by_cases hk₁ : k₁ = k'
      · subst hk₁
        rw [List.lookup_cons_self, List.lookup_cons_self, if_neg hk]
      · rw [lookup_cons_of_ne hk₁, lookup_cons_of_ne hk₁, ih]

/-- Replace the entry of `k` by `f` of its old value (`none` when `k` is new). -/
def alter (d : Dict κ ν) (k : κ) (f : Option ν → ν) : Dict κ ν :=
  ⟨alterItems f k d.items, nodup_alterItems f k d.nodup⟩

/-- `d[k] = v`. -/
def set (d : Dict κ ν) (k : κ) (v : ν) : Dict κ ν := d.alter k fun _ => v

/-- The entries behind a replacement. -/
lemma get?_alter (d : Dict κ ν) (k : κ) (f : Option ν → ν) (k₁ : κ) :
    (d.alter k f).get? k₁ = if k₁ = k then some (f (d.get? k)) else d.get? k₁ :=
  lookup_alterItems f k k₁ d.items

/-- The replaced entry. -/
@[simp] lemma get?_alter_self (d : Dict κ ν) (k : κ) (f : Option ν → ν) :
    (d.alter k f).get? k = some (f (d.get? k)) := by rw [get?_alter, if_pos rfl]

/-- The other entries are kept. -/
lemma get?_alter_of_ne (d : Dict κ ν) {k k₁ : κ} (f : Option ν → ν) (h : k₁ ≠ k) :
    (d.alter k f).get? k₁ = d.get? k₁ := by rw [get?_alter, if_neg h]

/-- A replaced entry keeps its place, and a new key comes last. -/
lemma keys_alter (d : Dict κ ν) (k : κ) (f : Option ν → ν) :
    (d.alter k f).keys = if k ∈ d.keys then d.keys else d.keys ++ [k] :=
  keys_alterItems f k d.items

/-- The keys behind a replacement. -/
@[simp] lemma mem_keys_alter {d : Dict κ ν} {k : κ} {f : Option ν → ν} {k₁ : κ} :
    k₁ ∈ (d.alter k f).keys ↔ k₁ = k ∨ k₁ ∈ d.keys := by
  rw [keys_alter]
  split_ifs with h
  · exact ⟨Or.inr, fun h' => h'.elim (fun e => e ▸ h) id⟩
  · rw [List.mem_append, List.mem_singleton, or_comm]

/-- The entries behind an assignment. -/
lemma get?_set (d : Dict κ ν) (k : κ) (v : ν) (k₁ : κ) :
    (d.set k v).get? k₁ = if k₁ = k then some v else d.get? k₁ := get?_alter d k _ k₁

/-- The assigned entry. -/
@[simp] lemma get?_set_self (d : Dict κ ν) (k : κ) (v : ν) : (d.set k v).get? k = some v :=
  get?_alter_self d k _

/-- The other entries are kept. -/
lemma get?_set_of_ne (d : Dict κ ν) {k k₁ : κ} (v : ν) (h : k₁ ≠ k) :
    (d.set k v).get? k₁ = d.get? k₁ := get?_alter_of_ne d _ h

/-- An assigned key keeps its place, and a new one comes last. -/
lemma keys_set (d : Dict κ ν) (k : κ) (v : ν) :
    (d.set k v).keys = if k ∈ d.keys then d.keys else d.keys ++ [k] := keys_alter d k _

/-- Mapping the values commutes with an assignment. -/
lemma mapValues_set {μ : Type*} (f : ν → μ) (d : Dict κ ν) (k : κ) (v : ν) :
    (d.set k v).mapValues f = (d.mapValues f).set k (f v) := by
  have halter : ∀ l : List (κ × ν), (alterItems (fun _ => v) k l).map (fun kv => (kv.1, f kv.2)) =
      alterItems (fun _ => f v) k (l.map fun kv => (kv.1, f kv.2)) := by
    intro l
    induction l with
    | nil => rfl
    | cons kv l ih =>
      rw [List.map_cons, alterItems, alterItems]
      split_ifs
      · rfl
      · rw [List.map_cons, ih]
  exact ext (halter d.items)

/-! ## Comprehensions -/

/-- Assign the pairs of a list one after the other. -/
def setAll (d : Dict κ ν) (l : List (κ × ν)) : Dict κ ν :=
  l.foldl (fun d kv => d.set kv.1 kv.2) d

/-- `{k: v for k, v in l}`. -/
def ofList (l : List (κ × ν)) : Dict κ ν := setAll ∅ l

/-- No assignments change nothing. -/
@[simp] lemma setAll_nil (d : Dict κ ν) : d.setAll [] = d := rfl

/-- The first assignment is made first. -/
@[simp] lemma setAll_cons (d : Dict κ ν) (kv : κ × ν) (l : List (κ × ν)) :
    d.setAll (kv :: l) = (d.set kv.1 kv.2).setAll l := rfl

/-- After a list of assignments a key has the last value assigned to it, or its old one. -/
lemma get?_setAll (d : Dict κ ν) (l : List (κ × ν)) (k : κ) :
    (d.setAll l).get? k = (l.reverse.lookup k).or (d.get? k) := by
  induction l generalizing d with
  | nil => simp
  | cons kv l ih =>
    obtain ⟨k', v⟩ := kv
    rw [setAll_cons, ih, get?_set, List.reverse_cons, List.lookup_append]
    by_cases hk : k = k'
    · subst hk
      cases l.reverse.lookup k <;> simp
    · rw [if_neg hk, lookup_cons_of_ne hk, List.lookup_nil, Option.or_none]

/-- A comprehension gives a key the last value paired with it. -/
lemma get?_ofList (l : List (κ × ν)) (k : κ) : (ofList l).get? k = l.reverse.lookup k := by
  rw [ofList, get?_setAll, get?_empty, Option.or_none]

/-- Two lists of assignments are made one after the other. -/
lemma setAll_append (d : Dict κ ν) (l l' : List (κ × ν)) :
    d.setAll (l ++ l') = (d.setAll l).setAll l' :=
  List.foldl_append

/-- The entry of a key in a comprehension is made by the last element that has the key. -/
lemma get?_ofList_map {β : Type*} (key : β → κ) (val : β → ν) (l : List β) (k : κ) :
    (ofList (l.map fun x => (key x, val x))).get? k =
      (l.reverse.find? fun x => decide (key x = k)).map val := by
  have hlook : ∀ l : List β, (l.map fun x => (key x, val x)).lookup k =
      (l.find? fun x => decide (key x = k)).map val := by
    intro l
    induction l with
    | nil => rfl
    | cons x xs ih =>
      by_cases hk : k = key x
      · rw [List.map_cons, hk, List.lookup_cons_self, List.find?_cons_of_pos (by simp)]
        rfl
      · rw [List.map_cons, lookup_cons_of_ne hk, ih,
          List.find?_cons_of_neg (by simpa using Ne.symm hk)]
  rw [get?_ofList, ← List.map_reverse, hlook]

/-- Assigning distinct new keys appends the pairs. -/
lemma items_setAll_of_nodup (d : Dict κ ν) (l : List (κ × ν))
    (h : ((d.items ++ l).map Prod.fst).Nodup) : (d.setAll l).items = d.items ++ l := by
  induction l generalizing d with
  | nil => simp
  | cons kv l ih =>
    have hkey : kv.1 ∉ d.items.map Prod.fst := by
      rw [List.map_append, List.map_cons] at h
      exact fun hmem => (List.nodup_append.mp h).2.2 _ hmem _ List.mem_cons_self rfl
    have hitems : (d.set kv.1 kv.2).items = d.items ++ [kv] :=
      alterItems_of_not_mem (fun _ => kv.2) hkey
    rw [setAll_cons, ih _ (by rwa [hitems, List.append_assoc]), hitems, List.append_assoc,
      List.singleton_append]

/-- A comprehension over pairs with distinct keys keeps them as they are. -/
lemma items_ofList_of_nodup {l : List (κ × ν)} (h : (l.map Prod.fst).Nodup) :
    (ofList l).items = l :=
  items_setAll_of_nodup ∅ l h

/-- Two comprehensions over the same keys are equal when they give each key the same value. -/
lemma ofList_map_eq_iff {f g : κ → ν} {l : List κ} :
    ofList (l.map fun k => (k, f k)) = ofList (l.map fun k => (k, g k)) ↔ ∀ k ∈ l, f k = g k := by
  constructor
  · intro heq k hk
    have hget (f : κ → ν) : (ofList (l.map fun k => (k, f k))).get? k = some (f k) := by
      refine (get?_ofList_map (fun x => x) f l k).trans ?_
      cases hfind : l.reverse.find? fun x => decide (x = k) with
      | none => simpa using List.find?_eq_none.mp hfind k (List.mem_reverse.mpr hk)
      | some k' =>
        have hk' : k' = k := by simpa using List.find?_some hfind
        rw [hk', Option.map_some]
    have hsome := hget f
    rw [heq, hget g, Option.some.injEq] at hsome
    exact hsome.symm
  · intro h
    rw [List.map_congr_left fun k hk => congrArg (Prod.mk k) (h k hk)]

/-- The first item whose key passes a test is the entry of the first such key. -/
lemma find?_items_eq_some_iff {d : Dict κ ν} {p : κ → Bool} {k : κ} {v : ν} :
    d.items.find? (fun kv => p kv.1) = some (k, v) ↔
      d.keys.find? p = some k ∧ d.get? k = some v := by
  rw [keys, List.find?_map, Option.map_eq_some_iff]
  constructor
  · intro h
    exact ⟨⟨(k, v), h, rfl⟩, mem_items_iff.mp (List.mem_of_find?_eq_some h)⟩
  · rintro ⟨⟨⟨k', v'⟩, hfind, rfl⟩, hget⟩
    have hget' := mem_items_iff.mp (List.mem_of_find?_eq_some hfind)
    rw [hget, Option.some.injEq] at hget'
    rw [hget']
    exact hfind

/-- An entry of a comprehension is one of its pairs. -/
lemma mem_of_get?_ofList {l : List (κ × ν)} {k : κ} {v : ν} (h : (ofList l).get? k = some v) :
    (k, v) ∈ l := by
  rw [get?_ofList] at h
  exact List.mem_reverse.mp (mem_of_lookup_eq_some h)

/-- The keys behind a list of assignments. -/
lemma mem_keys_setAll {d : Dict κ ν} {l : List (κ × ν)} {k : κ} :
    k ∈ (d.setAll l).keys ↔ k ∈ d.keys ∨ k ∈ l.map Prod.fst := by
  induction l generalizing d with
  | nil => simp
  | cons kv l ih =>
    rw [setAll_cons, ih, set, mem_keys_alter, List.map_cons, List.mem_cons]
    tauto

/-- The keys of a comprehension. -/
@[simp] lemma mem_keys_ofList {l : List (κ × ν)} {k : κ} :
    k ∈ (ofList l).keys ↔ k ∈ l.map Prod.fst := by
  simp [ofList, mem_keys_setAll]

/-- Assigning pairs with distinct keys: a key has the value paired with it, or its old one. -/
lemma get?_setAll_eq_some_iff {d : Dict κ ν} {l : List (κ × ν)} (hl : (l.map Prod.fst).Nodup)
    {k : κ} {v : ν} :
    (d.setAll l).get? k = some v ↔ (k, v) ∈ l ∨ (k ∉ l.map Prod.fst ∧ d.get? k = some v) := by
  have hrev : (l.reverse.map Prod.fst).Nodup := by
    rwa [List.map_reverse, List.nodup_reverse]
  rw [get?_setAll]
  cases hlook : l.reverse.lookup k with
  | some w =>
    have hw : (k, w) ∈ l := List.mem_reverse.mp (mem_of_lookup_eq_some hlook)
    rw [Option.some_or, Option.some.injEq]
    constructor
    · rintro rfl
      exact Or.inl hw
    · rintro (hv | ⟨hk, -⟩)
      · have hv' := lookup_eq_some_of_mem hrev (List.mem_reverse.mpr hv)
        rwa [hlook, Option.some.injEq] at hv'
      · exact absurd (List.mem_map_of_mem hw) hk
  | none =>
    have hk : k ∉ l.map Prod.fst := by
      intro hk
      obtain ⟨⟨k', w⟩, hw, rfl⟩ := List.mem_map.mp hk
      rw [lookup_eq_some_of_mem hrev (List.mem_reverse.mpr hw)] at hlook
      cases hlook
    rw [Option.none_or]
    constructor
    · exact fun h => Or.inr ⟨hk, h⟩
    · rintro (hv | ⟨-, h⟩)
      · exact absurd (List.mem_map_of_mem hv) hk
      · exact h

/-- The first key of a comprehension that passes a test is the first listed key that does. -/
lemma find?_keys_setAll (d : Dict κ ν) (l : List (κ × ν)) (p : κ → Bool) :
    (d.setAll l).keys.find? p = (d.keys.find? p).or ((l.map Prod.fst).find? p) := by
  induction l generalizing d with
  | nil => simp
  | cons kv l ih =>
    rw [setAll_cons, ih, keys_set, List.map_cons, List.find?_cons]
    by_cases hk : kv.1 ∈ d.keys
    · rw [if_pos hk]
      cases hd : d.keys.find? p with
      | some k => simp
      | none =>
        have hp : p kv.1 = false := by simpa using List.find?_eq_none.mp hd kv.1 hk
        simp [hp]
    · rw [if_neg hk, List.find?_append, Option.or_assoc]
      cases hp : p kv.1 <;> simp [hp]

/-- The first key of a comprehension that passes a test. -/
lemma find?_keys_ofList (l : List (κ × ν)) (p : κ → Bool) :
    (ofList l).keys.find? p = (l.map Prod.fst).find? p := by
  rw [ofList, find?_keys_setAll, keys_empty, List.find?_nil, Option.none_or]

/-! ## Gathering -/

section Gather

variable {β : Type*}

/-- For each element in turn, update the entry of its key by `step`: the loop around
`d.setdefault(key(x), …).append(x)` and its variants. -/
def gather (key : β → κ) (step : Option ν → β → ν) (d : Dict κ ν) (l : List β) : Dict κ ν :=
  l.foldl (fun d x => d.alter (key x) fun o => step o x) d

/-- No elements change nothing. -/
@[simp] lemma gather_nil (key : β → κ) (step : Option ν → β → ν) (d : Dict κ ν) :
    d.gather key step [] = d := rfl

/-- The first element is gathered first. -/
@[simp] lemma gather_cons (key : β → κ) (step : Option ν → β → ν) (d : Dict κ ν) (x : β)
    (l : List β) :
    d.gather key step (x :: l) = (d.alter (key x) fun o => step o x).gather key step l := rfl

/-- The entry of `k` is made by the elements whose key is `k`, in list order. -/
lemma get?_gather (key : β → κ) (step : Option ν → β → ν) (d : Dict κ ν) (l : List β) (k : κ) :
    (d.gather key step l).get? k =
      (l.filter fun x => decide (key x = k)).foldl (fun o x => some (step o x)) (d.get? k) := by
  induction l generalizing d with
  | nil => rfl
  | cons x l ih =>
    rw [gather_cons, ih, get?_alter]
    by_cases hk : key x = k
    · subst hk
      rw [if_pos rfl, List.filter_cons_of_pos (by simp), List.foldl_cons]
    · rw [if_neg (Ne.symm hk), List.filter_cons_of_neg (by simpa using hk)]

/-- Appending the elements of a list one by one appends the list. -/
lemma foldl_append_some (l : List β) (acc : List β) :
    l.foldl (fun o x => some (o.getD [] ++ [x])) (some acc) = some (acc ++ l) := by
  induction l generalizing acc with
  | nil => simp
  | cons x l ih =>
    rw [List.foldl_cons, Option.getD_some, ih, List.append_assoc, List.singleton_append]

/-- Appending each element to the list under its key: the lists partition the elements. -/
lemma mem_gather_append {key : β → κ} {l : List β} {k : κ} {x : β} :
    (∃ xs, (gather key (fun o x => o.getD [] ++ [x]) ∅ l).get? k = some xs ∧ x ∈ xs) ↔
      x ∈ l ∧ key x = k := by
  have hmem : x ∈ l.filter (fun x => decide (key x = k)) ↔ x ∈ l ∧ key x = k := by
    simp [List.mem_filter]
  rw [get?_gather, get?_empty, ← hmem]
  cases hf : l.filter fun x => decide (key x = k) with
  | nil => simp
  | cons y ys =>
    rw [List.foldl_cons, Option.getD_none, List.nil_append, foldl_append_some]
    simp

/-- Appending an element to one list adds it to all of them together. -/
lemma flatMap_alterItems_append (k : κ) (x : β) (l : List (κ × List β)) :
    ((alterItems (fun o => o.getD [] ++ [x]) k l).flatMap Prod.snd).Perm
      (l.flatMap Prod.snd ++ [x]) := by
  induction l with
  | nil => simp [alterItems]
  | cons kv l ih =>
    obtain ⟨k', v⟩ := kv
    by_cases hk : k' = k
    · rw [alterItems, if_pos hk, List.flatMap_cons, List.flatMap_cons, Option.getD_some,
        List.append_assoc, List.append_assoc]
      exact List.perm_append_comm.append_left v
    · rw [alterItems, if_neg hk, List.flatMap_cons, List.flatMap_cons, List.append_assoc]
      exact ih.append_left v

/-- The lists together hold every element once. -/
lemma flatMap_gather_append (key : β → κ) (l : List β) :
    ((gather key (fun o x => o.getD [] ++ [x]) ∅ l).items.flatMap Prod.snd).Perm l := by
  induction l using List.reverseRecOn with
  | nil => exact List.Perm.refl _
  | append_singleton l x ih =>
    rw [gather, List.foldl_append, List.foldl_cons, List.foldl_nil]
    exact (flatMap_alterItems_append (key x) x _).trans (ih.append_right [x])

end Gather

end Dict

end Py
