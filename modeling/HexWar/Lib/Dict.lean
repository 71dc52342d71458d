/-
  Association lists, and the dictionary in insertion order.

  `Dict κ ν` is a dictionary that is enumerated in INSERTION order: `set` on a present key
  replaces the value in place, on an absent key it appends.  It carries the invariant that makes a
  key name at most one entry (`nodup`) as a field, so that no lemma about it assumes it.

  The module has two layers.  The first is about plain association lists, where the inductions are:
  `lookup`, `assign` and `discard`, and what each does to the answers, to the keys and to a sum.
  The second wraps them up as a dictionary, whose lemmas are those of the first without the
  hypothesis.

  The arithmetic of a dictionary is `sumBy f l`, the sum of `f` over the stored values: it is what a
  conservation argument needs (`assign_sumBy`, `sum_set`: writing one key changes the sum by the
  difference of the new and the old value at that key).
-/
import Mathlib.Algebra.BigOperators.Group.List.Basic
import Mathlib.Algebra.Order.Ring.Int
import Mathlib.Data.List.Nodup

namespace HexWar.Lib

variable {κ ν μ : Type}

/-! ## Association lists

The functions recurse on the list, and a lemma about one of them is an induction with the same two
cases at the head: the key looked for, or another one. -/

section Assoc

variable [DecidableEq κ]

/-- The value of the first entry with key `k`. -/
def lookup (k : κ) : List (κ × ν) → Option ν
  | [] => none
  | (k', v) :: rest => if k' = k then some v else lookup k rest

/-- Write `v` at `k`: in place when `k` is present, at the end when it is not. -/
def assign (k : κ) (v : ν) : List (κ × ν) → List (κ × ν)
  | [] => [(k, v)]
  | (k', v') :: rest => if k' = k then (k, v) :: rest else (k', v') :: assign k v rest

/-- The sum of `f` over the values of an association list. -/
def sumBy (f : ν → Int) (l : List (κ × ν)) : Int := (l.map fun e => f e.2).sum

omit [DecidableEq κ] in
@[simp] theorem sumBy_nil (f : ν → Int) : sumBy f ([] : List (κ × ν)) = 0 := rfl

omit [DecidableEq κ] in
@[simp] theorem sumBy_cons (f : ν → Int) (e : κ × ν) (l : List (κ × ν)) :
    sumBy f (e :: l) = f e.2 + sumBy f l := rfl

/-- What is found is in the list. -/
theorem mem_of_lookup {k : κ} {v : ν} {l : List (κ × ν)} (h : lookup k l = some v) :
    (k, v) ∈ l := by
  induction l with
  | nil => cases h
  | cons e rest ih =>
    obtain ⟨k', v'⟩ := e
    by_cases hk : k' = k
    · rw [lookup, if_pos hk] at h
      cases h; subst hk
      exact List.mem_cons_self
    · rw [lookup, if_neg hk] at h
      exact List.mem_cons_of_mem _ (ih h)

/-- Nothing is found exactly where the key is absent. -/
theorem lookup_eq_none_iff {k : κ} {l : List (κ × ν)} :
    lookup k l = none ↔ k ∉ l.map Prod.fst := by
  induction l with
  | nil => simp [lookup]
  | cons e rest ih =>
    obtain ⟨k', v'⟩ := e
    by_cases hk : k' = k
    · simp [lookup, hk]
    · simp only [lookup, if_neg hk, ih, List.map_cons, List.mem_cons, not_or]
      exact ⟨fun h => ⟨fun h' => hk h'.symm, h⟩, fun h => h.2⟩

/-- In a list without repeated keys, what is in the list is found. -/
theorem lookup_of_mem {k : κ} {v : ν} {l : List (κ × ν)} (hl : (l.map Prod.fst).Nodup)
    (h : (k, v) ∈ l) : lookup k l = some v := by
  induction l with
  | nil => cases h
  | cons e rest ih =>
    obtain ⟨k', v'⟩ := e
    rw [List.map_cons, List.nodup_cons] at hl
    rcases List.mem_cons.mp h with heq | hrest
    · cases heq
      rw [lookup, if_pos rfl]
    -- The key is once more further on, so the head has another one.
    · have hne : k' ≠ k := by
        rintro rfl
        exact hl.1 (List.mem_map.mpr ⟨_, hrest, rfl⟩)
      rw [lookup, if_neg hne]
      exact ih hl.2 hrest

/-- What is read after a write: the new value at its key, the old ones elsewhere. -/
theorem lookup_assign (k j : κ) (v : ν) (l : List (κ × ν)) :
    lookup j (assign k v l) = if k = j then some v else lookup j l := by
  induction l with
  | nil => simp [assign, lookup]
  | cons e rest ih =>
    obtain ⟨k', v'⟩ := e
    by_cases hk : k' = k
    · subst hk
      by_cases hj : k' = j
      · simp [assign, lookup, hj]
      · simp [assign, lookup, hj]
    · by_cases hj : k' = j
      · subst hj
        have hkk : ¬ k = k' := fun h => hk h.symm
        simp [assign, lookup, hk, hkk]
      · simp [assign, lookup, hk, hj, ih]

/-- Writing at a present key a value that `f` reads alike leaves the image under `f` as it is. -/
theorem map_assign {f : κ × ν → μ} {k : κ} {v w : ν} {l : List (κ × ν)} (h : lookup k l = some w)
    (hf : f (k, v) = f (k, w)) : (assign k v l).map f = l.map f := by
  induction l with
  | nil => cases h
  | cons e rest ih =>
    obtain ⟨k', v'⟩ := e
    by_cases hk : k' = k
    · rw [lookup, if_pos hk] at h
      cases h; subst hk
      rw [assign, if_pos rfl, List.map_cons, List.map_cons, hf]
    · rw [lookup, if_neg hk] at h
      rw [assign, if_neg hk, List.map_cons, List.map_cons, ih h]

/-- Writing at a present key leaves the list of keys as it is. -/
theorem keys_assign_of_lookup {k : κ} {v w : ν} {l : List (κ × ν)} (h : lookup k l = some w) :
    (assign k v l).map Prod.fst = l.map Prod.fst := map_assign h rfl

/-- Writing at an absent key adds the key at the end. -/
theorem keys_assign_of_not_mem {k : κ} {v : ν} {l : List (κ × ν)} (h : lookup k l = none) :
    (assign k v l).map Prod.fst = l.map Prod.fst ++ [k] := by
  induction l with
  | nil => rfl
  | cons e rest ih =>
    obtain ⟨k', v'⟩ := e
    by_cases hk : k' = k
    · rw [lookup, if_pos hk] at h; cases h
    · rw [lookup, if_neg hk] at h
      simp [assign, hk, ih h]

/-- A write repeats no key. -/
theorem nodup_assign (k : κ) (v : ν) {l : List (κ × ν)} (hl : (l.map Prod.fst).Nodup) :
    ((assign k v l).map Prod.fst).Nodup := by
  cases h : lookup k l with
  | some w => rw [keys_assign_of_lookup h]; exact hl
  | none =>
    rw [keys_assign_of_not_mem h]
    exact hl.append (List.nodup_singleton k)
      (List.disjoint_singleton.mpr (lookup_eq_none_iff.mp h))

/-- Writing at a present key changes the sum by new minus old. -/
theorem assign_sumBy (f : ν → Int) {k : κ} {v w : ν} {l : List (κ × ν)}
    (h : lookup k l = some w) : sumBy f (assign k v l) = sumBy f l - f w + f v := by
  induction l with
  | nil => cases h
  | cons e rest ih =>
    obtain ⟨k', v'⟩ := e
    by_cases hk : k' = k
    · rw [lookup, if_pos hk] at h
      cases h
      simp only [assign, if_pos hk, sumBy_cons]
      omega
    · rw [lookup, if_neg hk] at h
      simp only [assign, if_neg hk, sumBy_cons, ih h]
      omega

omit [DecidableEq κ] in
/-- A sum without negative values is not negative. -/
theorem sumBy_nonneg {f : ν → Int} {l : List (κ × ν)} (h : ∀ e ∈ l, 0 ≤ f e.2) :
    0 ≤ sumBy f l := by
  induction l with
  | nil => exact Int.le_refl 0
  | cons e rest ih =>
    have h1 := h e List.mem_cons_self
    have h2 := ih fun e' he' => h e' (List.mem_cons_of_mem _ he')
    rw [sumBy_cons]; omega

omit [DecidableEq κ] in
/-- One value is at most the sum, when no value is negative. -/
theorem le_sumBy {f : ν → Int} {l : List (κ × ν)} (h : ∀ e ∈ l, 0 ≤ f e.2) {e : κ × ν}
    (he : e ∈ l) : f e.2 ≤ sumBy f l := by
  induction l with
  | nil => cases he
  | cons e' rest ih =>
    have hhead := h e' List.mem_cons_self
    have hrest : ∀ x ∈ rest, 0 ≤ f x.2 := fun x hx => h x (List.mem_cons_of_mem _ hx)
    rw [sumBy_cons]
    rcases List.mem_cons.mp he with rfl | hmem
    · have := sumBy_nonneg hrest; omega
    · have := ih hrest hmem; omega

omit [DecidableEq κ] in
/-- Functions that agree on the list's values have the same sum. -/
theorem sumBy_congr {f g : ν → Int} {l : List (κ × ν)} (h : ∀ e ∈ l, f e.2 = g e.2) :
    sumBy f l = sumBy g l :=
  congrArg List.sum (List.map_congr_left h)

omit [DecidableEq κ] in
/-- A sum over mapped values is a sum of the composition. -/
theorem sumBy_mapSnd (f : μ → Int) (g : ν → μ) (l : List (κ × ν)) :
    sumBy f (l.map fun e => (e.1, g e.2)) = sumBy (fun v => f (g v)) l := by
  simp [sumBy, List.map_map, Function.comp_def]

/-- Reading after mapping the values is mapping what is read. -/
theorem lookup_mapSnd (g : ν → μ) (k : κ) (l : List (κ × ν)) :
    lookup k (l.map fun e => (e.1, g e.2)) = (lookup k l).map g := by
  induction l with
  | nil => rfl
  | cons e rest ih =>
    obtain ⟨k', v'⟩ := e
    by_cases hk : k' = k
    · simp [lookup, hk]
    · simp [lookup, hk, ih]

/-- Writing and then reading through `g` is reading through `g` and then writing. -/
theorem assign_mapSnd (g : ν → μ) (k : κ) (v : ν) (l : List (κ × ν)) :
    assign k (g v) (l.map fun e => (e.1, g e.2)) = (assign k v l).map fun e => (e.1, g e.2) := by
  induction l with
  | nil => rfl
  | cons e rest ih =>
    obtain ⟨k', v'⟩ := e
    by_cases hk : k' = k
    · simp [assign, hk]
    · simp [assign, hk, ih]

/-- Renaming the keys one to one, and reading each entry, leaves every key its value. -/
theorem lookup_rename {ι : Type} [DecidableEq ι] {f : κ → ι} (hf : Function.Injective f)
    (g : κ × ν → μ) (k : κ) (l : List (κ × ν)) :
    lookup (f k) (l.map fun e => (f e.1, g e)) = (lookup k l).map fun v => g (k, v) := by
  induction l with
  | nil => rfl
  | cons e rest ih =>
    obtain ⟨k', v'⟩ := e
    by_cases hk : k' = k
    · subst hk
      rw [List.map_cons, lookup, if_pos rfl, lookup, if_pos rfl]
      rfl
    · rw [List.map_cons, lookup, if_neg fun hc => hk (hf hc), lookup, if_neg hk]
      exact ih

/-- Drop the entries of a key. -/
def discard (k : κ) (l : List (κ × ν)) : List (κ × ν) := l.filter fun e => ¬ e.1 = k

/-- After discarding a key nothing is read at it, and the rest as before. -/
theorem lookup_discard (k j : κ) (l : List (κ × ν)) :
    lookup j (discard k l) = if k = j then none else lookup j l := by
  induction l with
  | nil => exact (ite_self _).symm
  | cons e rest ih =>
    obtain ⟨k', v'⟩ := e
    by_cases hk : k' = k
    · subst hk
      rw [discard, List.filter_cons_of_neg (by simp), ← discard, ih]
      split
      · rfl
      · rename_i hj
        rw [lookup, if_neg hj]
    · rw [discard, List.filter_cons_of_pos (by simpa using hk), ← discard, lookup, ih, lookup]
      by_cases hj : k' = j
      · subst hj
        rw [if_pos rfl, if_pos rfl, if_neg fun h => hk h.symm]
      · rw [if_neg hj, if_neg hj]

end Assoc

/-! ## Dictionaries in insertion order

The operations of a dictionary and their reading lemmas; the `@[simp]` ones say what is read after
each write. -/

/-- An insertion-ordered dictionary: every key has at most one entry. -/
structure Dict (κ ν : Type) where
  /-- The entries, in the order in which their keys were first written. -/
  entries : List (κ × ν)
  /-- A key names one entry. -/
  nodup : (entries.map Prod.fst).Nodup

namespace Dict

/-- The dictionary without entries. -/
def empty : Dict κ ν := ⟨[], List.nodup_nil⟩

/-- The stored values, in insertion order. -/
def values (d : Dict κ ν) : List ν := d.entries.map Prod.snd

/-- Apply `f` to every stored value. -/
def mapValues (f : ν → μ) (d : Dict κ ν) : Dict κ μ :=
  ⟨d.entries.map fun e => (e.1, f e.2), by simpa [List.map_map, Function.comp_def] using d.nodup⟩

/-- The sum of `f` over the stored values. -/
def sum (f : ν → Int) (d : Dict κ ν) : Int := sumBy f d.entries

/-- A dictionary is its entries. -/
@[ext] theorem ext {d d' : Dict κ ν} (h : d.entries = d'.entries) : d = d' := by
  cases d; cases d'; cases h; rfl

variable [DecidableEq κ]

/-- The value stored under a key. -/
def get? (d : Dict κ ν) (k : κ) : Option ν := lookup k d.entries

/-- Store `v` under `k`. -/
def set (d : Dict κ ν) (k : κ) (v : ν) : Dict κ ν :=
  ⟨assign k v d.entries, nodup_assign k v d.nodup⟩

/-- Drop the entry of `k`. -/
def remove (d : Dict κ ν) (k : κ) : Dict κ ν :=
  ⟨discard k d.entries, d.nodup.sublist (List.filter_sublist.map Prod.fst)⟩

/-- Is the key present? -/
def containsKey (d : Dict κ ν) (k : κ) : Bool := (d.get? k).isSome

@[simp] theorem get?_set (d : Dict κ ν) (k j : κ) (v : ν) :
    (d.set k v).get? j = if k = j then some v else d.get? j :=
  lookup_assign k j v d.entries

@[simp] theorem get?_remove (d : Dict κ ν) (k j : κ) :
    (d.remove k).get? j = if k = j then none else d.get? j :=
  lookup_discard k j d.entries

@[simp] theorem get?_mapValues (f : ν → μ) (d : Dict κ ν) (k : κ) :
    (d.mapValues f).get? k = (d.get? k).map f :=
  lookup_mapSnd f k d.entries

/-- Storing commutes with reading every value through `f`. -/
theorem set_mapValues (f : ν → μ) (d : Dict κ ν) (k : κ) (v : ν) :
    (d.mapValues f).set k (f v) = (d.set k v).mapValues f :=
  Dict.ext (assign_mapSnd f k v d.entries)

/-- The entries are what is read: here the absence of repeated keys is needed. -/
theorem mem_iff_get? {d : Dict κ ν} {k : κ} {v : ν} :
    (k, v) ∈ d.entries ↔ d.get? k = some v :=
  ⟨lookup_of_mem d.nodup, mem_of_lookup⟩

/-- A value is stored when some key reads it. -/
theorem mem_values {d : Dict κ ν} {v : ν} : v ∈ d.values ↔ ∃ k, d.get? k = some v := by
  constructor
  · intro h
    obtain ⟨⟨k, w⟩, hmem, rfl⟩ := List.mem_map.mp h
    exact ⟨k, mem_iff_get?.mp hmem⟩
  · rintro ⟨k, h⟩
    exact List.mem_map.mpr ⟨(k, v), mem_iff_get?.mpr h, rfl⟩

omit [DecidableEq κ] in
@[simp] theorem values_mapValues (f : ν → μ) (d : Dict κ ν) :
    (d.mapValues f).values = d.values.map f := by
  simp [values, mapValues, List.map_map, Function.comp_def]

omit [DecidableEq κ] in
@[simp] theorem sum_mapValues (f : μ → Int) (g : ν → μ) (d : Dict κ ν) :
    (d.mapValues g).sum f = d.sum fun v => f (g v) :=
  sumBy_mapSnd f g d.entries

/-- Storing under a present key changes a sum by new minus old. -/
theorem sum_set (f : ν → Int) {d : Dict κ ν} {k : κ} {v w : ν} (h : d.get? k = some w) :
    (d.set k v).sum f = d.sum f - f w + f v :=
  assign_sumBy f h

omit [DecidableEq κ] in
/-- Sums over a dictionary: of what is nowhere negative, -/
theorem sum_nonneg {f : ν → Int} {d : Dict κ ν} (h : ∀ v ∈ d.values, 0 ≤ f v) : 0 ≤ d.sum f :=
  sumBy_nonneg fun e he => h e.2 (List.mem_map.mpr ⟨e, he, rfl⟩)

/-- of one value among such, -/
theorem le_sum {f : ν → Int} {d : Dict κ ν} (h : ∀ v ∈ d.values, 0 ≤ f v) {k : κ} {v : ν}
    (hv : d.get? k = some v) : f v ≤ d.sum f :=
  le_sumBy (e := (k, v)) (fun e he => h e.2 (List.mem_map.mpr ⟨e, he, rfl⟩)) (mem_iff_get?.mpr hv)

omit [DecidableEq κ] in
/-- of functions that agree on the stored values, -/
theorem sum_congr {f g : ν → Int} {d : Dict κ ν} (h : ∀ v ∈ d.values, f v = g v) :
    d.sum f = d.sum g :=
  sumBy_congr fun e he => h e.2 (List.mem_map.mpr ⟨e, he, rfl⟩)

omit [DecidableEq κ] in
/-- of a sum of two functions, -/
theorem sum_add (f g : ν → Int) (d : Dict κ ν) :
    (d.sum fun v => f v + g v) = d.sum f + d.sum g := by
  rw [sum, sum, sum]
  -- The induction is on the entries; the dictionary's own invariant plays no part.
  generalize d.entries = l
  induction l with
  | nil => rfl
  | cons e l ih =>
    rw [sumBy_cons, sumBy_cons, sumBy_cons, ih]
    omega

omit [DecidableEq κ] in
/-- and of a function that is everywhere at most another. -/
theorem sum_le_sum {f g : ν → Int} {d : Dict κ ν} (h : ∀ v ∈ d.values, f v ≤ g v) :
    d.sum f ≤ d.sum g := by
  rw [sum, sum]
  have hl : ∀ e ∈ d.entries, f e.2 ≤ g e.2 := fun e he => h e.2 (List.mem_map.mpr ⟨e, he, rfl⟩)
  generalize d.entries = l at hl
  induction l with
  | nil => exact Int.le_refl 0
  | cons e l ih =>
    have he := hl e List.mem_cons_self
    have hrest := ih fun e' he' => hl e' (List.mem_cons_of_mem _ he')
    rw [sumBy_cons, sumBy_cons]
    omega

/-- Storing under a present key writes its entry, and no other. -/
theorem entries_set {d : Dict κ ν} {k : κ} {v w : ν} (h : d.get? k = some w) :
    (d.set k v).entries = d.entries.map fun e => if e.1 = k then (k, v) else e := by
  have hnodup := d.nodup
  change lookup k d.entries = some w at h
  show assign k v d.entries = _
  generalize d.entries = l at h hnodup
  induction l with
  | nil => cases h
  | cons e rest ih =>
    obtain ⟨j, u⟩ := e
    rw [List.map_cons, List.nodup_cons] at hnodup
    rw [assign, List.map_cons]
    rcases em (j = k) with rfl | hne
    -- No later entry has this key, so the map leaves the rest as it is.
    · rw [if_pos rfl, if_pos rfl]
      refine congrArg _ (List.map_id rest |>.symm.trans (List.map_congr_left fun e he => ?_))
      rw [if_neg]
      · rfl
      · rintro rfl
        exact hnodup.1 (List.mem_map.mpr ⟨e, he, rfl⟩)
    · rw [lookup, if_neg hne] at h
      rw [if_neg hne, if_neg hne, ih h hnodup.2]

/-- Storing under a present key a value that `f` reads alike keeps the image under `f`. -/
theorem map_set {f : κ × ν → μ} {d : Dict κ ν} {k : κ} {v w : ν} (h : d.get? k = some w)
    (hf : f (k, v) = f (k, w)) : (d.set k v).entries.map f = d.entries.map f :=
  map_assign h hf

/-- Storing under a present key a value with the same image keeps the image of the dictionary. -/
theorem mapValues_set {f : ν → μ} {d : Dict κ ν} {k : κ} {v w : ν} (h : d.get? k = some w)
    (hf : f v = f w) : (d.set k v).mapValues f = d.mapValues f :=
  ext (map_set h (by rw [hf]))

omit [DecidableEq κ] in
/-- Mapping the values keeps the keys. -/
theorem keys_mapValues (f : ν → μ) (d : Dict κ ν) :
    (d.mapValues f).entries.map Prod.fst = d.entries.map Prod.fst := by
  show (d.entries.map fun e => (e.1, f e.2)).map Prod.fst = _
  rw [List.map_map]
  rfl

omit [DecidableEq κ] in
/-- Mapping twice is mapping once with the composition. -/
theorem mapValues_mapValues {ρ : Type} (f : μ → ρ) (g : ν → μ) (d : Dict κ ν) :
    (d.mapValues g).mapValues f = d.mapValues fun v => f (g v) := by
  refine ext ?_
  show (d.entries.map fun e => (e.1, g e.2)).map (fun e => (e.1, f e.2)) = _
  rw [List.map_map]
  rfl

/-- Mapping the values keeps a key present or absent. -/
theorem isSome_get?_mapValues (f : ν → μ) (d : Dict κ ν) (k : κ) :
    ((d.mapValues f).get? k).isSome = (d.get? k).isSome := by
  rw [get?_mapValues]
  exact Option.isSome_map

/-- A dictionary is its keys, in their order, and its answers. -/
theorem eq_of_keys {d d' : Dict κ ν} (hk : d.entries.map Prod.fst = d'.entries.map Prod.fst)
    (h : ∀ k, d.get? k = d'.get? k) : d = d' := by
  -- Every entry is its key with the answer at that key.
  have hread : ∀ c : Dict κ ν, c.entries.map (fun e => (e.1, some e.2)) =
      (c.entries.map Prod.fst).map fun k => (k, c.get? k) := by
    intro c
    rw [List.map_map]
    refine List.map_congr_left fun e he => ?_
    show (e.1, some e.2) = (e.1, c.get? e.1)
    rw [mem_iff_get?.mp he]
  have hsame : d.entries.map (fun e => (e.1, some e.2)) = d'.entries.map (fun e => (e.1, some e.2)) := by
    rw [hread, hread, hk]
    exact List.map_congr_left fun k _ => by rw [h k]
  -- And an entry can be told from its key and answer.
  have hinj : Function.Injective fun e : κ × ν => (e.1, some e.2) := by
    rintro ⟨k, v⟩ ⟨k', v'⟩ heq
    simpa using heq
  exact ext (List.map_injective_iff.mpr hinj hsame)

end Dict
end HexWar.Lib
