/-
  A dictionary keyed by `Int` and enumerated in ascending key order.

  `place` is the write of such a list: it replaces the value of a present key and otherwise puts the
  new entry before the first larger key, so the keys stay strictly ascending (`place_sorted`).  The
  reading lemmas are those of the insertion-ordered dictionary; they need the order, which is why
  the order is a field of `SortedList`.


  The sums are those of `Dict`; the only difference is that a write at an absent key is common here,
  so that `place_sumBy` counts an absent key for `0` instead of asking for a present one.
-/
import HexWar.Lib.Dict

namespace HexWar.Lib

variable {ν μ : Type}

/-- The keys of an association list are strictly ascending. -/
def Ascending (l : List (Int × ν)) : Prop := l.Pairwise fun e e' => e.1 < e'.1

/-- Write `v` at `k` in a list with ascending keys. -/
def place (k : Int) (v : ν) : List (Int × ν) → List (Int × ν)
  | [] => [(k, v)]
  | (k', v') :: rest =>
    if k' < k then (k', v') :: place k v rest
    else if k' = k then (k, v) :: rest
    else (k, v) :: (k', v') :: rest

/-- After a write, an entry is the new one or an old one. -/
theorem mem_place {k : Int} {v : ν} {l : List (Int × ν)} {e : Int × ν} (h : e ∈ place k v l) :
    e = (k, v) ∨ e ∈ l := by
  induction l with
  | nil => exact Or.inl (List.mem_singleton.mp h)
  | cons e' rest ih =>
    obtain ⟨k', v'⟩ := e'
    rw [place] at h
    by_cases hlt : k' < k
    -- The new entry goes further on: it and the old ones there have larger keys than the head.
    · rw [if_pos hlt] at h
      rcases List.mem_cons.mp h with h | h
      · exact Or.inr (h ▸ List.mem_cons_self)
      · exact (ih h).imp id (List.mem_cons_of_mem _)
    · rw [if_neg hlt] at h
      by_cases heq : k' = k
      · rw [if_pos heq] at h
        exact (List.mem_cons.mp h).imp id (List.mem_cons_of_mem _)
      · rw [if_neg heq] at h
        exact List.mem_cons.mp h

/-- A write keeps the keys strictly ascending. -/
theorem place_ascending (k : Int) (v : ν) {l : List (Int × ν)} (hl : Ascending l) :
    Ascending (place k v l) := by
  induction l with
  | nil => exact List.pairwise_singleton _ _
  | cons e rest ih =>
    obtain ⟨k', v'⟩ := e
    obtain ⟨hhead, htail⟩ := List.pairwise_cons.mp hl
    rw [place]
    by_cases hlt : k' < k
    · rw [if_pos hlt]
      refine List.pairwise_cons.mpr ⟨fun e he => ?_, ih htail⟩
      rcases mem_place he with rfl | hmem
      · exact hlt
      · exact hhead e hmem
    · rw [if_neg hlt]
      by_cases heq : k' = k
      · rw [if_pos heq]
        exact List.pairwise_cons.mpr ⟨fun e he => heq ▸ hhead e he, htail⟩
      · rw [if_neg heq]
        -- The new entry goes before the head, and so before all the rest.
        have hk : k < k' := by omega
        refine List.pairwise_cons.mpr ⟨fun e he => ?_, hl⟩
        rcases List.mem_cons.mp he with rfl | hmem
        · exact hk
        · exact Int.lt_trans hk (hhead e hmem)

/-- Strictly ascending keys do not repeat. -/
theorem ascending_nodup {l : List (Int × ν)} (hl : Ascending l) : (l.map Prod.fst).Nodup :=
  List.pairwise_map.mpr (hl.imp fun h => Int.ne_of_lt h)

/-- A key below every key of the list is absent. -/
theorem lookup_eq_none_of_lt {k : Int} {l : List (Int × ν)} (h : ∀ e ∈ l, k < e.1) :
    lookup k l = none := by
  refine lookup_eq_none_iff.mpr fun hmem => ?_
  obtain ⟨e, he, rfl⟩ := List.mem_map.mp hmem
  exact Int.lt_irrefl _ (h e he)

/-- What is read after a write: the new value at its key, the old ones elsewhere. -/
theorem lookup_place (k j : Int) (v : ν) {l : List (Int × ν)} (hl : Ascending l) :
    lookup j (place k v l) = if k = j then some v else lookup j l := by
  induction l with
  | nil => rfl
  | cons e rest ih =>
    obtain ⟨k', v'⟩ := e
    obtain ⟨-, htail⟩ := List.pairwise_cons.mp hl
    rw [place]
    by_cases hlt : k' < k
    · rw [if_pos hlt, lookup, lookup, ih htail]
      by_cases hj : k' = j
      · rw [if_pos hj, if_pos hj, if_neg (by omega)]
      · rw [if_neg hj, if_neg hj]
    · rw [if_neg hlt]
      by_cases heq : k' = k
      · rw [if_pos heq, lookup, lookup, heq]
        by_cases hj : k = j
        · rw [if_pos hj, if_pos hj]
        · rw [if_neg hj, if_neg hj, if_neg hj]
      · rw [if_neg heq, lookup]

/-- Writing an entry changes a sum by new minus old, an absent key counting for `0`. -/
theorem place_sumBy (f : ν → Int) (k : Int) (v : ν) {l : List (Int × ν)} (hl : Ascending l) :
    sumBy f (place k v l) = sumBy f l - ((lookup k l).map f).getD 0 + f v := by
  induction l with
  | nil => simp [place, lookup]
  | cons e rest ih =>
    obtain ⟨k', v'⟩ := e
    obtain ⟨hhead, htail⟩ := List.pairwise_cons.mp hl
    rw [place]
    by_cases hlt : k' < k
    · rw [if_pos hlt, lookup, if_neg (by omega : ¬ k' = k), sumBy_cons, sumBy_cons, ih htail]
      dsimp only; omega
    · rw [if_neg hlt]
      by_cases heq : k' = k
      · rw [if_pos heq, lookup, if_pos heq, sumBy_cons, sumBy_cons]
        simp only [Option.map_some, Option.getD_some]; omega
      -- The first larger key is the head's, so the key was absent.
      · have habs : lookup k ((k', v') :: rest) = none :=
          lookup_eq_none_of_lt fun e he => by
            rcases List.mem_cons.mp he with rfl | hmem
            · dsimp only; omega
            · have := hhead e hmem; dsimp only at this; omega
        rw [if_neg heq, habs, sumBy_cons]
        simp only [Option.map_none, Option.getD_none]; omega

/-- Writing and then reading through `g` is reading through `g` and then writing. -/
theorem place_mapSnd (g : ν → μ) (k : Int) (v : ν) (l : List (Int × ν)) :
    place k (g v) (l.map fun e => (e.1, g e.2)) = (place k v l).map fun e => (e.1, g e.2) := by
  induction l with
  | nil => rfl
  | cons e rest ih =>
    obtain ⟨k', v'⟩ := e
    by_cases hlt : k' < k
    · simp [place, hlt, ih]
    · by_cases heq : k' = k
      · simp [place, heq]
      · simp [place, hlt, heq]

/-- A dictionary enumerated in ascending key order. -/
structure SortedList (ν : Type) where
  /-- The entries, by ascending key. -/
  entries : List (Int × ν)
  /-- The keys are strictly ascending. -/
  sorted : Ascending entries

namespace SortedList

/-- The list without entries. -/
def empty : SortedList ν := ⟨[], List.Pairwise.nil⟩

/-- The value stored under a key. -/
def get? (l : SortedList ν) (k : Int) : Option ν := lookup k l.entries

/-- Store `v` under `k`. -/
def set (l : SortedList ν) (k : Int) (v : ν) : SortedList ν :=
  ⟨place k v l.entries, place_ascending k v l.sorted⟩

/-- The stored values, in key order. -/
def values (l : SortedList ν) : List ν := l.entries.map Prod.snd

/-- Apply `f` to every stored value. -/
def mapValues (f : ν → μ) (l : SortedList ν) : SortedList μ :=
  ⟨l.entries.map fun e => (e.1, f e.2), List.pairwise_map.mpr (l.sorted.imp fun h => h)⟩

/-- The sum of `f` over the stored values. -/
def sum (f : ν → Int) (l : SortedList ν) : Int := sumBy f l.entries

/-- A list is its entries. -/
@[ext] theorem ext {l l' : SortedList ν} (h : l.entries = l'.entries) : l = l' := by
  cases l; cases l'; cases h; rfl

/-- Reading after a write, -/
@[simp] theorem get?_set (l : SortedList ν) (k j : Int) (v : ν) :
    (l.set k v).get? j = if k = j then some v else l.get? j :=
  lookup_place k j v l.sorted

/-- and after mapping the values. -/
@[simp] theorem get?_mapValues (f : ν → μ) (l : SortedList ν) (k : Int) :
    (l.mapValues f).get? k = (l.get? k).map f :=
  lookup_mapSnd f k l.entries

/-- Storing commutes with reading every value through `f`. -/
theorem set_mapValues (f : ν → μ) (l : SortedList ν) (k : Int) (v : ν) :
    (l.mapValues f).set k (f v) = (l.set k v).mapValues f :=
  SortedList.ext (place_mapSnd f k v l.entries)

/-- Mapping twice is mapping once with the composition. -/
theorem mapValues_mapValues {ρ : Type} (f : μ → ρ) (g : ν → μ) (l : SortedList ν) :
    (l.mapValues g).mapValues f = l.mapValues fun v => f (g v) := by
  refine ext ?_
  show (l.entries.map fun e => (e.1, g e.2)).map (fun e => (e.1, f e.2)) = _
  rw [List.map_map]
  rfl

/-- The entries are what is read: strictly ascending keys do not repeat. -/
theorem mem_iff_get? {l : SortedList ν} {k : Int} {v : ν} :
    (k, v) ∈ l.entries ↔ l.get? k = some v :=
  ⟨lookup_of_mem (ascending_nodup l.sorted), mem_of_lookup⟩

@[simp] theorem sum_empty (f : ν → Int) : (empty : SortedList ν).sum f = 0 := rfl

/-- Storing changes a sum by new minus old, an absent key counting for `0`. -/
theorem sum_set (f : ν → Int) (l : SortedList ν) (k : Int) (v : ν) :
    (l.set k v).sum f = l.sum f - ((l.get? k).map f).getD 0 + f v :=
  place_sumBy f k v l.sorted

@[simp] theorem sum_mapValues (f : μ → Int) (g : ν → μ) (l : SortedList ν) :
    (l.mapValues g).sum f = l.sum fun v => f (g v) :=
  sumBy_mapSnd f g l.entries

end SortedList
end HexWar.Lib
