/-
  An edge of the map and the groups travelling on it.

  The groups stand in BUCKETS keyed by the number of rounds they still need.  Everything an edge
  does is read here through three observations: `bucket k` (the groups with `k` rounds left),
  `units s` (the total of a side's groups) and `InTransit` (every bucket key is a possible number of
  remaining rounds).  Each operation has one lemma for each of them; later proofs never look at the
  sorted list itself.

  `advanceRound` rebuilds the sorted list in a loop.  `bucketIn` reads a bucket off any list of
  entries, so that the loop's invariant can speak of the entries not yet visited.

  Three kinds of lemmas stand for every operation: `bucket_` says which groups it leaves under a key,
  `units_` how many units of a side, and `InTransit.` that the keys stay possible.  The encounters come
  last: they are read off one bucket each, as the first group of either side in it.
-/
import HexWar.Domain.Basic
import HexWar.Lib.SortedList
import Mathlib.Data.List.Dedup
import Mathlib.Data.List.Perm.Subperm

namespace HexWar

open Lib

/-- Units travelling together: their side, their number and the node they are heading for. -/
structure TravelingGroup where
  side : PlayerSide
  unitCount : Int
  destination : NodeId
deriving DecidableEq, Repr

/-- Two groups that met on an edge. -/
structure EncounterInfo where
  edgeId : EdgeId
  groupA : TravelingGroup
  groupB : TravelingGroup
  remainingRounds : Int
deriving DecidableEq, Repr

/-- The units of a side in a list of groups. -/
def unitsIn (s : PlayerSide) (groups : List TravelingGroup) : Int :=
  ((groups.filter (·.side = s)).map (·.unitCount)).sum

/-- No groups, no units. -/
@[simp] theorem unitsIn_nil (s : PlayerSide) : unitsIn s [] = 0 := rfl

/-- Two lists of groups have the units of both. -/
@[simp] theorem unitsIn_append (s : PlayerSide) (gs gs' : List TravelingGroup) :
    unitsIn s (gs ++ gs') = unitsIn s gs + unitsIn s gs' := by
  simp [unitsIn]

/-- The first group counts for its own side. -/
theorem unitsIn_cons (s : PlayerSide) (g : TravelingGroup) (gs : List TravelingGroup) :
    unitsIn s (g :: gs) = (if g.side = s then g.unitCount else 0) + unitsIn s gs := by
  by_cases h : g.side = s
  · simp [unitsIn, h]
  · simp [unitsIn, h]

/-- In whatever order they stand. -/
theorem unitsIn_perm (s : PlayerSide) {gs gs' : List TravelingGroup} (h : gs.Perm gs') :
    unitsIn s gs = unitsIn s gs' :=
  ((h.filter _).map _).sum_eq

/-- Groups of one unit or more. -/
def AllPositive (gs : List TravelingGroup) : Prop := ∀ g ∈ gs, 1 ≤ g.unitCount

/-- Groups with units make no debt. -/
theorem unitsIn_nonneg {gs : List TravelingGroup} (s : PlayerSide) (h : AllPositive gs) :
    0 ≤ unitsIn s gs := by
  induction gs with
  | nil => exact Int.le_refl 0
  | cons g gs ih =>
    have hg := h g List.mem_cons_self
    have hrest := ih fun g' hg' => h g' (List.mem_cons_of_mem _ hg')
    rw [unitsIn_cons]
    split <;> omega

/-- A group's units are among its side's units. -/
theorem le_unitsIn {gs : List TravelingGroup} (h : AllPositive gs) {g : TravelingGroup}
    (hg : g ∈ gs) : g.unitCount ≤ unitsIn g.side gs := by
  induction gs with
  | nil => cases hg
  | cons g' gs ih =>
    have hpos := h g' List.mem_cons_self
    have hrest : AllPositive gs := fun x hx => h x (List.mem_cons_of_mem _ hx)
    rw [unitsIn_cons]
    rcases List.mem_cons.mp hg with rfl | hmem
    · rw [if_pos rfl]
      have := unitsIn_nonneg g.side hrest
      omega
    · have := ih hrest hmem
      split <;> omega

/-- Without a side's groups none of its units are left, and all of the other's. -/
theorem unitsIn_filter_ne (s t : PlayerSide) (gs : List TravelingGroup) :
    unitsIn t (gs.filter (·.side ≠ s)) = if t = s then 0 else unitsIn t gs := by
  induction gs with
  | nil => simp
  | cons g gs ih =>
    by_cases hs : g.side = s
    · rw [List.filter_cons_of_neg (by simpa using hs), ih, unitsIn_cons]
      by_cases ht : t = s
      · rw [if_pos ht, if_pos ht]
      · rw [if_neg ht, if_neg ht, if_neg (fun h => ht (h.symm.trans hs))]
        omega
    · rw [List.filter_cons_of_pos (by simpa using hs), unitsIn_cons, unitsIn_cons, ih]
      by_cases ht : t = s
      · rw [if_pos ht, if_pos ht, if_neg (fun h => hs (h.trans ht))]
        omega
      · rw [if_neg ht, if_neg ht]

/-! ## The edge -/

/-- An edge with its two ends, as `Edge.cs` has it. -/
structure Edge where
  id : EdgeId
  fromNode : NodeId
  toNode : NodeId
  distance : Distance
  /-- The groups on the edge, by the number of rounds they still need. -/
  travelingUnits : SortedList (List TravelingGroup)

namespace Edge

/-- An edge with nobody on it. -/
def new (fromNode toNode : NodeId) (distance : Distance) : Edge :=
  ⟨EdgeId.of fromNode toNode, fromNode, toNode, distance, SortedList.empty⟩

/-- Put a group on the edge, with the whole distance to go. -/
def startTravel (e : Edge) (side : PlayerSide) (unitCount : Int) (destination : NodeId) : Edge :=
  let remainingRounds := e.distance.roundsRequired
  let groups := (e.travelingUnits.get? remainingRounds).getD []
  { e with travelingUnits :=
      e.travelingUnits.set remainingRounds (groups ++ [⟨side, unitCount, destination⟩]) }

/-- One turn of the loop of `advanceRound`: an entry arrives, or moves to the next smaller key. -/
def advanceEntry (acc : List TravelingGroup × SortedList (List TravelingGroup))
    (kvp : Int × List TravelingGroup) : List TravelingGroup × SortedList (List TravelingGroup) :=
  let newRemaining := kvp.1 - 1
  if newRemaining ≤ 0 then (acc.1 ++ kvp.2, acc.2)
  else (acc.1, acc.2.set newRemaining ((acc.2.get? newRemaining).getD [] ++ kvp.2))

/-- Move every group one round closer; returns the groups that arrived, with the new edge. -/
def advanceRound (e : Edge) : List TravelingGroup × Edge :=
  let r := e.travelingUnits.entries.foldl advanceEntry ([], SortedList.empty)
  (r.1, { e with travelingUnits := r.2 })

/-- Is any group of the side on the edge, however far it has to go? -/
def hasUnitsOfSide (e : Edge) (side : PlayerSide) : Bool :=
  (e.travelingUnits.values.flatMap fun g => g).any fun g => g.side = side

/-- The groups with that many rounds left, when both sides are among them. -/
def hasEncounter (e : Edge) (roundRemaining : Int) : Option (List TravelingGroup) :=
  match e.travelingUnits.get? roundRemaining with
  | none => none
  | some groups =>
    if groups.length > 1 ∧ (groups.map (·.side)).dedup.length > 1 then some groups else none

/-- The first group of a side in a list. -/
def firstOf (side : PlayerSide) (groups : List TravelingGroup) : Option TravelingGroup :=
  groups.find? (·.side = side)

/-- The encounter of one bucket, if there is one. -/
def encounterAt (e : Edge) (key : Int) : Option EncounterInfo :=
  match e.hasEncounter key with
  | none => none
  | some groups =>
    match firstOf .a groups, firstOf .b groups with
    | some groupA, some groupB => some ⟨e.id, groupA, groupB, key⟩
    | _, _ => none

/-- The encounters of the edge, bucket by bucket. -/
def findAllEncounters (e : Edge) : List EncounterInfo :=
  e.travelingUnits.entries.filterMap fun kvp => e.encounterAt kvp.1

/-- Take every group of a side off the edge. -/
def removeTravelingGroup (e : Edge) (side : PlayerSide) : Edge :=
  { e with travelingUnits := e.travelingUnits.mapValues fun groups => groups.filter (·.side ≠ side) }

/-- Is there a bucket in which both sides are? -/
def hasEncounterWaiting (e : Edge) : Bool :=
  e.travelingUnits.entries.any fun kvp => (e.hasEncounter kvp.1).isSome

/-! ## Observations

The sorted list is a detail of the edge: two edges with the same buckets do the same.  What later
modules say about an edge they say with these. -/

/-- The groups with `k` rounds left. -/
def bucket (e : Edge) (k : Int) : List TravelingGroup := (e.travelingUnits.get? k).getD []

/-- The units of a side on the edge. -/
def units (e : Edge) (s : PlayerSide) : Int := e.travelingUnits.sum (unitsIn s)

/-- Every bucket's key is a possible number of remaining rounds. -/
def InTransit (e : Edge) : Prop :=
  ∀ kvp ∈ e.travelingUnits.entries, 1 ≤ kvp.1 ∧ kvp.1 ≤ e.distance.roundsRequired

/-- A group with `k` rounds left stands in an entry with this key. -/
theorem mem_bucket {e : Edge} {k : Int} {g : TravelingGroup} :
    g ∈ e.bucket k ↔ ∃ gs, (k, gs) ∈ e.travelingUnits.entries ∧ g ∈ gs := by
  rw [bucket]
  constructor
  · intro h
    cases hk : e.travelingUnits.get? k with
    | none => rw [hk] at h; cases h
    | some gs => rw [hk] at h; exact ⟨gs, SortedList.mem_iff_get?.mpr hk, h⟩
  · rintro ⟨gs, hmem, hg⟩
    rw [SortedList.mem_iff_get?.mp hmem]
    exact hg

/-- An occupied bucket of an edge in transit has a possible key. -/
theorem InTransit.of_mem {e : Edge} (h : e.InTransit) {k : Int} {g : TravelingGroup}
    (hg : g ∈ e.bucket k) : 1 ≤ k ∧ k ≤ e.distance.roundsRequired := by
  obtain ⟨gs, hmem, -⟩ := mem_bucket.mp hg
  exact h _ hmem

/-- Units on the edge are never fewer than none. -/
theorem sum_nonneg_of_pos {e : Edge} (h : ∀ k, AllPositive (e.bucket k)) (s : PlayerSide) :
    0 ≤ e.units s :=
  sumBy_nonneg fun kvp hk =>
    unitsIn_nonneg s fun g hg => h kvp.1 g (mem_bucket.mpr ⟨kvp.2, hk, hg⟩)

/-- A bucket's units are among the edge's units. -/
theorem bucket_le_units {e : Edge} (h : ∀ k, AllPositive (e.bucket k)) (s : PlayerSide) (k : Int) :
    unitsIn s (e.bucket k) ≤ e.units s := by
  cases hk : e.travelingUnits.get? k with
  | none =>
    have hb : e.bucket k = [] := by rw [bucket, hk]; rfl
    rw [hb]
    exact sum_nonneg_of_pos h s
  | some gs =>
    have hb : e.bucket k = gs := by rw [bucket, hk]; rfl
    rw [hb]
    exact le_sumBy (e := (k, gs)) (fun kvp hkvp => unitsIn_nonneg s fun g hg =>
      h kvp.1 g (mem_bucket.mpr ⟨kvp.2, hkvp, hg⟩)) (SortedList.mem_iff_get?.mpr hk)

/-! ## Departure onto the edge

`StartTravel` files the new group last in the bucket of the full distance, and opens that bucket if
it is not there. -/

/-- Only the bucket of the full distance gets longer, by one group at its end. -/
theorem bucket_startTravel (e : Edge) (s : PlayerSide) (c : Int) (d : NodeId) (k : Int) :
    (e.startTravel s c d).bucket k =
      e.bucket k ++ if k = e.distance.roundsRequired then [⟨s, c, d⟩] else [] := by
  rw [bucket, startTravel, SortedList.get?_set]
  by_cases h : k = e.distance.roundsRequired
  · rw [if_pos h.symm, if_pos h, bucket, h]
    rfl
  · rw [if_neg fun hk => h hk.symm, if_neg h, List.append_nil]
    rfl

/-- A departure adds the weight of the new group, for whatever counts groups. -/
theorem sum_startTravel {f : List TravelingGroup → Int} (hf : ∀ gs gs', f (gs ++ gs') = f gs + f gs')
    (e : Edge) (s : PlayerSide) (c : Int) (d : NodeId) :
    (e.startTravel s c d).travelingUnits.sum f = e.travelingUnits.sum f + f [⟨s, c, d⟩] := by
  have hnil : f [] = 0 := by
    have h := hf [] []
    rw [List.append_nil] at h
    omega
  rw [startTravel, SortedList.sum_set, hf]
  cases e.travelingUnits.get? e.distance.roundsRequired with
  | none => simp [hnil]
  | some gs => simp only [Option.map_some, Option.getD_some]; omega

/-- Only the group's own side gets more. -/
theorem units_startTravel (e : Edge) (s t : PlayerSide) (c : Int) (d : NodeId) :
    (e.startTravel s c d).units t = e.units t + if t = s then c else 0 := by
  have hone : unitsIn t [⟨s, c, d⟩] = if t = s then c else 0 := by
    rw [unitsIn_cons, unitsIn_nil, Int.add_zero]
    by_cases h : s = t
    · rw [if_pos h, if_pos h.symm]
    · rw [if_neg h, if_neg fun h' => h h'.symm]
  rw [units, sum_startTravel (unitsIn_append t), hone]
  rfl

/-- The full distance is a possible number of rounds. -/
theorem InTransit.startTravel {e : Edge} (h : e.InTransit) (hd : 1 ≤ e.distance.roundsRequired)
    (s : PlayerSide) (c : Int) (d : NodeId) : (e.startTravel s c d).InTransit := by
  intro kvp hk
  rcases mem_place hk with rfl | hmem
  · exact ⟨hd, Int.le_refl _⟩
  · exact h kvp hmem

/-- Put a list of groups on the edge. -/
def loadAll (e : Edge) (gs : List TravelingGroup) : Edge :=
  gs.foldl (fun e g => e.startTravel g.side g.unitCount g.destination) e

/-- Loading touches nothing but the buckets. -/
theorem loadAll_frame (gs : List TravelingGroup) :
    ∀ e : Edge, (e.loadAll gs).id = e.id ∧ (e.loadAll gs).fromNode = e.fromNode ∧
      (e.loadAll gs).toNode = e.toNode ∧ (e.loadAll gs).distance = e.distance := by
  induction gs with
  | nil => exact fun _ => ⟨rfl, rfl, rfl, rfl⟩
  | cons g gs ih => exact fun e => ih (e.startTravel g.side g.unitCount g.destination)

/-- A list of departures stands in the order in which it was loaded. -/
theorem bucket_loadAll (gs : List TravelingGroup) (k : Int) :
    ∀ e : Edge, (e.loadAll gs).bucket k =
      e.bucket k ++ if k = e.distance.roundsRequired then gs else [] := by
  induction gs with
  | nil =>
    intro e
    show e.bucket k = e.bucket k ++ (if k = e.distance.roundsRequired then [] else [])
    rw [ite_self, List.append_nil]
  | cons g gs ih =>
    intro e
    show ((e.startTravel g.side g.unitCount g.destination).loadAll gs).bucket k = _
    rw [ih, bucket_startTravel]
    show (e.bucket k ++ _) ++ (if k = e.distance.roundsRequired then gs else []) = _
    split
    · rw [List.append_assoc, List.singleton_append]
    · rw [List.append_nil, List.append_nil]

/-- It brings its units. -/
theorem units_loadAll (gs : List TravelingGroup) (s : PlayerSide) :
    ∀ e : Edge, (e.loadAll gs).units s = e.units s + unitsIn s gs := by
  induction gs with
  | nil => exact fun e => (Int.add_zero _).symm
  | cons g gs ih =>
    intro e
    show ((e.startTravel g.side g.unitCount g.destination).loadAll gs).units s = _
    rw [ih, units_startTravel, unitsIn_cons]
    rcases em (g.side = s) with h | h
    · rw [if_pos h, if_pos h.symm]; omega
    · rw [if_neg h, if_neg fun h' => h h'.symm]; omega

/-- And it stays possible after any number of them. -/
theorem InTransit.loadAll {e : Edge} (h : e.InTransit) (hd : 1 ≤ e.distance.roundsRequired)
    (gs : List TravelingGroup) : (e.loadAll gs).InTransit := by
  induction gs generalizing e with
  | nil => exact h
  | cons g gs ih => exact ih (h.startTravel hd g.side g.unitCount g.destination) hd

/-! ## Removal

A retreat takes the whole side off the edge, from every bucket; empty buckets stay where they
were. -/

/-- Of each bucket the other side's groups stay. -/
theorem bucket_removeTravelingGroup (e : Edge) (s : PlayerSide) (k : Int) :
    (e.removeTravelingGroup s).bucket k = (e.bucket k).filter (·.side ≠ s) := by
  rw [bucket, removeTravelingGroup, SortedList.get?_mapValues, bucket]
  cases e.travelingUnits.get? k <;> rfl

/-- The side has no unit left, and the other has all. -/
theorem units_removeTravelingGroup (e : Edge) (s t : PlayerSide) :
    (e.removeTravelingGroup s).units t = if t = s then 0 else e.units t := by
  rw [units, removeTravelingGroup, SortedList.sum_mapValues]
  by_cases h : t = s
  · rw [if_pos h]
    refine (sumBy_congr (g := fun _ => 0) fun kvp _ => ?_).trans ?_
    · rw [unitsIn_filter_ne, if_pos h]
    · induction e.travelingUnits.entries with
      | nil => rfl
      | cons x xs ih => rw [sumBy_cons, ih]; rfl
  · rw [if_neg h]
    refine sumBy_congr fun kvp _ => ?_
    rw [unitsIn_filter_ne, if_neg h]

/-- No key is added. -/
theorem InTransit.removeTravelingGroup {e : Edge} (h : e.InTransit) (s : PlayerSide) :
    (e.removeTravelingGroup s).InTransit := by
  intro kvp hk
  obtain ⟨x, hx, rfl⟩ := List.mem_map.mp hk
  exact h x hx

/-! ## Advancing a round

The loop of `advanceRound` reads the old list in the order of its keys and builds a new one.  Its
invariant has two halves: what is in the accumulator, and what the entries still to come will
add. -/

/-- The groups that a list of entries files under `k`. -/
def bucketIn (k : Int) (entries : List (Int × List TravelingGroup)) : List TravelingGroup :=
  (entries.filter (·.1 = k)).flatMap (·.2)

/-- The first entry comes first. -/
theorem bucketIn_cons (k : Int) (kvp : Int × List TravelingGroup)
    (entries : List (Int × List TravelingGroup)) :
    bucketIn k (kvp :: entries) = (if kvp.1 = k then kvp.2 else []) ++ bucketIn k entries := by
  by_cases h : kvp.1 = k
  · simp [bucketIn, h]
  · simp [bucketIn, h]

/-- In a sorted list there is one entry for a key at most, so this is the bucket. -/
theorem bucketIn_entries (e : Edge) (k : Int) : bucketIn k e.travelingUnits.entries = e.bucket k := by
  have hnd := ascending_nodup e.travelingUnits.sorted
  show _ = (lookup k e.travelingUnits.entries).getD []
  generalize e.travelingUnits.entries = l at hnd
  induction l with
  | nil => rfl
  | cons kvp rest ih =>
    obtain ⟨hnot, hrest⟩ := List.nodup_cons.mp hnd
    obtain ⟨k', gs⟩ := kvp
    rw [bucketIn_cons, ih hrest, lookup]
    by_cases h : k' = k
    · have habs : lookup k rest = none := lookup_eq_none_iff.mpr (h ▸ hnot)
      rw [if_pos h, if_pos h, habs]
      exact List.append_nil gs
    · rw [if_neg h, if_neg h]
      rfl

/-- The loop files the groups of every entry with a key above `1` one key lower. -/
theorem bucket_foldl_advance (k : Int) :
    ∀ (entries : List (Int × List TravelingGroup))
      (acc : List TravelingGroup × SortedList (List TravelingGroup)),
      ((entries.foldl advanceEntry acc).2.get? k).getD [] =
        (acc.2.get? k).getD [] ++ if 1 ≤ k then bucketIn (k + 1) entries else [] := by
  -- by induction on the entries still to be visited, whatever has been collected
  intro entries
  induction entries with
  | nil => intro acc; simp [bucketIn]
  | cons kvp rest ih =>
    intro acc
    rw [List.foldl_cons, ih, bucketIn_cons, advanceEntry]
    by_cases hle : kvp.1 - 1 ≤ 0
    · simp only [if_pos hle]
      by_cases hk : 1 ≤ k
      · rw [if_pos hk, if_pos hk, if_neg (by omega : ¬ kvp.1 = k + 1)]
        rfl
      · rw [if_neg hk, if_neg hk]
    · simp only [if_neg hle, SortedList.get?_set]
      by_cases heq : kvp.1 - 1 = k
      · have hk : 1 ≤ k := by omega
        rw [if_pos heq, if_pos hk, if_pos hk, if_pos (by omega : kvp.1 = k + 1), heq]
        exact List.append_assoc _ _ _
      · by_cases hk : 1 ≤ k
        · rw [if_neg heq, if_pos hk, if_pos hk, if_neg (by omega : ¬ kvp.1 = k + 1)]
          rfl
        · rw [if_neg heq, if_neg hk, if_neg hk]

/-- The loop collects the groups of every entry whose key is at most `1`. -/
theorem arrived_foldl_advance :
    ∀ (entries : List (Int × List TravelingGroup))
      (acc : List TravelingGroup × SortedList (List TravelingGroup)),
      (entries.foldl advanceEntry acc).1 =
        acc.1 ++ (entries.filter (·.1 ≤ 1)).flatMap (·.2) := by
  intro entries
  induction entries with
  | nil => intro acc; simp
  | cons kvp rest ih =>
    intro acc
    rw [List.foldl_cons, ih, advanceEntry]
    by_cases hle : kvp.1 - 1 ≤ 0
    · have h1 : kvp.1 ≤ 1 := by omega
      simp [hle, h1]
    · have h1 : ¬ kvp.1 ≤ 1 := by omega
      simp [hle, h1]

/-- The loop loses nothing, for whatever counts groups. -/
theorem sum_foldl_advance {f : List TravelingGroup → Int}
    (hf : ∀ gs gs', f (gs ++ gs') = f gs + f gs') :
    ∀ (entries : List (Int × List TravelingGroup))
      (acc : List TravelingGroup × SortedList (List TravelingGroup)),
      f (entries.foldl advanceEntry acc).1 + (entries.foldl advanceEntry acc).2.sum f
        = f acc.1 + acc.2.sum f + sumBy f entries := by
  have hnil : f [] = 0 := by
    have h := hf [] []
    rw [List.append_nil] at h
    omega
  intro entries
  induction entries with
  | nil => intro acc; simp
  | cons kvp rest ih =>
    intro acc
    rw [List.foldl_cons, ih, sumBy_cons, advanceEntry]
    by_cases hle : kvp.1 - 1 ≤ 0
    · simp only [if_pos hle, hf]
      omega
    · simp only [if_neg hle, SortedList.sum_set, hf]
      cases acc.2.get? (kvp.1 - 1) with
      | none => simp [hnil]; omega
      | some gs => simp only [Option.map_some, Option.getD_some]; omega

/-- Every group comes one round closer. -/
theorem bucket_advanceRound (e : Edge) (k : Int) :
    e.advanceRound.2.bucket k = if 1 ≤ k then e.bucket (k + 1) else [] := by
  have h := bucket_foldl_advance k e.travelingUnits.entries ([], SortedList.empty)
  rw [bucketIn_entries] at h
  exact h

/-- What arrives is what stood in the buckets of key `1` or less. -/
theorem mem_arrived {e : Edge} {g : TravelingGroup} :
    g ∈ e.advanceRound.1 ↔ ∃ k, k ≤ 1 ∧ g ∈ e.bucket k := by
  have h : e.advanceRound.1 = (e.travelingUnits.entries.filter (·.1 ≤ 1)).flatMap (·.2) :=
    (arrived_foldl_advance e.travelingUnits.entries ([], SortedList.empty)).trans
      (List.nil_append _)
  rw [h, List.mem_flatMap]
  constructor
  · rintro ⟨⟨k, gs⟩, hmem, hg⟩
    obtain ⟨hmem, hk⟩ := List.mem_filter.mp hmem
    exact ⟨k, by simpa using hk, mem_bucket.mpr ⟨gs, hmem, hg⟩⟩
  · rintro ⟨k, hk, hg⟩
    obtain ⟨gs, hmem, hg⟩ := mem_bucket.mp hg
    exact ⟨(k, gs), List.mem_filter.mpr ⟨hmem, by simpa using hk⟩, hg⟩

/-- On an edge in transit, what arrives is the bucket of key `1`. -/
theorem arrived_eq {e : Edge} (h : e.InTransit) : e.advanceRound.1 = e.bucket 1 := by
  have hloop : e.advanceRound.1 = (e.travelingUnits.entries.filter (·.1 ≤ 1)).flatMap (·.2) :=
    (arrived_foldl_advance e.travelingUnits.entries ([], SortedList.empty)).trans
      (List.nil_append _)
  have hkey : e.travelingUnits.entries.filter (·.1 ≤ 1) = e.travelingUnits.entries.filter (·.1 = 1) := by
    refine List.filter_congr fun kvp hk => ?_
    have hpos := (h kvp hk).1
    exact decide_eq_decide.mpr ⟨fun hle => Int.le_antisymm hle hpos, fun heq => Int.le_of_eq heq⟩
  rw [hloop, hkey, ← bucketIn_entries]
  rfl

/-- Nothing is lost, whatever is counted: it stays on the edge or arrives. -/
theorem sum_advanceRound {f : List TravelingGroup → Int} (hf : ∀ gs gs', f (gs ++ gs') = f gs + f gs')
    (e : Edge) :
    f e.advanceRound.1 + e.advanceRound.2.travelingUnits.sum f = e.travelingUnits.sum f := by
  have h := sum_foldl_advance hf e.travelingUnits.entries ([], SortedList.empty)
  have hnil := hf [] []
  rw [List.append_nil] at hnil
  simp only [SortedList.sum_empty] at h
  refine h.trans ?_
  show _ = sumBy f e.travelingUnits.entries
  omega

/-- Advancing keeps a side's units: they are on the edge or they have arrived. -/
theorem units_advanceRound (e : Edge) (s : PlayerSide) :
    unitsIn s e.advanceRound.1 + e.advanceRound.2.units s = e.units s :=
  sum_advanceRound (unitsIn_append s) e

/-- After a round, the keys are between `1` and the distance less one. -/
theorem key_advanceRound {e : Edge} (h : e.InTransit) :
    ∀ kvp ∈ e.advanceRound.2.travelingUnits.entries,
      1 ≤ kvp.1 ∧ kvp.1 ≤ e.distance.roundsRequired - 1 := by
  have hloop : ∀ (entries : List (Int × List TravelingGroup))
      (acc : List TravelingGroup × SortedList (List TravelingGroup)),
      (∀ kvp ∈ entries, kvp.1 ≤ e.distance.roundsRequired) →
      (∀ kvp ∈ acc.2.entries, 1 ≤ kvp.1 ∧ kvp.1 ≤ e.distance.roundsRequired - 1) →
      ∀ kvp ∈ (entries.foldl advanceEntry acc).2.entries,
        1 ≤ kvp.1 ∧ kvp.1 ≤ e.distance.roundsRequired - 1 := by
    intro entries
    induction entries with
    | nil => exact fun acc _ hacc => hacc
    | cons x rest ih =>
      intro acc hent hacc
      refine ih (advanceEntry acc x) (fun y hy => hent y (List.mem_cons_of_mem _ hy)) ?_
      intro kvp hk
      have hx := hent x List.mem_cons_self
      by_cases hle : x.1 - 1 ≤ 0
      · rw [advanceEntry, if_pos hle] at hk
        exact hacc kvp hk
      · rw [advanceEntry, if_neg hle] at hk
        rcases mem_place hk with rfl | hmem
        · constructor
          · show 1 ≤ x.1 - 1
            omega
          · show x.1 - 1 ≤ _
            omega
        · exact hacc kvp hmem
  exact hloop e.travelingUnits.entries ([], SortedList.empty) (fun kvp hk => (h kvp hk).2)
    (fun kvp hk => nomatch hk)

/-- And what stays has a possible number of rounds to go. -/
theorem InTransit.advanceRound {e : Edge} (h : e.InTransit) : e.advanceRound.2.InTransit := by
  intro kvp hk
  have hkey := key_advanceRound h kvp hk
  exact ⟨hkey.1, by have := hkey.2; show kvp.1 ≤ e.distance.roundsRequired; omega⟩

/-! ## Encounters

`FindAllEncounters` takes the first group of each side in a bucket and leaves the others out.  The
test before it, more than one group and more than one side, is never what decides. -/

/-- The first group of a side is one of its groups. -/
theorem firstOf_mem {s : PlayerSide} {gs : List TravelingGroup} {g : TravelingGroup}
    (h : firstOf s gs = some g) : g ∈ gs ∧ g.side = s :=
  ⟨List.mem_of_find?_eq_some h, by simpa using List.find?_some h⟩

/-- A side with a group has a first one. -/
theorem firstOf_isSome {s : PlayerSide} {gs : List TravelingGroup} {g : TravelingGroup}
    (hg : g ∈ gs) (hs : g.side = s) : ∃ g', firstOf s gs = some g' := by
  have h : (firstOf s gs).isSome := List.find?_isSome.mpr ⟨g, hg, by simpa using hs⟩
  exact Option.isSome_iff_exists.mp h

/-- Groups of both sides make more than one group, and more than one side. -/
theorem two_sides {gs : List TravelingGroup} {gA gB : TravelingGroup} (hA : gA ∈ gs)
    (hB : gB ∈ gs) (hAs : gA.side = .a) (hBs : gB.side = .b) :
    gs.length > 1 ∧ (gs.map (·.side)).dedup.length > 1 := by
  have hsub : [PlayerSide.a, PlayerSide.b] ⊆ (gs.map (·.side)).dedup := by
    intro s hs
    rw [List.mem_dedup, List.mem_map]
    rcases List.mem_pair.mp hs with rfl | rfl
    · exact ⟨gA, hA, hAs⟩
    · exact ⟨gB, hB, hBs⟩
  have hnd : [PlayerSide.a, PlayerSide.b].Nodup := by decide
  have hlen : 2 ≤ (gs.map (·.side)).dedup.length := (hnd.subperm hsub).length_le
  have hle : (gs.map (·.side)).dedup.length ≤ gs.length := by
    have := (List.dedup_sublist (gs.map (·.side))).length_le
    rwa [List.length_map] at this
  exact ⟨by omega, by omega⟩

/-- A bucket's encounter is made of the first groups of the two sides in it. -/
theorem encounterAt_eq_some {e : Edge} {k : Int} {enc : EncounterInfo} :
    e.encounterAt k = some enc ↔ ∃ gA gB, firstOf .a (e.bucket k) = some gA ∧
      firstOf .b (e.bucket k) = some gB ∧ enc = ⟨e.id, gA, gB, k⟩ := by
  rw [encounterAt, hasEncounter, bucket]
  cases hk : e.travelingUnits.get? k with
  | none =>
    simp only [Option.getD_none]
    exact ⟨fun h => (nomatch h), fun ⟨gA, _, h, _⟩ => (nomatch h)⟩
  | some gs =>
    simp only [Option.getD_some]
    constructor
    · intro h
      split at h
      · cases h
      · rename_i groups hgroups
        split at hgroups
        · cases hgroups
          split at h
          · rename_i gA gB hA hB
            cases h
            exact ⟨gA, gB, hA, hB, rfl⟩
          · cases h
        · cases hgroups
    · rintro ⟨gA, gB, hA, hB, rfl⟩
      obtain ⟨hmA, hsA⟩ := firstOf_mem hA
      obtain ⟨hmB, hsB⟩ := firstOf_mem hB
      rw [if_pos (two_sides hmA hmB hsA hsB)]
      simp only [hA, hB]

theorem mem_findAllEncounters {e : Edge} {enc : EncounterInfo} :
    enc ∈ e.findAllEncounters ↔ ∃ k gA gB, firstOf .a (e.bucket k) = some gA ∧
      firstOf .b (e.bucket k) = some gB ∧ enc = ⟨e.id, gA, gB, k⟩ := by
  rw [findAllEncounters, List.mem_filterMap]
  constructor
  · rintro ⟨kvp, -, h⟩
    exact ⟨kvp.1, encounterAt_eq_some.mp h⟩
  · rintro ⟨k, gA, gB, hA, hB, rfl⟩
    obtain ⟨gs, hmem, -⟩ := mem_bucket.mp (firstOf_mem hA).1
    exact ⟨(k, gs), hmem, encounterAt_eq_some.mpr ⟨gA, gB, hA, hB, rfl⟩⟩

end Edge
end HexWar
