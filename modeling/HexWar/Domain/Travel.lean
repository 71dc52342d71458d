/-
  Travel time.

  An edge is driven by two calls, in any order: a group departs, or a round passes.  All groups of an
  edge have the same way to go, so the edge is a queue: what departed after `i` advances comes back with
  the advance number `i + d`, and until then it stands in the bucket of the advances it still needs.

  `departures` numbers the groups by the advances made before they left; `due` selects those that come
  back with a given advance.  The invariant `Tracks` says that the returned lists and the buckets are
  such selections, in the order of the departures.


  Nothing is assumed of the calls: departures of either side, in any numbers, to any node, between any
  two rounds.
-/
import HexWar.Domain.Deliveries

namespace HexWar

open Lib

/-- The calls that move groups along an edge. -/
inductive EdgeCall where
  | startTravel (side : PlayerSide) (unitCount : Int) (destination : NodeId)
  | advanceRound
deriving DecidableEq, Repr

/-- An edge with what its `AdvanceRound` calls returned, call by call. -/
structure Journey where
  /-- The edge as it is now, -/
  edge : Edge
  /-- and what each round has brought back. -/
  returned : List (List TravelingGroup)

namespace Journey

/-- One call. -/
def next (j : Journey) : EdgeCall → Journey
  | .startTravel side unitCount destination =>
    { j with edge := j.edge.startTravel side unitCount destination }
  | .advanceRound =>
    { edge := j.edge.advanceRound.2, returned := j.returned ++ [j.edge.advanceRound.1] }

/-- A list of calls. -/
def run (j : Journey) (calls : List EdgeCall) : Journey := calls.foldl next j

end Journey

/-- Every group that departed, with the number of advances made before it; `n` were made already. -/
def departures (n : Nat) : List EdgeCall → List (Nat × TravelingGroup)
  | [] => []
  | .startTravel side unitCount destination :: calls =>
    (n, ⟨side, unitCount, destination⟩) :: departures n calls
  | .advanceRound :: calls => departures (n + 1) calls

/-- How many rounds pass in a list of calls. -/
def advances (calls : List EdgeCall) : Nat := calls.count .advanceRound

/-- The groups that are `d` advances old at the `t`-th one, in the order of their departures. -/
def due (d t : Int) (departed : List (Nat × TravelingGroup)) : List TravelingGroup :=
  (departed.filter fun p => p.1 + d = t).map (·.2)

/-- What is due of two lists of departures, -/
theorem due_append (d t : Int) (departed departed' : List (Nat × TravelingGroup)) :
    due d t (departed ++ departed') = due d t departed ++ due d t departed' := by
  rw [due, List.filter_append, List.map_append]
  rfl

/-- and of one departure. -/
theorem due_singleton (d t : Int) (n : Nat) (g : TravelingGroup) :
    due d t [(n, g)] = if n + d = t then [g] else [] := by
  by_cases h : (n : Int) + d = t
  · simp [due, h]
  · simp [due, h]

/-! ## Everything on the edge

That no group is lost is counted group by group: how often it departed is how often it came back or
is still there. -/

namespace Edge

/-- How often a group is in a list. -/
def occurrences (g : TravelingGroup) (gs : List TravelingGroup) : Int := gs.count g

/-- A group occurs in two lists as often as in each of them together. -/
theorem occurrences_append (g : TravelingGroup) (gs gs' : List TravelingGroup) :
    occurrences g (gs ++ gs') = occurrences g gs + occurrences g gs' := by
  rw [occurrences, List.count_append, Int.natCast_add]
  rfl

/-- The occurrences in the buckets are those on the edge. -/
theorem sum_occurrences (e : Edge) (g : TravelingGroup) :
    e.travelingUnits.sum (occurrences g) = occurrences g e.groups := by
  show sumBy _ e.travelingUnits.entries =
    occurrences g ((e.travelingUnits.entries.map Prod.snd).flatMap fun gs => gs)
  induction e.travelingUnits.entries with
  | nil => rfl
  | cons kvp rest ih =>
    rw [sumBy_cons, ih, List.map_cons, List.flatMap_cons, occurrences_append]

/-- A departure puts one group on the edge, -/
theorem groups_startTravel (e : Edge) (s : PlayerSide) (c : Int) (d : NodeId) :
    (e.startTravel s c d).groups.Perm (e.groups ++ [⟨s, c, d⟩]) := by
  refine List.perm_iff_count.mpr fun g => Int.ofNat_inj.mp ?_
  show occurrences g _ = occurrences g _
  rw [← sum_occurrences, sum_startTravel (occurrences_append g), occurrences_append,
    sum_occurrences]

/-- and a round takes off what it returns. -/
theorem groups_advanceRound (e : Edge) :
    (e.advanceRound.1 ++ e.advanceRound.2.groups).Perm e.groups := by
  refine List.perm_iff_count.mpr fun g => Int.ofNat_inj.mp ?_
  show occurrences g _ = occurrences g _
  rw [occurrences_append, ← sum_occurrences, ← sum_occurrences,
    sum_advanceRound (occurrences_append g)]

end Edge

/-! ## The invariant

Everything about the edge, read off the departures alone. -/

/-- The edge and its returned lists after `m` advances are what the departures say. -/
structure Tracks (d : Int) (departed : List (Nat × TravelingGroup)) (m : Nat) (j : Journey) :
    Prop where
  /-- The length of the edge does not change, -/
  distance : j.edge.distance.roundsRequired = d
  /-- and no group is beyond either end. -/
  transit : j.edge.InTransit
  /-- The `n`-th advance returned the groups that departed `d` advances before. -/
  returned : j.returned = (List.range m).map fun n : Nat => due d (n + 1) departed
  /-- A bucket's key is the number of advances that its groups still need. -/
  buckets : ∀ k, j.edge.bucket k = if 1 ≤ k then due d (m + k) departed else []
  /-- Every group that departed was returned or is on the edge. -/
  kept : (departed.map (·.2)).Perm (j.returned.flatten ++ j.edge.groups)

/-- A new edge has seen no departure. -/
theorem tracks_new (fromNode toNode : NodeId) (distance : Distance) :
    Tracks distance.roundsRequired [] 0 ⟨Edge.new fromNode toNode distance, []⟩ where
  distance := rfl
  transit := fun _ h => absurd h List.not_mem_nil
  returned := rfl
  buckets k := by
    show [] = if 1 ≤ k then [] else []
    rw [ite_self]
  kept := List.Perm.refl []

namespace Tracks

variable {d : Int} {departed : List (Nat × TravelingGroup)} {m : Nat} {j : Journey}

/-- **A departure**: the new group needs all `d` advances. -/
theorem startTravel (h : Tracks d departed m j) (hd : 1 ≤ d) (side : PlayerSide) (unitCount : Int)
    (destination : NodeId) :
    Tracks d (departed ++ [(m, ⟨side, unitCount, destination⟩)]) m
      (j.next (.startTravel side unitCount destination)) where
  distance := h.distance
  transit := h.transit.startTravel (h.distance ▸ hd) side unitCount destination
  returned := by
    refine h.returned.trans (List.map_congr_left fun n hn => ?_)
    have hlt : n < m := List.mem_range.mp hn
    rw [due_append, due_singleton, if_neg (by omega), List.append_nil]
  buckets k := by
    show (j.edge.startTravel _ _ _).bucket k = _
    rw [Edge.bucket_startTravel, h.buckets, h.distance, due_append, due_singleton]
    by_cases hk : k = d
    · rw [if_pos hk, if_pos (by omega), if_pos (by omega), if_pos (by omega)]
    · rw [if_neg hk, List.append_nil]
      split
      · rw [if_neg (by omega), List.append_nil]
      · rfl
  kept := by
    show List.Perm _ (j.returned.flatten ++ (j.edge.startTravel _ _ _).groups)
    rw [List.map_append]
    refine (h.kept.append_right _).trans ?_
    rw [List.append_assoc]
    exact (j.edge.groups_startTravel side unitCount destination).symm.append_left _

/-- **A round**: the groups that are due come back, the others need one advance less. -/
theorem advanceRound (h : Tracks d departed m j) :
    Tracks d departed (m + 1) (j.next .advanceRound) where
  distance := h.distance
  transit := h.transit.advanceRound
  returned := by
    have hnow : j.edge.advanceRound.1 = due d (m + 1) departed := by
      rw [Edge.arrived_eq h.transit, h.buckets, if_pos (Int.le_refl 1)]
    show j.returned ++ [j.edge.advanceRound.1] = _
    rw [h.returned, hnow, List.range_succ, List.map_append]
    rfl
  buckets k := by
    show j.edge.advanceRound.2.bucket k = _
    rw [Edge.bucket_advanceRound, h.buckets]
    by_cases hk : 1 ≤ k
    · rw [if_pos hk, if_pos hk, if_pos (by omega)]
      congr 1
      omega
    · rw [if_neg hk, if_neg hk]
  kept := by
    show List.Perm _ ((j.returned ++ [j.edge.advanceRound.1]).flatten ++ j.edge.advanceRound.2.groups)
    rw [List.flatten_append, List.flatten_singleton, List.append_assoc]
    exact h.kept.trans (j.edge.groups_advanceRound.symm.append_left _)

/-- **Any calls** keep the edge as the departures say. -/
theorem run (hd : 1 ≤ d) : ∀ (calls : List EdgeCall) {departed : List (Nat × TravelingGroup)}
    {m : Nat} {j : Journey}, Tracks d departed m j →
      Tracks d (departed ++ departures m calls) (m + advances calls) (j.run calls)
  | [], departed, m, j, h => by
    show Tracks d (departed ++ []) (m + 0) j
    rw [List.append_nil]
    exact h
  | .startTravel side unitCount destination :: calls, departed, m, j, h => by
    have ih := run hd calls (h.startTravel hd side unitCount destination)
    rw [List.append_assoc] at ih
    have hcount : advances (.startTravel side unitCount destination :: calls) = advances calls :=
      List.count_cons_of_ne (fun h => EdgeCall.noConfusion h)
    rw [hcount]
    exact ih
  | .advanceRound :: calls, departed, m, j, h => by
    have ih := run hd calls h.advanceRound
    have hcount : advances (.advanceRound :: calls) = advances calls + 1 := List.count_cons_self
    rw [hcount, Nat.add_comm (advances calls) 1, ← Nat.add_assoc]
    exact ih

end Tracks

/-- **Travel time is exact.**  Whatever the order of departures and advances, the `n`-th advance
    returns the groups that departed `d` advances earlier and no others, each bucket holds the groups
    that need as many advances as its key says, and no group is lost, changed or made up. -/
theorem travel_time_exact (fromNode toNode : NodeId) (distance : Distance)
    (hd : 1 ≤ distance.roundsRequired) (calls : List EdgeCall) :
    let departed := departures 0 calls
    let j := (Journey.mk (Edge.new fromNode toNode distance) []).run calls
    j.returned =
      (List.range (advances calls)).map (fun n : Nat => due distance.roundsRequired (n + 1) departed) ∧
    (∀ k, j.edge.bucket k =
      if 1 ≤ k then due distance.roundsRequired (advances calls + k) departed else []) ∧
    (departed.map (·.2)).Perm (j.returned.flatten ++ j.edge.groups) := by
  have h := (tracks_new fromNode toNode distance).run hd calls
  rw [List.nil_append, Nat.zero_add] at h
  exact ⟨h.returned, h.buckets, h.kept⟩

/-- Two rounds after it left the first group is back, and the second is one round behind. -/
theorem travel_time_two :
    ((Journey.mk (Edge.new ⟨1⟩ ⟨5⟩ ⟨2⟩) []).run [.startTravel .a 1 ⟨5⟩, .advanceRound,
      .startTravel .b 1 ⟨1⟩, .advanceRound]).returned = [[], [⟨.a, 1, ⟨5⟩⟩]] :=
  (travel_time_exact ⟨1⟩ ⟨5⟩ ⟨2⟩ (by decide) [.startTravel .a 1 ⟨5⟩, .advanceRound,
    .startTravel .b 1 ⟨1⟩, .advanceRound]).1.trans (by decide)

end HexWar
