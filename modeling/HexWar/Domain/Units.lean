/-
  The units of a side, one by one.

  The rooms count units: so many on a node, so many in a group on an edge.  `unitPlaces` spells the
  counts out as a list with one place for every unit, and `Hops` says where a unit may get to in one
  call: in a round it stays on its node, sets out to a neighbouring one, comes closer to it or reaches
  it; in a retreat it turns round on its edge; in every other call it stays where it is.

  Every call of a session takes the units over in this sense (`InSession.goesOver`): a unit takes a
  hop or is lost, none appears from nowhere, is in two places or jumps.  So each can be followed
  through every game (`units_followed`), and to the end of it where every call keeps the units.

  A round is taken apart by edges.  The units that stay on their nodes are one part; the others are
  on an edge, or set out on one, and the hops of an edge are those of its groups.

  Why not a relation between rooms?  Two units on one node are the same to the room, so which of them sets
  out is not a fact about it.  What is a fact is that the places after a call are a rearrangement of
  where the hops lead; `Lib.Trails` turns that, step by step, into one trail for each unit.

  1. Places and hops.
  2. Counting: two lists of places on nodes are equal up to order if every node has as many in both.
  3. The groups of one edge through a round (`goesOver_edge`).
  4. The nodes through a round: those that stay and those that set out before it (`Sound.nodes_before`),
     those that stayed and those that arrived after it (`Sound.nodes_after`).
  5. One call (`InSession.goesOver`), and every run.
-/
import HexWar.Domain.Deliveries
import HexWar.Domain.Retreats
import HexWar.Lib.Trails

namespace HexWar

open Lib Lib.Action GameRoom

/-! ## Where the units are -/

/-- Where a unit can be. -/
inductive Place where
  /-- It stands on a node. -/
  | on (node : NodeId)
  /-- It is on an edge, on the way to one of its ends. -/
  | towards (edge : EdgeId) (destination : NodeId) (remainingRounds : Int)
deriving DecidableEq, Repr

/-- The places of the units of a side in a list of groups with `k` rounds left. -/
def placesOf (s : PlayerSide) (id : EdgeId) (k : Int) (gs : List TravelingGroup) : List Place :=
  (groupsOf s gs).flatMap fun g => List.replicate g.unitCount.toNat (.towards id g.destination k)

/-- The places of the units on an edge. -/
def Edge.places (e : Edge) (id : EdgeId) (s : PlayerSide) : List Place :=
  e.travelingUnits.entries.flatMap fun kvp => placesOf s id kvp.1 kvp.2

/-- The places of the units on the nodes. -/
def nodePlaces (nodes : Dict NodeId Node) (s : PlayerSide) : List Place :=
  nodes.entries.flatMap fun kvp => List.replicate (kvp.2.getMobileCount s).toNat (.on kvp.1)

/-- The places of all units of a side, one for each of them. -/
def GameRoom.unitPlaces (room : GameRoom) (s : PlayerSide) : List Place :=
  nodePlaces room.nodes s ++ room.edges.entries.flatMap fun kvp => kvp.2.places kvp.1 s

/-! ## Where a unit can get to -/

/-- What a round does with a unit. -/
inductive Marches : Place → Place → Prop where
  /-- No move has named it. -/
  | waits (node : NodeId) : Marches (.on node) (.on node)
  /-- Over an edge of one round. -/
  | crosses {origin destination : NodeId} {e : Edge}
      (path : initialEdges.get? (EdgeId.of origin destination) = some e)
      (short : e.distance.roundsRequired = 1) : Marches (.on origin) (.on destination)
  /-- Onto a longer edge; the round in which it sets out counts for its way. -/
  | setsOut {origin destination : NodeId} {e : Edge}
      (path : initialEdges.get? (EdgeId.of origin destination) = some e)
      (long : 2 ≤ e.distance.roundsRequired) : Marches (.on origin)
        (.towards (EdgeId.of origin destination) destination (e.distance.roundsRequired - 1))
  /-- It comes one round closer. -/
  | goesOn (edge : EdgeId) (destination : NodeId) {k : Int} (more : 1 ≤ k) :
      Marches (.towards edge destination (k + 1)) (.towards edge destination k)
  /-- Its last round on the edge. -/
  | arrives (edge : EdgeId) (destination : NodeId) :
      Marches (.towards edge destination 1) (.on destination)

/-- A unit on an edge turns round, and has the whole way to go. -/
inductive TurnsBack (id : EdgeId) : Place → Place → Prop where
  /-- Every unit of the other side, and of its own side everywhere else. -/
  | stays (place : Place) : TurnsBack id place place
  /-- Back to where it came from, however far it had got. -/
  | turns (destination : NodeId) {k : Int} {e : Edge} (path : initialEdges.get? id = some e) :
      TurnsBack id (.towards id destination k)
        (.towards id (oppositeEnd id destination) e.distance.roundsRequired)

/-- What a call does with a unit. -/
def Hops (call : Call) (p q : Place) : Prop :=
  match call with
  | .resolveRound _ _ => Marches p q
  | .resolveEncounter edgeId _ .retreat => TurnsBack edgeId p q
  | .addPlayer _ _ _ | .moveUnits _ _ | .resolveEncounter _ _ .advance | .forceGameOver _ _ => p = q

/-! ## Counting places

On nodes a list of places is known by its counts, and the count of a node is a number the room has.
On the edges the groups themselves are followed, so nothing has to be counted there. -/

/-- As many places on a node as there are units that go with it. -/
theorem count_on {α : Type} {f : α → Int} {g : α → NodeId} :
    ∀ {l : List α}, (∀ a ∈ l, 0 ≤ f a) → ∀ n : NodeId,
      (((l.flatMap fun a => List.replicate (f a).toNat (Place.on (g a))).count (.on n) : Nat) : Int) =
        ((l.filter fun a => g a = n).map f).sum
  | [], _, _ => rfl
  | a :: l, hpos, n => by
    have ih := count_on (g := g) (fun a' ha' => hpos a' (List.mem_cons_of_mem _ ha')) n
    have ha := hpos a List.mem_cons_self
    rw [List.flatMap_cons, List.count_append, Nat.cast_add, ih, List.count_replicate]
    rcases em (g a = n) with rfl | hne
    · rw [List.filter_cons_of_pos (by simp), List.map_cons, List.sum_cons, if_pos (by simp)]
      omega
    · rw [List.filter_cons_of_neg (by simpa using hne), if_neg (by simpa using hne)]
      omega

/-- There is no place on the way among places on nodes. -/
theorem count_on_towards {α : Type} (f : α → Int) (g : α → NodeId) (l : List α) (id : EdgeId)
    (d : NodeId) (k : Int) :
    (l.flatMap fun a => List.replicate (f a).toNat (Place.on (g a))).count (.towards id d k) = 0 := by
  refine List.count_eq_zero_of_not_mem fun hmem => ?_
  obtain ⟨a, -, ha⟩ := List.mem_flatMap.mp hmem
  cases List.eq_of_mem_replicate ha

/-- The entries of a dictionary under one key. -/
theorem entries_filter {ν : Type} (d : Dict NodeId ν) (n : NodeId) :
    (d.entries.filter fun kvp => kvp.1 = n) = ((d.get? n).map fun v => (n, v)).toList := by
  have hnodup := d.nodup
  show _ = ((lookup n d.entries).map fun v => (n, v)).toList
  generalize d.entries = entries at hnodup
  induction entries with
  | nil => rfl
  | cons kvp rest ih =>
    obtain ⟨k, v⟩ := kvp
    rw [List.map_cons, List.nodup_cons] at hnodup
    rcases em (k = n) with rfl | hne
    · have hrest : (rest.filter fun kvp => kvp.1 = k) = [] := by
        refine List.filter_eq_nil_iff.mpr fun kvp hkvp => ?_
        simp only [decide_eq_true_eq]
        rintro rfl
        exact hnodup.1 (List.mem_map.mpr ⟨kvp, hkvp, rfl⟩)
      rw [List.filter_cons_of_pos (by simp), hrest, lookup, if_pos rfl]
      rfl
    · rw [List.filter_cons_of_neg (by simpa using hne), ih hnodup.2, lookup, if_neg hne]

/-- The units on a node, among all on nodes. -/
theorem count_nodes {nodes : Dict NodeId Node} {f : NodeId → Node → Int}
    (hpos : ∀ kvp ∈ nodes.entries, 0 ≤ f kvp.1 kvp.2) (n : NodeId) :
    (((nodes.entries.flatMap fun kvp =>
      List.replicate (f kvp.1 kvp.2).toNat (Place.on kvp.1)).count (.on n) : Nat) : Int) =
      ((nodes.get? n).map (f n)).getD 0 := by
  rw [count_on (f := fun kvp => f kvp.1 kvp.2) (g := Prod.fst) hpos, entries_filter]
  rcases nodes.get? n with _ | v
  · rfl
  · exact Int.add_zero _

/-- The same list of places on nodes, counted node by node. -/
theorem perm_of_count_on {ps qs : List Place} (hon : ∀ n, ps.count (.on n) = qs.count (.on n))
    (htowards : ∀ id d k, ps.count (.towards id d k) = 0 ∧ qs.count (.towards id d k) = 0) :
    ps.Perm qs := by
  refine List.perm_iff_count.mpr fun p => ?_
  cases p with
  | on n => exact hon n
  | towards id d k => rw [(htowards id d k).1, (htowards id d k).2]

/-! ## The groups of an edge

On the map an edge takes one round or two.  With one, whatever sets out arrives in the same round;
with two, what sets out has one round left, and what had one left arrives.  A group that looks like
one of an encounter goes nowhere: its units are lost (`LooksMet`). -/

variable {s : PlayerSide} {id : EdgeId}

/-- No groups, no places. -/
theorem placesOf_nil (s : PlayerSide) (id : EdgeId) (k : Int) : placesOf s id k [] = [] := rfl

/-- The groups of a bucket are followed one after the other. -/
theorem placesOf_append (s : PlayerSide) (id : EdgeId) (k : Int) (gs gs' : List TravelingGroup) :
    placesOf s id k (gs ++ gs') = placesOf s id k gs ++ placesOf s id k gs' := by
  rw [placesOf, groupsOf_append, List.flatMap_append]
  rfl

/-- A sorted list with no keys but 1 and 2, entry by entry. -/
theorem flatMap_entries {F : Int → List TravelingGroup → List Place} (hF : ∀ k, F k [] = [])
    {l : SortedList (List TravelingGroup)} (h : ∀ kvp ∈ l.entries, 1 ≤ kvp.1 ∧ kvp.1 ≤ 2) :
    (l.entries.flatMap fun kvp => F kvp.1 kvp.2) =
      F 1 ((l.get? 1).getD []) ++ F 2 ((l.get? 2).getD []) := by
  have hsorted := l.sorted
  show _ = F 1 ((lookup 1 l.entries).getD []) ++ F 2 ((lookup 2 l.entries).getD [])
  generalize l.entries = entries at h hsorted
  -- at most two entries: the keys grow and are 1 or 2
  rcases entries with _ | ⟨⟨k, gs⟩, rest⟩
  · simp [lookup, hF]
  have hk := h (k, gs) List.mem_cons_self
  rcases rest with _ | ⟨⟨k', gs'⟩, rest⟩
  · obtain rfl | rfl : k = 1 ∨ k = 2 := by simp only at hk; omega
    · simp [lookup, hF]
    · simp [lookup, hF]
  have hk' := h (k', gs') (List.mem_cons_of_mem _ List.mem_cons_self)
  have hlt : k < k' := (List.pairwise_cons.mp hsorted).1 _ List.mem_cons_self
  simp only at hk hk'
  obtain ⟨rfl, rfl⟩ : k = 1 ∧ k' = 2 := by omega
  rcases rest with _ | ⟨kvp, rest⟩
  · simp [lookup]
  · have hlast := h kvp (by simp)
    have hlt' : 2 < kvp.1 :=
      (List.pairwise_cons.mp (List.pairwise_cons.mp hsorted).2).1 _ List.mem_cons_self
    omega

/-- On the map, a unit on an edge has one round left or two. -/
theorem Edge.places_eq {e : Edge} (h : e.InTransit) (hd : e.distance.roundsRequired ≤ 2)
    (id : EdgeId) (s : PlayerSide) :
    e.places id s = placesOf s id 1 (e.bucket 1) ++ placesOf s id 2 (e.bucket 2) :=
  flatMap_entries (F := placesOf s id) (placesOf_nil s id) fun kvp hkvp =>
    ⟨(h kvp hkvp).1, (h kvp hkvp).2.trans hd⟩

/-- Where the units of some groups get to that have one round left. -/
def arrivedPlaces (moves : List SideMove) (e : Edge) (s : PlayerSide) (gs : List TravelingGroup) :
    List Place :=
  (groupsOf s gs).flatMap fun g =>
    if LooksMet moves e g then [] else List.replicate g.unitCount.toNat (.on g.destination)

/-- The places of the units of a side that are to set out on an edge. -/
def departing (moves : List SideMove) (s : PlayerSide) (id : EdgeId) : List Place :=
  (moves.filter fun m => m.1 = s ∧ m.2.edgeId = id).flatMap fun m =>
    List.replicate m.2.count.toNat (.on m.2.fromNode)

/-- No groups, no arrivals. -/
theorem arrivedPlaces_nil (moves : List SideMove) (e : Edge) (s : PlayerSide) :
    arrivedPlaces moves e s [] = [] := rfl

/-- Of two lists of groups each arrives for itself. -/
theorem arrivedPlaces_append (moves : List SideMove) (e : Edge) (s : PlayerSide)
    (gs gs' : List TravelingGroup) : arrivedPlaces moves e s (gs ++ gs') =
      arrivedPlaces moves e s gs ++ arrivedPlaces moves e s gs' := by
  rw [arrivedPlaces, groupsOf_append, List.flatMap_append]
  rfl

/-- The groups of a side that set out are its moves onto the edge. -/
theorem groupsOf_loads (moves : List SideMove) (s : PlayerSide) (id : EdgeId) :
    groupsOf s (loads moves id) = (moves.filter fun m => m.1 = s ∧ m.2.edgeId = id).map
      fun m => ⟨m.1, m.2.count, m.2.toNode⟩ := by
  rw [groupsOf, loads, List.filter_map, List.filter_filter]
  simp only [Function.comp_def, Bool.decide_and]

/-- A group with one round left arrives, or is held back and lost. -/
theorem goesOver_arrive (moves : List SideMove) (e : Edge) (s : PlayerSide) (id : EdgeId)
    (gs : List TravelingGroup) :
    GoesOver Marches (placesOf s id 1 gs) (arrivedPlaces moves e s gs) := by
  refine GoesOver.flatMap fun g _ => ?_
  split
  · exact GoesOver.lost _
  · exact GoesOver.replicate (.arrives id g.destination) _

/-- A group with two rounds left comes closer. -/
theorem goesOver_goOn (s : PlayerSide) (id : EdgeId) (gs : List TravelingGroup) :
    GoesOver Marches (placesOf s id 2 gs) (placesOf s id 1 gs) :=
  GoesOver.flatMap fun g _ => GoesOver.replicate (.goesOn id g.destination (Int.le_refl 1)) _

/-- The moves onto an edge of one round arrive, or are held back and lost. -/
theorem goesOver_cross (moves : List SideMove) (e : Edge) {e₀ : Edge}
    (path : initialEdges.get? id = some e₀) (short : e₀.distance.roundsRequired = 1) :
    GoesOver Marches (departing moves s id) (arrivedPlaces moves e s (loads moves id)) := by
  rw [arrivedPlaces, groupsOf_loads, List.flatMap_map]
  refine GoesOver.flatMap fun m hm => ?_
  obtain ⟨-, hm⟩ := List.mem_filter.mp hm
  obtain ⟨-, rfl⟩ := of_decide_eq_true hm
  split
  · exact GoesOver.lost _
  · exact GoesOver.replicate (.crosses path short) _

/-- The moves onto a longer edge set out. -/
theorem goesOver_setOut (moves : List SideMove) {e₀ : Edge}
    (path : initialEdges.get? id = some e₀) (long : e₀.distance.roundsRequired = 2) :
    GoesOver Marches (departing moves s id) (placesOf s id 1 (loads moves id)) := by
  rw [placesOf, groupsOf_loads, List.flatMap_map]
  refine GoesOver.flatMap fun m hm => ?_
  obtain ⟨-, hm⟩ := List.mem_filter.mp hm
  obtain ⟨-, rfl⟩ := of_decide_eq_true hm
  have hhop := Marches.setsOut path (Int.le_of_eq long.symm)
  rw [long] at hhop
  exact GoesOver.replicate hhop _

/-- **What a round does on an edge.** -/
theorem goesOver_edge (moves : List SideMove) (e : Edge) {e₀ : Edge} (hid : e.id = id)
    (path : initialEdges.get? id = some e₀) (hdistance : e.distance = e₀.distance)
    (hrange : 1 ≤ e₀.distance.roundsRequired ∧ e₀.distance.roundsRequired ≤ 2) :
    GoesOver Marches
      (departing moves s id ++ (placesOf s id 1 (e.bucket 1) ++ placesOf s id 2 (e.bucket 2)))
      (arrivedPlaces moves e s (groupsAt moves e 1) ++ placesOf s id 1 (groupsAt moves e 2)) := by
  have harrive := goesOver_arrive moves e s id (e.bucket 1)
  have hgoOn := goesOver_goOn s id (e.bucket 2)
  rw [groupsAt, groupsAt, hid, hdistance, arrivedPlaces_append, placesOf_append]
  -- the moves join the arrivals on a short edge, and the groups on the way on a long one
  obtain hshort | hlong : e₀.distance.roundsRequired = 1 ∨ e₀.distance.roundsRequired = 2 := by omega
  · rw [hshort, if_pos rfl, if_neg (by decide), placesOf_nil, List.append_nil]
    refine ((goesOver_cross moves e path hshort).append (harrive.append hgoOn)).perm
      (List.Perm.refl _) ?_
    rw [← List.append_assoc]
    exact List.perm_append_comm.append_right _
  · rw [hlong, if_neg (by decide), if_pos rfl, arrivedPlaces_nil, List.append_nil]
    refine ((goesOver_setOut moves path hlong).append (harrive.append hgoOn)).perm
      (List.Perm.refl _) ?_
    exact List.perm_append_comm.trans (List.Perm.of_eq (List.append_assoc ..))

/-! ## The nodes

The units that stay are the same list before and after, so only those that move have to be matched:
before the round with the moves, sorted by edges, and after it with the deliveries, which come edge
by edge too. -/

/-- The units that stay on their nodes when a batch of moves is executed. -/
def staying (nodes : Dict NodeId Node) (moves : List SideMove) (s : PlayerSide) : List Place :=
  nodes.entries.flatMap fun kvp =>
    List.replicate (kvp.2.getMobileCount s - outgoing moves s kvp.1).toNat (.on kvp.1)

/-- A list that is sorted into boxes, when there is one box for everything. -/
theorem flatMap_filter_perm {α κ : Type} [DecidableEq κ] (f : α → κ) (l : List α) :
    ∀ {ks : List κ}, ks.Nodup → (ks.flatMap fun k => l.filter fun a => f a = k).Perm
      (l.filter fun a => f a ∈ ks)
  | [], _ => by
    have hnone : (l.filter fun a => decide (f a ∈ ([] : List κ))) = [] :=
      List.filter_eq_nil_iff.mpr fun a _ => by simp
    rw [hnone]
    exact List.Perm.nil
  | k :: ks, hnodup => by
    obtain ⟨hk, hks⟩ := List.nodup_cons.mp hnodup
    have ih := flatMap_filter_perm f l hks
    rw [List.flatMap_cons]
    refine (ih.append_left _).trans ?_
    -- what goes into the first box, and the rest
    have hsplit := List.filter_append_perm (fun a => decide (f a = k))
      (l.filter fun a => decide (f a ∈ k :: ks))
    refine List.Perm.trans (List.Perm.of_eq ?_) hsplit
    rw [List.filter_filter, List.filter_filter]
    refine congrArg₂ _ (List.filter_congr fun a _ => ?_) (List.filter_congr fun a _ => ?_)
    · rcases em (f a = k) with h | h
      · simp [h]
      · simp [h]
    · rcases em (f a = k) with h | h
      · simp [h, hk]
      · simp [h]

variable {room : GameRoom}

/-- The units that set out, edge by edge. -/
theorem Sound.departing_perm (h : Sound room) (s : PlayerSide) :
    (room.edges.entries.flatMap fun kvp => departing room.reservedMoves s kvp.1).Perm
      ((room.reservedMoves.filter (·.1 = s)).flatMap fun m =>
        List.replicate m.2.count.toNat (.on m.2.fromNode)) := by
  have hboxes := flatMap_filter_perm (fun m : SideMove => m.2.edgeId)
    (room.reservedMoves.filter (·.1 = s)) room.edges.nodup
  have hall : ((room.reservedMoves.filter (·.1 = s)).filter fun m =>
      m.2.edgeId ∈ room.edges.entries.map Prod.fst) = room.reservedMoves.filter (·.1 = s) := by
    refine List.filter_eq_self.mpr fun m hm => ?_
    obtain ⟨e, he⟩ := h.payable.path m (List.mem_filter.mp hm).1
    exact decide_eq_true (List.mem_map.mpr ⟨_, Dict.mem_iff_get?.mpr he, rfl⟩)
  rw [hall, List.flatMap_map] at hboxes
  refine List.Perm.trans (List.Perm.of_eq ?_) (hboxes.flatMap_right _)
  rw [List.flatMap_assoc]
  refine List.flatMap_congr fun kvp _ => ?_
  rw [departing, List.filter_filter]
  simp only [Bool.decide_and, Bool.and_comm]

/-- Where the units arrive, as the list of the arrivals says. -/
theorem arrivedPlaces_perm (room : GameRoom) (s : PlayerSide) :
    (room.edges.entries.flatMap fun kvp =>
        arrivedPlaces room.reservedMoves kvp.2 s (groupsAt room.reservedMoves kvp.2 1)) =
      ((arrivalsAt room.reservedMoves room).filter (·.side = s)).flatMap fun a =>
        List.replicate a.count.toNat (.on a.destination) := by
  rw [arrivalsAt, List.filter_flatMap, List.flatMap_assoc, Dict.values, List.flatMap_map]
  refine List.flatMap_congr fun kvp _ => ?_
  rw [arrivedPlaces, groupsOf, List.filter_map, List.flatMap_map]
  generalize groupsAt room.reservedMoves kvp.2 1 = gs
  induction gs with
  | nil => rfl
  | cons g gs ih =>
    -- kept by both filters, or dropped by one of them
    by_cases hside : g.side = s <;> by_cases hlook : LooksMet room.reservedMoves kvp.2 g
    · simpa [hside, hlook] using ih
    · simpa [hside, hlook, TravelingGroup.arrivalOn] using ih
    · simpa [hside, hlook] using ih
    · simpa [hside, hlook, TravelingGroup.arrivalOn] using ih

/-- The units on the nodes before a round: those that stay, and those that set out. -/
theorem Sound.nodes_before (h : Sound room) (s : PlayerSide) :
    (nodePlaces room.nodes s).Perm (staying room.nodes room.reservedMoves s ++
      room.edges.entries.flatMap fun kvp => departing room.reservedMoves s kvp.1) := by
  refine List.Perm.trans ?_ ((h.departing_perm s).symm.append_left _)
  have hmoves : ∀ m ∈ room.reservedMoves.filter (·.1 = s), 0 ≤ m.2.count := fun m hm => by
    have := h.payable.pos m (List.mem_filter.mp hm).1
    omega
  refine perm_of_count_on (fun n => ?_) fun id d k => ?_
  · have hbefore := count_nodes (f := fun _ node => node.getMobileCount s)
      (fun kvp (hkvp : kvp ∈ room.nodes.entries) => h.mobile _ _ s (Dict.mem_iff_get?.mp hkvp)) n
    have hstay := count_nodes
      (f := fun id node => node.getMobileCount s - outgoing room.reservedMoves s id)
      (fun kvp (hkvp : kvp ∈ room.nodes.entries) => by
        have := h.payable.solvent kvp.1 kvp.2 s (Dict.mem_iff_get?.mp hkvp)
        omega) n
    have hout := count_on (g := fun m : SideMove => m.2.fromNode) hmoves n
    rw [List.filter_filter] at hout
    have houtgoing : (((room.reservedMoves.filter fun m =>
        decide (m.2.fromNode = n) && decide (m.1 = s)).map fun m => m.2.count).sum) =
        outgoing room.reservedMoves s n := by
      rw [outgoing]
      simp only [Bool.decide_and, Bool.and_comm]
    rw [houtgoing] at hout
    rw [List.count_append]
    refine Nat.cast_injective (R := Int) ?_
    rw [Nat.cast_add, staying, hstay, hout]
    refine hbefore.trans ?_
    rcases hn : room.nodes.get? n with _ | node
    · -- no move leaves a node that is not there
      have hnone : outgoing room.reservedMoves s n = 0 := by
        rw [outgoing]
        have hnil : (room.reservedMoves.filter fun m => m.1 = s ∧ m.2.fromNode = n) = [] := by
          refine List.filter_eq_nil_iff.mpr fun m hm hto => ?_
          obtain ⟨-, rfl⟩ := of_decide_eq_true hto
          obtain ⟨node, hnode⟩ := h.payable.source m hm
          rw [hn] at hnode
          cases hnode
        rw [hnil]
        rfl
      rw [hnone]
      rfl
    · simp only [Option.map_some, Option.getD_some]
      omega
  · rw [List.count_append, staying, nodePlaces]
    exact ⟨count_on_towards (fun kvp : NodeId × Node => kvp.2.getMobileCount s) Prod.fst _ id d k,
      by
        rw [count_on_towards (fun kvp : NodeId × Node =>
            kvp.2.getMobileCount s - outgoing room.reservedMoves s kvp.1) Prod.fst,
          count_on_towards (fun m : SideMove => m.2.count) fun m => m.2.fromNode]⟩

/-- The units on the nodes after a round: those that have stayed, and those that have arrived. -/
theorem Sound.nodes_after (h : Sound room) (hres : Resolvable room) (deadline : Time)
    (s : PlayerSide) :
    (nodePlaces (sourceOrder.resolved room deadline).nodes s).Perm
      (staying room.nodes room.reservedMoves s ++ room.edges.entries.flatMap fun kvp =>
        arrivedPlaces room.reservedMoves kvp.2 s (groupsAt room.reservedMoves kvp.2 1)) := by
  rw [arrivedPlaces_perm, ← h.deliveries_source]
  have hdeliver := hres.deliverable sourceOrder
  have harrive : ∀ a ∈ (sourceOrder.deliveries room).filter (·.side = s), 0 ≤ a.count :=
    fun a ha => by
      have := (hdeliver a (List.mem_filter.mp ha).1).1
      omega
  have hmobile : ∀ id n', (sourceOrder.resolved room deadline).nodes.get? id = some n' →
      ∃ n, room.nodes.get? id = some n ∧ n'.getMobileCount s = n.getMobileCount s -
        outgoing room.reservedMoves s id + incoming (sourceOrder.deliveries room) s id := by
    intro id n' hn'
    have hget := get?_resolved sourceOrder room deadline id
    rw [hn'] at hget
    obtain ⟨n, hn, -⟩ := Option.map_eq_some_iff.mp hget.symm
    exact ⟨n, hn, HexWar.mobile_resolved deadline hn hn' s⟩
  have hincoming : ∀ id, 0 ≤ incoming (sourceOrder.deliveries room) s id := fun id => by
    rw [incoming_eq]
    refine passing_nonneg (fun p hp => ?_) s
    obtain ⟨a, ha, rfl⟩ := List.mem_map.mp hp
    exact (hdeliver a (List.mem_filter.mp ha).1).1
  refine perm_of_count_on (fun n => ?_) fun id d k => ?_
  · have hafter := count_nodes (f := fun _ node => node.getMobileCount s)
      (fun kvp (hkvp : kvp ∈ (sourceOrder.resolved room deadline).nodes.entries) => by
        obtain ⟨node, hnode, heq⟩ := hmobile kvp.1 kvp.2 (Dict.mem_iff_get?.mp hkvp)
        have := h.payable.solvent kvp.1 node s hnode
        have := hincoming kvp.1
        omega) n
    have hstay := count_nodes
      (f := fun id node => node.getMobileCount s - outgoing room.reservedMoves s id)
      (fun kvp (hkvp : kvp ∈ room.nodes.entries) => by
        have := h.payable.solvent kvp.1 kvp.2 s (Dict.mem_iff_get?.mp hkvp)
        omega) n
    have hin := count_on (g := fun a : ArrivalInfo => a.destination) harrive n
    rw [List.filter_filter] at hin
    have hsum : ((((sourceOrder.deliveries room).filter fun a =>
        decide (a.destination = n) && decide (a.side = s)).map fun a => a.count).sum) =
        incoming (sourceOrder.deliveries room) s n := by
      rw [incoming]
      simp only [Bool.decide_and, Bool.and_comm]
    rw [hsum] at hin
    rw [List.count_append]
    refine Nat.cast_injective (R := Int) ?_
    rw [Nat.cast_add, staying, hstay, hin]
    refine hafter.trans ?_
    have hget := get?_resolved sourceOrder room deadline n
    rcases hn : room.nodes.get? n with _ | node
    · -- nothing is delivered to a node that is not there
      have hnone : incoming (sourceOrder.deliveries room) s n = 0 := by
        rw [incoming]
        have hnil : ((sourceOrder.deliveries room).filter fun a =>
            a.side = s ∧ a.destination = n) = [] := by
          refine List.filter_eq_nil_iff.mpr fun a ha hto => ?_
          obtain ⟨-, rfl⟩ := of_decide_eq_true hto
          obtain ⟨-, node, hnode⟩ := hdeliver a ha
          have hemptied := get?_departures (sourceOrder.executed room) a.destination room.nodes
          rw [hn] at hemptied
          rw [ProcessingOrder.emptiedNodes, hemptied] at hnode
          cases hnode
        rw [hnil]
        rfl
      rw [hn] at hget
      rw [hget, hnone]
      rfl
    · rw [hn] at hget
      obtain ⟨node', hnode', heq⟩ := hmobile n _ hget
      cases hn.symm.trans hnode'
      rw [hget]
      exact heq
  · rw [List.count_append, staying, nodePlaces]
    exact ⟨count_on_towards (fun kvp : NodeId × Node => kvp.2.getMobileCount s) Prod.fst _ id d k,
      by
        rw [count_on_towards (fun kvp : NodeId × Node =>
            kvp.2.getMobileCount s - outgoing room.reservedMoves s kvp.1) Prod.fst,
          count_on_towards (fun a : ArrivalInfo => a.count) fun a => a.destination]⟩

/-! ## The calls

Only a round and a retreat move anything.  A round is put together from its edges and the units that
stay; a retreat changes one edge. -/

/-- An edge of the room is an edge of the map. -/
theorem OnMap.path (h : OnMap room) {e : Edge} (he : room.edges.get? id = some e) :
    ∃ e₀, initialEdges.get? id = some e₀ ∧ e.distance = e₀.distance := by
  have hshape := h.edge_shape he
  rw [mapEdges, Dict.get?_mapValues] at hshape
  obtain ⟨e₀, he₀, hsame⟩ := Option.map_eq_some_iff.mp hshape
  exact ⟨e₀, he₀, congrArg (·.2.2.2) hsame.symm⟩

/-- The units on an edge after a round. -/
theorem Sound.places_advanced (h : Sound room) {e : Edge} (he : room.edges.get? id = some e)
    (moves : List SideMove) (s : PlayerSide) :
    (e.loadAll (HexWar.loads moves id)).advanceRound.2.places id s =
      placesOf s id 1 (groupsAt moves e 2) := by
  have hrange := h.map.distance he
  have htransit := (h.edges id e he).inTransit.loadAll hrange.1 (HexWar.loads moves id)
  have hdistance : (e.loadAll (HexWar.loads moves id)).advanceRound.2.distance = e.distance :=
    (Edge.loadAll_frame (HexWar.loads moves id) e).2.2.2
  have hthree : e.bucket (2 + 1) ++
      (if (2 + 1 : Int) = e.distance.roundsRequired then HexWar.loads moves id else []) =
      [] := by
    rw [if_neg (by omega), List.append_nil, List.eq_nil_iff_forall_not_mem]
    intro g hg
    have := (h.edges id e he).inTransit.of_mem hg
    omega
  rw [Edge.places_eq htransit.advanceRound (hdistance ▸ hrange.2), Edge.bucket_advanceRound,
    Edge.bucket_advanceRound, if_pos (by decide), if_pos (by decide), Edge.bucket_loadAll,
    Edge.bucket_loadAll]
  rw [hthree, placesOf_nil, List.append_nil, groupsAt, h.map.keyed _ _ he]
  rfl

/-- **A round** takes every unit over. -/
theorem Sound.goesOver_round (h : Sound room) (hres : Resolvable room) (deadline : Time)
    (s : PlayerSide) :
    GoesOver Marches (room.unitPlaces s) ((sourceOrder.resolved room deadline).unitPlaces s) := by
  have hstay : GoesOver Marches (staying room.nodes room.reservedMoves s)
      (staying room.nodes room.reservedMoves s) := by
    refine GoesOver.stay fun p hp => ?_
    obtain ⟨kvp, -, hp⟩ := List.mem_flatMap.mp hp
    rw [List.eq_of_mem_replicate hp]
    exact .waits _
  have hedges : GoesOver Marches
      (room.edges.entries.flatMap fun kvp => departing room.reservedMoves s kvp.1 ++
        kvp.2.places kvp.1 s)
      (room.edges.entries.flatMap fun kvp =>
        arrivedPlaces room.reservedMoves kvp.2 s (groupsAt room.reservedMoves kvp.2 1) ++
          placesOf s kvp.1 1 (groupsAt room.reservedMoves kvp.2 2)) := by
    refine GoesOver.flatMap fun kvp hkvp => ?_
    have he := Dict.mem_iff_get?.mp hkvp
    obtain ⟨e₀, path, hdistance⟩ := h.map.path he
    have hrange := h.map.distance he
    rw [Edge.places_eq (h.edges _ _ he).inTransit hrange.2]
    exact goesOver_edge room.reservedMoves kvp.2 (h.map.keyed _ _ he) path hdistance
      (hdistance ▸ hrange)
  -- before and after, the units of a node are sorted anew: first those that stay, then edge by edge
  refine (hstay.append hedges).perm ?_ ?_
  · have hsplit := List.flatMap_append_perm room.edges.entries
      (fun kvp => departing room.reservedMoves s kvp.1) fun kvp => kvp.2.places kvp.1 s
    refine (hsplit.symm.append_left _).trans ?_
    rw [← List.append_assoc]
    exact (h.nodes_before s).symm.append_right _
  · have hsplit := List.flatMap_append_perm room.edges.entries
      (fun kvp => arrivedPlaces room.reservedMoves kvp.2 s (groupsAt room.reservedMoves kvp.2 1))
      fun kvp => placesOf s kvp.1 1 (groupsAt room.reservedMoves kvp.2 2)
    refine (hsplit.symm.append_left _).trans ?_
    rw [← List.append_assoc]
    refine ((h.nodes_after hres deadline s).symm.append_right _).trans ?_
    refine List.Perm.append_left _ (List.Perm.of_eq ?_)
    rw [(resolved_frame sourceOrder room deadline).edges, ProcessingOrder.advancedEdges,
      ProcessingOrder.loadedEdges, loaded_eq _ h.map.keyed]
    show _ = ((room.edges.entries.map _).map _).flatMap _
    rw [List.map_map, List.flatMap_map]
    refine List.flatMap_congr fun kvp hkvp => ?_
    have he := Dict.mem_iff_get?.mp hkvp
    have hadvanced := h.places_advanced he room.reservedMoves s
    have hkey : kvp.2.id = kvp.1 := h.map.keyed _ _ he
    rw [← hadvanced]
    show _ = (kvp.2.loadAll (HexWar.loads room.reservedMoves kvp.2.id)).advanceRound.2.places kvp.1 s
    rw [hkey]

/-- The groups of a side on an edge make its places. -/
theorem placesOf_congr {k : Int} {gs gs' : List TravelingGroup} (h : groupsOf s gs = groupsOf s gs') :
    placesOf s id k gs = placesOf s id k gs' := by
  rw [placesOf, h, placesOf]

/-- **A retreat** turns round the recorded group, and loses what else its side has on the edge. -/
theorem Meeting.goesOver_retreat {p : PendingEncounter} {e e₀ : Edge} {side : PlayerSide}
    (hmeeting : Meeting p e) (he : EdgeSound e) (hund : p.hasDecided side = false)
    (hside : (p.groupOf side).side = side) (hid : e.id = id)
    (path : initialEdges.get? id = some e₀) (hdistance : e.distance = e₀.distance) (s : PlayerSide) :
    GoesOver (TurnsBack id) (e.places id s) ((edgeAfter e p side .retreat).places id s) := by
  have hd := hmeeting.distance
  have htransit : (edgeAfter e p side .retreat).InTransit :=
    (he.inTransit.removeTravelingGroup side).startTravel (by show 1 ≤ e.distance.roundsRequired; omega)
      side _ _
  have hlong : (edgeAfter e p side .retreat).distance.roundsRequired ≤ 2 := Int.le_of_eq hd
  rw [Edge.places_eq he.inTransit (Int.le_of_eq hd), Edge.places_eq htransit hlong]
  rcases em (s = side) with rfl | hother
  · -- the recorded group, the others of its side, and nothing at the start of the edge
    have hfresh : placesOf s id 2 (e.bucket 2) = [] := by
      rw [placesOf, hmeeting.groupsOf_fresh hund]
      rfl
    have hleft : placesOf s id 1 ((edgeAfter e p s .retreat).bucket 1) = [] := by
      rw [placesOf, groupsOf_retreat, if_pos rfl, if_neg fun h => by omega]
      rfl
    have hback : placesOf s id 2 ((edgeAfter e p s .retreat).bucket 2) =
        List.replicate (p.groupOf s).unitCount.toNat
          (.towards id (oppositeEnd id (p.groupOf s).destination) 2) := by
      rw [placesOf, groupsOf_retreat, if_pos rfl, if_pos ⟨hd.symm, rfl⟩, hid]
      exact List.append_nil _
    rw [hfresh, hleft, hback, List.append_nil, List.nil_append]
    have hmem : p.groupOf s ∈ groupsOf s (e.bucket 1) :=
      mem_groupsOf.mpr ⟨hmeeting.present s hund, hside⟩
    have hsplit := (List.perm_cons_erase hmem).flatMap_right fun g =>
      List.replicate g.unitCount.toNat (Place.towards id g.destination 1)
    rw [List.flatMap_cons] at hsplit
    have hturn := TurnsBack.turns (k := 1) (p.groupOf s).destination path
    rw [← hdistance, hd] at hturn
    exact ((GoesOver.replicate hturn (p.groupOf s).unitCount.toNat).append (GoesOver.lost _)).perm
      hsplit.symm (List.Perm.of_eq (List.append_nil _))
  · -- the other side goes on as before
    have hsame : ∀ k, placesOf s id k ((edgeAfter e p side .retreat).bucket k) =
        placesOf s id k (e.bucket k) := fun k => placesOf_congr (by
      rw [groupsOf_retreat, if_neg hother, if_neg fun h => hother h.2, List.append_nil])
    rw [hsame, hsame]
    exact GoesOver.stay fun p _ => .stays p

/-- **One call** takes the units of both sides over. -/
theorem InSession.goesOver (h : InSession room) {call : Call} (hlegal : room.SessionLegal call)
    (hfull : room.playerCount ≥ 2) (s : PlayerSide) :
    GoesOver (Hops call) (room.unitPlaces s) ((room.next call).unitPlaces s) := by
  have hs := h.sound
  have hsame : ∀ {hop : Place → Place → Prop} {room' : GameRoom}, (∀ p, hop p p) →
      room'.unitPlaces s = room.unitPlaces s →
      GoesOver hop (room.unitPlaces s) (room'.unitPlaces s) := fun hstay heq => by
    rw [heq]
    exact GoesOver.stay fun p _ => hstay p
  cases call with
  | addPlayer playerId deadline now =>
    have href : room.joinRefusal playerId = some (.domain "Room is full") := if_pos hfull
    rw [next_addPlayer hs.map, href]
    exact hsame (fun _ => rfl) rfl
  | moveUnits side command =>
    rw [next_moveUnits]
    refine hsame (fun _ => rfl) ?_
    split <;> rfl
  | resolveEncounter edgeId side decision =>
    rw [next_resolveEncounter]
    cases decision with
    | advance =>
      refine hsame (fun _ => rfl) ?_
      split
      · rfl
      · rw [decideEncounter]
        split <;> rfl
    | retreat =>
      rcases hr : room.decisionRefusal edgeId side .retreat with _ | err
      · obtain ⟨-, p, e, hp, hund, he, -⟩ := decisionRefusal_none hr
        obtain ⟨hmem, rfl⟩ := encounterOn_mem hp
        obtain ⟨e₀, path, hdistance⟩ := hs.map.path he
        have hid : e.id = p.edgeId := hs.map.keyed _ _ he
        rw [Option.isSome_none, if_neg (by decide), decideEncounter_eq hp he]
        have hedges : (room.decideOn e p p.edgeId side .retreat).edges.entries =
            room.edges.entries.map fun kvp =>
              if kvp.1 = p.edgeId then (p.edgeId, edgeAfter e p side .retreat) else kvp := by
          show (room.edges.set e.id (edgeAfter e p side .retreat)).entries = _
          rw [hid]
          exact Dict.entries_set he
        rw [unitPlaces, unitPlaces, hedges, List.flatMap_map]
        refine GoesOver.append (GoesOver.stay fun q _ => .stays q) (GoesOver.flatMap fun kvp hkvp => ?_)
        rcases em (kvp.1 = p.edgeId) with hkey | hkey
        · rw [if_pos hkey]
          have hget := Dict.mem_iff_get?.mp hkvp
          rw [hkey, he] at hget
          cases hget
          rw [hkey]
          exact (h.orderly.meeting p hmem _ he).goesOver_retreat (hs.edges _ _ he) hund
            ((hs.encounters p hmem).side side) hid path hdistance s
        -- the other edges are not touched
        · rw [if_neg hkey]
          exact GoesOver.stay fun q _ => .stays q
      · rw [Option.isSome_some, if_pos rfl]
        exact hsame .stays rfl
  | resolveRound deadline now =>
    have hphase := (h.orderly.ready hs hlegal).1
    rw [next_resolveRound hs hphase]
    exact hs.goesOver_round (hs.resolvable hphase) _ s
  | forceGameOver winner reason => exact hsame (fun _ => rfl) rfl

/-! ## Every run

There are as many places as units (`Sound.length_unitPlaces`), so where the totals stay no trail
ends. -/

/-- As many places as the counts say. -/
theorem length_replicates {κ ν : Type} {f : ν → Int} {g : κ × ν → Place} :
    ∀ {l : List (κ × ν)}, (∀ kvp ∈ l, 0 ≤ f kvp.2) →
      (((l.flatMap fun kvp => List.replicate (f kvp.2).toNat (g kvp)).length : Nat) : Int) = sumBy f l
  | [], _ => rfl
  | kvp :: l, hpos => by
    have ih := length_replicates (g := g) fun kvp' h => hpos kvp' (List.mem_cons_of_mem _ h)
    have hhead := hpos kvp List.mem_cons_self
    rw [List.flatMap_cons, List.length_append, List.length_replicate, Nat.cast_add, ih, sumBy_cons]
    omega

/-- As many places as units in the groups. -/
theorem length_placesOf {k : Int} {gs : List TravelingGroup} (h : AllPositive gs) :
    (((placesOf s id k gs).length : Nat) : Int) = unitsIn s gs := by
  induction gs with
  | nil => rfl
  | cons g gs ih =>
    have hg := h g List.mem_cons_self
    have hrest := ih fun g' hg' => h g' (List.mem_cons_of_mem _ hg')
    rw [unitsIn_cons, ← hrest]
    -- only the side's own groups have places in its list
    by_cases hside : g.side = s
    · have hcons : placesOf s id k (g :: gs) =
          List.replicate g.unitCount.toNat (.towards id g.destination k) ++ placesOf s id k gs := by
        rw [placesOf, groupsOf, List.filter_cons_of_pos (by simpa using hside), List.flatMap_cons]
        rfl
      rw [hcons, List.length_append, List.length_replicate, if_pos hside, Nat.cast_add]
      omega
    · have hcons : placesOf s id k (g :: gs) = placesOf s id k gs := by
        rw [placesOf, groupsOf, List.filter_cons_of_neg (by simpa using hside)]
        rfl
      rw [hcons, if_neg hside]
      omega

/-- There are as many places as the side has units. -/
theorem Sound.length_unitPlaces (h : Sound room) (s : PlayerSide) :
    (((room.unitPlaces s).length : Nat) : Int) = room.total s := by
  have hnodes : (((nodePlaces room.nodes s).length : Nat) : Int) =
      room.nodes.sum (·.getMobileCount s) :=
    length_replicates (f := fun n : Node => n.getMobileCount s) fun kvp hkvp => h.mobile _ _ s
      (Dict.mem_iff_get?.mp hkvp)
  have hedge : ∀ kvp ∈ room.edges.entries,
      (((kvp.2.places kvp.1 s).length : Nat) : Int) = kvp.2.units s := by
    intro kvp hkvp
    have hsound := h.edges _ _ (Dict.mem_iff_get?.mp hkvp)
    have hpos : ∀ b ∈ kvp.2.travelingUnits.entries, AllPositive b.2 := fun b hb g hg =>
      (hsound.groups b.1 g (Edge.mem_bucket.mpr ⟨b.2, hb, hg⟩)).pos
    show (((kvp.2.travelingUnits.entries.flatMap _).length : Nat) : Int) = sumBy (unitsIn s) _
    generalize kvp.2.travelingUnits.entries = buckets at hpos
    induction buckets with
    | nil => rfl
    | cons b buckets ih =>
      have hb : (((placesOf s kvp.1 b.1 b.2).length : Nat) : Int) = unitsIn s b.2 :=
        length_placesOf (hpos b List.mem_cons_self)
      have hrest := ih fun b' hb' => hpos b' (List.mem_cons_of_mem _ hb')
      rw [List.flatMap_cons, List.length_append, Nat.cast_add, hb, hrest, sumBy_cons]
  have hedges : (((room.edges.entries.flatMap fun kvp => kvp.2.places kvp.1 s).length : Nat) : Int) =
      room.edges.sum (·.units s) := by
    rw [Dict.sum]
    generalize room.edges.entries = entries at hedge
    induction entries with
    | nil => rfl
    | cons kvp entries ih =>
      have hrest := ih fun kvp' h' => hedge kvp' (List.mem_cons_of_mem _ h')
      rw [List.flatMap_cons, List.length_append, Nat.cast_add, hedge kvp List.mem_cons_self, hrest,
        sumBy_cons]
  rw [unitPlaces, List.length_append, Nat.cast_add, hnodes, hedges, total]

/-- A room in which both players are stays one. -/
theorem InSession.full_next (h : InSession room) (hfull : room.playerCount ≥ 2) (call : Call) :
    (room.next call).playerCount ≥ 2 := by
  rcases players_next h.sound call with hsame | ⟨playerId, deadline, now, rfl, hjoin⟩
  · rw [playerCount_congr hsame]
    exact hfull
  · have href : room.joinRefusal playerId = some (.domain "Room is full") := if_pos hfull
    rw [href] at hjoin
    cases hjoin

/-- **Every unit can be followed.**  From any state of a session on in which both players are there,
    there is one trail for each unit of a side: it takes one hop with every call, or ends because the
    unit is lost, and after any number of calls the trails have reached exactly the places where the
    room has units of the side.  If every call keeps the units, all trails go on to the end. -/
theorem units_followed {roomId : String} (hreach : (session roomId).Reachable room)
    (hfull : room.playerCount ≥ 2) {calls : List Call}
    (hrun : (session roomId).Steps (session roomId).Legal room calls) (s : PlayerSide) :
    ∃ trails : List (List Place),
      (∀ t ∈ trails, (session roomId).Walk (fun _ => Hops) room calls t) ∧
      (∀ i ≤ calls.length,
        (reached trails i).Perm (((session roomId).after room (calls.take i)).unitPlaces s)) ∧
      ((session roomId).Steps KeepsUnits room calls → ∀ t ∈ trails, t.length = calls.length + 1) := by
  have hin := inSession_of_reachable hreach
  have hstep : ∀ r c, InSession r ∧ r.playerCount ≥ 2 → r.SessionLegal c →
      (InSession (r.next c) ∧ (r.next c).playerCount ≥ 2) ∧
        GoesOver (Hops c) (r.unitPlaces s) ((r.next c).unitPlaces s) := fun r c hr hlegal =>
    ⟨⟨hr.1.next hlegal, hr.1.full_next hr.2 c⟩, hr.1.goesOver hlegal hr.2 s⟩
  obtain ⟨trails, hwalks, hreached⟩ :=
    Machine.exists_trails (M := session roomId) hstep ⟨hin, hfull⟩ hrun
  refine ⟨trails, hwalks, hreached, fun hkeeps t ht => ?_⟩
  -- the totals stay, so as many trails reach the end as there are
  obtain ⟨hend, htotal⟩ : InSession ((session roomId).after room calls) ∧
      ((session roomId).after room calls).total s = room.total s := by
    have hall := Machine.after_of_invariant (M := session roomId)
      (C := fun r c => r.SessionLegal c ∧ KeepsUnits r c)
      (I := fun r => (InSession r ∧ r.playerCount ≥ 2) ∧ r.total s = room.total s)
      (fun r c hr hc => ⟨(hstep r c hr.1 hc.1).1,
        ((hr.1.1.total_next hc.1 hr.1.2).mpr hc.2 s).trans hr.2⟩)
      ⟨⟨hin, hfull⟩, rfl⟩ (Machine.Steps.and hrun hkeeps)
    exact ⟨hall.1.1, hall.2⟩
  have hlast := hreached calls.length (Nat.le_refl _)
  rw [List.take_length] at hlast
  have hfirst := (hreached 0 (Nat.zero_le _)).length_eq
  rw [length_reached_zero fun t ht => (hwalks t ht).ne_nil] at hfirst
  have hbefore := hin.sound.length_unitPlaces s
  have hafter := hend.sound.length_unitPlaces s
  have hmany : trails.length ≤ (reached trails calls.length).length := by
    have hcount := hlast.length_eq
    change trails.length = (room.unitPlaces s).length at hfirst
    omega
  have hlong := lt_length_of_reached hmany t ht
  have hshort := (hwalks t ht).length_le
  omega

/-- The room in which both players are and nobody has moved. -/
def openedRoom : GameRoom := (session "room").after (session "room").start (lookAlikeCalls.take 2)

/-- Side A sends one unit after the other to the same node.  The first is lost when the second meets
    the enemy, and the trails of the other two go on. -/
theorem units_followed_lookAlike :
    openedRoom.unitPlaces .a = List.replicate 3 (.on ⟨1⟩) ∧
      ∃ trails : List (List Place),
        (∀ t ∈ trails, (session "room").Walk (fun _ => Hops) openedRoom (lookAlikeCalls.drop 2) t) ∧
        (reached trails 0).Perm (List.replicate 3 (.on ⟨1⟩)) ∧
        (reached trails 5).Perm [.on ⟨1⟩, .towards (EdgeId.of ⟨1⟩ ⟨5⟩) ⟨5⟩ 1] := by
  have hreach : (session "room").Reachable openedRoom :=
    ⟨lookAlikeCalls.take 2, by decide +kernel, rfl⟩
  have hrun : (session "room").Steps (session "room").Legal openedRoom (lookAlikeCalls.drop 2) := by
    decide +kernel
  have hplaces : openedRoom.unitPlaces .a = List.replicate 3 (.on ⟨1⟩) := by decide +kernel
  have hlast : ((session "room").after openedRoom ((lookAlikeCalls.drop 2).take 5)).unitPlaces .a =
      [.on ⟨1⟩, .towards (EdgeId.of ⟨1⟩ ⟨5⟩) ⟨5⟩ 1] := by decide +kernel
  obtain ⟨trails, hwalks, hreached, -⟩ := units_followed hreach (by decide +kernel) hrun .a
  refine ⟨hplaces, trails, hwalks, ?_, ?_⟩
  · rw [← hplaces]
    exact hreached 0 (by decide)
  · rw [← hlast]
    exact hreached 5 (by decide)

end HexWar
