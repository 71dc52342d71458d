/-
  The arrivals of a round, from the room before it.

  When a round is resolved, an edge holds the groups that were on it and the reserved moves that
  start on it (`groupsAt`).  Those with one round left arrive; among those with more, the first group
  of each side makes an encounter.  An arrival is held back if it EQUALS the arrival that a group of
  an encounter on its edge would make: it is compared by value, not by identity, so a group that
  merely looks like one that met is held back as well (`LooksMet`).

  `arrivalsAt` lists the arrivals that are delivered, in the order of the source.  In another order
  of the moves the first groups of a bucket may be others, so it depends on the batch; in another
  order of the arrivals it is only permuted (`Sound.deliveries_perm`).
-/
import HexWar.Domain.Encounters

namespace HexWar

open Lib Lib.Action GameRoom

variable {room : GameRoom} (o : ProcessingOrder)

/-! ## The groups of a round -/

/-- The groups of an edge with `k` rounds left when a batch of moves has started: those that were
    on it, and the moves that start on it. -/
def groupsAt (moves : List SideMove) (e : Edge) (k : Int) : List TravelingGroup :=
  e.bucket k ++ if k = e.distance.roundsRequired then loads moves e.id else []

/-- The numbers of rounds left that an edge has groups for. -/
def Edge.keys (e : Edge) : List Int := e.distance.roundsRequired :: e.travelingUnits.entries.map (·.1)

/-- The groups that meet with `k` rounds left: the first of each side. -/
def meetingAt (moves : List SideMove) (e : Edge) (k : Int) : List TravelingGroup :=
  match Edge.firstOf .a (groupsAt moves e k), Edge.firstOf .b (groupsAt moves e k) with
  | some gA, some gB => [gA, gB]
  | _, _ => []

/-- The group looks like one that meets an enemy on the edge. -/
def LooksMet (moves : List SideMove) (e : Edge) (g : TravelingGroup) : Prop :=
  ∃ k ∈ e.keys, 2 ≤ k ∧ g ∈ meetingAt moves e k

instance (moves : List SideMove) (e : Edge) (g : TravelingGroup) : Decidable (LooksMet moves e g) :=
  List.decidableBEx _ _

/-- The arrival of a group at the end of an edge. -/
def TravelingGroup.arrivalOn (g : TravelingGroup) (id : EdgeId) : ArrivalInfo :=
  ⟨g.destination, g.side, g.unitCount, id⟩

/-- The arrivals that are delivered, in the order of the source. -/
def arrivalsAt (moves : List SideMove) (room : GameRoom) : List ArrivalInfo :=
  room.edges.values.flatMap fun e =>
    ((groupsAt moves e 1).filter fun g => ¬ LooksMet moves e g).map (·.arrivalOn e.id)

theorem arrivalOn_inj {g g' : TravelingGroup} {id id' : EdgeId}
    (h : g.arrivalOn id = g'.arrivalOn id') : g = g' ∧ id = id' := by
  rcases g with ⟨s, c, d⟩
  rcases g' with ⟨s', c', d'⟩
  injection h with hd hs hc hid
  cases hd; cases hs; cases hc
  exact ⟨rfl, hid⟩

theorem mem_meetingAt {moves : List SideMove} {e : Edge} {k : Int} {g : TravelingGroup} :
    g ∈ meetingAt moves e k ↔ ∃ gA gB, Edge.firstOf .a (groupsAt moves e k) = some gA ∧
      Edge.firstOf .b (groupsAt moves e k) = some gB ∧ (g = gA ∨ g = gB) := by
  rw [meetingAt]
  rcases Edge.firstOf .a (groupsAt moves e k) with _ | gA <;>
    rcases Edge.firstOf .b (groupsAt moves e k) with _ | gB <;> simp

/-- An edge with groups for a number of rounds has that number among its keys. -/
theorem mem_keys {moves : List SideMove} {e : Edge} {k : Int} {g : TravelingGroup}
    (hg : g ∈ groupsAt moves e k) : k ∈ e.keys := by
  rcases List.mem_append.mp hg with hold | hnew
  · obtain ⟨gs, hmem, -⟩ := Edge.mem_bucket.mp hold
    exact List.mem_cons_of_mem _ (List.mem_map.mpr ⟨_, hmem, rfl⟩)
  · split at hnew
    · next hk => exact hk ▸ List.mem_cons_self
    · cases hnew

theorem looksMet_iff {moves : List SideMove} {e : Edge} {g : TravelingGroup} :
    LooksMet moves e g ↔ ∃ k gA gB, 2 ≤ k ∧ Edge.firstOf .a (groupsAt moves e k) = some gA ∧
      Edge.firstOf .b (groupsAt moves e k) = some gB ∧ (g = gA ∨ g = gB) := by
  constructor
  · rintro ⟨k, -, hk, hg⟩
    obtain ⟨gA, gB, hA, hB, heq⟩ := mem_meetingAt.mp hg
    exact ⟨k, gA, gB, hk, hA, hB, heq⟩
  · rintro ⟨k, gA, gB, hk, hA, hB, heq⟩
    exact ⟨k, mem_keys (Edge.firstOf_mem hA).1, hk, mem_meetingAt.mpr ⟨gA, gB, hA, hB, heq⟩⟩

/-! ## The arriving groups -/

/-- The departure loop loads every edge with its own share of the batch. -/
theorem loaded_eq (moves : List SideMove) {edges : Dict EdgeId Edge} (hk : Keyed edges) :
    moves.foldl loadEdge edges = edges.mapValues fun e => e.loadAll (loads moves e.id) := by
  refine Dict.eq_of_keys ?_ fun k => ?_
  · rw [← Dict.keys_mapValues edgeShape, loaded_shape moves hk, Dict.keys_mapValues,
      Dict.keys_mapValues]
  · rw [get?_loaded moves k hk, Dict.get?_mapValues]
    rcases he : edges.get? k with _ | e
    · rfl
    · rw [Option.map_some, Option.map_some, hk _ _ he]

/-- The groups that arrive are those with one round left. -/
theorem Sound.arrivingGroups_eq (h : Sound room) :
    o.arrivingGroups room = room.edges.values.flatMap fun e =>
      (groupsAt (o.executed room) e 1).map (·.arrivalOn e.id) := by
  rw [ProcessingOrder.arrivingGroups, ProcessingOrder.loadedEdges, loaded_eq _ h.map.keyed,
    Dict.values_mapValues, List.flatMap_map]
  refine List.flatMap_congr fun e he => ?_
  obtain ⟨id, hid⟩ := Dict.mem_values.mp he
  have htransit := (h.edges id e hid).inTransit.loadAll (h.map.distance hid).1
    (HexWar.loads (o.executed room) e.id)
  have hkey : (e.loadAll (HexWar.loads (o.executed room) e.id)).id = e.id :=
    (Edge.loadAll_frame _ _).1
  rw [edgeArrivals, Edge.arrived_eq htransit, Edge.bucket_loadAll, hkey]
  rfl

/-- Every group of a round is sound. -/
theorem Sound.groupSound (h : Sound room) {id : EdgeId} {e : Edge} (he : room.edges.get? id = some e)
    {k : Int} {g : TravelingGroup} (hg : g ∈ groupsAt (o.executed room) e k) : GroupSound id g := by
  have hid : e.id = id := h.map.keyed _ _ he
  rcases List.mem_append.mp hg with hold | hnew
  · exact hid ▸ (h.edges id e he).groups k g hold
  · split at hnew
    · exact hid ▸ h.loads o hnew
    · cases hnew

/-! ## The encounters -/

/-- The encounters of a round: the first groups of the two sides with the same rounds left, two or
    more of them. -/
theorem Sound.mem_encounters_iff (h : Sound room) {enc : EncounterInfo} :
    enc ∈ o.encounters room ↔ ∃ id e k gA gB, room.edges.get? id = some e ∧ 2 ≤ k ∧
      Edge.firstOf .a (groupsAt (o.executed room) e k) = some gA ∧
      Edge.firstOf .b (groupsAt (o.executed room) e k) = some gB ∧ enc = ⟨id, gA, gB, k - 1⟩ := by
  have hbucket : ∀ id e k, room.edges.get? id = some e →
      (e.loadAll (HexWar.loads (o.executed room) id)).bucket k = groupsAt (o.executed room) e k := by
    intro id e k he
    rw [Edge.bucket_loadAll, groupsAt, h.map.keyed _ _ he]
  rw [mem_encounters]
  constructor
  · rintro ⟨id, e', k, gA, gB, he', hA, hB, rfl⟩
    have hid := (h.advanced o he').2
    rw [get?_advanced o h.map.keyed] at he'
    obtain ⟨e, he, rfl⟩ := Option.map_eq_some_iff.mp he'
    rw [Edge.bucket_advanceRound, hbucket _ _ _ he] at hA hB
    split at hA
    · next hk =>
      rw [if_pos hk] at hB
      exact ⟨id, e, k + 1, gA, gB, he, by omega, hA, hB, by rw [hid, Int.add_sub_cancel]⟩
    · cases hA
  · rintro ⟨id, e, k, gA, gB, he, hk, hA, hB, rfl⟩
    have hadv : (o.advancedEdges room).get? id =
        some (e.loadAll (HexWar.loads (o.executed room) id)).advanceRound.2 := by
      rw [get?_advanced o h.map.keyed, he]
      rfl
    refine ⟨id, _, k - 1, gA, gB, hadv, ?_, ?_, by rw [(h.advanced o hadv).2]⟩
    · rw [Edge.bucket_advanceRound, if_pos (by omega), Int.sub_add_cancel, hbucket _ _ _ he]
      exact hA
    · rw [Edge.bucket_advanceRound, if_pos (by omega), Int.sub_add_cancel, hbucket _ _ _ he]
      exact hB

theorem mem_getBlockedUnits {encs : List EncounterInfo} {a : ArrivalInfo} :
    a ∈ getBlockedUnits encs ↔ ∃ enc ∈ encs,
      a = enc.groupA.arrivalOn enc.edgeId ∨ a = enc.groupB.arrivalOn enc.edgeId := by
  rw [getBlockedUnits, List.mem_flatMap]
  constructor
  · rintro ⟨enc, henc, ha⟩
    exact ⟨enc, henc, List.mem_pair.mp ha⟩
  · rintro ⟨enc, henc, ha⟩
    exact ⟨enc, henc, List.mem_pair.mpr ha⟩

/-- An arrival on an edge is held back exactly when it looks like a group that meets there. -/
theorem Sound.mem_blocked_iff (h : Sound room) {id : EdgeId} {e : Edge}
    (he : room.edges.get? id = some e) (g : TravelingGroup) :
    g.arrivalOn id ∈ getBlockedUnits (o.encounters room) ↔ LooksMet (o.executed room) e g := by
  rw [mem_getBlockedUnits, looksMet_iff]
  constructor
  · rintro ⟨enc, henc, hlook⟩
    obtain ⟨id', e', k, gA, gB, he', hk, hA, hB, rfl⟩ := (h.mem_encounters_iff o).mp henc
    rcases hlook with hlook | hlook
    · obtain ⟨rfl, rfl⟩ := arrivalOn_inj hlook
      cases he.symm.trans he'
      exact ⟨k, _, gB, hk, hA, hB, Or.inl rfl⟩
    · obtain ⟨rfl, rfl⟩ := arrivalOn_inj hlook
      cases he.symm.trans he'
      exact ⟨k, gA, _, hk, hA, hB, Or.inr rfl⟩
  · rintro ⟨k, gA, gB, hk, hA, hB, hlook⟩
    refine ⟨⟨id, gA, gB, k - 1⟩,
      (h.mem_encounters_iff o).mpr ⟨id, e, k, gA, gB, he, hk, hA, hB, rfl⟩, ?_⟩
    rcases hlook with rfl | rfl
    · exact Or.inl rfl
    · exact Or.inr rfl

/-! ## What is delivered, and what is held back -/

/-- The arrivals that the encounters of the round hold back. -/
def ProcessingOrder.heldBack (o : ProcessingOrder) (room : GameRoom) : List ArrivalInfo :=
  (o.arrivals (o.arrivingGroups room)).filter fun a => a ∈ getBlockedUnits (o.encounters room)

/-- What is held back: the arriving groups that look like a group that meets on their edge. -/
theorem Sound.mem_heldBack (h : Sound room) {a : ArrivalInfo} :
    a ∈ o.heldBack room ↔ ∃ id e g, room.edges.get? id = some e ∧
      g ∈ groupsAt (o.executed room) e 1 ∧ LooksMet (o.executed room) e g ∧ a = g.arrivalOn id := by
  rw [ProcessingOrder.heldBack, List.mem_filter, (o.arrivals_perm _).mem_iff, h.arrivingGroups_eq,
    List.mem_flatMap]
  constructor
  · rintro ⟨⟨e, he, ha⟩, hblocked⟩
    obtain ⟨id, hid⟩ := Dict.mem_values.mp he
    obtain ⟨g, hg, rfl⟩ := List.mem_map.mp ha
    rw [h.map.keyed _ _ hid] at hblocked ⊢
    exact ⟨id, e, g, hid, hg, (h.mem_blocked_iff o hid g).mp (of_decide_eq_true hblocked), rfl⟩
  · rintro ⟨id, e, g, he, hg, hlook, rfl⟩
    refine ⟨⟨e, Dict.mem_values.mpr ⟨id, he⟩, List.mem_map.mpr ⟨g, hg, ?_⟩⟩,
      decide_eq_true ((h.mem_blocked_iff o he g).mpr hlook)⟩
    rw [h.map.keyed _ _ he]

/-- What no encounter holds back, before it is put in order. -/
theorem Sound.unblocked_eq (h : Sound room) :
    (o.arrivingGroups room).filter (fun a => a ∉ getBlockedUnits (o.encounters room)) =
      arrivalsAt (o.executed room) room := by
  rw [h.arrivingGroups_eq, List.filter_flatMap, arrivalsAt]
  refine List.flatMap_congr fun e he => ?_
  obtain ⟨id, hid⟩ := Dict.mem_values.mp he
  rw [List.filter_map]
  refine congrArg _ (List.filter_congr fun g _ => ?_)
  rw [h.map.keyed _ _ hid]
  exact decide_eq_decide.mpr (not_congr (h.mem_blocked_iff o hid g))

/-- The deliveries are the arrivals of the batch, in some order. -/
theorem Sound.deliveries_perm (h : Sound room) :
    (o.deliveries room).Perm (arrivalsAt (o.executed room) room) :=
  ((o.arrivals_perm _).filter _).trans (List.Perm.of_eq (h.unblocked_eq o))

/-- In the order of the source, the deliveries are the arrivals of the batch. -/
theorem Sound.deliveries_source (h : Sound room) :
    sourceOrder.deliveries room = arrivalsAt room.reservedMoves room :=
  h.unblocked_eq sourceOrder

end HexWar
