/-
  What becomes of the groups that arrive.

  `advanceRound` takes the arrived groups off their edge, and the resolution holds back those that
  the encounters block.  A held-back group is then nowhere: not on the edge any more, not on its node.
  So a round delivers all that arrived exactly when nothing is held back, and something is held back
  exactly when an arriving group looks like one that met an enemy on the same edge
  (`every_arrival_delivered_iff`): a side that sends equal groups one round after the other along a
  long edge loses the first when the second meets the enemy.
-/
import HexWar.Domain.Conservation
import Mathlib.Data.List.Count

namespace HexWar

open Lib Lib.Action GameRoom

/-- The edges of the room once its reserved moves have been executed. -/
def GameRoom.departedEdges (room : GameRoom) : Dict EdgeId Edge :=
  (after (executeMoves room.reservedMoves) room).edges

/-- The groups that `advanceRound` then returns as arrived, edge by edge. -/
def GameRoom.arrivedGroups (room : GameRoom) : List ArrivalInfo :=
  room.departedEdges.values.flatMap edgeArrivals

/-- The units of a side that a list of arrivals brings to a node. -/
def incoming (arrivals : List ArrivalInfo) (s : PlayerSide) (id : NodeId) : Int :=
  ((arrivals.filter fun a => a.side = s ∧ a.destination = id).map (·.count)).sum

/-- The record of an arrival. -/
def arrivalRecord (a : ArrivalInfo) : ArrivalRecord := ⟨a.destination, a.side, a.count, a.viaEdge⟩

/-- The record leaves nothing out. -/
theorem arrivalRecord_inj {a b : ArrivalInfo} (h : arrivalRecord a = arrivalRecord b) : a = b := by
  cases a
  cases b
  cases h
  rfl

/-- The groups on an edge. -/
def Edge.groups (e : Edge) : List TravelingGroup := e.travelingUnits.values.flatMap fun gs => gs

/-- The groups on an edge that do not arrive in the next round. -/
def Edge.waiting (e : Edge) : List TravelingGroup :=
  (e.travelingUnits.entries.filter (1 < ·.1)).flatMap (·.2)

/-- The resolution that raises `summary` delivers every group that arrived. -/
structure DeliversAll (room room' : GameRoom) (summary : RoundResolved) : Prop where
  /-- Each with all its units: a node has what was left on it and what arrived there. -/
  added : ∀ id n n', room.nodes.get? id = some n → room'.nodes.get? id = some n' → ∀ s,
    n'.getMobileCount s =
      n.getMobileCount s - outgoing room.reservedMoves s id + incoming room.arrivedGroups s id
  /-- Each is recorded once. -/
  recorded : summary.arrivals.Perm (room.arrivedGroups.map arrivalRecord)
  /-- What is not recorded is still on its edge, beside the groups that did not arrive, as part of a
      registered encounter. -/
  held : ∀ id e e', room.departedEdges.get? id = some e → room'.edges.get? id = some e' →
    ∀ g ∈ e.advanceRound.1,
      summary.arrivals.count (arrivalRecord (g.arrivalOn id)) <
        room.arrivedGroups.count (g.arrivalOn id) →
      e.waiting.count g < e'.groups.count g ∧
        ∃ p ∈ room'.pendingEncounters, p.edgeId = id ∧ ∃ s, p.groupOf s = g

/-! ## What arrives -/

theorem incoming_eq (arrivals : List ArrivalInfo) (s : PlayerSide) (id : NodeId) :
    incoming arrivals s id = passing s (reaching arrivals id) := by
  rw [incoming, passing, reaching, List.filter_map, List.map_map, List.filter_filter]
  simp only [Function.comp_def, Bool.decide_and]

variable {room : GameRoom}

theorem Sound.departedEdges_eq (h : Sound room) :
    room.departedEdges = sourceOrder.loadedEdges room := by
  rw [departedEdges, after_ok (executeMoves_ok h.payable h.map.keyed)]
  rfl

theorem Sound.arrivedGroups_eq (h : Sound room) :
    room.arrivedGroups = sourceOrder.arrivingGroups room := by
  rw [arrivedGroups, h.departedEdges_eq]
  rfl

/-- The deliveries of a round and what it holds back are what arrived. -/
theorem deliveries_length (room : GameRoom) :
    (sourceOrder.deliveries room).length + (sourceOrder.heldBack room).length =
      (sourceOrder.arrivingGroups room).length := by
  have hsplit : ∀ (p : ArrivalInfo → Bool) (as : List ArrivalInfo),
      (as.filter fun a => ¬ p a).length + (as.filter p).length = as.length := by
    intro p as
    induction as with
    | nil => rfl
    | cons a as ih =>
      rcases em (p a = true) with hp | hp
      · rw [List.filter_cons_of_pos hp, List.filter_cons_of_neg (by simpa using hp),
          List.length_cons, List.length_cons]
        omega
      · rw [List.filter_cons_of_neg hp, List.filter_cons_of_pos (by simpa using hp),
          List.length_cons, List.length_cons]
        omega
  have hlen := hsplit (fun a => a ∈ getBlockedUnits (sourceOrder.encounters room))
    (sourceOrder.arrivingGroups room)
  simp only [decide_eq_true_eq] at hlen
  exact hlen

/-- When nothing is held back, the deliveries are all that arrived. -/
theorem deliveries_eq_of_heldBack (h : sourceOrder.heldBack room = []) :
    sourceOrder.deliveries room = sourceOrder.arrivingGroups room := by
  have hlen := deliveries_length room
  rw [h, List.length_nil, Nat.add_zero] at hlen
  exact List.filter_eq_self.mpr (List.length_filter_eq_length_iff.mp hlen)

/-! ## The round -/

/-- The arrivals that a round records are those it delivers. -/
theorem summary_arrivals (room : GameRoom) :
    (sourceOrder.summary room).arrivals = (sourceOrder.deliveries room).map arrivalRecord := by
  have hloop : ∀ (as : List ArrivalInfo) (nodes : Dict NodeId Node),
      (outputs arriveNode deliveryRecord nodes as).map (·.1) = as.map arrivalRecord := by
    intro as
    induction as with
    | nil => exact fun _ => rfl
    | cons a as ih => exact fun nodes => congrArg (arrivalRecord a :: ·) (ih _)
  exact hloop _ _

theorem events_of_resolved (room : GameRoom) (deadline : Time) :
    ∃ rest, (sourceOrder.resolved room deadline).domainEvents =
      .roundResolved (sourceOrder.summary room) :: rest :=
  ⟨_, events_resolved room deadline⟩

/-- The mobile units of a node after a round: those that did not leave, and those delivered. -/
theorem mobile_resolved (deadline : Time) {id : NodeId} {n n' : Node}
    (hn : room.nodes.get? id = some n)
    (hn' : (sourceOrder.resolved room deadline).nodes.get? id = some n') (s : PlayerSide) :
    n'.getMobileCount s = n.getMobileCount s - outgoing room.reservedMoves s id +
      incoming (sourceOrder.deliveries room) s id := by
  rw [get?_resolved, hn] at hn'
  cases hn'
  show Node.getMobileCount (Node.arriveAll _ _) s = _
  rw [(Node.arriveAll_base _ _).2.2, (Node.departAll_base _ _).2.2, outgoing_eq, incoming_eq]
  rfl

/-- **A round delivers every group that arrived** if and only if no arriving group looks like a group
    that met an enemy on the same edge. -/
theorem every_arrival_delivered_iff {roomId : String} (h : (session roomId).Reachable room)
    (hready : room.isReadyForResolution = true) (deadline : Option Time) (now : Time) :
    ∃ summary rest, (room.next (.resolveRound deadline now)).domainEvents =
        .roundResolved summary :: rest ∧
      (DeliversAll room (room.next (.resolveRound deadline now)) summary ↔
        ArrivalsDistinct room) := by
  have hin := inSession_of_reachable h
  have hs := hin.sound
  rw [next_resolveRound hs (hin.orderly.ready hs hready).1]
  obtain ⟨rest, hevents⟩ := events_of_resolved room (deadline.getD (now + defaultPlanning))
  refine ⟨sourceOrder.summary room, rest, hevents, ?_⟩
  rw [← heldBack_eq_nil hs]
  constructor
  · intro hall
    -- as many are recorded as arrived, so none is held back
    have hlen := hall.recorded.length_eq
    rw [summary_arrivals, List.length_map, List.length_map, hs.arrivedGroups_eq] at hlen
    have hsplit := deliveries_length room
    rw [← List.length_eq_zero_iff]
    omega
  · intro hnone
    have hall := deliveries_eq_of_heldBack hnone
    have hperm : (sourceOrder.summary room).arrivals.Perm (room.arrivedGroups.map arrivalRecord) := by
      rw [summary_arrivals, hall, hs.arrivedGroups_eq]
    refine ⟨fun id n n' hn hn' s => ?_, hperm, fun id e e' _ _ g _ hless => ?_⟩
    · rw [mobile_resolved _ hn hn', hall, hs.arrivedGroups_eq]
    · -- nothing is recorded less often than it arrived
      exfalso
      have hcount := hperm.count_eq (arrivalRecord (g.arrivalOn id))
      rw [List.count_map_of_injective _ _ fun _ _ => arrivalRecord_inj] at hcount
      omega

/-! ## Two equal groups on a long edge -/

theorem every_arrival_delivered_meeting :
    ∃ room, (session "room").Reachable room ∧ room.isReadyForResolution = true ∧
      room.arrivedGroups ≠ [] ∧
      ∃ summary rest, (room.next (.resolveRound none 0)).domainEvents =
          .roundResolved summary :: rest ∧
        DeliversAll room (room.next (.resolveRound none 0)) summary := by
  have hreach : (session "room").Reachable
      ((session "room").after (session "room").start (lookAlikeCalls.take 5)) :=
    ⟨lookAlikeCalls.take 5, by decide +kernel, rfl⟩
  obtain ⟨summary, rest, hevents, hiff⟩ :=
    every_arrival_delivered_iff hreach (by decide +kernel) none 0
  refine ⟨_, hreach, by decide +kernel, by decide +kernel, summary, rest, hevents, hiff.mpr ?_⟩
  have hall : ∀ kv ∈ ((session "room").after (session "room").start
      (lookAlikeCalls.take 5)).edges.entries, ∀ g ∈ groupsAt ((session "room").after
        (session "room").start (lookAlikeCalls.take 5)).reservedMoves kv.2 1,
      ¬ LooksMet ((session "room").after (session "room").start
        (lookAlikeCalls.take 5)).reservedMoves kv.2 g := by
    decide +kernel
  exact fun id e he g hg => hall (id, e) (Dict.mem_iff_get?.mpr he) g hg

/-- The room in which a second group of side A is about to meet side B, while the first arrives. -/
def lookAlikeRoom : GameRoom :=
  (session "room").after (session "room").start (lookAlikeCalls.take 6)

/-- The first group arrives, and is recorded nowhere. -/
theorem look_alike_lost :
    (session "room").Reachable lookAlikeRoom ∧ lookAlikeRoom.isReadyForResolution = true ∧
      lookAlikeRoom.arrivedGroups = [⟨⟨5⟩, .a, 1, EdgeId.of ⟨1⟩ ⟨5⟩⟩] ∧
      ∀ summary rest, (lookAlikeRoom.next (.resolveRound none 0)).domainEvents =
          .roundResolved summary :: rest →
        ¬ DeliversAll lookAlikeRoom (lookAlikeRoom.next (.resolveRound none 0)) summary := by
  have hnone : (lookAlikeRoom.next (.resolveRound none 0)).domainEvents.head?.map
      (fun | .roundResolved summary => decide (summary.arrivals = []) | _ => false) = some true := by
    decide +kernel
  refine ⟨⟨lookAlikeCalls.take 6, by decide +kernel, rfl⟩, by decide +kernel, by decide +kernel, ?_⟩
  intro summary rest hevents hall
  rw [hevents] at hnone
  have hempty : summary.arrivals = [] := by simpa using hnone
  have hlen := hall.recorded.length_eq
  have hone : lookAlikeRoom.arrivedGroups.length = 1 := by decide +kernel
  rw [hempty, List.length_map, hone] at hlen
  cases hlen

end HexWar
