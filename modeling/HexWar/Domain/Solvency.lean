/-
  Reservations are always paid for.

  The departure loop of `resolveRound` cuts a departure down to the units that are on the node, but
  puts the full reserved count on the edge; that the two agree is not checked anywhere.  It follows
  from what `moveUnits` has checked, and stays true because nothing between the reservation and the
  resolution takes units off a node.  The statement is about every state that any calls with any
  arguments lead to, not only about the runs of a session.
-/
import HexWar.Domain.Soundness
import Mathlib.Algebra.Order.BigOperators.Group.List

namespace HexWar

open Lib Lib.Action GameRoom

/-- The reserved moves of a side are what it has used, within its bound, and are paid for. -/
structure Solvent (room : GameRoom) (s : PlayerSide) : Prop where
  used : room.unitUsedThisRound.get s = ((room.pendingMoves.get s).map (·.count)).sum
  nonneg : 0 ≤ room.unitUsedThisRound.get s
  bounded : room.unitUsedThisRound.get s ≤ maxUnitsPerPlayer
  moves : ∀ m ∈ room.pendingMoves.get s,
    1 ≤ m.count ∧ ∃ e, room.edges.get? (EdgeId.of m.fromNode m.toNode) = some e
  paid : ∀ id n, room.nodes.get? id = some n →
    ((((room.pendingMoves.get s).filter (·.fromNode = id)).map (·.count)).sum) ≤ n.getMobileCount s

/-- Every departure of the room's reserved moves takes exactly the reserved units: after the moves
    before it, the node still has them. -/
def DepartsInFull (room : GameRoom) : Prop :=
  ∀ before m rest, room.reservedMoves = before ++ m :: rest →
    ∃ records room', executeMoves before { room with phase := .resolution, domainEvents := [] } =
        .ok records room' ∧
      ∃ n n', room'.nodes.get? m.2.fromNode = some n ∧
        n.departMobileUnits m.1 m.2.count = .ok (m.2.count, n')

theorem sum_counts_nonneg {ms : List PendingMove} (h : ∀ m ∈ ms, 1 ≤ m.count) :
    0 ≤ (ms.map (·.count)).sum := by
  refine List.sum_nonneg fun c hc => ?_
  obtain ⟨m, hm, rfl⟩ := List.mem_map.mp hc
  have := h m hm
  omega

theorem Sound.solvent {room : GameRoom} (h : Sound room) (s : PlayerSide) : Solvent room s := by
  have hm := h.moves s
  refine ⟨hm.used, ?_, hm.bounded, hm.moves, hm.solvent⟩
  rw [hm.used]
  exact sum_counts_nonneg fun m hmem => (hm.moves m hmem).1

/-- A prefix of a payable list leaves the rest payable. -/
theorem Payable.drop {ms ms' : List SideMove} :
    ∀ {nodes : Dict NodeId Node} {edges : Dict EdgeId Edge}, Payable nodes edges (ms ++ ms') →
      Keyed edges → Payable (ms.foldl departNode nodes) (ms.foldl loadEdge edges) ms' := by
  induction ms with
  | nil => exact fun h _ => h
  | cons m ms ih => exact fun h hk => ih (Payable.tail h hk) (hk.loadEdge m)

theorem Payable.take {nodes : Dict NodeId Node} {edges : Dict EdgeId Edge} {ms ms' : List SideMove}
    (h : Payable nodes edges (ms ++ ms')) : Payable nodes edges ms where
  pos m hm := h.pos m (List.mem_append_left _ hm)
  source m hm := h.source m (List.mem_append_left _ hm)
  path m hm := h.path m (List.mem_append_left _ hm)
  solvent id n s hn := by
    have hall := h.solvent id n s hn
    have hrest := outgoing_nonneg (fun m hm => h.pos m (List.mem_append_right ms hm)) s id
    rw [outgoing_append] at hall
    omega

theorem Sound.departsInFull {room : GameRoom} (h : Sound room) : DepartsInFull room := by
  intro before m rest hsplit
  have hpay : Payable room.nodes room.edges (before ++ m :: rest) := hsplit ▸ h.payable
  let room₀ : GameRoom := { room with phase := .resolution, domainEvents := [] }
  have hrun : executeMoves before room₀ = .ok (before.map moveRecord) (afterMoves room₀ before) :=
    executeMoves_ok hpay.take h.map.keyed
  obtain ⟨n, hn, hdep⟩ := (hpay.drop h.map.keyed).head
  exact ⟨_, _, hrun, n, _, hn, hdep⟩

/-- **Reservation solvency.**  In every state that any calls lead to, the reserved moves of both
    sides are solvent; so a resolution in the planning phase returns, every departure takes its
    reserved units in full, and the phase is never left at `resolution`. -/
theorem reservations_solvent {roomId : String} {room : GameRoom}
    (h : (rooms roomId).Reachable room) :
    room.phase ≠ .resolution ∧
      (room.phase = .planning → (∀ s, Solvent room s) ∧ DepartsInFull room ∧
        ∀ deadline now, ∃ result room', resolveRound deadline now room = .ok result room' ∧
          room'.phase ≠ .resolution) := by
  have hsound := sound_of_reachable h
  refine ⟨hsound.phase, fun hphase => ⟨hsound.solvent, hsound.departsInFull, fun deadline now => ?_⟩⟩
  have hok := resolveRound_ok (hsound.resolvable hphase) deadline now
  exact ⟨_, _, hok, (hsound.resolved sourceOrder hphase _).phase⟩

/-- Both players join, side A reserves two moves from its start node and side B one. -/
def openingCalls : List Call :=
  [.addPlayer ⟨"p1"⟩ none 0, .addPlayer ⟨"p2"⟩ none 0,
    .moveUnits .a ⟨⟨1⟩, ⟨5⟩, 1⟩, .moveUnits .a ⟨⟨1⟩, ⟨4⟩, 5⟩,
    .moveUnits .b ⟨⟨5⟩, ⟨1⟩, 2⟩]

theorem reservations_solvent_opening :
    ∃ room, (rooms "room").Reachable room ∧ room.phase = .planning ∧
      room.reservedMoves.map (·.2.count) = [1, 2, 2] ∧ (∀ s, Solvent room s) ∧
      DepartsInFull room := by
  have hreach : (rooms "room").Reachable ((rooms "room").after (rooms "room").start openingCalls) :=
    ⟨openingCalls, ⟨trivial, trivial, trivial, trivial, trivial, trivial⟩, rfl⟩
  have hphase : ((rooms "room").after (rooms "room").start openingCalls).phase = .planning := by
    decide +kernel
  have hsolvent := (reservations_solvent hreach).2 hphase
  exact ⟨_, hreach, hphase, by decide +kernel, hsolvent.1, hsolvent.2.1⟩

end HexWar
