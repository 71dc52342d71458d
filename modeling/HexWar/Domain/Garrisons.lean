/-
  The garrison of a supply line.

  A recount compares the totals, garrison included, and then moves the garrison to the new owner.  In
  between the garrison may stand on the wrong side; after every recount it stands where the owner is
  (`NodeSound`), so also between two departures or two arrivals of a round.

  What departs is mobile: `DepartMobileUnits` cuts the request down to the mobile units, and the
  reservations never ask for more (`Payable`).  The same number of units appears on the edge.
-/
import HexWar.Domain.Conservation
import HexWar.Domain.Ownership
import HexWar.Domain.Solvency

namespace HexWar

open Lib Lib.Action GameRoom

variable {room : GameRoom}

/-- A side has one garrison on each supply line that it owns, and no other. -/
def Node.GarrisonOfOwner (n : Node) : Prop :=
  ∀ s, n.getGarrisonCount s = if n.isSupplyLine ∧ n.ownership = .fromPlayerSide s then 1 else 0

theorem NodeSound.garrisonOfOwner {n : Node} (h : NodeSound n) : n.GarrisonOfOwner := by
  intro s
  rw [h.garrisoned s, garrisonOf]
  by_cases ht : n.type = .supplyLine
  · have hsupply : n.isSupplyLine = true := decide_eq_true ht
    rw [if_pos ht]
    by_cases ho : n.ownership = .fromPlayerSide s
    · rw [if_pos ho, if_pos ⟨hsupply, ho⟩]
    · rw [if_neg ho, if_neg fun hc => ho hc.2]
  · rw [if_neg ht, if_neg fun hc => ht (of_decide_eq_true hc.1)]

/-- A node has one owner, so at most one of the sides has a garrison. -/
theorem Node.GarrisonOfOwner.oneSide {n : Node} (h : n.GarrisonOfOwner) :
    n.getGarrisonCount .a = 0 ∨ n.getGarrisonCount .b = 0 := by
  rcases em (n.ownership = .fromPlayerSide .a) with ha | ha
  · refine .inr ((h .b).trans (if_neg fun hc => ?_))
    have hboth := ha.symm.trans hc.2
    cases hboth
  · exact .inl ((h .a).trans (if_neg fun hc => ha hc.2))

/-- The move `m` from `room` to `room'` takes its units off the mobile units of its node, puts the
    same number on its edge, and leaves every garrison with the owner of its node. -/
structure DepartsMobile (room room' : GameRoom) (m : SideMove) : Prop where
  node : ∃ n n', room.nodes.get? m.2.fromNode = some n ∧ room'.nodes.get? m.2.fromNode = some n' ∧
    (∀ s, n'.getMobileCount s = n.getMobileCount s - if s = m.1 then m.2.count else 0) ∧
    0 ≤ n'.getMobileCount m.1
  edge : ∃ e, room.edges.get? m.2.edgeId = some e ∧
    room'.edges.get? m.2.edgeId = some (e.startTravel m.1 m.2.count m.2.toNode)
  garrisons : ∀ id n, room'.nodes.get? id = some n → n.GarrisonOfOwner

/-- **Between two departures the garrisons stand where the owners are.** -/
theorem garrisons_departures (hn : NodesSound room) {moves : List SideMove}
    (hpay : Payable room.nodes room.edges moves) {id : NodeId} {n : Node}
    (hget : (afterMoves room moves).nodes.get? id = some n) : n.GarrisonOfOwner := by
  have hafter : (afterMoves room moves).nodes.get? id = _ := get?_departures moves id room.nodes
  rw [hafter] at hget
  obtain ⟨n₀, hn₀, rfl⟩ := Option.map_eq_some_iff.mp hget
  have hgone : ∀ p ∈ leaving moves id, 1 ≤ p.2 := fun p hp => by
    obtain ⟨m, hm, rfl⟩ := List.mem_map.mp hp
    exact hpay.pos m (List.mem_of_mem_filter hm)
  have hcost : ∀ s, passing s (leaving moves id) ≤ n₀.getMobileCount s := fun s => by
    rw [← outgoing_eq]
    exact hpay.solvent id n₀ s hn₀
  exact (Node.sound_departAll hgone (hn id n₀ hn₀) hcost).1.garrisonOfOwner

/-- One move at the head of a payable list. -/
theorem Payable.departsMobile {m : SideMove} {ms : List SideMove}
    (h : Payable room.nodes room.edges (m :: ms)) (hk : Keyed room.edges)
    (hgarrisons : ∀ id n, (afterMove room m).nodes.get? id = some n → n.GarrisonOfOwner) :
    executeMove m room = .ok (moveRecord m) (afterMove room m) ∧
      DepartsMobile room (afterMove room m) m := by
  obtain ⟨n, hn⟩ := h.source m List.mem_cons_self
  obtain ⟨e, he⟩ := h.path m List.mem_cons_self
  have hn' : (afterMove room m).nodes.get? m.2.fromNode = some (n.departed m.1 m.2.count) := by
    show (departNode room.nodes m).get? _ = _
    rw [get?_departNode, if_pos rfl, hn]
    rfl
  have he' : (afterMove room m).edges.get? m.2.edgeId =
      some (e.startTravel m.1 m.2.count m.2.toNode) := by
    show (loadEdge room.edges m).get? _ = _
    rw [get?_loadEdge hk, if_pos rfl, he]
    rfl
  have hmobile : ∀ s, (n.departed m.1 m.2.count).getMobileCount s =
      n.getMobileCount s - if s = m.1 then m.2.count else 0 := fun s => by
    rw [(Node.recount_departed n m.1 m.2.count).mobile]
    split <;> omega
  have hleft : 0 ≤ (n.departed m.1 m.2.count).getMobileCount m.1 := by
    have hrest := outgoing_nonneg (fun m' hm' => h.pos m' (List.mem_cons_of_mem _ hm')) m.1
      m.2.fromNode
    have hsol := h.solvent m.2.fromNode n m.1 hn
    rw [outgoing_cons, if_pos ⟨rfl, rfl⟩] at hsol
    rw [hmobile, if_pos rfl]
    omega
  exact ⟨executeMove_ok h, ⟨⟨n, _, hn, hn', hmobile, hleft⟩, ⟨e, he, he'⟩, hgarrisons⟩⟩

/-- **Every departure of a resolution** takes mobile units only. -/
theorem Sound.departsMobile (h : Sound room) (hn : NodesSound room) {before : List SideMove}
    {m : SideMove} {rest : List SideMove} (hsplit : room.reservedMoves = before ++ m :: rest) :
    ∃ records room₁ room₂,
      executeMoves before { room with phase := .resolution, domainEvents := [] } =
        .ok records room₁ ∧
      executeMove m room₁ = .ok (moveRecord m) room₂ ∧ DepartsMobile room₁ room₂ m := by
  let room₀ : GameRoom := { room with phase := .resolution, domainEvents := [] }
  have hpay : Payable room₀.nodes room₀.edges (before ++ m :: rest) := hsplit ▸ h.payable
  have hone : Payable room₀.nodes room₀.edges ((before ++ [m]) ++ rest) := by
    rw [List.append_assoc]
    exact hpay
  have hrun : executeMoves before room₀ = .ok (before.map moveRecord) (afterMoves room₀ before) :=
    executeMoves_ok hpay.take h.map.keyed
  have hlast : afterMove (afterMoves room₀ before) m = afterMoves room₀ (before ++ [m]) := by
    rw [← foldl_afterMove, ← foldl_afterMove, List.foldl_append]
    rfl
  have hkeyed : Keyed (afterMoves room₀ before).edges :=
    @Keyed.loaded room₀.edges h.map.keyed before
  have hgarrisons : ∀ id n, (afterMove (afterMoves room₀ before) m).nodes.get? id = some n →
      n.GarrisonOfOwner := fun id n hget =>
    @garrisons_departures room₀ hn _ hone.take _ _ (hlast ▸ hget)
  have hhead : Payable (afterMoves room₀ before).nodes (afterMoves room₀ before).edges (m :: rest) :=
    hpay.drop h.map.keyed
  obtain ⟨hmove, hdeparts⟩ := hhead.departsMobile hkeyed hgarrisons
  exact ⟨_, _, _, hrun, hmove, hdeparts⟩

/-- **Supply-line garrison.**  In every state that any calls lead to, a side has one garrison on each
    supply line it owns and none elsewhere; no node has garrisons of both sides; and what leaves a
    node in a resolution and appears on an edge are mobile units. -/
theorem supply_line_garrison {roomId : String} (hreach : (rooms roomId).Reachable room) :
    (∀ id n, room.nodes.get? id = some n → n.GarrisonOfOwner ∧
      (n.getGarrisonCount .a = 0 ∨ n.getGarrisonCount .b = 0)) ∧
    ∀ before m rest, room.reservedMoves = before ++ m :: rest → ∃ records room₁ room₂,
      executeMoves before { room with phase := .resolution, domainEvents := [] } =
        .ok records room₁ ∧
      executeMove m room₁ = .ok (moveRecord m) room₂ ∧ DepartsMobile room₁ room₂ m := by
  have hsound := sound_of_reachable hreach
  have hnodes := nodesSound_of_reachable hreach
  refine ⟨fun id n hn => ?_, fun before m rest hsplit => hsound.departsMobile hnodes hsplit⟩
  have howner := (hnodes id n hn).garrisonOfOwner
  exact ⟨howner, howner.oneSide⟩

/-- Side B takes the supply line next to its start node. -/
def supplyCalls : List Call :=
  [.addPlayer ⟨"p1"⟩ none 0, .addPlayer ⟨"p2"⟩ none 0, .moveUnits .b ⟨⟨5⟩, ⟨3⟩, 1⟩,
    .resolveRound none 0]

theorem supply_line_garrison_taken : ∃ room, (rooms "room").Reachable room ∧
    ∃ n, room.nodes.get? ⟨3⟩ = some n ∧ n.ownership = .playerB ∧ n.getGarrisonCount .b = 1 := by
  have hreach : (rooms "room").Reachable ((rooms "room").after (rooms "room").start supplyCalls) :=
    ⟨supplyCalls, ⟨trivial, trivial, trivial, trivial, trivial⟩, rfl⟩
  have howned : (((rooms "room").after (rooms "room").start supplyCalls).nodes.get? ⟨3⟩).any
      (fun n => n.isSupplyLine ∧ n.ownership = .playerB) = true := by decide +kernel
  obtain ⟨n, hn, hb⟩ := (Option.any_eq_true _ _).mp howned
  rw [decide_eq_true_eq] at hb
  have hgarrison := ((supply_line_garrison hreach).1 ⟨3⟩ n hn).1 .b
  exact ⟨_, hreach, n, hn, hb.2, hgarrison.trans (if_pos hb)⟩

end HexWar
