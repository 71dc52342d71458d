/-
  What a side can still move.

  A move takes unreserved mobile units of one node, and counts against the allowance of the round.  So
  a side can move nothing more exactly if its allowance is used up or every mobile unit it has is
  reserved; since what it has used is what it has reserved, the latter is a matter of two totals
  (`cannotMove_iff`).
-/
import HexWar.Domain.Solvency

namespace HexWar

open Lib Lib.Action GameRoom

variable {room : GameRoom}

/-- The mobile units of a side on all nodes. -/
def GameRoom.mobileTotal (room : GameRoom) (side : PlayerSide) : Int :=
  (room.nodes.values.map (·.getMobileCount side)).sum

/-- No command of the side is accepted. -/
def GameRoom.CannotMove (room : GameRoom) (side : PlayerSide) : Prop :=
  ∀ command, succeeds (moveUnits side command) room = false

/-- A command is accepted exactly if nothing speaks against it. -/
theorem moveUnits_refused_iff (room : GameRoom) (side : PlayerSide) (command : MoveCommand) :
    succeeds (moveUnits side command) room = false ↔
      (room.moveRefusal side command).isSome = true := by
  rw [succeeds_verdict (moveUnits_eq room side command)]
  cases room.moveRefusal side command <;> simp

/-- On the map one can leave every node. -/
theorem mapNodes_joined : ∀ kv ∈ mapNodes.entries, ∃ other ∈ mapNodes.entries,
    mapEdges.containsKey (EdgeId.of kv.1 other.1) = true := by
  decide +kernel

theorem Sound.neighbor (h : Sound room) {id : NodeId} {n : Node} (hn : room.nodes.get? id = some n) :
    ∃ other, room.edges.containsKey (EdgeId.of id other) = true := by
  have hshape : mapNodes.get? id = some (nodeShape n) := by
    rw [← h.map.nodes, Dict.get?_mapValues, hn]
    rfl
  obtain ⟨other, -, hedge⟩ := mapNodes_joined _ (Dict.mem_iff_get?.mpr hshape)
  refine ⟨other.1, ?_⟩
  rw [← h.map.edges, Dict.containsKey, Dict.isSome_get?_mapValues] at hedge
  exact hedge

/-! ## Reserved units -/

/-- What one node gets, summed over nodes of which it is one. -/
theorem sum_at {ids : List NodeId} (hids : ids.Nodup) {id : NodeId} (hid : id ∈ ids) (c : Int) :
    (ids.map fun k => if id = k then c else 0).sum = c := by
  induction ids with
  | nil => cases hid
  | cons k ids ih =>
    obtain ⟨hk, hrest⟩ := List.nodup_cons.mp hids
    rw [List.map_cons, List.sum_cons]
    rcases List.mem_cons.mp hid with rfl | hmem
    · have hnone : (ids.map fun k => if id = k then c else 0).sum = 0 := by
        refine List.sum_eq_zero fun x hx => ?_
        obtain ⟨k, hmem, rfl⟩ := List.mem_map.mp hx
        have hother : id ≠ k := fun heq => hk (heq.symm ▸ hmem)
        exact if_neg hother
      rw [if_pos rfl, hnone, Int.add_zero]
    · have hother : id ≠ k := fun heq => hk (heq ▸ hmem)
      rw [if_neg hother, Int.zero_add]
      exact ih hrest hmem

/-- The units reserved at the nodes are the units reserved. -/
theorem sum_committedFrom {ids : List NodeId} (hids : ids.Nodup) {ms : List PendingMove}
    (hms : ∀ m ∈ ms, m.fromNode ∈ ids) :
    (ids.map (committedFrom ms)).sum = (ms.map (·.count)).sum := by
  induction ms with
  | nil => exact List.sum_eq_zero fun x hx => by obtain ⟨k, -, rfl⟩ := List.mem_map.mp hx; rfl
  | cons m ms ih =>
    have hsplit : ids.map (committedFrom (m :: ms)) =
        ids.map fun k => (if m.fromNode = k then m.count else 0) + committedFrom ms k :=
      List.map_congr_left fun k _ => committedFrom_cons m ms k
    rw [hsplit, List.sum_map_add, sum_at hids (hms m List.mem_cons_self),
      ih fun m' hm' => hms m' (List.mem_cons_of_mem _ hm'), List.map_cons, List.sum_cons]

/-- The unreserved mobile units of a side on all nodes. -/
theorem Sound.sum_available (h : Sound room) (side : PlayerSide) :
    (room.nodes.entries.map fun kv => room.availableAt side kv.2 kv.1).sum =
      room.mobileTotal side - room.unitUsedThisRound.get side := by
  have hfrom : ∀ m ∈ room.pendingMoves.get side, m.fromNode ∈ room.nodes.entries.map Prod.fst := by
    intro m hm
    obtain ⟨n, hn⟩ := h.payable.source (side, m) (mem_reservedMoves.mpr hm)
    exact List.mem_map.mpr ⟨_, Dict.mem_iff_get?.mpr hn, rfl⟩
  have hcommitted := sum_committedFrom room.nodes.nodup hfrom
  rw [List.map_map] at hcommitted
  have htotal : room.mobileTotal side =
      (room.nodes.entries.map fun kv => kv.2.getMobileCount side).sum := by
    rw [mobileTotal, Dict.values, List.map_map]
    rfl
  rw [htotal, (h.moves side).used, ← hcommitted]
  generalize room.nodes.entries = kvs
  induction kvs with
  | nil => rfl
  | cons kv kvs ih =>
    rw [List.map_cons, List.map_cons, List.map_cons, List.sum_cons, List.sum_cons, List.sum_cons, ih,
      availableAt]
    show _ = _ - (committedFrom (room.pendingMoves.get side) kv.1 + _)
    omega

theorem Sound.available_nonneg (h : Sound room) {id : NodeId} {n : Node}
    (hn : room.nodes.get? id = some n) (side : PlayerSide) : 0 ≤ room.availableAt side n id :=
  Int.sub_nonneg.mpr ((h.moves side).solvent id n hn)

/-- A unit is free somewhere exactly if the side has more mobile units than it has used. -/
theorem Sound.available_iff (h : Sound room) (side : PlayerSide) :
    (∃ id n, room.nodes.get? id = some n ∧ 1 ≤ room.availableAt side n id) ↔
      room.mobileTotal side ≠ room.unitUsedThisRound.get side := by
  have hsum := h.sum_available side
  have hnonneg : ∀ x ∈ room.nodes.entries.map fun kv => room.availableAt side kv.2 kv.1, 0 ≤ x := by
    intro x hx
    obtain ⟨kv, hkv, rfl⟩ := List.mem_map.mp hx
    exact h.available_nonneg (Dict.mem_iff_get?.mp hkv) side
  constructor
  · rintro ⟨id, n, hn, hfree⟩ hsame
    have hle := List.single_le_sum hnonneg _
      (List.mem_map.mpr ⟨(id, n), Dict.mem_iff_get?.mpr hn, rfl⟩)
    dsimp only at hle
    omega
  · intro hne
    by_contra hnone
    have hzero : (room.nodes.entries.map fun kv => room.availableAt side kv.2 kv.1).sum = 0 := by
      refine List.sum_eq_zero fun x hx => ?_
      obtain ⟨kv, hkv, rfl⟩ := List.mem_map.mp hx
      have hn := Dict.mem_iff_get?.mp hkv
      have hpos := h.available_nonneg hn side
      by_contra hx
      exact hnone ⟨kv.1, kv.2, hn, by omega⟩
    omega

/-- **When a side can move nothing more**: its allowance is used up, or all its mobile units are. -/
theorem Sound.cannotMove_iff (h : Sound room) (hphase : room.phase = .planning) (side : PlayerSide) :
    room.CannotMove side ↔ room.getRemainingUnits side ≤ 0 ∨
      room.mobileTotal side = room.unitUsedThisRound.get side := by
  have hleft : room.getRemainingUnits side =
      maxUnitsPerPlayer - room.unitUsedThisRound.get side := rfl
  constructor
  · intro hcannot
    by_contra hcan
    rw [not_or, Int.not_le] at hcan
    obtain ⟨hpos, hne⟩ := hcan
    obtain ⟨id, n, hn, hfree⟩ := (h.available_iff side).mpr hne
    obtain ⟨other, hedge⟩ := h.neighbor hn
    have hone : 1 ≤ maxUnitsPerPlayer - room.unitUsedThisRound.get side := by omega
    have hgranted : room.granted side ⟨id, other, 1⟩ = 1 := Int.min_eq_left hone
    -- one unit of that node could go to a neighbor
    have hno := (moveUnits_refused_iff room side ⟨id, other, 1⟩).mp (hcannot _)
    rw [moveRefusal, if_neg (not_not_intro hphase), if_neg (by omega), hgranted, if_neg (by omega),
      if_neg (not_not_intro hedge), hn] at hno
    simp only [if_neg (Int.not_lt.mpr hfree)] at hno
    cases hno
  · intro hspent command
    refine (moveUnits_refused_iff room side command).mpr ?_
    rcases hr : room.moveRefusal side command with _ | e
    · obtain ⟨-, hgranted, -, n, hn, hfree⟩ := moveRefusal_none hr
      exfalso
      rcases hspent with hused | hsame
      · have hle : room.granted side command ≤ room.getRemainingUnits side := Int.min_le_right _ _
        omega
      · exact (h.available_iff side).mp ⟨_, n, hn, by omega⟩ hsame
    · rfl

end HexWar
