/-
  The three loops of a resolution, each as a fold over the dictionaries it changes.

  `resolveRound` executes the reserved moves, registers the encounters and delivers the arrivals.
  Each loop is replaced here by a fold: `departNode` and `loadEdge` (one reserved move), `arriveNode`
  (one arrival), and the list of new pending encounters.  `Payable` is the condition under which the
  departure loop runs through: every move has at least one unit and an edge, and the moves of a side
  that leave a node do not exceed the side's units there.  It is a condition on the MULTISET of
  moves, so it holds of a list in any order if it holds in one.


  The last part takes the folds apart again: what a batch of moves does to one node is a list of
  departures there (`leaving`), to one edge a list of groups that start on it (`loads`), and a batch
  of arrivals is, for one node, a list of arrivals (`reaching`).
-/
import HexWar.Domain.GameRoom

namespace HexWar

open Lib Lib.Action

/-- A move of a side. -/
abbrev SideMove := PlayerSide × PendingMove

/-- The edge a move takes. -/
def PendingMove.edgeId (m : PendingMove) : EdgeId := EdgeId.of m.fromNode m.toNode

/-! ## One reserved move

A move takes its units off one node and puts them on one edge; everything else stays. -/

/-- The nodes after a move's units have left. -/
def departNode (nodes : Dict NodeId Node) (m : SideMove) : Dict NodeId Node :=
  match nodes.get? m.2.fromNode with
  | some n => nodes.set m.2.fromNode (n.departed m.1 m.2.count)
  | none => nodes

/-- The edges with a move's units on theirs. -/
def loadEdge (edges : Dict EdgeId Edge) (m : SideMove) : Dict EdgeId Edge :=
  match edges.get? m.2.edgeId with
  | some e => edges.set e.id (e.startTravel m.1 m.2.count m.2.toNode)
  | none => edges

/-- The record of an executed move. -/
def moveRecord (m : SideMove) : MoveExecutionRecord := ⟨m.2.fromNode, m.2.toNode, m.1, m.2.count⟩

/-- The units of a side that a list of moves takes from a node. -/
def outgoing (moves : List SideMove) (s : PlayerSide) (id : NodeId) : Int :=
  ((moves.filter fun m => m.1 = s ∧ m.2.fromNode = id).map fun m => m.2.count).sum

/-- What a list takes from a node: the first move's units, if they are of this side and leave this
    node, -/
theorem outgoing_cons (m : SideMove) (ms : List SideMove) (s : PlayerSide) (id : NodeId) :
    outgoing (m :: ms) s id =
      (if m.1 = s ∧ m.2.fromNode = id then m.2.count else 0) + outgoing ms s id := by
  by_cases h : m.1 = s ∧ m.2.fromNode = id
  · simp [outgoing, h]
  · simp [outgoing, h]

/-- what either part of a list takes, -/
theorem outgoing_append (ms ms' : List SideMove) (s : PlayerSide) (id : NodeId) :
    outgoing (ms ++ ms') s id = outgoing ms s id + outgoing ms' s id := by
  simp [outgoing]

/-- the same in every order, -/
theorem outgoing_perm {ms ms' : List SideMove} (h : ms.Perm ms') (s : PlayerSide) (id : NodeId) :
    outgoing ms s id = outgoing ms' s id :=
  ((h.filter _).map _).sum_eq

/-- and never less than nothing. -/
theorem outgoing_nonneg {ms : List SideMove} (h : ∀ m ∈ ms, 1 ≤ m.2.count) (s : PlayerSide)
    (id : NodeId) : 0 ≤ outgoing ms s id := by
  induction ms with
  | nil => exact Int.le_refl 0
  | cons m ms ih =>
    have hm := h m List.mem_cons_self
    have hrest := ih fun m' hm' => h m' (List.mem_cons_of_mem _ hm')
    rw [outgoing_cons]
    split <;> omega

/-- Every move of the list can be executed, in whatever order. -/
structure Payable (nodes : Dict NodeId Node) (edges : Dict EdgeId Edge) (moves : List SideMove) :
    Prop where
  /-- A move has at least one unit. -/
  pos : ∀ m ∈ moves, 1 ≤ m.2.count
  /-- It leaves a node of the map, -/
  source : ∀ m ∈ moves, ∃ n, nodes.get? m.2.fromNode = some n
  /-- on an edge of the map. -/
  path : ∀ m ∈ moves, ∃ e, edges.get? m.2.edgeId = some e
  /-- And no side takes more units from a node than it has there. -/
  solvent : ∀ id n s, nodes.get? id = some n → outgoing moves s id ≤ n.getMobileCount s

/-- Whether a list is payable does not depend on its order. -/
theorem Payable.perm {nodes : Dict NodeId Node} {edges : Dict EdgeId Edge} {ms ms' : List SideMove}
    (h : Payable nodes edges ms) (hp : ms.Perm ms') : Payable nodes edges ms' where
  pos m hm := h.pos m (hp.mem_iff.mpr hm)
  source m hm := h.source m (hp.mem_iff.mpr hm)
  path m hm := h.path m (hp.mem_iff.mpr hm)
  solvent id n s hn := outgoing_perm hp s id ▸ h.solvent id n s hn

/-- Edges are stored under their own id. -/
def Keyed (edges : Dict EdgeId Edge) : Prop := ∀ k e, edges.get? k = some e → e.id = k

/-- Loading an edge leaves it under its id. -/
theorem Keyed.loadEdge {edges : Dict EdgeId Edge} (h : Keyed edges) (m : SideMove) :
    Keyed (loadEdge edges m) := by
  rw [HexWar.loadEdge]
  cases he : edges.get? m.2.edgeId with
  | none => exact h
  | some e =>
    intro k e' hk
    simp only [Dict.get?_set] at hk
    split at hk
    · rename_i hid
      cases hk
      exact hid
    · exact h k e' hk

/-- A node after a move: it has lost the move's units, or it is another node. -/
theorem get?_departNode (nodes : Dict NodeId Node) (m : SideMove) (id : NodeId) :
    (departNode nodes m).get? id =
      if m.2.fromNode = id then (nodes.get? id).map (·.departed m.1 m.2.count)
      else nodes.get? id := by
  rw [departNode]
  cases hn : nodes.get? m.2.fromNode with
  | none =>
    by_cases h : m.2.fromNode = id
    · rw [if_pos h, ← h, hn]; rfl
    · rw [if_neg h]
  | some n =>
    simp only [Dict.get?_set]
    by_cases h : m.2.fromNode = id
    · rw [if_pos h, if_pos h, ← h, hn]; rfl
    · rw [if_neg h, if_neg h]

/-- An edge after a move: it has the move's units on it, or it is another edge. -/
theorem get?_loadEdge {edges : Dict EdgeId Edge} (hk : Keyed edges) (m : SideMove) (id : EdgeId) :
    (loadEdge edges m).get? id =
      if m.2.edgeId = id then (edges.get? id).map (·.startTravel m.1 m.2.count m.2.toNode)
      else edges.get? id := by
  rw [loadEdge]
  cases he : edges.get? m.2.edgeId with
  | none =>
    by_cases h : m.2.edgeId = id
    · rw [if_pos h, ← h, he]; rfl
    · rw [if_neg h]
  | some e =>
    simp only [Dict.get?_set, hk _ _ he]
    by_cases h : m.2.edgeId = id
    · rw [if_pos h, if_pos h, ← h, he]; rfl
    · rw [if_neg h, if_neg h]

/-- Executing the first move leaves the others payable. -/
theorem Payable.tail {nodes : Dict NodeId Node} {edges : Dict EdgeId Edge} {m : SideMove}
    {ms : List SideMove} (h : Payable nodes edges (m :: ms)) (hk : Keyed edges) :
    Payable (departNode nodes m) (loadEdge edges m) ms where
  pos m' hm' := h.pos m' (List.mem_cons_of_mem _ hm')
  source m' hm' := by
    obtain ⟨n, hn⟩ := h.source m' (List.mem_cons_of_mem _ hm')
    rw [get?_departNode, hn]
    split
    · exact ⟨_, rfl⟩
    · exact ⟨n, rfl⟩
  path m' hm' := by
    obtain ⟨e, he⟩ := h.path m' (List.mem_cons_of_mem _ hm')
    rw [get?_loadEdge hk, he]
    split
    · exact ⟨_, rfl⟩
    · exact ⟨e, rfl⟩
  solvent id n s hn := by
    rw [get?_departNode] at hn
    -- The node that the move leaves has paid for it; at the other nodes nothing has changed.
    by_cases hid : m.2.fromNode = id
    · rw [if_pos hid] at hn
      obtain ⟨n₀, hn₀, rfl⟩ := Option.map_eq_some_iff.mp hn
      have hsol := h.solvent id n₀ s hn₀
      rw [outgoing_cons] at hsol
      rw [(Node.recount_departed n₀ m.1 m.2.count).mobile s]
      by_cases hs : s = m.1
      · rw [if_pos ⟨hs.symm, hid⟩] at hsol
        rw [if_pos hs]; omega
      · rw [if_neg fun hc => hs hc.1.symm] at hsol
        rw [if_neg hs]; omega
    · rw [if_neg hid] at hn
      have hsol := h.solvent id n s hn
      rw [outgoing_cons, if_neg fun hc => hid hc.2] at hsol
      omega

/-- The room after one reserved move. -/
def afterMove (room : GameRoom) (m : SideMove) : GameRoom :=
  { room with nodes := departNode room.nodes m, edges := loadEdge room.edges m }

/-- A move at the head of a payable list takes exactly its units. -/
theorem Payable.head {nodes : Dict NodeId Node} {edges : Dict EdgeId Edge} {m : SideMove}
    {ms : List SideMove} (h : Payable nodes edges (m :: ms)) :
    ∃ n, nodes.get? m.2.fromNode = some n ∧
      n.departMobileUnits m.1 m.2.count = .ok (m.2.count, n.departed m.1 m.2.count) := by
  obtain ⟨n, hn⟩ := h.source m List.mem_cons_self
  have hpos := h.pos m List.mem_cons_self
  have hrest := outgoing_nonneg (fun m' hm' => h.pos m' (List.mem_cons_of_mem _ hm')) m.1
    m.2.fromNode
  have hsol := h.solvent m.2.fromNode n m.1 hn
  rw [outgoing_cons, if_pos ⟨rfl, rfl⟩] at hsol
  exact ⟨n, hn, Node.departMobileUnits_ok (by omega) (by omega)⟩

/-- The first move of a payable list is executed. -/
theorem executeMove_ok {room : GameRoom} {m : SideMove} {ms : List SideMove}
    (h : Payable room.nodes room.edges (m :: ms)) :
    executeMove m room = .ok (moveRecord m) (afterMove room m) := by
  obtain ⟨n, hn, hdep⟩ := h.head
  obtain ⟨e, he⟩ := h.path m List.mem_cons_self
  have hedge : getEdge (EdgeId.of m.2.fromNode m.2.toNode)
      { room with nodes := room.nodes.set m.2.fromNode (n.departed m.1 m.2.count) } =
        .ok e { room with nodes := room.nodes.set m.2.fromNode (n.departed m.1 m.2.count) } :=
    getEdge_ok he
  rw [executeMove, bind_of_ok (getNode_ok hn), hdep, liftExcept, bind_of_ok (pure_apply _ room),
    setNode, bind_of_ok (modify_apply _ room), bind_of_ok hedge, setEdge,
    bind_of_ok (modify_apply _ _)]
  rw [afterMove, departNode, hn, loadEdge, he]
  rfl

/-- The room after a list of reserved moves. -/
def afterMoves (room : GameRoom) (moves : List SideMove) : GameRoom :=
  { room with nodes := moves.foldl departNode room.nodes, edges := moves.foldl loadEdge room.edges }

/-- Nodes and edges change independently, so one fold over the room is two. -/
theorem foldl_afterMove (moves : List SideMove) :
    ∀ room : GameRoom, moves.foldl afterMove room = afterMoves room moves := by
  induction moves with
  | nil => exact fun _ => rfl
  | cons m ms ih => exact fun room => ih (afterMove room m)

/-- **The departure loop** runs through a payable list, and takes each move's exact units. -/
theorem executeMoves_ok {room : GameRoom} {moves : List SideMove}
    (h : Payable room.nodes room.edges moves) (hk : Keyed room.edges) :
    executeMoves moves room = .ok (moves.map moveRecord) (afterMoves room moves) := by
  -- The invariant of the loop: what is still to be executed is payable.
  have hloop := forEach_ok (f := executeMove)
    (I := fun ms r => Payable r.nodes r.edges ms ∧ Keyed r.edges) (g := afterMove)
    (r := fun _ m => moveRecord m)
    (fun m ms r hI => ⟨executeMove_ok hI.1, hI.1.tail hI.2, hI.2.loadEdge m⟩)
    moves room ⟨h, hk⟩
  rw [outputs_const, foldl_afterMove] at hloop
  exact hloop.1

/-! ## One arrival

An arrival changes its destination and nothing else. -/

/-- The nodes after an arrival. -/
def arriveNode (nodes : Dict NodeId Node) (a : ArrivalInfo) : Dict NodeId Node :=
  match nodes.get? a.destination with
  | some n => nodes.set a.destination (n.arrived a.side a.count)
  | none => nodes

/-- What is recorded of an arrival: itself, and the owner it changed. -/
def deliveryRecord (nodes : Dict NodeId Node) (a : ArrivalInfo) :
    ArrivalRecord × Option OwnershipChangeRecord :=
  (⟨a.destination, a.side, a.count, a.viaEdge⟩,
    match nodes.get? a.destination with
    | some n =>
      if (n.arrived a.side a.count).ownership ≠ n.ownership then
        some ⟨a.destination.value, toString n.ownership,
          toString (n.arrived a.side a.count).ownership, (n.arrived a.side a.count).isSupplyLine⟩
      else none
    | none => none)

/-- A node after an arrival: it has the units, or it is another node. -/
theorem get?_arriveNode (nodes : Dict NodeId Node) (a : ArrivalInfo) (id : NodeId) :
    (arriveNode nodes a).get? id =
      if a.destination = id then (nodes.get? id).map (·.arrived a.side a.count)
      else nodes.get? id := by
  rw [arriveNode]
  cases hn : nodes.get? a.destination with
  | none =>
    by_cases h : a.destination = id
    · rw [if_pos h, ← h, hn]; rfl
    · rw [if_neg h]
  | some n =>
    simp only [Dict.get?_set]
    by_cases h : a.destination = id
    · rw [if_pos h, if_pos h, ← h, hn]; rfl
    · rw [if_neg h, if_neg h]

/-- Every arrival of the list has units and a node to go to. -/
def Deliverable (nodes : Dict NodeId Node) (arrivals : List ArrivalInfo) : Prop :=
  ∀ a ∈ arrivals, 1 ≤ a.count ∧ ∃ n, nodes.get? a.destination = some n

/-- An arrival leaves every node in its place. -/
theorem Deliverable.tail {nodes : Dict NodeId Node} {a : ArrivalInfo} {as : List ArrivalInfo}
    (h : Deliverable nodes (a :: as)) : Deliverable (arriveNode nodes a) as := by
  intro a' ha'
  obtain ⟨hpos, n, hn⟩ := h a' (List.mem_cons_of_mem _ ha')
  refine ⟨hpos, ?_⟩
  rw [get?_arriveNode, hn]
  split
  · exact ⟨_, rfl⟩
  · exact ⟨n, rfl⟩

/-- The first arrival of a deliverable list is delivered. -/
theorem deliverArrival_ok {room : GameRoom} {a : ArrivalInfo} {as : List ArrivalInfo}
    (h : Deliverable room.nodes (a :: as)) :
    deliverArrival a room =
      .ok (deliveryRecord room.nodes a) { room with nodes := arriveNode room.nodes a } := by
  obtain ⟨hpos, n, hn⟩ := h a List.mem_cons_self
  rw [deliverArrival, bind_of_ok (getNode_ok hn), Node.arriveMobileUnits_ok hpos, liftExcept,
    bind_of_ok (pure_apply _ room), setNode, bind_of_ok (modify_apply _ room), pure_apply,
    deliveryRecord, arriveNode, hn]

/-- **The arrival loop** runs through a deliverable list. -/
theorem deliver_ok {room : GameRoom} {arrivals : List ArrivalInfo}
    (h : Deliverable room.nodes arrivals) :
    forEach deliverArrival arrivals room =
      .ok (outputs arriveNode deliveryRecord room.nodes arrivals)
        { room with nodes := arrivals.foldl arriveNode room.nodes } := by
  have hloop := (forEach_ok (f := deliverArrival)
    (I := fun as r => Deliverable r.nodes as)
    (g := fun r a => { r with nodes := arriveNode r.nodes a })
    (r := fun r a => deliveryRecord r.nodes a)
    (fun a as r hI => ⟨deliverArrival_ok hI, hI.tail⟩) arrivals room h).1
  -- Only the nodes of the room take part in the loop.
  have hfold : ∀ (as : List ArrivalInfo) (r : GameRoom),
      as.foldl (fun r a => { r with nodes := arriveNode r.nodes a }) r =
        { r with nodes := as.foldl arriveNode r.nodes } := by
    intro as
    induction as with
    | nil => exact fun _ => rfl
    | cons a as ih => exact fun r => ih _
  have hout : ∀ (as : List ArrivalInfo) (r : GameRoom),
      outputs (fun r a => { r with nodes := arriveNode r.nodes a })
        (fun r a => deliveryRecord r.nodes a) r as = outputs arriveNode deliveryRecord r.nodes as := by
    intro as
    induction as with
    | nil => exact fun _ => rfl
    | cons a as ih => exact fun r => congrArg (deliveryRecord r.nodes a :: ·) (ih _)
  rw [hloop, hfold, hout]

/-! ## Registering the encounters

An encounter is appended to those that are pending, with its groups as they are now. -/

/-- The record of an encounter on an edge. -/
def encounterRecord (edges : Dict EdgeId Edge) (enc : EncounterInfo) : EncounterRecord :=
  match edges.get? enc.edgeId with
  | some e => ⟨toString enc.edgeId, e.fromNode.value, e.toNode.value, enc.groupA.unitCount,
      enc.groupB.unitCount, enc.remainingRounds⟩
  -- Never read: an encounter is found on an edge of the map.
  | none => ⟨"", 0, 0, 0, 0, 0⟩

/-- The pending encounter that an encounter becomes. -/
def EncounterInfo.toPending (enc : EncounterInfo) : PendingEncounter :=
  .new enc.edgeId enc.groupA enc.groupB enc.remainingRounds

/-- **The encounter loop** runs through encounters on edges of the map. -/
theorem register_ok {room : GameRoom} {encs : List EncounterInfo}
    (h : ∀ enc ∈ encs, ∃ e, room.edges.get? enc.edgeId = some e) :
    forEach registerEncounter encs room = .ok (encs.map (encounterRecord room.edges))
      { room with
        pendingEncounters := room.pendingEncounters ++ encs.map EncounterInfo.toPending } := by
  induction encs generalizing room with
  | nil => rw [forEach_nil, List.map_nil, List.map_nil, List.append_nil]
  | cons enc encs ih =>
    obtain ⟨e, he⟩ := h enc List.mem_cons_self
    refine forEach_cons_ok_iff.mpr ⟨encounterRecord room.edges enc,
      { room with pendingEncounters := room.pendingEncounters ++ [enc.toPending] }, _, ?_,
      ih fun enc' henc' => h enc' (List.mem_cons_of_mem _ henc'), rfl⟩ |>.trans ?_
    · rw [registerEncounter, bind_of_ok (getEdge_ok he), bind_of_ok (modify_apply _ room),
        pure_apply, encounterRecord, he]
      rfl
    · simp only [List.map_cons, List.append_assoc, List.singleton_append]

/-! ## One node's share of a batch, and one edge's

What a loop does to a node or an edge depends only on the elements of the batch that concern it, in
their order. -/

/-- Units of a side that leave a node or reach it. -/
abbrev Passage := PlayerSide × Int

/-- The units of a side in a list of passages. -/
def passing (s : PlayerSide) (ps : List Passage) : Int :=
  ((ps.filter fun p => p.1 = s).map fun p => p.2).sum

/-- The passages of a batch of moves at the node they leave. -/
def leaving (moves : List SideMove) (id : NodeId) : List Passage :=
  (moves.filter fun m => m.2.fromNode = id).map fun m => (m.1, m.2.count)

/-- The passages of a batch of arrivals at the node they reach. -/
def reaching (arrivals : List ArrivalInfo) (id : NodeId) : List Passage :=
  (arrivals.filter fun a => a.destination = id).map fun a => (a.side, a.count)

namespace Node

/-- The node after a list of departures. -/
def departAll (n : Node) (ps : List Passage) : Node := ps.foldl (fun n p => n.departed p.1 p.2) n

/-- The node after a list of arrivals. -/
def arriveAll (n : Node) (ps : List Passage) : Node := ps.foldl (fun n p => n.arrived p.1 p.2) n

end Node

/-- The units of a side among the passages: the first one's, if it is of this side, -/
theorem passing_cons (s : PlayerSide) (p : Passage) (ps : List Passage) :
    passing s (p :: ps) = (if p.1 = s then p.2 else 0) + passing s ps := by
  by_cases h : p.1 = s
  · simp [passing, h]
  · simp [passing, h]

/-- the same in every order, -/
theorem passing_perm {ps qs : List Passage} (h : ps.Perm qs) (s : PlayerSide) :
    passing s ps = passing s qs :=
  ((h.filter _).map _).sum_eq

/-- and never less than nothing. -/
theorem passing_nonneg {ps : List Passage} (h : ∀ p ∈ ps, 1 ≤ p.2) (s : PlayerSide) :
    0 ≤ passing s ps := by
  induction ps with
  | nil => exact Int.le_refl 0
  | cons p ps ih =>
    have hp := h p List.mem_cons_self
    have hrest := ih fun q hq => h q (List.mem_cons_of_mem _ hq)
    rw [passing_cons]
    split <;> omega

/-- What a batch takes from a node is what leaves it. -/
theorem outgoing_eq (moves : List SideMove) (s : PlayerSide) (id : NodeId) :
    outgoing moves s id = passing s (leaving moves id) := by
  rw [outgoing, passing, leaving, List.filter_map, List.map_map, List.filter_filter]
  simp only [Function.comp_def, Bool.decide_and]

/-- The groups that a batch of moves puts on an edge. -/
def loads (moves : List SideMove) (id : EdgeId) : List TravelingGroup :=
  (moves.filter fun m => m.2.edgeId = id).map fun m => ⟨m.1, m.2.count, m.2.toNode⟩

/-- After all moves the edges are still under their ids. -/
theorem Keyed.loaded {edges : Dict EdgeId Edge} (h : Keyed edges) (moves : List SideMove) :
    Keyed (moves.foldl HexWar.loadEdge edges) := by
  induction moves generalizing edges with
  | nil => exact h
  | cons m ms ih => exact ih (h.loadEdge m)

/-- What the departure loop does to one edge. -/
theorem get?_loaded (moves : List SideMove) (id : EdgeId) :
    ∀ {edges : Dict EdgeId Edge}, Keyed edges → (moves.foldl loadEdge edges).get? id =
      (edges.get? id).map (·.loadAll (loads moves id)) := by
  induction moves with
  | nil => exact fun _ => Option.map_id_apply.symm
  | cons m ms ih =>
    intro edges hk
    rw [List.foldl_cons, ih (hk.loadEdge m), get?_loadEdge hk]
    by_cases h : m.2.edgeId = id
    · have hl : loads (m :: ms) id = ⟨m.1, m.2.count, m.2.toNode⟩ :: loads ms id := by
        simp [loads, h]
      rw [if_pos h, hl, Option.map_map]
      rfl
    · have hl : loads (m :: ms) id = loads ms id := by simp [loads, h]
      rw [if_neg h, hl]

/-- What the departure loop does to one node. -/
theorem get?_departures (moves : List SideMove) (id : NodeId) :
    ∀ nodes : Dict NodeId Node, (moves.foldl departNode nodes).get? id =
      (nodes.get? id).map (·.departAll (leaving moves id)) := by
  induction moves with
  | nil => exact fun nodes => Option.map_id_apply.symm
  | cons m ms ih =>
    intro nodes
    rw [List.foldl_cons, ih, get?_departNode]
    by_cases h : m.2.fromNode = id
    · have hl : leaving (m :: ms) id = (m.1, m.2.count) :: leaving ms id := by simp [leaving, h]
      rw [if_pos h, hl, Option.map_map]
      rfl
    · have hl : leaving (m :: ms) id = leaving ms id := by simp [leaving, h]
      rw [if_neg h, hl]

/-- What the arrival loop does to one node. -/
theorem get?_arrivals (arrivals : List ArrivalInfo) (id : NodeId) :
    ∀ nodes : Dict NodeId Node, (arrivals.foldl arriveNode nodes).get? id =
      (nodes.get? id).map (·.arriveAll (reaching arrivals id)) := by
  induction arrivals with
  | nil => exact fun nodes => Option.map_id_apply.symm
  | cons a as ih =>
    intro nodes
    rw [List.foldl_cons, ih, get?_arriveNode]
    by_cases h : a.destination = id
    · have hl : reaching (a :: as) id = (a.side, a.count) :: reaching as id := by
        simp [reaching, h]
      rw [if_pos h, hl, Option.map_map]
      rfl
    · have hl : reaching (a :: as) id = reaching as id := by simp [reaching, h]
      rw [if_neg h, hl]

namespace Node

/-- Departures take their units, and touch neither the name nor the kind of the node. -/
theorem departAll_base (ps : List Passage) :
    ∀ n : Node, (n.departAll ps).id = n.id ∧ (n.departAll ps).type = n.type ∧
      ∀ s, (n.departAll ps).getMobileCount s = n.getMobileCount s - passing s ps := by
  induction ps with
  | nil => exact fun n => ⟨rfl, rfl, fun s => (Int.sub_zero _).symm⟩
  | cons p ps ih =>
    intro n
    have hstep := recount_departed n p.1 p.2
    obtain ⟨hid, htype, hmobile⟩ := ih (n.departed p.1 p.2)
    refine ⟨hid.trans hstep.id, htype.trans hstep.type, fun s => ?_⟩
    show ((n.departed p.1 p.2).departAll ps).getMobileCount s = _
    rw [hmobile, hstep.mobile, passing_cons]
    rcases em (p.1 = s) with h | h
    · rw [if_pos h, if_pos h.symm]; omega
    · rw [if_neg h, if_neg fun h' => h h'.symm]; omega

/-- Arrivals bring their units, and touch neither the name nor the kind of the node. -/
theorem arriveAll_base (ps : List Passage) :
    ∀ n : Node, (n.arriveAll ps).id = n.id ∧ (n.arriveAll ps).type = n.type ∧
      ∀ s, (n.arriveAll ps).getMobileCount s = n.getMobileCount s + passing s ps := by
  induction ps with
  | nil => exact fun n => ⟨rfl, rfl, fun s => (Int.add_zero _).symm⟩
  | cons p ps ih =>
    intro n
    have hstep := recount_arrived n p.1 p.2
    obtain ⟨hid, htype, hmobile⟩ := ih (n.arrived p.1 p.2)
    refine ⟨hid.trans hstep.id, htype.trans hstep.type, fun s => ?_⟩
    show ((n.arrived p.1 p.2).arriveAll ps).getMobileCount s = _
    rw [hmobile, hstep.mobile, passing_cons]
    rcases em (p.1 = s) with h | h
    · rw [if_pos h, if_pos h.symm]; omega
    · rw [if_neg h, if_neg fun h' => h h'.symm]; omega

end Node
end HexWar
