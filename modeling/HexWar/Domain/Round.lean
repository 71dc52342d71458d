/-
  What `resolveRound` does when it does not throw, as a function of the room.

  The source processes the two batches of a round one element after the other: the reserved moves in
  the order A then B, the arrivals in the order of the edges.  `resolveRoundIn order` is the same
  action with the two batches permuted by `order`; the source's own order is `sourceOrder`, and
  `resolveRound` is `resolveRoundIn sourceOrder` by definition (`resolveRound_eq_in`).

  `Resolvable` is what a room must satisfy for the round to go through.  Under it the action returns,
  and the room it leaves is `resolved order room`, a composition of the folds of the three loops
  (`resolveRoundIn_ok`).  Everything later is about those folds; the action itself is not opened
  again.
-/
import HexWar.Domain.Resolution

namespace HexWar

open Lib Lib.Action

/-! ## A resolution in any order -/

/-- An order in which to process the two batches of a round. -/
structure ProcessingOrder where
  moves : List SideMove → List SideMove
  arrivals : List ArrivalInfo → List ArrivalInfo
  moves_perm : ∀ ms, (moves ms).Perm ms
  arrivals_perm : ∀ as, (arrivals as).Perm as

/-- The order of the source: side A's moves first, arrivals edge by edge. -/
def sourceOrder : ProcessingOrder := ⟨id, id, fun _ => .refl _, fun _ => .refl _⟩

/-- `resolveRound` with its two batches in the given order. -/
def resolveRoundIn (order : ProcessingOrder) (nextRoundDeadline : Option Time) (now : Time) :
    Game RoundResolutionResult := do
  let room ← get
  throwIf (room.phase ≠ .planning) (.domain "Cannot resolve round outside Planning phase")
  modify fun room => { room with phase := .resolution, domainEvents := [] }
  let moveExecutions ← executeMoves (order.moves room.reservedMoves)
  let arrivals ← processAllEdgeAdvances
  let encounters := (← get).findAllEncounters
  let encounterRecords ← forEach registerEncounter encounters
  let delivered ← deliverArrivals (getBlockedUnits encounters) (order.arrivals arrivals)
  let resolved := (← get).pendingEncounters.filter (·.bothDecided)
  let nodeSnapshots := (← get).nodes.values.map fun n => (n.id.value, snapshot n)
  finishRound
  raiseEvent (.roundResolved
    ⟨room.roomId, room.currentRound, moveExecutions, delivered.map (·.1), encounterRecords,
      delivered.filterMap (·.2), resolved.map resolvedRecord, nodeSnapshots⟩)
  openNextRound room.currentRound (nextRoundDeadline.getD (now + defaultPlanning))

theorem resolveRound_eq_in (deadline : Option Time) (now : Time) :
    resolveRound deadline now = resolveRoundIn sourceOrder deadline now := rfl

/-! ## The parts of a resolved round -/

namespace ProcessingOrder

variable (o : ProcessingOrder) (room : GameRoom)

/-- The reserved moves, in the order they are executed. -/
def executed : List SideMove := o.moves room.reservedMoves

/-- The nodes once the moving units have left. -/
def emptiedNodes : Dict NodeId Node := (o.executed room).foldl departNode room.nodes

/-- The edges once the moving units are on them. -/
def loadedEdges : Dict EdgeId Edge := (o.executed room).foldl loadEdge room.edges

/-- The edges after one round of travel. -/
def advancedEdges : Dict EdgeId Edge := (o.loadedEdges room).mapValues (·.advanceRound.2)

/-- The groups that reach the end of their edge. -/
def arrivingGroups : List ArrivalInfo := (o.loadedEdges room).values.flatMap edgeArrivals

/-- The encounters on the advanced edges. -/
def encounters : List EncounterInfo := (o.advancedEdges room).values.flatMap (·.findAllEncounters)

/-- The arrivals that no encounter holds back, in the order they are delivered. -/
def deliveries : List ArrivalInfo :=
  (o.arrivals (o.arrivingGroups room)).filter fun a => a ∉ getBlockedUnits (o.encounters room)

/-- The nodes once the arrivals are delivered. -/
def settledNodes : Dict NodeId Node := (o.deliveries room).foldl arriveNode (o.emptiedNodes room)

/-- The pending encounters of the next round. -/
def nextEncounters : List PendingEncounter :=
  room.pendingEncounters ++ (o.encounters room).map EncounterInfo.toPending

/-- What the round's single event tells. -/
def summary : RoundResolved :=
  let delivered := outputs arriveNode deliveryRecord (o.emptiedNodes room) (o.deliveries room)
  ⟨room.roomId, room.currentRound, (o.executed room).map moveRecord, delivered.map (·.1),
    (o.encounters room).map (encounterRecord (o.advancedEdges room)), delivered.filterMap (·.2),
    ((o.nextEncounters room).filter (·.bothDecided)).map resolvedRecord,
    (o.settledNodes room).values.map fun n => (n.id.value, snapshot n)⟩

/-- The room when the round is over and the next one is not yet open. -/
def closedRoom : GameRoom :=
  { room with
    phase := .resolution
    currentRound := room.currentRound + 1
    nodes := (o.settledNodes room).mapValues (·.clearDepartureHistory)
    edges := o.advancedEdges room
    unitUsedThisRound := .both 0
    pendingMoves := .both []
    pendingEncounters := o.nextEncounters room
    domainEvents := [.roundResolved (o.summary room)] }

end ProcessingOrder

/-- Does the room end the game rather than open a round? -/
def GameRoom.endsGame (room : GameRoom) : Prop :=
  room.checkGameOver ∨ room.currentRound > room.maxRounds

instance (room : GameRoom) : Decidable room.endsGame := inferInstanceAs (Decidable (_ ∨ _))

/-- The room that `openNextRound` leaves. -/
def GameRoom.opened (room : GameRoom) (completedRound : Int) (deadline : Time) : GameRoom :=
  if room.endsGame then
    { room with
      phase := .gameOver
      domainEvents := room.domainEvents ++ [.gameOver ⟨room.roomId, room.getWinner,
        if room.currentRound > room.maxRounds then .maxRoundsReached else .allNodesCaptured,
        completedRound, room.scores⟩] }
  else
    { room with
      phase := .planning
      domainEvents := room.domainEvents ++
        [.roundStarted ⟨room.roomId, room.currentRound, .planning, deadline⟩] }

/-- What `openNextRound` returns. -/
def GameRoom.openingResult (room : GameRoom) : RoundResolutionResult :=
  if room.endsGame then ⟨true, room.getWinner⟩ else ⟨false, none⟩

/-- The room after the resolution. -/
def ProcessingOrder.resolved (o : ProcessingOrder) (room : GameRoom) (deadline : Time) : GameRoom :=
  (o.closedRoom room).opened room.currentRound deadline

theorem openNextRound_ok (room : GameRoom) (completedRound : Int) (deadline : Time) :
    openNextRound completedRound deadline room =
      .ok room.openingResult (room.opened completedRound deadline) := by
  rw [openNextRound, bind_of_ok (get_apply room)]
  by_cases h : room.checkGameOver ∨ room.currentRound > room.maxRounds
  · have hend : room.endsGame := h
    rw [if_pos h, GameRoom.openingResult, GameRoom.opened, if_pos hend, if_pos hend]
    rfl
  · have hend : ¬ room.endsGame := h
    rw [if_neg h, GameRoom.openingResult, GameRoom.opened, if_neg hend, if_neg hend]
    rfl

/-! ## When a round goes through -/

/-- What a group on an edge needs in order to arrive. -/
def CanArrive (nodes : Dict NodeId Node) (count : Int) (destination : NodeId) : Prop :=
  1 ≤ count ∧ ∃ n, nodes.get? destination = some n

/-- The room can be resolved: its reserved moves are paid for, and every group can arrive. -/
structure Resolvable (room : GameRoom) : Prop where
  planning : room.phase = .planning
  payable : Payable room.nodes room.edges room.reservedMoves
  keyed : Keyed room.edges
  moving : ∀ m ∈ room.reservedMoves, CanArrive room.nodes m.2.count m.2.toNode
  travelling : ∀ id e k, room.edges.get? id = some e →
    ∀ g ∈ e.bucket k, CanArrive room.nodes g.unitCount g.destination

variable {room : GameRoom}

theorem Resolvable.payable_in (h : Resolvable room) (o : ProcessingOrder) :
    Payable room.nodes room.edges (o.executed room) :=
  h.payable.perm (o.moves_perm _).symm

theorem mem_loads {moves : List SideMove} {id : EdgeId} {g : TravelingGroup} :
    g ∈ loads moves id ↔ ∃ m ∈ moves, m.2.edgeId = id ∧ g = ⟨m.1, m.2.count, m.2.toNode⟩ := by
  simp [loads, and_assoc, eq_comm]

/-- Every group on a loaded edge can arrive. -/
theorem Resolvable.loaded (h : Resolvable room) (o : ProcessingOrder) {id : EdgeId} {e : Edge}
    (he : (o.loadedEdges room).get? id = some e) {k : Int} {g : TravelingGroup}
    (hg : g ∈ e.bucket k) : CanArrive room.nodes g.unitCount g.destination := by
  have hloaded := get?_loaded (o.executed room) id h.keyed
  obtain ⟨e₀, he₀, rfl⟩ := Option.map_eq_some_iff.mp (hloaded.symm.trans he)
  rw [Edge.bucket_loadAll, List.mem_append] at hg
  rcases hg with hold | hnew
  · exact h.travelling id e₀ k he₀ g hold
  · split at hnew
    · obtain ⟨m, hm, -, rfl⟩ := mem_loads.mp hnew
      exact h.moving m ((o.moves_perm _).mem_iff.mp hm)
    · cases hnew

/-- Every arrival can be delivered to the emptied nodes. -/
theorem Resolvable.deliverable (h : Resolvable room) (o : ProcessingOrder) :
    Deliverable (o.emptiedNodes room) (o.deliveries room) := by
  intro a ha
  have hmem : a ∈ o.arrivingGroups room :=
    (o.arrivals_perm _).mem_iff.mp (List.mem_of_mem_filter ha)
  obtain ⟨e, he, harr⟩ := List.mem_flatMap.mp hmem
  obtain ⟨g, hg, rfl⟩ := List.mem_map.mp harr
  obtain ⟨k, -, hgk⟩ := Edge.mem_arrived.mp hg
  obtain ⟨id, hid⟩ := Dict.mem_values.mp he
  obtain ⟨hpos, hnode⟩ := h.loaded o hid hgk
  obtain ⟨n, hn⟩ := hnode
  refine ⟨hpos, n.departAll (leaving (o.executed room) g.destination), ?_⟩
  have hleft := get?_departures (o.executed room) g.destination room.nodes
  rw [hn] at hleft
  exact hleft

/-- The edges of the encounters are edges of the map. -/
theorem encounters_edge (h : Keyed room.edges) (o : ProcessingOrder) {enc : EncounterInfo}
    (henc : enc ∈ o.encounters room) : ∃ e, (o.advancedEdges room).get? enc.edgeId = some e := by
  obtain ⟨e, he, hfound⟩ := List.mem_flatMap.mp henc
  obtain ⟨k, gA, gB, -, -, rfl⟩ := Edge.mem_findAllEncounters.mp hfound
  obtain ⟨id, hid⟩ := Dict.mem_values.mp he
  have hadv : (o.advancedEdges room).get? id = ((o.loadedEdges room).get? id).map
      (·.advanceRound.2) := Dict.get?_mapValues _ _ _
  obtain ⟨e₁, he₁, rfl⟩ := Option.map_eq_some_iff.mp (hadv.symm.trans hid)
  have hkey : e₁.id = id := h.loaded _ _ _ he₁
  show ∃ e, (o.advancedEdges room).get? e₁.id = some e
  rw [hkey]
  exact ⟨_, hid⟩

/-- **A resolvable room is resolved**, in any order: the action returns and leaves
    `resolved order room`. -/
theorem resolveRoundIn_ok (h : Resolvable room) (o : ProcessingOrder) (deadline : Option Time)
    (now : Time) :
    resolveRoundIn o deadline now room =
      .ok (o.closedRoom room).openingResult
        (o.resolved room (deadline.getD (now + defaultPlanning))) := by
  let room₁ : GameRoom := { room with phase := .resolution, domainEvents := [] }
  have hmoves : executeMoves (o.moves room.reservedMoves) room₁ =
      .ok ((o.executed room).map moveRecord) (afterMoves room₁ (o.executed room)) :=
    executeMoves_ok (h.payable_in o) h.keyed
  let room₂ : GameRoom := { room₁ with
    nodes := o.emptiedNodes room, edges := o.advancedEdges room }
  have hregister : forEach registerEncounter (o.encounters room) room₂ =
      .ok ((o.encounters room).map (encounterRecord (o.advancedEdges room)))
        { room₂ with pendingEncounters := o.nextEncounters room } :=
    register_ok fun enc henc => encounters_edge h.keyed o henc
  let room₃ : GameRoom := { room₂ with pendingEncounters := o.nextEncounters room }
  have hdeliver := @deliver_ok room₃ _ (h.deliverable o)
  rw [resolveRoundIn, bind_of_ok (get_apply room),
    bind_of_ok (throwIf_neg (not_not_intro h.planning) room), bind_of_ok (modify_apply _ room),
    bind_of_ok hmoves, processAllEdgeAdvances]
  show (forEach registerEncounter (o.encounters room) >>= _) room₂ = _
  rw [bind_of_ok hregister]
  show (forEach deliverArrival (o.deliveries room) >>= _) room₃ = _
  rw [bind_of_ok hdeliver]
  show openNextRound room.currentRound (deadline.getD (now + defaultPlanning)) (o.closedRoom room) = _
  exact openNextRound_ok _ _ _

/-- A round is resolved in the planning phase only. -/
theorem resolveRoundIn_refused (h : room.phase ≠ .planning) (o : ProcessingOrder)
    (deadline : Option Time) (now : Time) :
    resolveRoundIn o deadline now room =
      .error (.domain "Cannot resolve round outside Planning phase") room := by
  rw [resolveRoundIn, bind_of_ok (get_apply room), bind_of_error (throwIf_pos h room)]

/-- The source's own round. -/
theorem resolveRound_ok (h : Resolvable room) (deadline : Option Time) (now : Time) :
    resolveRound deadline now room =
      .ok (sourceOrder.closedRoom room).openingResult
        (sourceOrder.resolved room (deadline.getD (now + defaultPlanning))) := by
  rw [resolveRound_eq_in]
  exact resolveRoundIn_ok h sourceOrder deadline now

theorem resolveRound_throws (h : room.phase ≠ .planning) (deadline : Option Time) (now : Time) :
    resolveRound deadline now room =
      .error (.domain "Cannot resolve round outside Planning phase") room := by
  rw [resolveRound_eq_in]
  exact resolveRoundIn_refused h sourceOrder deadline now

/-! ## What a round raises -/

/-- The event after the end of a round. -/
def ProcessingOrder.following (o : ProcessingOrder) (room : GameRoom) (deadline : Time) :
    DomainEvent :=
  let closed := o.closedRoom room
  if closed.endsGame then .gameOver ⟨room.roomId, closed.getWinner,
    if closed.currentRound > closed.maxRounds then .maxRoundsReached else .allNodesCaptured,
    room.currentRound, closed.scores⟩
  else .roundStarted ⟨room.roomId, closed.currentRound, .planning, deadline⟩

/-- The game ends, or the next round starts. -/
theorem following_cases (o : ProcessingOrder) (room : GameRoom) (deadline : Time) :
    (∃ e, o.following room deadline = .gameOver e) ∨
      ∃ e, o.following room deadline = .roundStarted e := by
  rw [ProcessingOrder.following]
  by_cases hends : (o.closedRoom room).endsGame
  · exact .inl ⟨_, if_pos hends⟩
  · exact .inr ⟨_, if_neg hends⟩

/-- **A resolution raises two events**, the end of its round and what follows it. -/
theorem events_resolved (room : GameRoom) (deadline : Time) :
    (sourceOrder.resolved room deadline).domainEvents =
      [.roundResolved (sourceOrder.summary room), sourceOrder.following room deadline] := by
  rw [ProcessingOrder.resolved, GameRoom.opened, ProcessingOrder.following]
  by_cases hends : (sourceOrder.closedRoom room).endsGame
  · rw [if_pos hends]
    exact congrArg (_ :: [·]) (if_pos hends).symm
  · rw [if_neg hends]
    exact congrArg (_ :: [·]) (if_neg hends).symm

end HexWar
