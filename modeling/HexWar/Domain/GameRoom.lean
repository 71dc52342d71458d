/-
  The room: the state of one game, and the operations on it.

  An operation is a `Game α`, an action on the room that returns or throws (`Lib.Action`); a throw
  leaves the room as it is at that point, so "a rejected command changes nothing" is a theorem about
  these definitions and not built into them.  The order of every loop is the source's: the moves of
  side A before those of side B (`reservedMoves`), edges and nodes in the order of their dictionary.
  `executeMoves` and `deliverArrivals` take the list they run over as an argument, which is what lets
  the order of a resolution be varied later.

-/
import HexWar.Domain.Edge
import HexWar.Domain.Events
import HexWar.Domain.Node
import HexWar.Lib.Action

namespace HexWar

open Lib Lib.Action

/-! ## Data

What the room holds of a round: the moves reserved, the encounters that are pending, and the records
that an operation returns. -/

/-- What a player asks for. -/
structure MoveCommand where
  fromNode : NodeId
  toNode : NodeId
  unitCount : Int
deriving DecidableEq, Repr

/-- A move reserved in the planning phase. -/
structure PendingMove where
  fromNode : NodeId
  toNode : NodeId
  count : Int
deriving DecidableEq, Repr

/-- What is granted: perhaps fewer units than were asked for. -/
structure MoveResult where
  actualMoved : Int
  fromNode : NodeId
  toNode : NodeId
deriving DecidableEq, Repr

/-- A group that has come to the end of its edge. -/
structure ArrivalInfo where
  destination : NodeId
  side : PlayerSide
  count : Int
  viaEdge : EdgeId
deriving DecidableEq, Repr

/-- Did the round end the game, and for whom? -/
structure RoundResolutionResult where
  gameOver : Bool
  winner : Option PlayerSide
deriving DecidableEq, Repr

/-- An encounter that waits for the decisions of the two sides. -/
structure PendingEncounter where
  edgeId : EdgeId
  /-- The groups as they were when they met. -/
  groupA : TravelingGroup
  groupB : TravelingGroup
  /-- How far the groups still have to go. -/
  remainingRounds : Int
  decision : PerSide (Option EncounterDecision)
  outcome : PerSide (Option EncounterOutcome)
deriving DecidableEq, Repr

namespace PendingEncounter

/-- At first nobody has decided. -/
def new (edgeId : EdgeId) (groupA groupB : TravelingGroup) (remainingRounds : Int) :
    PendingEncounter :=
  ⟨edgeId, groupA, groupB, remainingRounds, .both none, .both none⟩

/-- A side has decided when its decision is recorded. -/
def hasDecided (p : PendingEncounter) (side : PlayerSide) : Bool := (p.decision.get side).isSome

def bothDecided (p : PendingEncounter) : Bool := p.hasDecided .a && p.hasDecided .b

/-- What a side has decided. -/
def getDecision (p : PendingEncounter) (side : PlayerSide) : Option EncounterDecision :=
  p.decision.get side

/-- A side's decision and what comes of it are recorded together. -/
def markDecided (p : PendingEncounter) (side : PlayerSide) (decision : EncounterDecision)
    (outcome : EncounterOutcome) : PendingEncounter :=
  { p with decision := p.decision.set side (some decision)
           outcome := p.outcome.set side (some outcome) }

/-- The group of the side that decides. -/
def groupOf (p : PendingEncounter) (side : PlayerSide) : TravelingGroup :=
  if p.groupA.side = side then p.groupA else p.groupB

end PendingEncounter

/-- The state of one game. -/
structure GameRoom where
  roomId : String
  /-- The server that owns the room, as far as it is known. -/
  ownerServerId : Option String
  phase : GamePhase
  currentRound : Int
  maxRounds : Int
  nodes : Dict NodeId Node
  edges : Dict EdgeId Edge
  players : PerSide (Option PlayerId)
  /-- Units that a side has reserved moves for in this round. -/
  unitUsedThisRound : PerSide Int
  /-- The moves each side has reserved, in the order of its commands. -/
  pendingMoves : PerSide (List PendingMove)
  pendingEncounters : List PendingEncounter
  /-- Events raised and not yet taken out. -/
  domainEvents : List DomainEvent

/-- An operation on the room. -/
abbrev Game := EStateM GameError GameRoom

/-- The most units a side can move in a round. -/
def maxUnitsPerPlayer : Int := 3

namespace GameRoom

/-! ## Queries

What is read off the room without changing it. -/

/-- How many players have joined. -/
def playerCount (room : GameRoom) : Nat :=
  (if room.players.a.isSome then 1 else 0) + (if room.players.b.isSome then 1 else 0)

/-- The encounters that wait for a side. -/
def getUndecidedEncounters (room : GameRoom) (side : PlayerSide) : List PendingEncounter :=
  room.pendingEncounters.filter fun p => ¬ p.hasDecided side

def hasPendingEncounterOn (room : GameRoom) (edgeId : EdgeId) : Bool :=
  room.pendingEncounters.any fun p => p.edgeId = edgeId

/-- A round may be resolved once every pending encounter is decided. -/
def isReadyForResolution (room : GameRoom) : Bool :=
  if room.phase ≠ .planning then false else room.pendingEncounters.all (·.bothDecided)

/-- How many units a side may still move in this round. -/
def getRemainingUnits (room : GameRoom) (side : PlayerSide) : Int :=
  maxUnitsPerPlayer - room.unitUsedThisRound.get side

def getPendingMoves (room : GameRoom) (side : PlayerSide) : List PendingMove :=
  room.pendingMoves.get side

/-- The number of nodes with an owner. -/
def nodesOwned (room : GameRoom) (owner : NodeOwnership) : Int :=
  room.nodes.values.countP fun n => n.ownership = owner

/-- The game is over when one side holds every node but the headquarters. -/
def checkGameOver (room : GameRoom) : Bool :=
  let nonHQNodes := room.nodes.values.filter fun n => ¬ n.isHeadquarters
  nonHQNodes.all (fun n => n.ownership = .playerA) || nonHQNodes.all (fun n => n.ownership = .playerB)

/-- Whoever owns more nodes wins; with equal numbers nobody does. -/
def getWinner (room : GameRoom) : Option PlayerSide :=
  if room.nodesOwned .playerA > room.nodesOwned .playerB then some .a
  else if room.nodesOwned .playerB > room.nodesOwned .playerA then some .b
  else none

/-- The numbers of nodes, which are the score. -/
def scores (room : GameRoom) : PerSide Int := ⟨room.nodesOwned .playerA, room.nodesOwned .playerB⟩

/-- The moves reserved by both sides, in the order in which they are executed. -/
def reservedMoves (room : GameRoom) : List (PlayerSide × PendingMove) :=
  (room.pendingMoves.a.map fun m => (.a, m)) ++ room.pendingMoves.b.map fun m => (.b, m)

/-- The encounters of all edges, in the order of the dictionary. -/
def findAllEncounters (room : GameRoom) : List EncounterInfo :=
  room.edges.values.flatMap (·.findAllEncounters)

end GameRoom

/-- The arrivals that belong to a group in an encounter. -/
def getBlockedUnits (encounters : List EncounterInfo) : List ArrivalInfo :=
  encounters.flatMap fun enc =>
    [⟨enc.groupA.destination, enc.groupA.side, enc.groupA.unitCount, enc.edgeId⟩,
     ⟨enc.groupB.destination, enc.groupB.side, enc.groupB.unitCount, enc.edgeId⟩]

/-! ## Access to the parts of the room

A dictionary's indexer throws for a missing key.  The lemmas below say what each access does when
the key is there, and when it is not. -/

/-- An event is kept in the room until it is taken out. -/
def raiseEvent (e : DomainEvent) : Game Unit :=
  modify fun room => { room with domainEvents := room.domainEvents ++ [e] }

/-- A node that must be there. -/
def getNode (id : NodeId) : Game Node := do
  match (← get).nodes.get? id with
  | some node => return node
  | none => throw (.keyNotFound (toString id))

/-- Write a node. -/
def setNode (id : NodeId) (node : Node) : Game Unit :=
  modify fun room => { room with nodes := room.nodes.set id node }

/-- An edge that must be there. -/
def getEdge (id : EdgeId) : Game Edge := do
  match (← get).edges.get? id with
  | some edge => return edge
  | none => throw (.keyNotFound (toString id))

/-- Write an edge, under its own identifier. -/
def setEdge (edge : Edge) : Game Unit :=
  modify fun room => { room with edges := room.edges.set edge.id edge }

/-- A player who must have joined. -/
def getPlayer (side : PlayerSide) : Game PlayerId := do
  match (← get).players.get side with
  | some player => return player
  | none => throw (.keyNotFound (toString side))

/-- The error of a node's or an edge's own operation is the error of the room's. -/
def liftExcept {α : Type} : Except GameError α → Game α
  | .ok a => pure a
  | .error e => throw e

/-- Access to a node of the map, -/
theorem getNode_ok {id : NodeId} {room : GameRoom} {n : Node} (h : room.nodes.get? id = some n) :
    getNode id room = .ok n room := by
  rw [getNode, bind_of_ok (get_apply room), h]
  rfl

/-- and to one that is not on it; -/
theorem getNode_absent {id : NodeId} {room : GameRoom} (h : room.nodes.get? id = none) :
    getNode id room = .error (.keyNotFound (toString id)) room := by
  rw [getNode, bind_of_ok (get_apply room), h]
  rfl

/-- to an edge of the map, -/
theorem getEdge_ok {id : EdgeId} {room : GameRoom} {e : Edge} (h : room.edges.get? id = some e) :
    getEdge id room = .ok e room := by
  rw [getEdge, bind_of_ok (get_apply room), h]
  rfl

/-- and to one that is not on it; -/
theorem getEdge_absent {id : EdgeId} {room : GameRoom} (h : room.edges.get? id = none) :
    getEdge id room = .error (.keyNotFound (toString id)) room := by
  rw [getEdge, bind_of_ok (get_apply room), h]
  rfl

/-- and to a player who has joined. -/
theorem getPlayer_ok {side : PlayerSide} {room : GameRoom} {p : PlayerId}
    (h : room.players.get side = some p) : getPlayer side room = .ok p room := by
  rw [getPlayer, bind_of_ok (get_apply room), h]
  rfl

/-! ## Setting up a game

Nodes and edges are created one by one, in the order of InitializeMap. -/

/-- A room nobody has joined, without a map. -/
def GameRoom.new (roomId : String) : GameRoom where
  roomId := roomId
  ownerServerId := none
  phase := .watingForPlayers
  currentRound := 0
  maxRounds := 20
  nodes := Dict.empty
  edges := Dict.empty
  players := .both none
  unitUsedThisRound := .both 0
  pendingMoves := .both []
  pendingEncounters := []
  domainEvents := []

/-- A new node; its identifier must be free. -/
def createNode (id : NodeId) (name : String) (type : NodeType) : Game Unit := do
  throwIf ((← get).nodes.containsKey id)
    (.invalidOperation s!"Node with id {id} already exists in the game room.")
  setNode id (Node.new id name type)

/-- Note on a node that it has a neighbor. -/
def addNeighbor (id neighbor : NodeId) : Game Unit := do
  let node ← getNode id
  setNode id { node with neighbors := node.neighbors ++ [neighbor] }

/-- A new edge, which makes its two ends neighbors. -/
def createEdge (fromNode toNode : NodeId) (distance : Distance) : Game Unit := do
  setEdge (Edge.new fromNode toNode distance)
  addNeighbor fromNode toNode
  addNeighbor toNode fromNode

/-- The six nodes and twelve edges of the map. -/
def initializeMap : Game Unit := do
  createNode ⟨1⟩ "서부 전초기지" .outPost
  createNode ⟨2⟩ "북부 고지" .chokepoint
  createNode ⟨3⟩ "동부 교차로" .supplyLine
  createNode ⟨4⟩ "남부 통로" .chokepoint
  createNode ⟨5⟩ "동부 전초기지" .outPost
  createNode ⟨6⟩ "중앙 사령부" .headquarters
  createEdge ⟨1⟩ ⟨2⟩ ⟨1⟩
  createEdge ⟨1⟩ ⟨4⟩ ⟨2⟩
  createEdge ⟨1⟩ ⟨5⟩ ⟨2⟩
  createEdge ⟨1⟩ ⟨6⟩ ⟨1⟩
  createEdge ⟨2⟩ ⟨3⟩ ⟨2⟩
  createEdge ⟨2⟩ ⟨6⟩ ⟨1⟩
  createEdge ⟨3⟩ ⟨4⟩ ⟨1⟩
  createEdge ⟨3⟩ ⟨5⟩ ⟨1⟩
  createEdge ⟨3⟩ ⟨6⟩ ⟨1⟩
  createEdge ⟨4⟩ ⟨5⟩ ⟨1⟩
  createEdge ⟨4⟩ ⟨6⟩ ⟨1⟩
  createEdge ⟨5⟩ ⟨6⟩ ⟨1⟩

/-- The node a side starts on. -/
def startNode : PlayerSide → NodeId
  | .a => ⟨1⟩
  | .b => ⟨5⟩

/-- The default length of a planning phase. -/
def defaultPlanning : Time := 30000

/-- The first player is side A, the second side B; with the second the game starts. -/
def addPlayer (playerId : PlayerId) (gameStartDeadline : Option Time) (now : Time) :
    Game PlayerSide := do
  let room ← get
  throwIf (room.playerCount ≥ 2) (.domain "Room is full")
  -- The same player cannot join twice.
  throwIf (room.players.a = some playerId ∨ room.players.b = some playerId)
    (.domain "Player already in room")
  -- Three mobile units are set up on the start node, which the side owns from now on.
  let side := if room.playerCount = 0 then PlayerSide.a else .b
  modify fun room => { room with players := room.players.set side (some playerId) }
  let node ← getNode (startNode side)
  let group ← liftExcept ((node.units.get side).addMobile 3)
  setNode (startNode side)
    { node with units := node.units.set side group, ownership := .fromPlayerSide side }
  if (← get).playerCount ≥ 2 then
    modify fun room => { room with phase := .planning, currentRound := 1 }
    let playerA ← getPlayer .a
    let playerB ← getPlayer .b
    raiseEvent (.gameStarted
      ⟨room.roomId, playerA, playerB, 1, gameStartDeadline.getD (now + defaultPlanning)⟩)
  return side

/-! ## Planning

A command is checked first and then reserved; the units leave their node when the round is
resolved. -/

/-- There must be an edge between the two nodes. -/
def validatePath (fromNode toNode : NodeId) : Game Unit := do
  throwIf (¬ (← get).edges.containsKey (EdgeId.of fromNode toNode))
    (.domain s!"No path between {fromNode} and {toNode}")

/-- The units of a list of reserved moves that leave a node. -/
def committedFrom (moves : List PendingMove) (node : NodeId) : Int :=
  ((moves.filter (·.fromNode = node)).map (·.count)).sum

/-- Reserve a move, and announce the departure without its destination. -/
def moveUnits (side : PlayerSide) (command : MoveCommand) : Game MoveResult := do
  let room ← get
  throwIf (room.phase ≠ .planning) (.domain s!"Cannot move in {room.phase} phase")
  throwIf (room.unitUsedThisRound.get side ≥ maxUnitsPerPlayer)
    (.domain "All units already moved this round")
  -- the request is cut down to the units left this round, but not to the units on the node
  let remainingUnits := maxUnitsPerPlayer - room.unitUsedThisRound.get side
  let actualCount := min command.unitCount remainingUnits
  throwIf (actualCount ≤ 0) (.domain "No units available to commit")
  validatePath command.fromNode command.toNode
  let sourceNode ← getNode command.fromNode
  -- Units already reserved from this node are not available a second time.
  let available :=
    sourceNode.getMobileCount side - committedFrom (room.pendingMoves.get side) command.fromNode
  throwIf (available < actualCount) (.domain
    s!"Not enough units at {command.fromNode}. Available: {available}, Requested: {actualCount}")
  modify fun room => { room with
    pendingMoves := room.pendingMoves.update side
      (· ++ [⟨command.fromNode, command.toNode, actualCount⟩])
    unitUsedThisRound := room.unitUsedThisRound.update side (· + actualCount) }
  raiseEvent (.unitsDeparted
    ⟨room.roomId, side, command.fromNode, actualCount, room.currentRound⟩)
  return ⟨actualCount, command.fromNode, command.toNode⟩

/-- Change the first element that satisfies `p`; `none` removes it. -/
def modifyFirst {α : Type} (p : α → Bool) (f : α → Option α) : List α → List α
  | [] => []
  | x :: xs => if p x then (f x).toList ++ xs else x :: modifyFirst p f xs

/-- Carry out a decision on the edge, and say where the group goes. -/
def executeDecision (edge : Edge) (pending : PendingEncounter) (deciderSide : PlayerSide) :
    EncounterDecision → Game EncounterOutcome
  | .retreat => do
    let room ← get
    let decidingGroup := pending.groupOf deciderSide
    let retreatDestination ← liftExcept (edge.id.getOppositeNode decidingGroup.destination)
    setEdge ((edge.removeTravelingGroup deciderSide).startTravel
      deciderSide decidingGroup.unitCount retreatDestination)
    raiseEvent (.unitsRetreated
      ⟨room.roomId, deciderSide, pending.edgeId, decidingGroup.unitCount, room.currentRound⟩)
    return ⟨deciderSide, retreatDestination, decidingGroup.unitCount, edge.distance.roundsRequired⟩
  | .advance => do
    let room ← get
    let decidingGroup := pending.groupOf deciderSide
    raiseEvent (.unitsAdvanced
      ⟨room.roomId, deciderSide, pending.edgeId, decidingGroup.unitCount, room.currentRound⟩)
    return ⟨deciderSide, decidingGroup.destination, decidingGroup.unitCount, pending.remainingRounds⟩

/-- The event of an encounter on which both sides have decided. -/
def resolvedEvent (room : GameRoom) (p : PendingEncounter) : Option DomainEvent :=
  match p.decision.a, p.decision.b with
  | some decisionA, some decisionB => some (.encounterResolved
      ⟨room.roomId, p.edgeId, decisionA, decisionB, p.outcome.a, p.outcome.b, room.currentRound⟩)
  | _, _ => none

/-- Record a side's decision on an encounter, and carry it out at once. -/
def resolveEncounter (edgeId : EdgeId) (deciderSide : PlayerSide) (decision : EncounterDecision) :
    Game Unit := do
  let room ← get
  throwIf (room.phase ≠ .planning)
    (.domain "Encounter decisions must be made during Planning phase")
  match room.pendingEncounters.find? (·.edgeId = edgeId) with
  | none => throw (.domain s!"No pending encounter on edge {edgeId}")
  | some pending =>
    -- A decision cannot be taken back.
    throwIf (pending.hasDecided deciderSide)
      (.domain "Decision already made for this encounter and cannot be changed")
    let edge ← getEdge edgeId
    let outcome ← executeDecision edge pending deciderSide decision
    let decided := pending.markDecided deciderSide decision outcome
    raiseEvent (.encounterDecisionMade ⟨room.roomId, deciderSide, edgeId, decision,
      (pending.groupOf deciderSide).unitCount, room.currentRound⟩)
    -- a decided encounter stays registered until the other side has decided too
    modify fun room => { room with
      pendingEncounters := modifyFirst (·.edgeId = edgeId)
        (fun _ => if decided.bothDecided then none else some decided) room.pendingEncounters }
    match resolvedEvent room decided with
    | some e => raiseEvent e
    | none => pure ()

/-! ## Resolution

The phases of a resolution, each of them a function of its own, and `resolveRound` that runs
them. -/

/-- Execute one reserved move: the units leave their node and start on the edge. -/
def executeMove (move : PlayerSide × PendingMove) : Game MoveExecutionRecord := do
  let sourceNode ← getNode move.2.fromNode
  -- The node may give fewer units than were reserved; the edge gets the reserved number all the
  -- same.
  let departure ← liftExcept (sourceNode.departMobileUnits move.1 move.2.count)
  setNode move.2.fromNode departure.2
  let edge ← getEdge (EdgeId.of move.2.fromNode move.2.toNode)
  setEdge (edge.startTravel move.1 move.2.count move.2.toNode)
  return ⟨move.2.fromNode, move.2.toNode, move.1, move.2.count⟩

/-- The reserved moves, one after the other. -/
def executeMoves (moves : List (PlayerSide × PendingMove)) : Game (List MoveExecutionRecord) :=
  forEach executeMove moves

/-- The arrivals of one edge's advance. -/
def edgeArrivals (edge : Edge) : List ArrivalInfo :=
  edge.advanceRound.1.map fun group => ⟨group.destination, group.side, group.unitCount, edge.id⟩

/-- Every edge advances by one round, and gives up the groups that have arrived. -/
def processAllEdgeAdvances : Game (List ArrivalInfo) := do
  let room ← get
  modify fun room => { room with edges := room.edges.mapValues (·.advanceRound.2) }
  return room.edges.values.flatMap edgeArrivals

/-- Register an encounter for the next round. -/
def registerEncounter (enc : EncounterInfo) : Game EncounterRecord := do
  let edge ← getEdge enc.edgeId
  modify fun room => { room with pendingEncounters := room.pendingEncounters ++
    [PendingEncounter.new enc.edgeId enc.groupA enc.groupB enc.remainingRounds] }
  return ⟨toString enc.edgeId, edge.fromNode.value, edge.toNode.value, enc.groupA.unitCount,
    enc.groupB.unitCount, enc.remainingRounds⟩

/-- Deliver one arrival to its node, with the record of the owner it changed. -/
def deliverArrival (arrival : ArrivalInfo) :
    Game (ArrivalRecord × Option OwnershipChangeRecord) := do
  let node ← getNode arrival.destination
  let node' ← liftExcept (node.arriveMobileUnits arrival.side arrival.count)
  setNode arrival.destination node'
  let change : OwnershipChangeRecord :=
    ⟨arrival.destination.value, toString node.ownership, toString node'.ownership,
      node'.isSupplyLine⟩
  return (⟨arrival.destination, arrival.side, arrival.count, arrival.viaEdge⟩,
    if node'.ownership ≠ node.ownership then some change else none)

/-- Deliver the arrivals that no encounter holds back. -/
def deliverArrivals (blockedUnits arrivals : List ArrivalInfo) :
    Game (List (ArrivalRecord × Option OwnershipChangeRecord)) :=
  forEach deliverArrival (arrivals.filter fun arrival => arrival ∉ blockedUnits)

/-- The record of an encounter whose decisions are both in. -/
def resolvedRecord (p : PendingEncounter) : EncounterResolvedRecord where
  edgeId := toString p.edgeId
  decisionA := (p.decision.a.map toString).getD ""
  decisionB := (p.decision.b.map toString).getD ""
  outcomeAUnits := (p.outcome.a.map (·.unitCount)).getD 0
  outcomeBUnits := (p.outcome.b.map (·.unitCount)).getD 0
  outcomeADirection := (p.outcome.a.map fun o => toString o.destinationNode).getD ""
  outcomeBDirection := (p.outcome.b.map fun o => toString o.destinationNode).getD ""

/-- A node as it is recorded at the end of a round. -/
def snapshot (n : Node) : NodeStateSnapshot where
  nodeId := n.id.value
  ownership := toString n.ownership
  playerAMobile := (n.units.get .a).mobileCount
  playerAGarrison := (n.units.get .a).garrisonCount
  playerBMobile := (n.units.get .b).mobileCount
  playerBGarrison := (n.units.get .b).garrisonCount

/-- Clear the plans of the finished round and count it. -/
def finishRound : Game Unit :=
  modify fun room => { room with
    nodes := room.nodes.mapValues (·.clearDepartureHistory)
    pendingMoves := .both []
    currentRound := room.currentRound + 1
    unitUsedThisRound := .both 0 }

/-- End the game, or open the next planning phase. -/
def openNextRound (completedRound : Int) (deadline : Time) : Game RoundResolutionResult := do
  let room ← get
  if room.checkGameOver ∨ room.currentRound > room.maxRounds then
    let reason := if room.currentRound > room.maxRounds then GameOverReason.maxRoundsReached
      else .allNodesCaptured
    modify fun room => { room with phase := .gameOver }
    raiseEvent (.gameOver ⟨room.roomId, room.getWinner, reason, completedRound, room.scores⟩)
    return ⟨true, room.getWinner⟩
  else
    modify fun room => { room with phase := .planning }
    raiseEvent (.roundStarted ⟨room.roomId, room.currentRound, .planning, deadline⟩)
    return ⟨false, none⟩

/-- Departures, advances, encounters, arrivals; then the round is closed and the next one opened. -/
def resolveRound (nextRoundDeadline : Option Time) (now : Time) : Game RoundResolutionResult := do
  let room ← get
  throwIf (room.phase ≠ .planning) (.domain "Cannot resolve round outside Planning phase")
  modify fun room => { room with phase := .resolution, domainEvents := [] }
  let moveExecutions ← executeMoves room.reservedMoves
  let arrivals ← processAllEdgeAdvances
  -- Encounters are looked for after the advance, among the groups that are still under way.
  let encounters := (← get).findAllEncounters
  let encounterRecords ← forEach registerEncounter encounters
  let delivered ← deliverArrivals (getBlockedUnits encounters) arrivals
  let resolved := (← get).pendingEncounters.filter (·.bothDecided)
  let nodeSnapshots := (← get).nodes.values.map fun n => (n.id.value, snapshot n)
  finishRound
  raiseEvent (.roundResolved
    ⟨room.roomId, room.currentRound, moveExecutions, delivered.map (·.1), encounterRecords,
      delivered.filterMap (·.2), resolved.map resolvedRecord, nodeSnapshots⟩)
  openNextRound room.currentRound (nextRoundDeadline.getD (now + defaultPlanning))

/-! ## Events and forced end

The two operations that a session needs besides the rules. -/

/-- Take the raised events out of the room. -/
def flushDomainEvents : Game (List DomainEvent) := do
  let room ← get
  modify fun room => { room with domainEvents := [] }
  return room.domainEvents

/-- End the game whatever the board says. -/
def forceGameOver (winner : Option PlayerSide) (reason : GameOverReason) : Game Unit := do
  modify fun room => { room with phase := .gameOver }
  let room ← get
  raiseEvent (.gameOver ⟨room.roomId, winner, reason, room.currentRound, room.scores⟩)

end HexWar
