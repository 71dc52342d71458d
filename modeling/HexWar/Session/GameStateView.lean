/-
  What a player is shown of the room.

  A view is built for one side from the room, that side's planning state in the session and the
  deadline.  It hides the opponent's groups on an edge unless the two sides have met there, the
  opponent's decision unless both have decided, and, away from the nodes a side sees fully, which of
  the opponent's units are mobile.  Of the reserved moves it shows the side's own only
  (`buildGameStateView_pendingMoves`): this is the part of the view that a secret destination could
  leak through.

  The only thing that can go wrong is the lookup of a pending encounter's edge.

  The records below have the fields of the views that are sent, in the order in which they are
  sent.
-/
import HexWar.Domain.GameRoom

namespace HexWar

open Lib

/-! ## The planning state of a player

What the session keeps for a player besides the room: is it connected, and has it reported the two
halves of its planning as done? -/

/-- The flags of one player; the two last are reset with every round. -/
structure PlayerSessionState where
  isConnected : Bool
  moveCommandCompleted : Bool
  encounterDecisionsCompleted : Bool
deriving DecidableEq, Repr

namespace PlayerSessionState

/-- A player starts connected and with nothing completed. -/
def new : PlayerSessionState := ⟨true, false, false⟩

/-- A new round asks for both halves again and leaves the connection as it is. -/
def resetForNewRound (p : PlayerSessionState) : PlayerSessionState :=
  { p with moveCommandCompleted := false, encounterDecisionsCompleted := false }

/-- Has the side nothing left to move this round? -/
def isMoveCommandCompleted (p : PlayerSessionState) (side : PlayerSide) (room : GameRoom) : Bool :=
  p.moveCommandCompleted || decide (room.getRemainingUnits side ≤ 0) ||
    decide ((room.nodes.values.map (·.getMobileCount side)).sum = 0)

/-- Has the side decided every encounter? -/
def decisionsCompleted (p : PlayerSessionState) (side : PlayerSide) (room : GameRoom) : Bool :=
  p.encounterDecisionsCompleted || (room.getUndecidedEncounters side).isEmpty

end PlayerSessionState

/-! ## The parts of a view

Numbers and names as they are written to the client: nodes by their number, edges and the members of
enumerations by their text. -/

/-- A reserved move of the side itself. -/
structure PendingMoveView where
  fromNodeId : Int
  toNodeId : Int
  unitCount : Int
deriving DecidableEq, Repr

/-- The side's own units on a node. -/
structure UnitGroupDetailView where
  mobile : Int
  garrison : Int
  total : Int
deriving DecidableEq, Repr

/-- The opponent's units on a node; without full visibility only their number. -/
structure EnemyUnitDetailView where
  totalCount : Int
  /-- Known only with full visibility. -/
  mobileCount : Option Int
  garrisonCount : Option Int
  isFullVisibility : Bool
deriving DecidableEq, Repr

/-- Units that left for a node in the last round: from where and how many, but not which way they
    went. -/
structure DepartureView where
  fromNodeId : Int
  unitCount : Int
deriving DecidableEq, Repr

/-- A node as one side sees it. -/
structure NodeView where
  id : Int
  name : String
  type : String
  ownership : String
  isHeadquarters : Bool
  isSupplyLine : Bool
  neighbors : List Int
  isOwnedByMe : Bool
  myUnits : UnitGroupDetailView
  enemyUnits : EnemyUnitDetailView
  /-- The departures of both sides are shown alike. -/
  recentDepartures : List DepartureView
deriving DecidableEq, Repr

/-- A group of the side itself on an edge. -/
structure TravelingUnitView where
  unitCount : Int
  destinationNodeId : Int
  remainingRounds : Int
deriving DecidableEq, Repr

/-- An edge as one side sees it. -/
structure EdgeView where
  fromNodeId : Int
  toNodeId : Int
  distance : Int
  hasMyUnitsTraveling : Bool
  /-- Have the two sides met on this edge, in groups that still wait there? -/
  hasEncounter : Bool
  /-- Known only where the two sides have met. -/
  hasEnemyUnitsTraveling : Option Bool
  myTravelingUnits : List TravelingUnitView
deriving DecidableEq, Repr

/-- An encounter as one of its two sides sees it: how many the enemy are, not where they go. -/
structure PendingEncounterDetailView where
  edgeId : String
  fromNodeId : Int
  toNodeId : Int
  myUnitCount : Int
  myDestinationNodeId : Int
  enemyUnitCount : Int
  remainingRounds : Int
  iHaveDecided : Bool
  myDecision : Option String
  isResolved : Bool
  /-- Known only when both have decided. -/
  enemyDecision : Option String
deriving DecidableEq, Repr

/-- Everything a player is shown of the game. -/
structure GameStateView where
  roomId : String
  phase : String
  currentRound : Int
  maxRounds : Int
  mySide : String
  deadline : Option Time
  myRemainingUnits : Int
  myPendingMoves : List PendingMoveView
  moveCommandCompleted : Bool
  encounterDecisionsCompleted : Bool
  /-- Both of the flags above. -/
  isMyPlanningComplete : Bool
  nodes : List NodeView
  edges : List EdgeView
  pendingEncounters : List PendingEncounterDetailView
  undecidedEncounterEdgeIds : List String
  isGameOver : Bool
  winner : Option String
  scores : PerSide Int
deriving DecidableEq, Repr

/-! ## Building a view

One function for each part, and the view assembled from them. -/

/-- Does a side have units on the headquarters? -/
def hasHeadquartersVision (side : PlayerSide) (room : GameRoom) : Bool :=
  match room.nodes.values.find? (·.isHeadquarters) with
  | some hq => hq.getTotalCount side > 0
  | none => false

/-- A node shows everything of the enemy to its owner, at the headquarters, and to the side that has
    units on the headquarters. -/
def buildNodeView (node : Node) (side : PlayerSide) (hasHQVision : Bool) : NodeView :=
  let isOwned : Bool := node.ownership = .fromPlayerSide side
  let fullVision := node.isHeadquarters || hasHQVision || isOwned
  let myUnits := node.units.get side
  let enemyUnits := node.units.get side.enemy
  { id := node.id.value
    name := node.name
    type := toString node.type
    ownership := toString node.ownership
    isHeadquarters := node.isHeadquarters
    isSupplyLine := node.isSupplyLine
    neighbors := node.neighbors.map (·.value)
    isOwnedByMe := isOwned
    myUnits := ⟨myUnits.mobileCount, myUnits.garrisonCount, myUnits.totalCount⟩
    enemyUnits :=
      { totalCount := enemyUnits.totalCount
        mobileCount := if fullVision then some enemyUnits.mobileCount else none
        garrisonCount := if fullVision then some enemyUnits.garrisonCount else none
        isFullVisibility := fullVision }
    recentDepartures := node.recentDepartures.map fun d => ⟨d.fromNode.value, d.unitCount⟩ }

/-- On an edge a side sees its own groups; of the enemy's, whether there are any, once the two have
    met. -/
def buildEdgeView (edge : Edge) (side : PlayerSide) : EdgeView where
  fromNodeId := edge.fromNode.value
  toNodeId := edge.toNode.value
  distance := edge.distance.roundsRequired
  hasMyUnitsTraveling := edge.hasUnitsOfSide side
  hasEncounter := edge.hasEncounterWaiting
  hasEnemyUnitsTraveling :=
    if edge.hasEncounterWaiting then some (edge.hasUnitsOfSide side.enemy) else none
  myTravelingUnits := edge.travelingUnits.entries.flatMap fun kvp =>
    (kvp.2.filter (·.side = side)).map fun g => ⟨g.unitCount, g.destination.value, kvp.1⟩

/-- Each side finds its own group under `my…`; the enemy's decision is shown when both have
    decided. -/
def buildPendingEncounterView (room : GameRoom) (side : PlayerSide) (pending : PendingEncounter) :
    Except GameError PendingEncounterDetailView :=
  match room.edges.get? pending.edgeId with
  -- The indexer throws for an unknown edge.
  | none => .error (.keyNotFound (toString pending.edgeId))
  | some edge =>
    let myGroup := if pending.groupA.side = side then pending.groupA else pending.groupB
    let enemyGroup := if pending.groupA.side = side then pending.groupB else pending.groupA
    .ok
      { edgeId := toString pending.edgeId
        fromNodeId := edge.fromNode.value
        toNodeId := edge.toNode.value
        myUnitCount := myGroup.unitCount
        myDestinationNodeId := myGroup.destination.value
        enemyUnitCount := enemyGroup.unitCount
        remainingRounds := pending.remainingRounds
        iHaveDecided := pending.hasDecided side
        myDecision := (pending.getDecision side).map toString
        isResolved := pending.bothDecided
        enemyDecision :=
          if pending.bothDecided then (pending.getDecision side.enemy).map toString else none }

/-- The winner by the number of nodes, which is asked anew for each view. -/
def buildWinnerString (room : GameRoom) : Option String :=
  if room.phase ≠ .gameOver then none
  else if room.nodesOwned .playerA > room.nodesOwned .playerB then some (toString PlayerSide.a)
  else if room.nodesOwned .playerB > room.nodesOwned .playerA then some (toString PlayerSide.b)
  else some "Draw"

/-- The view of a side. -/
def buildGameStateView (room : GameRoom) (side : PlayerSide) (state : PlayerSessionState)
    (deadline : Option Time) : Except GameError GameStateView := do
  let pendingEncounters ← room.pendingEncounters.mapM (buildPendingEncounterView room side)
  return {
    roomId := room.roomId
    phase := toString room.phase
    currentRound := room.currentRound
    maxRounds := room.maxRounds
    mySide := toString side
    deadline := deadline
    myRemainingUnits := room.getRemainingUnits side
    myPendingMoves := (room.getPendingMoves side).map fun m =>
      ⟨m.fromNode.value, m.toNode.value, m.count⟩
    moveCommandCompleted := state.isMoveCommandCompleted side room
    encounterDecisionsCompleted := state.decisionsCompleted side room
    isMyPlanningComplete :=
      state.isMoveCommandCompleted side room && state.decisionsCompleted side room
    nodes := room.nodes.values.map (buildNodeView · side (hasHeadquartersVision side room))
    edges := room.edges.values.map (buildEdgeView · side)
    pendingEncounters := pendingEncounters
    undecidedEncounterEdgeIds := (room.getUndecidedEncounters side).map fun p => toString p.edgeId
    isGameOver := room.phase = .gameOver
    winner := buildWinnerString room
    scores := room.scores }

/-- Of the reserved moves a view depends on the side's own only. -/
theorem buildGameStateView_pendingMoves {room : GameRoom} {side : PlayerSide}
    {moves : PerSide (List PendingMove)} (h : moves.get side = room.pendingMoves.get side)
    (state : PlayerSessionState) (deadline : Option Time) :
    buildGameStateView { room with pendingMoves := moves } side state deadline =
      buildGameStateView room side state deadline := by
  have hmine : { room with pendingMoves := moves }.getPendingMoves side = room.getPendingMoves side := h
  unfold buildGameStateView
  rw [hmine]
  rfl

end HexWar
