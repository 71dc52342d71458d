/-
  The domain events a room raises, and the records a `RoundResolved` is made of.

  The instant at which an event was created is not part of it here: no operation reads it back.

  An event is addressed to both sides unless its class says otherwise: EncounterDecisionMade is the only
  private one.  UnitsDeparted leaves its destination out, so that it can be public; the executed moves of
  a RoundResolved do not.  Several records hold the text of a value in place of the value, as they do in
  the source, because they are meant for the client.
-/
import HexWar.Domain.Basic

namespace HexWar

/-! ## Records of a resolved round

What a resolution collects on its way, in the order in which it happens. -/

/-- A reserved move that was executed, with its destination. -/
structure MoveExecutionRecord where
  fromNode : NodeId
  toNode : NodeId
  side : PlayerSide
  unitCount : Int
deriving DecidableEq, Repr

/-- A group that reached a node, and the edge it came by. -/
structure ArrivalRecord where
  destinationNodeId : NodeId
  side : PlayerSide
  unitCount : Int
  viaEdge : EdgeId
deriving DecidableEq, Repr

/-- Groups of both sides that stand opposite each other on an edge after the advance. -/
structure EncounterRecord where
  edgeId : String
  fromNode : Int
  toNode : Int
  participantAUnits : Int
  participantBUnits : Int
  remainingRounds : Int
deriving DecidableEq, Repr

/-- A node whose owner an arrival has changed, with the names of both owners. -/
structure OwnershipChangeRecord where
  nodeId : Int
  previousOwner : String
  newOwner : String
  isSupplyLineActive : Bool
deriving DecidableEq, Repr

/-- A decided encounter.  The direction is the text of the node that the side's group is bound for. -/
structure EncounterResolvedRecord where
  edgeId : String
  decisionA : String
  decisionB : String
  outcomeAUnits : Int
  outcomeBUnits : Int
  outcomeADirection : String
  outcomeBDirection : String
deriving DecidableEq, Repr

/-- A node at the end of the round, as the client is shown it. -/
structure NodeStateSnapshot where
  nodeId : Int
  ownership : String
  playerAMobile : Int
  playerAGarrison : Int
  playerBMobile : Int
  playerBGarrison : Int
deriving DecidableEq, Repr

/-! ## The events

One structure for each class of event, and the sum of them. -/

/-- Both players have joined, and the first round is being planned. -/
structure GameStarted where
  roomId : String
  playerAId : PlayerId
  playerBId : PlayerId
  startingRound : Int
  deadline : Time
deriving DecidableEq, Repr

/-- A new planning phase has begun. -/
structure RoundStarted where
  roomId : String
  roundNumber : Int
  phase : GamePhase
  deadline : Time
deriving DecidableEq, Repr

/-- Everything that happened in one resolution. -/
structure RoundResolved where
  roomId : String
  completedRound : Int
  moveExecutions : List MoveExecutionRecord
  arrivals : List ArrivalRecord
  encounters : List EncounterRecord
  ownershipChanges : List OwnershipChangeRecord
  resolvedEncounters : List EncounterResolvedRecord
  /-- A snapshot of every node, by its id. -/
  nodeSnapshots : List (Int × NodeStateSnapshot)
deriving DecidableEq, Repr

/-- The game has ended: who won, if anybody, and why. -/
structure GameOver where
  roomId : String
  winner : Option PlayerSide
  reason : GameOverReason
  finalRound : Int
  finalScores : PerSide Int
deriving DecidableEq, Repr

/-- A reserved move, without its destination. -/
structure UnitsDeparted where
  roomId : String
  side : PlayerSide
  fromNode : NodeId
  unitCount : Int
  roundNumber : Int
deriving DecidableEq, Repr

/-- A side has decided to retreat from an encounter. -/
structure UnitsRetreated where
  roomId : String
  side : PlayerSide
  fromEdge : EdgeId
  unitCount : Int
  roundNumber : Int
deriving DecidableEq, Repr

/-- A side has decided to advance in an encounter. -/
structure UnitsAdvanced where
  roomId : String
  side : PlayerSide
  onEdge : EdgeId
  unitCount : Int
  roundNumber : Int
deriving DecidableEq, Repr

/-- One side's part in an encounter. -/
structure EncounterParticipantInfo where
  side : PlayerSide
  unitCount : Int
deriving DecidableEq, Repr

/-- Units of both sides have met on an edge; meant for both. -/
structure EncounterOccurred where
  roomId : String
  edgeId : EdgeId
  fromNode : NodeId
  toNode : NodeId
  remainingRounds : Int
  participantA : EncounterParticipantInfo
  participantB : EncounterParticipantInfo
  roundNumber : Int
deriving DecidableEq, Repr

/-- A decision on an encounter; private to the side that took it. -/
structure EncounterDecisionMade where
  roomId : String
  decidingPlayer : PlayerSide
  edgeId : EdgeId
  decision : EncounterDecision
  unitCount : Int
  roundNumber : Int
deriving DecidableEq, Repr

/-- Where a side's group goes once it has decided. -/
structure EncounterOutcome where
  side : PlayerSide
  destinationNode : NodeId
  unitCount : Int
  remainingRounds : Int
deriving DecidableEq, Repr

/-- Both sides have decided an encounter.  An outcome is missing when a side's has not been entered. -/
structure EncounterResolved where
  roomId : String
  edgeId : EdgeId
  decisionA : EncounterDecision
  decisionB : EncounterDecision
  outcomeA : Option EncounterOutcome
  outcomeB : Option EncounterOutcome
  roundNumber : Int
deriving DecidableEq, Repr

/-- Any event, as the outbox of a room holds it. -/
inductive DomainEvent where
  | gameStarted (e : GameStarted)
  | roundStarted (e : RoundStarted)
  | roundResolved (e : RoundResolved)
  | gameOver (e : GameOver)
  | unitsDeparted (e : UnitsDeparted)
  | unitsRetreated (e : UnitsRetreated)
  | unitsAdvanced (e : UnitsAdvanced)
  | encounterOccurred (e : EncounterOccurred)
  | encounterDecisionMade (e : EncounterDecisionMade)
  | encounterResolved (e : EncounterResolved)
deriving DecidableEq, Repr

/-- The name of the event's class. -/
def DomainEvent.eventType : DomainEvent → String
  | .gameStarted _ => "GameStarted"
  | .roundStarted _ => "RoundStarted"
  | .roundResolved _ => "RoundResolved"
  | .gameOver _ => "GameOver"
  | .unitsDeparted _ => "UnitsDeparted"
  | .unitsRetreated _ => "UnitsRetreated"
  | .unitsAdvanced _ => "UnitsAdvanced"
  | .encounterOccurred _ => "EncounterOccurred"
  | .encounterDecisionMade _ => "EncounterDecisionMade"
  | .encounterResolved _ => "EncounterResolved"

end HexWar
