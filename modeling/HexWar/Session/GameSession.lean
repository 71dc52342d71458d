/-
  A game session: the server's side of one room.

  A `Host` is a server process as far as one room is concerned: its session (connection flags,
  planning timer, numbered events in a circular buffer), the room in the repository, and everything
  it has sent out so far, the inbox of each side, the messages for the other servers and the ends of
  games its subscribers were told.  The outboxes are only ever written; they are what the results
  about secrecy, about lost events and about the end of a game speak of.

  A `SessionCall` is one uninterrupted turn of the session.  HandleMoveUnitsAsync and
  HandleEncounterDecisionAsync are two turns each, the command under the room's lock and then
  `checkAndResolveIfReady`, and other turns may come in between; HandleReconnectSyncAsync is one turn
  that answers with the missed events and a view.

  The check of a grace period is made outside of the lock (`GameSession.graceExpired`); what it leads to
  is a turn of its own, which other turns may precede.

  The clock is read once in a turn, but for the resolution of a round, which reads it a second time when
  it starts the timer (`nextLate`); where that does not matter, both readings are one (`next`).

  Where the repository keeps its rooms in memory, a turn that throws leaves the room as it then is; the
  repository over Redis would drop the change, but no turn throws after it has changed the room.
-/
import HexWar.Session.CircularBuffer
import HexWar.Session.GameStateView
import Mathlib.Data.List.Sort

namespace HexWar

open Lib Lib.Action

/-! ## Results and messages -/

/-- The answer to a command to move: what was moved, or why nothing was. -/
structure MoveUnitsCommandResult where
  isSuccess : Bool
  errorMessage : Option String
  errorCode : Option String
  actualMoved : Int
  fromNode : String
  toNode : String
deriving DecidableEq, Repr

namespace MoveUnitsCommandResult

def success (actualMoved : Int) (fromNode toNode : String) : MoveUnitsCommandResult :=
  ⟨true, none, none, actualMoved, fromNode, toNode⟩

def fail (message code : String) : MoveUnitsCommandResult := ⟨false, some message, some code, 0, "", ""⟩

end MoveUnitsCommandResult

/-- The answer to a decision on an encounter: whether it was the last one missing there, or why it
    was refused. -/
structure EncounterDecisionCommandResult where
  isSuccess : Bool
  errorMessage : Option String
  errorCode : Option String
  edgeId : String
  decision : String
  encounterResolved : Bool
deriving DecidableEq, Repr

namespace EncounterDecisionCommandResult

def success (edgeId decision : String) (resolved : Bool) : EncounterDecisionCommandResult :=
  ⟨true, none, none, edgeId, decision, resolved⟩

def fail (message code : String) : EncounterDecisionCommandResult :=
  ⟨false, some message, some code, "", "", false⟩

end EncounterDecisionCommandResult

/-- What the room is told of a departure. -/
structure UnitsDepartedPublicInfo where
  roomId : String
  side : PlayerSide
  fromNode : NodeId
  unitCount : Int
  roundNumber : Int
deriving DecidableEq, Repr

/-- A departure without its destination and without the edge it is on. -/
def UnitsDeparted.toPublicInfo (e : UnitsDeparted) : UnitsDepartedPublicInfo :=
  ⟨e.roomId, e.side, e.fromNode, e.unitCount, e.roundNumber⟩

/-- What a message carries: an event as the domain raised it, what the room may know of a departure,
    or a player's view of the game. -/
inductive Payload where
  | domainEvent (e : DomainEvent)
  | unitsDepartedPublicInfo (info : UnitsDepartedPublicInfo)
  | gameState (view : GameStateView)
deriving DecidableEq, Repr

/-- A message to a player's socket. -/
structure ServerMessage where
  type : String
  eventType : String
  payload : Payload
  round : Option Int
  sequenceNumber : Int
deriving DecidableEq, Repr

namespace ServerMessage

/-- An event as it is sent when it happens, with the round the session is in. -/
def fromDomainEvent (e : DomainEvent) (currentRound sequenceNumber : Int) : ServerMessage :=
  ⟨"game_event", e.eventType, .domainEvent e, some currentRound, sequenceNumber⟩

/-- The same with another payload, under a name of its own. -/
def fromDto (payload : Payload) (eventType : String) (currentRound sequenceNumber : Int) :
    ServerMessage :=
  ⟨"game_event", eventType, payload, some currentRound, sequenceNumber⟩

/-- A missed event, sent again. -/
def replayed (e : DomainEvent) (sequenceNumber : Int) : ServerMessage :=
  ⟨"game_event", e.eventType, .domainEvent e, none, sequenceNumber⟩

/-- A player's view.  It bears no number: the client always takes it. -/
def stateUpdate (view : GameStateView) (currentRound : Int) : ServerMessage :=
  ⟨"state_update", "GameState", .gameState view, some currentRound, 0⟩

end ServerMessage

/-- What a player gets to know: messages to its socket, and how its own calls ended. -/
inductive Notice where
  | message (m : ServerMessage)
  | moved (result : MoveUnitsCommandResult)
  | decided (result : EncounterDecisionCommandResult)
  | exception (e : GameError)
deriving DecidableEq, Repr

/-- An event on its way to the other servers. -/
structure DistributedEventMessage where
  roomId : String
  event : DomainEvent
  sequenceNumber : Int
  sourceServerId : String
deriving DecidableEq, Repr

/-- What the subscribers of OnGameOver are told. -/
structure GameOverEventArgs where
  roomId : String
  winner : Option PlayerSide
  reason : GameOverReason
deriving DecidableEq, Repr

/-- An event a session keeps, under the number it was sent with. -/
structure BufferedEvent where
  sequenceNumber : Int
  event : DomainEvent
deriving DecidableEq, Repr

/-! ## The session -/

/-- The owner of the room runs the planning timer; the other servers run one that fires later. -/
inductive TimerKind where
  | planning
  | backupPlanning
deriving DecidableEq, Repr

/-- What a server keeps of one room in its own memory.  The phase, the round and the owner are
    copies of what the room said when it was last loaded or saved. -/
structure GameSession where
  roomId : String
  /-- The id of the process the session lives in. -/
  serverId : String
  hasEventPublisher : Bool
  planningTimeout : Time
  currentPhase : GamePhase
  currentRound : Int
  ownerServerId : Option String
  playerStates : PerSide PlayerSessionState
  eventBuffer : CircularBuffer BufferedEvent
  eventSequence : Int
  timer : Option TimerKind
  planningTimerRound : Int
  planningDeadline : Option Time

namespace GameSession

/-- The number of events a session keeps for reconnecting players. -/
def eventBufferSize : Nat := 200

/-- A session before its room was loaded for the first time. -/
def new (roomId serverId : String) (hasEventPublisher : Bool) (planningTimeout : Time) :
    GameSession where
  roomId := roomId
  serverId := serverId
  hasEventPublisher := hasEventPublisher
  planningTimeout := planningTimeout
  currentPhase := .watingForPlayers
  currentRound := 0
  ownerServerId := none
  playerStates := .both PlayerSessionState.new
  eventBuffer := CircularBuffer.new eventBufferSize (by decide)
  eventSequence := 0
  timer := none
  planningTimerRound := -1
  planningDeadline := none

/-- Copy the phase, the round and the owner from the room. -/
def syncMetadata (s : GameSession) (room : GameRoom) : GameSession :=
  { s with
    currentPhase := room.phase
    currentRound := room.currentRound
    ownerServerId := room.ownerServerId }

/-- The timer is cancelled, and the deadline forgotten. -/
def stopPlanningTimer (s : GameSession) : GameSession :=
  { s with timer := none, planningTimerRound := -1, planningDeadline := none }

/-- Start the timer of a round.  Without a deadline it runs for the planning time of the session,
    from now on. -/
def startPlanningTimer (s : GameSession) (forRound : Int) (deadline : Option Time) (now : Time) :
    GameSession :=
  -- a timer that already runs for the round is left alone, unless the deadline changes
  if s.planningTimerRound = forRound ∧ s.timer.isSome ∧ deadline = none then s
  else { s with
    planningTimerRound := forRound
    planningDeadline := some (deadline.getD (now + s.planningTimeout))
    timer := some (if s.ownerServerId = some s.serverId then .planning else .backupPlanning) }

/-- At the start of a round neither side has planned anything. -/
def resetForNewRound (s : GameSession) : GameSession :=
  { s with playerStates :=
      ⟨s.playerStates.a.resetForNewRound, s.playerStates.b.resetForNewRound⟩ }

/-- Change what the session knows of a side. -/
def updatePlayer (s : GameSession) (side : PlayerSide)
    (f : PlayerSessionState → PlayerSessionState) : GameSession :=
  { s with playerStates := s.playerStates.update side f }

/-- Number an event and keep it for reconnecting players. -/
def record (s : GameSession) (e : DomainEvent) : GameSession :=
  { s with
    eventSequence := s.eventSequence + 1
    eventBuffer := s.eventBuffer.add ⟨s.eventSequence + 1, e⟩ }

/-- The check at the end of the grace period of a side that was disconnected.  It is made outside of
    the lock. -/
def graceExpired (s : GameSession) (side : PlayerSide) : Bool :=
  !(s.playerStates.get side).isConnected && decide (s.currentPhase ≠ .gameOver)

/-- The buffered events after a sequence number, in the order of their numbers. -/
def getEventsAfter (s : GameSession) (lastSeenSequence : Int) : List BufferedEvent :=
  (s.eventBuffer.where_ fun e => e.sequenceNumber > lastSeenSequence).insertionSort
    fun e e' => e.sequenceNumber ≤ e'.sequenceNumber

/-- Does a side have nothing left to move? -/
def isMoveCommandCompleted (s : GameSession) (side : PlayerSide) (room : GameRoom) : Bool :=
  (s.playerStates.get side).isMoveCommandCompleted side room

/-- Has every side planned its moves and decided its encounters? -/
def allReady (s : GameSession) (room : GameRoom) : Bool :=
  [PlayerSide.a, .b].all fun side =>
    s.isMoveCommandCompleted side room && (room.getUndecidedEncounters side).isEmpty

end GameSession

/-! ## The host -/

/-- A server process as far as one room is concerned. -/
structure Host where
  session : GameSession
  /-- The room in the repository. -/
  room : GameRoom
  /-- Everything the players have been sent, the oldest first. -/
  inbox : PerSide (List Notice)
  /-- Everything the other servers have been sent, the oldest first. -/
  published : List DistributedEventMessage
  /-- Everything the subscribers of OnGameOver have been told, the oldest first. -/
  gameOvers : List GameOverEventArgs

/-- An action of the session. -/
abbrev Service := EStateM GameError Host

namespace Host

/-- A player is told something. -/
def notify (h : Host) (side : PlayerSide) (n : Notice) : Host :=
  { h with inbox := h.inbox.update side (· ++ [n]) }

/-- Both players get the same message. -/
def broadcastToRoom (h : Host) (m : ServerMessage) : Host :=
  (h.notify .a (.message m)).notify .b (.message m)

/-- Send an event to those it is meant for. -/
def sendEvent (h : Host) (e : DomainEvent) (sequenceNumber : Int) : Host :=
  let message := ServerMessage.fromDomainEvent e h.session.currentRound sequenceNumber
  match e with
  | .unitsDeparted departed => h.broadcastToRoom (.fromDto
      (.unitsDepartedPublicInfo departed.toPublicInfo) "UnitsDepartedPublicInfo"
      h.session.currentRound sequenceNumber)
  | .encounterDecisionMade decisionMade => h.notify decisionMade.decidingPlayer (.message message)
  | .roundResolved _ | .gameStarted _ | .roundStarted _ | .gameOver _ => h.broadcastToRoom message
  -- the other events reach the players in the RoundResolved of their round only
  | .unitsRetreated _ | .unitsAdvanced _ | .encounterOccurred _ | .encounterResolved _ => h

/-- Publish an event for the other servers. -/
def publish (h : Host) (e : DomainEvent) (sequenceNumber : Int) : Host :=
  if h.session.hasEventPublisher then
    { h with published :=
        h.published ++ [⟨h.session.roomId, e, sequenceNumber, h.session.serverId⟩] }
  else h

/-- The players are told first, and the other servers after them. -/
def broadcastSingleEvent (h : Host) (e : DomainEvent) (sequenceNumber : Int) : Host :=
  (h.sendEvent e sequenceNumber).publish e sequenceNumber

/-- Number, buffer and broadcast one event. -/
def announce (h : Host) (e : DomainEvent) : Host :=
  { h with session := h.session.record e }.broadcastSingleEvent e (h.session.eventSequence + 1)

end Host

/-- An operation on the room in the repository. -/
def onRoom {α : Type} (x : Game α) : Service α := fun h =>
  match x h.room with
  | .ok a room => .ok a { h with room := room }
  | .error e room => .error e { h with room := room }

/-- Change the session, and nothing else. -/
def modifySession (f : GameSession → GameSession) : Service Unit :=
  modify fun h => { h with session := f h.session }

/-- Load what the session copies from the room. -/
def syncMetadata : Service Unit :=
  modify fun h => { h with session := h.session.syncMetadata h.room }

/-- Load the room, act on it and save it. -/
def executeOnGameRoom {α : Type} (action : Service α) : Service α := do
  syncMetadata
  let result ← action
  syncMetadata
  return result

/-- Tell the subscribers of OnGameOver. -/
def onGameOver (winner : Option PlayerSide) (reason : GameOverReason) : Service Unit :=
  modify fun h => { h with gameOvers := h.gameOvers ++ [⟨h.session.roomId, winner, reason⟩] }

/-- Take the events the domain has raised and announce them, in the order in which they were
    raised. -/
def publishAndBroadcastEvents : Service Unit := do
  let events ← onRoom flushDomainEvents
  modify fun h => events.foldl Host.announce h

/-! ## How a command gets at its room -/

/-- What a command asks of the server that it runs on.  The server of this module does as it is asked;
    `Distributed` has one on which messages and writes can fail.  `σ` is what such a server keeps. -/
structure RoomAccess (σ : Type) where
  /-- The session, and the room as the command sees it. -/
  host : σ → Host
  /-- An action that only concerns the session. -/
  lift : {α : Type} → Service α → EStateM GameError σ α
  onRoom : {α : Type} → Game α → EStateM GameError σ α
  publishAndBroadcastEvents : EStateM GameError σ Unit
  executeOnGameRoom : {α : Type} → EStateM GameError σ α → EStateM GameError σ α

/-- The server on which nothing fails. -/
@[reducible] def reliable : RoomAccess Host where
  host h := h
  lift x := x
  onRoom := onRoom
  publishAndBroadcastEvents := publishAndBroadcastEvents
  executeOnGameRoom := executeOnGameRoom

/-- The room with another server as its owner. -/
def assignOwner (serverId : String) : Game Unit :=
  modify fun room => { room with ownerServerId := some serverId }

/-- The first side that is connected. -/
def firstConnected (states : PerSide PlayerSessionState) : Option PlayerSide :=
  [PlayerSide.a, .b].find? fun side => (states.get side).isConnected

namespace RoomAccess

variable {σ : Type} (on : RoomAccess σ)

/-- Change the session, whatever the server. -/
def modifySession (f : GameSession → GameSession) : EStateM GameError σ Unit :=
  on.lift (HexWar.modifySession f)

/-! ## Commands -/

/-- AddPlayerAsync.  The deadline is read off the clock before anything is known of the room, and
    used if the player is the second one. -/
def addPlayerToRoom (playerId : PlayerId) (now : Time) : EStateM GameError σ PlayerSide :=
  on.executeOnGameRoom do
    let deadline := now + (on.host (← get)).session.planningTimeout
    let side ← on.onRoom (addPlayer playerId (some deadline) now)
    on.publishAndBroadcastEvents
    return side

/-- OnPlayerConnectedAsync.  Whoever connects while a round is planned and no timer runs starts
    one. -/
def playerConnected (side : PlayerSide) (now : Time) : EStateM GameError σ Unit := do
  on.modifySession (·.updatePlayer side fun p => { p with isConnected := true })
  on.executeOnGameRoom do
    let h := on.host (← get)
    if h.room.phase = .planning ∧ h.session.timer = none then
      on.modifySession (·.startPlanningTimer h.room.currentRound none now)

/-- OnPlayerDisconnectedAsync, up to the check that it starts. -/
def playerDisconnected (side : PlayerSide) : EStateM GameError σ Unit :=
  on.modifySession (·.updatePlayer side fun p => { p with isConnected := false })

/-- The part of HandleMoveUnitsAsync under the lock. -/
def handleMoveUnits (side : PlayerSide) (command : MoveCommand) :
    EStateM GameError σ MoveUnitsCommandResult := do
  if ¬ ((on.host (← get)).session.playerStates.get side).isConnected then
    return .fail "Not connected" "NOT_CONNECTED"
  on.executeOnGameRoom do
    let h := on.host (← get)
    throwIf (h.room.phase ≠ .planning) (.domain "Wrong phase")
    let remaining := h.room.getRemainingUnits side
    throwIf (remaining ≤ 0) (.domain "No units remaining")
    let adjustedCommand : MoveCommand :=
      ⟨command.fromNode, command.toNode, min command.unitCount remaining⟩
    let moveResult ← on.onRoom (moveUnits side adjustedCommand)
    let h := on.host (← get)
    on.modifySession (·.updatePlayer side fun p =>
      { p with moveCommandCompleted := decide (h.room.getRemainingUnits side ≤ 0) })
    on.publishAndBroadcastEvents
    return .success moveResult.actualMoved (toString moveResult.fromNode) (toString moveResult.toNode)

/-- The part of HandleEncounterDecisionAsync under the lock. -/
def handleEncounterDecision (side : PlayerSide) (edgeId : EdgeId) (decision : EncounterDecision) :
    EStateM GameError σ EncounterDecisionCommandResult := do
  if ¬ ((on.host (← get)).session.playerStates.get side).isConnected then
    return .fail "Not connected" "NOT_CONNECTED"
  on.executeOnGameRoom do
    on.onRoom (resolveEncounter edgeId side decision)
    let h := on.host (← get)
    on.modifySession (·.updatePlayer side fun p =>
      { p with encounterDecisionsCompleted := (h.room.getUndecidedEncounters side).isEmpty })
    on.publishAndBroadcastEvents
    return .success (toString edgeId) (toString decision)
      (!(on.host (← get)).room.hasPendingEncounterOn edgeId)

/-! ## Resolving a round -/

/-- ResolveRoundAsync.  The clock is read twice: once for the deadline in the event, and again when the
    timer is started, after everyone has been told. -/
def resolveRoundNow (now later : Time) : EStateM GameError σ Unit := do
  on.modifySession (·.stopPlanningTimer)
  let nextRoundDeadline := now + (on.host (← get)).session.planningTimeout
  let result ← on.onRoom (resolveRound (some nextRoundDeadline) now)
  -- the events are sent under the number of the round that has just begun
  on.lift syncMetadata
  on.publishAndBroadcastEvents
  on.modifySession (·.resetForNewRound)
  let h := on.host (← get)
  on.modifySession fun s =>
    if result.gameOver then s.stopPlanningTimer
    else GameSession.startPlanningTimer { s with planningDeadline := some nextRoundDeadline }
      h.room.currentRound none later
  if result.gameOver then on.lift (onGameOver result.winner .allNodesCaptured)

/-- CheckAndResolveIfReadyAsync.  The round ends early once no side has anything left to plan. -/
def checkAndResolveIfReady (now later : Time) : EStateM GameError σ Unit :=
  on.executeOnGameRoom do
    let h := on.host (← get)
    if h.room.isReadyForResolution ∧ h.session.allReady h.room then on.resolveRoundNow now later

/-- Take the default decision on every encounter a side has left undecided. -/
def retreatUndecided (side : PlayerSide) : EStateM GameError σ Unit := do
  let undecided := (on.host (← get)).room.getUndecidedEncounters side
  let _ ← forEach (fun enc => on.onRoom (resolveEncounter enc.edgeId side .retreat)) undecided
  return ()

/-- What both timers do in the round they were started for. -/
def resolveTimedOut (now later : Time) : EStateM GameError σ Unit := do
  on.retreatUndecided .a
  on.retreatUndecided .b
  on.resolveRoundNow now later

/-- The timer of the owner.  It does nothing in any round but the one it was started for. -/
def onPlanningTimeout (forRound : Int) (now later : Time) : EStateM GameError σ Unit :=
  on.executeOnGameRoom do
    let h := on.host (← get)
    if h.room.phase = .planning ∧ h.room.currentRound = forRound then on.resolveTimedOut now later

/-- The timer of any other server.  It takes the room over before it ends the round. -/
def onBackupPlanningTimeout (forRound : Int) (now later : Time) : EStateM GameError σ Unit :=
  on.executeOnGameRoom do
    let h := on.host (← get)
    if h.room.phase = .planning ∧ h.room.currentRound = forRound then
      on.onRoom (assignOwner h.session.serverId)
      on.resolveTimedOut now later

/-- ForceGameOverAsync, which only a grace check calls (`GameSession.graceExpired`).  It asks who is
    connected once it has the lock, and asks nothing about the side whose check it was. -/
def forceGameOver (reason : GameOverReason) : EStateM GameError σ Unit :=
  on.executeOnGameRoom do
    let h := on.host (← get)
    if h.room.phase ≠ .gameOver then
      let connected := firstConnected h.session.playerStates
      -- `First` throws where nothing matches
      throwIf (reason = .playerDisconnected ∧ connected = none)
        (.invalidOperation "Sequence contains no matching element")
      let winner := if reason = .playerDisconnected then connected else none
      on.onRoom (HexWar.forceGameOver winner reason)
      on.publishAndBroadcastEvents
      on.modifySession (·.stopPlanningTimer)
      on.lift (onGameOver winner reason)

/-! ## Queries -/

/-- The view of a side, with the deadline that the session, not the room, knows. -/
def getGameStateForPlayer (side : PlayerSide) : EStateM GameError σ GameStateView :=
  on.executeOnGameRoom do
    let h := on.host (← get)
    match buildGameStateView h.room side (h.session.playerStates.get side)
        h.session.planningDeadline with
    | .ok view => return view
    | .error e => throw e

/-- Send a side its view. -/
def sendState (side : PlayerSide) : EStateM GameError σ Unit := do
  let view ← on.getGameStateForPlayer side
  on.lift (modify fun h => h.notify side (.message (.stateUpdate view h.session.currentRound)))

/-- Send a side the events it missed, and then its view. -/
def reconnectSync (side : PlayerSide) (lastSeenSequence : Int) : EStateM GameError σ Unit := do
  on.lift (modify fun h => (h.session.getEventsAfter lastSeenSequence).foldl
    (fun h e => h.notify side (.message (.replayed e.event e.sequenceNumber))) h)
  on.sendState side

end RoomAccess

/-! ## Events of other servers -/

/-- What a session learns of the round from an event of another server. -/
def GameSession.aligned (s : GameSession) (message : DistributedEventMessage) (now : Time) :
    GameSession :=
  match message.event with
  | .roundResolved resolved =>
    let opened : GameSession := { s with
      currentPhase := .planning
      currentRound := resolved.completedRound + 1
      ownerServerId := some message.sourceServerId }
    opened.resetForNewRound.startPlanningTimer opened.currentRound none now
  | .roundStarted started =>
    let opened : GameSession := { s with
      currentPhase := .planning
      currentRound := started.roundNumber
      ownerServerId := some message.sourceServerId
      planningDeadline := some started.deadline }
    opened.startPlanningTimer started.roundNumber (some started.deadline) now
  | .gameStarted started =>
    let opened : GameSession := { s with
      currentPhase := .planning
      currentRound := 1
      ownerServerId := some message.sourceServerId
      planningDeadline := some started.deadline }
    opened.resetForNewRound.startPlanningTimer 1 (some started.deadline) now
  | .gameOver _ => { s with currentPhase := .gameOver }.stopPlanningTimer
  | _ => s

/-- Keep an event for reconnecting players under the number it came with. -/
def GameSession.keep (s : GameSession) (b : BufferedEvent) : GameSession :=
  { s with eventBuffer := s.eventBuffer.add b }

/-- HandleRemoteEventAsync.  The room itself is not touched: the server that published the event has
    saved it already. -/
def handleRemoteEvent (message : DistributedEventMessage) (now : Time) : Service Unit := do
  -- what a server has published comes back to it as well
  if message.sourceServerId ≠ (← get).session.serverId then
    modifySession (·.aligned message now)
    modify fun h => h.broadcastToRoom
      (.fromDomainEvent message.event h.session.currentRound message.sequenceNumber)
    modifySession (·.keep ⟨message.sequenceNumber, message.event⟩)

/-! ## Turns -/

/-- What a session can be asked to do under the lock of its room, and when.  The functions of the
    session that a player's socket or a timer calls are made of one or two of these. -/
inductive SessionCall where
  | addPlayer (playerId : PlayerId) (now : Time)
  | onPlayerConnected (side : PlayerSide) (now : Time)
  | onPlayerDisconnected (side : PlayerSide)
  /-- A grace check has found its side disconnected, and has the lock now. -/
  | forceGameOver
  | moveUnits (side : PlayerSide) (command : MoveCommand)
  | encounterDecision (side : PlayerSide) (edgeId : EdgeId) (decision : EncounterDecision)
  | checkAndResolveIfReady (now : Time)
  | planningTimeout (forRound : Int) (now : Time)
  | backupPlanningTimeout (forRound : Int) (now : Time)
  | getGameState (side : PlayerSide)
  | reconnectSync (side : PlayerSide) (lastSeenSequence : Int)
deriving DecidableEq

/-- Does a turn read this time off the clock, if it reads any? -/
def SessionCall.readsAt (now : Time) : SessionCall → Bool
  | .addPlayer _ t | .onPlayerConnected _ t | .checkAndResolveIfReady t | .planningTimeout _ t
  | .backupPlanningTimeout _ t => t = now
  | .onPlayerDisconnected _ | .forceGameOver | .moveUnits _ _ | .encounterDecision _ _ _
  | .getGameState _ | .reconnectSync _ _ => true

/-- The time that a turn reads off the clock, if it reads any. -/
def SessionCall.clock : SessionCall → Time
  | .addPlayer _ now | .onPlayerConnected _ now | .checkAndResolveIfReady now | .planningTimeout _ now
  | .backupPlanningTimeout _ now => now
  | .onPlayerDisconnected _ | .forceGameOver | .moveUnits _ _ | .encounterDecision _ _ _
  | .getGameState _ | .reconnectSync _ _ => 0

namespace Host

/-- Tell a side how its call ended. -/
def answering {α : Type} (h : Host) (side : PlayerSide) (x : Service α) (notice : α → Notice) : Host :=
  match x h with
  | .ok a h' => h'.notify side (notice a)
  | .error e h' => h'.notify side (.exception e)

/-- The same where a call that returns sends its answer itself. -/
def serving (h : Host) (side : PlayerSide) (x : Service Unit) : Host :=
  match x h with
  | .ok _ h' => h'
  | .error e h' => h'.notify side (.exception e)

/-- The host after a turn; `later` is the clock when a turn that resolves a round starts the timer. -/
def nextLate (h : Host) (call : SessionCall) (later : Time) : Host :=
  match call with
  -- the matchmaker joins the players; nobody is told
  | .addPlayer playerId now => after (reliable.addPlayerToRoom playerId now) h
  | .onPlayerConnected side now => after (reliable.playerConnected side now) h
  | .onPlayerDisconnected side => after (reliable.playerDisconnected side) h
  | .forceGameOver => after (reliable.forceGameOver .playerDisconnected) h
  | .moveUnits side command => h.answering side (reliable.handleMoveUnits side command) .moved
  | .encounterDecision side edgeId decision =>
    h.answering side (reliable.handleEncounterDecision side edgeId decision) .decided
  | .checkAndResolveIfReady now => after (reliable.checkAndResolveIfReady now later) h
  | .planningTimeout forRound now => after (reliable.onPlanningTimeout forRound now later) h
  | .backupPlanningTimeout forRound now => after (reliable.onBackupPlanningTimeout forRound now later) h
  | .getGameState side => h.serving side (reliable.sendState side)
  | .reconnectSync side lastSeenSequence =>
    h.serving side (reliable.reconnectSync side lastSeenSequence)

/-- The host after a turn in which no time passes. -/
def next (h : Host) (call : SessionCall) : Host := h.nextLate call call.clock

/-- The host after a turn that does not get the lock of the room: ExecuteOnGameRoomAsync returns null
    before it has loaded the room. -/
def nextContended (h : Host) : SessionCall → Host
  | .onPlayerConnected side _ => after
    (modifySession (·.updatePlayer side fun p => { p with isConnected := true })) h
  -- asks for no lock
  | .onPlayerDisconnected side => after
    (modifySession (·.updatePlayer side fun p => { p with isConnected := false })) h
  | .moveUnits side _ => h.notify side (.moved
    (if (h.session.playerStates.get side).isConnected then
      .fail "Server busy, please retry" "LOCK_CONTENTION"
    else .fail "Not connected" "NOT_CONNECTED"))
  | .encounterDecision side _ _ => h.notify side (.decided
    (if (h.session.playerStates.get side).isConnected then
      .fail "Server busy, please retry" "LOCK_CONTENTION"
    else .fail "Not connected" "NOT_CONNECTED"))
  -- the missed events do not need the room
  | .reconnectSync side lastSeenSequence => (h.session.getEventsAfter lastSeenSequence).foldl
    (fun h e => h.notify side (.message (.replayed e.event e.sequenceNumber))) h
  -- nobody is told; a state message comes without a state
  | .addPlayer _ _ | .forceGameOver | .checkAndResolveIfReady _ | .planningTimeout _ _
  | .backupPlanningTimeout _ _ | .getGameState _ => h

end Host
end HexWar
