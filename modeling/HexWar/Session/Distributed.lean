/-
  A command in distributed mode, and what can go wrong in it.

  The room is loaded from Redis, the command acts on the copy, numbers and sends the events that the
  copy has raised, and then saves the copy.  Two things can fail on the way: a message to one player
  (`sendToPlayer` throws; broadcasts and publications swallow their errors), and the write inside
  SaveAsync (which swallows its error too).

  The commands are those of `GameSession`, on a server of another kind (`access`): an execution also
  keeps what they leave no trace of, which events were raised, flushed, buffered, sent and published.
  An operation of the room raises what is in the outbox after it when it finds the outbox empty
  (`raisedBy`): none clears the outbox once it has raised something.
-/
import HexWar.Session.Hosts

namespace HexWar

open Lib Lib.Action GameRoom

/-! ## Executions -/

/-- What fails in the environment of a command. -/
structure Faults where
  /-- The error of the n-th SendToPlayerAsync. -/
  sendFails : Nat → Option GameError
  /-- The write inside SaveAsync fails. -/
  saveFails : Bool

def Faults.none : Faults := ⟨fun _ => Option.none, false⟩

/-- A command under way on a server; the host's room is the copy that was loaded. -/
structure DistributedExecution where
  host : Host
  /-- The room in Redis. -/
  stored : GameRoom
  /-- The attempts to send something to one player. -/
  sends : Nat
  /-- What was passed to RaiseEvent. -/
  raised : List DomainEvent
  /-- What FlushDomainEvents has returned. -/
  flushed : List DomainEvent
  /-- What was put in the replay buffer. -/
  buffered : List DomainEvent
  /-- What was sent to a client. -/
  sent : List DomainEvent
  published : List DomainEvent

/-- An action of a command. -/
abbrev Command := EStateM GameError DistributedExecution

/-- The events that an operation raises. -/
def raisedBy {α : Type} (x : Game α) (room : GameRoom) : List DomainEvent :=
  (after x { room with domainEvents := [] }).domainEvents

namespace Distributed

/-- An action of the session that neither raises nor sends anything. -/
def lift {α : Type} (x : Service α) : Command α := fun e =>
  match x e.host with
  | .ok a host => .ok a { e with host := host }
  | .error err host => .error err { e with host := host }

/-- An operation on the copy of the room. -/
def onRoom {α : Type} (x : Game α) : Command α := do
  modify fun e => { e with raised := e.raised ++ raisedBy x e.host.room }
  lift (HexWar.onRoom x)

/-- ConnectionManager.SendToPlayerAsync. -/
def sendToPlayer (f : Faults) (event : DomainEvent) (sequenceNumber : Int) : Command Unit := do
  let attempt := (← get).sends
  modify fun e => { e with sends := e.sends + 1 }
  match f.sendFails attempt with
  | some err => throw err
  | none => modify fun e => { e with
      host := e.host.sendEvent event sequenceNumber, sent := e.sent ++ [event] }

/-- Send an event to those it is meant for. -/
def sendEvent (f : Faults) (event : DomainEvent) (sequenceNumber : Int) : Command Unit :=
  match event with
  | .encounterDecisionMade _ => sendToPlayer f event sequenceNumber
  | .unitsDeparted _ | .roundResolved _ | .gameStarted _ | .roundStarted _ | .gameOver _ =>
    -- whose socket is closed is passed over
    modify fun e => { e with
      host := e.host.sendEvent event sequenceNumber, sent := e.sent ++ [event] }
  | .unitsRetreated _ | .unitsAdvanced _ | .encounterOccurred _ | .encounterResolved _ => pure ()

def publish (event : DomainEvent) (sequenceNumber : Int) : Command Unit :=
  modify fun e => { e with
    host := e.host.publish event sequenceNumber
    published := if e.host.session.hasEventPublisher then e.published ++ [event] else e.published }

def broadcastSingleEvent (f : Faults) (event : DomainEvent) (sequenceNumber : Int) : Command Unit := do
  sendEvent f event sequenceNumber
  publish event sequenceNumber

/-- Number, buffer and broadcast one event. -/
def announce (f : Faults) (event : DomainEvent) : Command Unit := do
  let sequenceNumber := (← get).host.session.eventSequence + 1
  modify fun e => { e with
    host := { e.host with session := e.host.session.record event }
    buffered := e.buffered ++ [event] }
  broadcastSingleEvent f event sequenceNumber

def publishAndBroadcastEvents (f : Faults) : Command Unit := do
  let events ← lift (HexWar.onRoom flushDomainEvents)
  modify fun e => { e with flushed := e.flushed ++ events }
  let _ ← forEach (announce f) events
  return ()

/-- Load the room, act on the copy and save it. -/
def executeOnGameRoom {α : Type} (f : Faults) (action : Command α) : Command α := do
  modify fun e => { e with host := { e.host with room := e.stored } }
  lift syncMetadata
  let result ← action
  modify fun e => { e with stored := if f.saveFails then e.stored else e.host.room }
  lift syncMetadata
  return result

/-- A server on which messages and writes can fail. -/
@[reducible] def access (f : Faults) : RoomAccess DistributedExecution where
  host e := e.host
  lift := lift
  onRoom := onRoom
  publishAndBroadcastEvents := publishAndBroadcastEvents f
  executeOnGameRoom := executeOnGameRoom f

/-- A turn of the session: did it return success? -/
def perform (f : Faults) : SessionCall → Command Bool
  | .addPlayer playerId now => do
    let _ ← (access f).addPlayerToRoom playerId now
    return true
  | .onPlayerConnected side now => do
    (access f).playerConnected side now
    return true
  | .onPlayerDisconnected side => do
    (access f).playerDisconnected side
    return true
  | .forceGameOver => do
    (access f).forceGameOver .playerDisconnected
    return true
  | .moveUnits side command => return (← (access f).handleMoveUnits side command).isSuccess
  | .encounterDecision side edgeId decision =>
    return (← (access f).handleEncounterDecision side edgeId decision).isSuccess
  | .checkAndResolveIfReady now => do
    (access f).checkAndResolveIfReady now now
    return true
  | .planningTimeout forRound now => do
    (access f).onPlanningTimeout forRound now now
    return true
  | .backupPlanningTimeout forRound now => do
    (access f).onBackupPlanningTimeout forRound now now
    return true
  | .getGameState side => do
    (access f).sendState side
    return true
  | .reconnectSync side lastSeenSequence => do
    (access f).reconnectSync side lastSeenSequence
    return true

end Distributed
end HexWar
