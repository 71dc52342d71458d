/-
  What a turn leaves in the session.

  `Does` says what a turn does to the room.  `Leaves` says what it does to the session: its flags, its
  copy of the room's metadata, and its timer.  What it does to the numbered events is in `Announces`,
  and left aside here (`bare`).

  Each call has a lemma of the form `∃ room s, Left h (h.next call) call room s`, and `next_leaves`
  collects them.  They follow `Session/Hosts` call by call: a turn that flushes goes through
  `Left.flushed`, one that changes nothing through `Left.looked`.

  What is read off afterwards, by cases on `Leaves`:

  1. Only a connection and its loss change who is connected (`connected_next`).
  2. The session's copy of phase, round and owner is that of the room after every turn that has loaded it
     (`current_left`).
  3. A turn that does not get the lock learns no more than who has come or gone
     (`nextContended_refused`).
-/
import HexWar.Session.Hosts

namespace HexWar

open Lib Lib.Action GameRoom

/-- A session but for its numbered events. -/
def GameSession.bare (s : GameSession) : GameSession :=
  let fresh := GameSession.new s.roomId s.serverId s.hasEventPublisher s.planningTimeout
  { s with eventBuffer := fresh.eventBuffer, eventSequence := fresh.eventSequence }

/-- What does not speak of the numbered events can be read off the rest. -/
theorem congr_bare {α : Type} (f : GameSession → α) (hf : ∀ s, f s.bare = f s) {s t : GameSession}
    (h : s.bare = t.bare) : f s = f t := by
  rw [← hf s, ← hf t, h]

/-- The flag that a turn sets. -/
def SessionCall.reaches : SessionCall → Option (PlayerSide × Bool)
  | .onPlayerConnected side _ => some (side, true)
  | .onPlayerDisconnected side => some (side, false)
  | _ => none

/-- What a side has planned after a move. -/
def GameSession.afterMove (s : GameSession) (room : GameRoom) (side : PlayerSide) : GameSession :=
  s.updatePlayer side fun p =>
    { p with moveCommandCompleted := decide (room.getRemainingUnits side ≤ 0) }

/-- What a side has decided after a decision. -/
def GameSession.afterDecision (s : GameSession) (room : GameRoom) (side : PlayerSide) : GameSession :=
  s.updatePlayer side fun p =>
    { p with encounterDecisionsCompleted := (room.getUndecidedEncounters side).isEmpty }

/-- The session after the resolution of a room. -/
def GameSession.afterRound (s : GameSession) (room : GameRoom) (now : Time) : GameSession :=
  let resolved := sourceOrder.resolved room (now + s.planningTimeout)
  (s.stopPlanningTimer.syncMetadata resolved).opened (sourceOrder.closedRoom room).openingResult.gameOver
    (now + s.planningTimeout) resolved.currentRound now

/-- A room whose events have been announced. -/
def GameRoom.told (room : GameRoom) : GameRoom := { room with domainEvents := [] }

/-- The room that a turn saves, and the session that it leaves. -/
inductive Leaves (h : Host) : SessionCall → GameRoom → GameSession → Prop where
  /-- The side's flag is set, and a timer is started if the round is planned and has none. -/
  | connect {side : PlayerSide} {now : Time} :
      Leaves h (.onPlayerConnected side now) h.room ((h.reached side true).synced.timed now).session
  /-- The flag is cleared; the room is not looked at. -/
  | disconnect {side : PlayerSide} :
      Leaves h (.onPlayerDisconnected side) h.room (h.reached side false).session
  /-- Refused before the room is loaded. -/
  | refuse {call : SessionCall} (hno : ∀ room, ¬ Does h call room) (hcall : call.reaches = none) :
      Leaves h call h.room h.session
  /-- Refused, or nothing to do, once the room is loaded. -/
  | look {call : SessionCall} (hno : ∀ room, ¬ Does h call room) (hcall : call.reaches = none) :
      Leaves h call h.room (h.session.syncMetadata h.room)
  | join {playerId : PlayerId} {now : Time} (hr : h.room.joinRefusal playerId = none) :
      Leaves h (.addPlayer playerId now)
        (h.room.joined playerId (now + h.session.planningTimeout)).told
        (h.session.syncMetadata (h.room.joined playerId (now + h.session.planningTimeout)))
  | move {side : PlayerSide} {command : MoveCommand}
      (hconn : (h.session.playerStates.get side).isConnected = true)
      (hr : h.room.sessionMoveRefusal side command = none) :
      Leaves h (.moveUnits side command) (h.room.reserve side (h.room.adjusted side command)).told
        ((h.session.afterMove (h.room.reserve side (h.room.adjusted side command)) side).syncMetadata
          (h.room.reserve side (h.room.adjusted side command)))
  | decide {side : PlayerSide} {edgeId : EdgeId} {decision : EncounterDecision}
      (hconn : (h.session.playerStates.get side).isConnected = true)
      (hr : h.room.decisionRefusal edgeId side decision = none) :
      Leaves h (.encounterDecision side edgeId decision)
        (h.room.decideEncounter edgeId side decision).told
        ((h.session.afterDecision (h.room.decideEncounter edgeId side decision) side).syncMetadata
          (h.room.decideEncounter edgeId side decision))
  /-- The timer is stopped, the round resolved, and the next one begun unless the game is over. -/
  | resolve {call : SessionCall} {room : GameRoom} {now : Time} (hres : Resolves h call room now) :
      Leaves h call (sourceOrder.resolved room (now + h.session.planningTimeout)).told
        (h.session.afterRound room now)
  /-- The game has been ended, and its timer stopped. -/
  | abandon {winner : PlayerSide} (hphase : h.room.phase ≠ .gameOver)
      (hwinner : firstConnected h.session.playerStates = some winner) :
      Leaves h .forceGameOver (h.room.forced (some winner) .playerDisconnected).told
        (h.session.stopPlanningTimer.syncMetadata (h.room.forced (some winner) .playerDisconnected))

/-! ## Every turn

ExecuteOnGameRoomAsync copies the metadata once when it has loaded the room and once before it
returns. -/

/-- The metadata is copied once more at the end of a turn. -/
theorem bare_timed_synced (h : Host) (now : Time) :
    (h.synced.timed now).synced.session = (h.synced.timed now).session := by
  show (h.synced.timed now).session.syncMetadata h.room = _
  rw [Host.timed]
  show GameSession.syncMetadata (if _ then _ else _) _ = if _ then _ else _
  split
  · rw [GameSession.startPlanningTimer]
    split <;> rfl
  · rfl

/-- A round that is opened starts its timer afresh, from the instant at which it is opened. -/
theorem opened_running {s : GameSession} (hnone : s.timer = none) (deadline : Time)
    (currentRound : Int) (now : Time) : s.opened false deadline currentRound now =
      { s.resetForNewRound with
        planningTimerRound := currentRound
        planningDeadline := some (now + s.planningTimeout)
        timer := some (if s.ownerServerId = some s.serverId then .planning else .backupPlanning) } := by
  rw [GameSession.opened, if_neg Bool.false_ne_true, GameSession.startPlanningTimer, if_neg]
  · rfl
  · rintro ⟨-, hsome, -⟩
    have htimer : s.timer.isSome = true := hsome
    rw [hnone] at htimer
    cases htimer

/-- Announcing the events of a resolution leaves nothing in the bare session. -/
theorem bare_advanced (h : Host) (result : RoundResolutionResult) (room : GameRoom)
    (now later : Time) : (h.advanced result room now later).synced.session.bare =
      ((h.session.stopPlanningTimer.syncMetadata room).opened result.gameOver
        (now + h.session.planningTimeout) room.currentRound later).bare := by
  show ((h.advanced result room now later).session.syncMetadata
    (h.advanced result room now later).room).bare = _
  rw [advanced_room, Host.advanced]
  show ((GameSession.opened (Host.flush _).session _ _ _ _).syncMetadata _).bare = _
  rw [Host.flush_session]
  cases result.gameOver with
  | true => rfl
  | false =>
    -- the flush does not touch the timer, so it may as well have come before
    rw [opened_running rfl, opened_running rfl]
    rfl

/-- What a turn that resolves a round leaves of the session. -/
theorem bare_of_resolves {h : Host} (hroom : InSession h.room) {call : SessionCall} {room : GameRoom}
    {now : Time} (hres : Resolves h call room now) :
    (h.next call).session.bare = (h.session.afterRound room now).bare := by
  rw [(next_of_resolves hroom hres).1, Host.resolvedRound, bare_advanced]
  rfl

/-- And of the room. -/
theorem room_of_resolves {h : Host} (hroom : InSession h.room) {call : SessionCall} {room : GameRoom}
    {now : Time} (hres : Resolves h call room now) :
    (h.next call).room = (sourceOrder.resolved room (now + h.session.planningTimeout)).told := by
  let before : Host := { h.synced with room := room }
  rw [(next_of_resolves hroom hres).1, Host.room_synced]
  exact @resolvedRound_room before room h.session.planningTimeout rfl rfl now now

/-- What holds of a turn that leaves a room and a session. -/
structure Left (h h' : Host) (call : SessionCall) (room : GameRoom) (s : GameSession) : Prop where
  leaves : Leaves h call room s
  room : h'.room = room
  session : h'.session.bare = s.bare

/-- A turn that does nothing to the room but look it up. -/
theorem Left.looked {h t : Host} {call : SessionCall} (hnext : h.next call = t)
    (hroom : t.room = h.room) (hsession : t.session.bare = (h.session.syncMetadata h.room).bare)
    (hno : ∀ room, ¬ Does h call room) (hcall : call.reaches = none) :
    ∃ room s, Left h (h.next call) call room s := by
  subst hnext
  exact ⟨_, _, .look hno hcall, hroom, hsession⟩

/-- A turn at whose end the events of the room are told. -/
theorem Left.flushed {h t : Host} {call : SessionCall} {room : GameRoom} {s : GameSession}
    (hleaves : Leaves h call room s) (hnext : (h.next call).room = t.flush.synced.room)
    (hnext' : (h.next call).session = t.flush.synced.session) (hroom : t.room.told = room)
    (hsession : (t.session.syncMetadata t.room).bare = s.bare) :
    ∃ room s, Left h (h.next call) call room s := by
  refine ⟨room, s, hleaves, ?_, ?_⟩
  · rw [hnext]
    exact (Host.flush_room t).trans hroom
  · rw [hnext']
    show (t.flush.session.syncMetadata t.flush.room).bare = _
    rw [Host.flush_session, Host.flush_room]
    exact hsession

/-- A call that may resolve the round. -/
theorem resolution_leaves {h : Host} (hroom : InSession h.room) {call : SessionCall}
    (hmay : call.mayResolve = true) : ∃ room s, Left h (h.next call) call room s := by
  rcases em (∃ room now, Resolves h call room now) with ⟨room, now, hres⟩ | hno
  · exact ⟨_, _, .resolve hres, room_of_resolves hroom hres, bare_of_resolves hroom hres⟩
  -- it is not ready, or another round is being planned by now
  · refine Left.looked (next_of_not_resolves hmay fun room now hres => hno ⟨room, now, hres⟩) rfl rfl
      ?_ ?_
    · intro room hdoes
      cases hdoes with
      | resolve hres => exact hno ⟨_, _, hres⟩
      | join _ | move _ _ | decide _ _ | abandon _ _ => cases hmay
    · cases call with
      | onPlayerConnected _ _ | onPlayerDisconnected _ => cases hmay
      | addPlayer _ _ | forceGameOver | moveUnits _ _ | encounterDecision _ _ _
      | checkAndResolveIfReady _ | planningTimeout _ _ | backupPlanningTimeout _ _
      | getGameState _ | reconnectSync _ _ => rfl

/-- A join. -/
theorem addPlayer_leaves {h : Host} (hroom : InSession h.room) (playerId : PlayerId) (now : Time) :
    ∃ room s, Left h (h.next (.addPlayer playerId now)) (.addPlayer playerId now) room s := by
  have hnext := next_addPlayer_host hroom.sound.map playerId now
  rcases hr : h.room.joinRefusal playerId with _ | e
  · rw [hr] at hnext
    exact Left.flushed (.join hr) (congrArg Host.room hnext) (congrArg Host.session hnext) rfl rfl
  · rw [hr] at hnext
    refine Left.looked hnext rfl rfl ?_ rfl
    rintro room (⟨hok⟩ | ⟨⟩ | ⟨⟩ | ⟨⟨⟩⟩ | ⟨⟩)
    rw [hr] at hok
    cases hok

/-- The end of a game for which a side did not come back. -/
theorem forceGameOver_leaves (h : Host) :
    ∃ room s, Left h (h.next .forceGameOver) .forceGameOver room s := by
  have hnext := next_forceGameOver_host h
  by_cases hover : h.room.phase = .gameOver
  · rw [if_pos hover] at hnext
    refine Left.looked hnext rfl rfl ?_ rfl
    rintro room (⟨⟩ | ⟨⟩ | ⟨⟩ | ⟨⟨⟩⟩ | ⟨hphase, -⟩)
    exact hphase hover
  rw [if_neg hover] at hnext
  rcases hw : firstConnected h.session.playerStates with _ | winner
  · rw [hw] at hnext
    refine Left.looked hnext rfl rfl ?_ rfl
    rintro room (⟨⟩ | ⟨⟩ | ⟨⟩ | ⟨⟨⟩⟩ | ⟨-, hwinner⟩)
    rw [hw] at hwinner
    cases hwinner
  · rw [hw] at hnext
    refine ⟨_, _, .abandon hover hw, ?_, ?_⟩
    · rw [hnext]
      exact Host.flush_room _
    · rw [hnext]
      show ((Host.flush _).session.stopPlanningTimer.syncMetadata (Host.flush _).room).bare = _
      rw [Host.flush_session, Host.flush_room]
      rfl

/-- A move.  Refused by the room it leaves the session with the metadata; refused for the connection
    it leaves it as it was. -/
theorem moveUnits_leaves (h : Host) (side : PlayerSide) (command : MoveCommand) :
    ∃ room s, Left h (h.next (.moveUnits side command)) (.moveUnits side command) room s := by
  have hnext := next_moveUnits_host h side command
  by_cases hconn : (h.session.playerStates.get side).isConnected = true
  · rw [if_pos hconn] at hnext
    rcases hr : h.room.sessionMoveRefusal side command with _ | e
    · rw [hr] at hnext
      have hmoved : (h.next (.moveUnits side command)).room =
            (h.synced.moved side command).synced.room ∧
          (h.next (.moveUnits side command)).session =
            (h.synced.moved side command).synced.session := by
        rw [hnext]
        exact ⟨rfl, rfl⟩
      exact Left.flushed (.move hconn hr) hmoved.1 hmoved.2 rfl rfl
    · rw [hr] at hnext
      refine Left.looked hnext rfl rfl ?_ rfl
      rintro room (⟨⟩ | ⟨-, hok⟩ | ⟨⟩ | ⟨⟨⟩⟩ | ⟨⟩)
      rw [hr] at hok
      cases hok
  · rw [if_neg hconn] at hnext
    refine ⟨_, _, .refuse ?_ rfl, ?_, ?_⟩
    · rintro room (⟨⟩ | ⟨hconn', -⟩ | ⟨⟩ | ⟨⟨⟩⟩ | ⟨⟩)
      exact hconn hconn'
    · rw [hnext]
      rfl
    · rw [hnext]
      rfl

/-- A decision, in the same three cases. -/
theorem encounterDecision_leaves (h : Host) (side : PlayerSide) (edgeId : EdgeId)
    (decision : EncounterDecision) : ∃ room s,
      Left h (h.next (.encounterDecision side edgeId decision))
        (.encounterDecision side edgeId decision) room s := by
  have hnext := next_encounterDecision h side edgeId decision
  by_cases hconn : (h.session.playerStates.get side).isConnected = true
  · rw [if_pos hconn] at hnext
    rcases hr : h.room.decisionRefusal edgeId side decision with _ | e
    · rw [hr] at hnext
      have hdecided : (h.next (.encounterDecision side edgeId decision)).room =
            (h.synced.decided side edgeId decision).synced.room ∧
          (h.next (.encounterDecision side edgeId decision)).session =
            (h.synced.decided side edgeId decision).synced.session := by
        rw [hnext]
        exact ⟨rfl, rfl⟩
      exact Left.flushed (.decide hconn hr) hdecided.1 hdecided.2 rfl rfl
    · rw [hr] at hnext
      refine Left.looked hnext rfl rfl ?_ rfl
      rintro room (⟨⟩ | ⟨⟩ | ⟨-, hok⟩ | ⟨⟨⟩⟩ | ⟨⟩)
      rw [hr] at hok
      cases hok
  · rw [if_neg hconn] at hnext
    refine ⟨_, _, .refuse ?_ rfl, ?_, ?_⟩
    · rintro room (⟨⟩ | ⟨⟩ | ⟨hconn', -⟩ | ⟨⟨⟩⟩ | ⟨⟩)
      exact hconn hconn'
    · rw [hnext]
      rfl
    · rw [hnext]
      rfl

/-- **What every turn leaves.** -/
theorem next_leaves {h : Host} (hroom : InSession h.room) (call : SessionCall) :
    ∃ room s, Left h (h.next call) call room s := by
  cases call with
  | addPlayer playerId now => exact addPlayer_leaves hroom playerId now
  | onPlayerConnected side now =>
    refine ⟨_, _, .connect, ?_, ?_⟩
    · rw [next_onPlayerConnected]
      rfl
    · rw [next_onPlayerConnected, bare_timed_synced]
  | onPlayerDisconnected side => exact ⟨_, _, .disconnect, rfl, rfl⟩
  | forceGameOver => exact forceGameOver_leaves h
  | moveUnits side command => exact moveUnits_leaves h side command
  | encounterDecision side edgeId decision => exact encounterDecision_leaves h side edgeId decision
  | checkAndResolveIfReady _ | planningTimeout _ _ | backupPlanningTimeout _ _ =>
    exact resolution_leaves hroom rfl
  | getGameState side =>
    refine Left.looked (next_getGameState h side) rfl rfl ?_ rfl
    rintro room (⟨⟩ | ⟨⟩ | ⟨⟩ | ⟨⟨⟩⟩ | ⟨⟩)
  | reconnectSync side lastSeenSequence =>
    refine Left.looked (next_reconnectSync h side lastSeenSequence) rfl rfl ?_ rfl
    rintro room (⟨⟩ | ⟨⟩ | ⟨⟩ | ⟨⟨⟩⟩ | ⟨⟩)

/-! ## Flags and phase

What can be read off `Leaves` without looking at a call again. -/

/-- The flags of a session, by side. -/
def GameSession.connected (s : GameSession) (side : PlayerSide) : Bool :=
  (s.playerStates.get side).isConnected

/-- What a player has planned or decided does not change the flag. -/
theorem connected_update (s : GameSession) (side : PlayerSide)
    {f : PlayerSessionState → PlayerSessionState} (hf : ∀ p, (f p).isConnected = p.isConnected) :
    (s.updatePlayer side f).connected = s.connected := by
  funext t
  cases side <;> cases t <;> first | rfl | exact hf _

/-- Neither does the opening of a round. -/
theorem connected_opened (s : GameSession) (gameOver : Bool) (deadline : Time) (currentRound : Int)
    (now : Time) : (s.opened gameOver deadline currentRound now).connected = s.connected := by
  funext t
  rw [GameSession.opened]
  split
  · cases t <;> rfl
  · rw [GameSession.startPlanningTimer]
    split <;> cases t <;> rfl

/-- Only a connection and its loss change a flag. -/
theorem connected_next {h : Host} (hroom : InSession h.room) {call : SessionCall}
    (hcall : call.reaches = none) : (h.next call).session.connected = h.session.connected := by
  obtain ⟨room, s, hleft⟩ := next_leaves hroom call
  rw [congr_bare GameSession.connected (fun _ => rfl) hleft.session]
  cases hleft.leaves with
  | connect => cases hcall
  | disconnect => cases hcall
  | refuse _ _ | look _ _ | join _ => rfl
  | move hconn hr => exact connected_update h.session _ fun _ => rfl
  | decide hconn hr => exact connected_update h.session _ fun _ => rfl
  | resolve hres => exact connected_opened _ _ _ _ _
  | abandon _ _ => rfl

/-- A connection sets one side's flag. -/
theorem connected_reached (h : Host) (side t : PlayerSide) (isConnected : Bool) :
    (h.reached side isConnected).session.connected t =
      if t = side then isConnected else h.session.connected t := by
  cases side <;> cases t <;> rfl

/-- A timer that is started leaves the flags. -/
theorem connected_timed (h : Host) (now : Time) :
    (h.timed now).session.connected = h.session.connected := by
  rw [Host.timed]
  show GameSession.connected (if _ then _ else _) = _
  split
  · rw [GameSession.startPlanningTimer]
    split <;> rfl
  · rfl

/-- A connection and its loss change one side's flag, to what they say. -/
theorem connected_next_of_reaches (h : Host) (call : SessionCall)
    {side : PlayerSide} {isConnected : Bool} (hcall : call.reaches = some (side, isConnected))
    (t : PlayerSide) : (h.next call).session.connected t =
      if t = side then isConnected else h.session.connected t := by
  cases call with
  | onPlayerConnected _ now =>
    cases hcall
    rw [next_onPlayerConnected]
    show ((h.reached side true).synced.timed now).session.connected t = _
    rw [connected_timed]
    exact connected_reached h side t true
  | onPlayerDisconnected _ =>
    cases hcall
    exact connected_reached h side t false
  | addPlayer _ _ | forceGameOver | moveUnits _ _ | encounterDecision _ _ _
  | checkAndResolveIfReady _ | planningTimeout _ _ | backupPlanningTimeout _ _
  | getGameState _ | reconnectSync _ _ => cases hcall

/-- The session's copy of the metadata is that of the room. -/
structure GameSession.Current (s : GameSession) (room : GameRoom) : Prop where
  phase : s.currentPhase = room.phase
  round : s.currentRound = room.currentRound
  owner : s.ownerServerId = room.ownerServerId

/-- Emptying the outbox leaves the metadata. -/
theorem GameSession.Current.told {s : GameSession} {room : GameRoom} (h : s.Current room) :
    s.Current room.told := ⟨h.phase, h.round, h.owner⟩

/-- After a round, the session has the metadata of the resolved room. -/
theorem current_opened (s : GameSession) (room : GameRoom) (gameOver : Bool) (deadline : Time)
    (now : Time) :
    ((s.syncMetadata room).opened gameOver deadline room.currentRound now).Current room := by
  rw [GameSession.opened]
  split
  · exact ⟨rfl, rfl, rfl⟩
  · rw [GameSession.startPlanningTimer]
    split <;> exact ⟨rfl, rfl, rfl⟩

/-- After a connection, that of the room that was looked at. -/
theorem current_timed (h : Host) (now : Time) : (h.synced.timed now).session.Current h.room := by
  rw [Host.timed]
  show GameSession.Current (if _ then _ else _) _
  split
  · rw [GameSession.startPlanningTimer]
    split <;> exact ⟨rfl, rfl, rfl⟩
  · exact ⟨rfl, rfl, rfl⟩

/-- A turn leaves the session with the metadata of the room, or as it was before. -/
theorem current_left {h : Host} {call : SessionCall} {room : GameRoom} {s : GameSession}
    (hleaves : Leaves h call room s) : s.Current room ∨
      room = h.room ∧ s.currentPhase = h.session.currentPhase ∧
        s.currentRound = h.session.currentRound ∧ s.ownerServerId = h.session.ownerServerId := by
  cases hleaves with
  | connect => exact .inl (current_timed (h.reached _ true) _)
  | disconnect | refuse _ _ => exact .inr ⟨rfl, rfl, rfl, rfl⟩
  | look _ _ | join _ | move _ _ | decide _ _ | abandon _ _ => exact .inl ⟨rfl, rfl, rfl⟩
  | resolve hres =>
    refine .inl ?_
    rw [GameSession.afterRound]
    exact (current_opened _ _ _ _ _).told

/-- On a server that is alone the session never lags behind with the phase. -/
theorem currentPhase_next {h : Host} (hroom : InSession h.room)
    (hphase : h.session.currentPhase = h.room.phase) (call : SessionCall) :
    (h.next call).session.currentPhase = (h.next call).room.phase := by
  obtain ⟨room, s, hleft⟩ := next_leaves hroom call
  rw [hleft.room, congr_bare GameSession.currentPhase (fun _ => rfl) hleft.session]
  rcases current_left hleft.leaves with hnew | ⟨rfl, hsame, -, -⟩
  · exact hnew.phase
  · exact hsame.trans hphase

/-! ## Without the lock

A handler that gives up on the lock returns without an error; a command is answered that the server is
busy. -/

/-- A turn that does not get the lock touches neither the room nor a timer, and raises nothing. -/
structure Refused (h h' : Host) : Prop where
  turn : Turn [] h h'
  room : h'.room = h.room
  published : h'.published = h.published
  timer : h'.session.timer = h.session.timer
  round : h'.session.planningTimerRound = h.session.planningTimerRound

/-- **A turn without the lock does nothing but talk.** -/
theorem nextContended_refused {h : Host} (hroom : InSession h.room) (hquiet : h.room.domainEvents = [])
    (call : SessionCall) : Refused h (h.nextContended call) := by
  have hsame : ∀ {h' : Host}, h'.room = h.room → Announces [] h h' → Turn [] h h' :=
    fun hkept ha => Turn.of_same hroom hquiet hkept ha
  cases call with
  | onPlayerConnected side now =>
    exact ⟨hsame rfl (Announces.of_same ⟨rfl, rfl, rfl, rfl, rfl⟩ rfl rfl), rfl, rfl, rfl, rfl⟩
  | onPlayerDisconnected side =>
    exact ⟨hsame rfl (Announces.of_same ⟨rfl, rfl, rfl, rfl, rfl⟩ rfl rfl), rfl, rfl, rfl, rfl⟩
  | moveUnits side command =>
    exact ⟨hsame rfl (Announces.notify h side fun m hm => by cases hm), rfl, rfl, rfl, rfl⟩
  | encounterDecision side edgeId decision =>
    exact ⟨hsame rfl (Announces.notify h side fun m hm => by cases hm), rfl, rfl, rfl, rfl⟩
  | reconnectSync side lastSeenSequence =>
    rw [Host.nextContended, foldl_notify h side
      (fun b => .message (.replayed b.event b.sequenceNumber))]
    refine ⟨hsame rfl (Announces.tell h side fun m hm => .inr ?_), rfl, rfl, rfl, rfl⟩
    -- what is sent again is in the buffer
    obtain ⟨b, hb, heq⟩ := List.mem_map.mp hm
    refine ⟨b, List.mem_append_left _ (mem_getEventsAfter.mp hb).1, ?_⟩
    rw [← Notice.message.inj heq]
    rfl
  | addPlayer _ _ | forceGameOver | checkAndResolveIfReady _ | planningTimeout _ _
  | backupPlanningTimeout _ _ | getGameState _ =>
    exact ⟨hsame rfl (Announces.of_same ⟨rfl, rfl, rfl, rfl, rfl⟩ rfl rfl), rfl, rfl, rfl, rfl⟩

/-- Without the lock a session learns no more than that a side has come or gone. -/
theorem nextContended_session (h : Host) (call : SessionCall) : (h.nextContended call).session =
    match call.reaches with
    | some (side, isConnected) => (h.reached side isConnected).session
    | none => h.session := by
  cases call with
  | reconnectSync side lastSeenSequence =>
    rw [Host.nextContended, foldl_notify h side
      (fun b => .message (.replayed b.event b.sequenceNumber))]
    rfl
  | addPlayer _ _ | onPlayerConnected _ _ | onPlayerDisconnected _ | forceGameOver | moveUnits _ _
  | encounterDecision _ _ _ | checkAndResolveIfReady _ | planningTimeout _ _
  | backupPlanningTimeout _ _ | getGameState _ => rfl

end HexWar
