/-
  Where a side has sent its units stays secret while the round is planned.

  Two runs are compared in which one side names other destinations.  `LooksSame side` relates two
  hosts that `side` cannot tell apart: the session and the room agree except for the destinations in
  the opponent's reserved moves, and `side` has received the same.  No turn short of a resolution
  brings this relation to an end: the checks of a move count what is reserved by its origin
  (`committedFrom_eq`), a decision and a join read no reserved move, an announced departure carries
  no destination, and a view shows the reserved moves of its own side only.

  `LooksSame.next` is this step, and `destinations_secret` the induction over the two runs.


  The relation says nothing of what the opponent has received, nor of what was published or told to
  the hosting program: these may differ from the first move on.
-/
import HexWar.Session.Hosts

namespace HexWar

open Lib Lib.Action GameRoom

/-! ## Plans that differ in destinations

What a departure tells is the node it leaves and the number of units. -/

/-- A reserved move without its destination. -/
def PendingMove.departure (m : PendingMove) : NodeId × Int := (m.fromNode, m.count)

/-- The same reserved moves, but for the destinations of the opponent of `side`. -/
structure SameDepartures (side : PlayerSide) (moves moves' : PerSide (List PendingMove)) : Prop where
  /-- A side's own moves are the same in both runs. -/
  own : moves'.get side = moves.get side
  /-- The opponent's leave the same nodes, in the same numbers and the same order. -/
  opponent : (moves'.get side.enemy).map PendingMove.departure =
    (moves.get side.enemy).map PendingMove.departure

/-- What is committed from a node depends on the departures only. -/
theorem committedFrom_eq (moves : List PendingMove) (node : NodeId) :
    committedFrom moves node =
      (((moves.map PendingMove.departure).filter (·.1 = node)).map (·.2)).sum := by
  rw [List.filter_map, List.map_map]
  rfl

namespace SameDepartures

variable {side : PlayerSide} {moves moves' : PerSide (List PendingMove)}

/-- The same plans. -/
theorem refl (side : PlayerSide) (moves : PerSide (List PendingMove)) :
    SameDepartures side moves moves := ⟨rfl, rfl⟩

/-- Both sides have the same departures. -/
theorem departures (h : SameDepartures side moves moves') (t : PlayerSide) :
    (moves'.get t).map PendingMove.departure = (moves.get t).map PendingMove.departure := by
  rcases em (t = side) with rfl | hne
  · rw [h.own]
  · rw [PlayerSide.ne_iff_eq_enemy.mp hne]
    exact h.opponent

/-- So the same is committed from every node. -/
theorem committed (h : SameDepartures side moves moves') (t : PlayerSide) (node : NodeId) :
    committedFrom (moves'.get t) node = committedFrom (moves.get t) node := by
  rw [committedFrom_eq, committedFrom_eq, h.departures t]

/-- The same move reserved on both. -/
theorem append (h : SameDepartures side moves moves') (t : PlayerSide) (m : PendingMove) :
    SameDepartures side (moves.update t (· ++ [m])) (moves'.update t (· ++ [m])) := by
  rcases em (t = side) with rfl | hne
  · refine ⟨?_, ?_⟩
    · rw [PerSide.get_update_same, PerSide.get_update_same, h.own]
    · rw [PerSide.get_update_of_ne _ (PlayerSide.enemy_ne t),
        PerSide.get_update_of_ne _ (PlayerSide.enemy_ne t)]
      exact h.opponent
  · refine ⟨?_, ?_⟩
    · rw [PerSide.get_update_of_ne _ (Ne.symm hne), PerSide.get_update_of_ne _ (Ne.symm hne)]
      exact h.own
    · rw [← PlayerSide.ne_iff_eq_enemy.mp hne, PerSide.get_update_same, PerSide.get_update_same,
        List.map_append, List.map_append, h.departures t]

/-- A move of the opponent reserved on both, to different destinations. -/
theorem append_opponent (h : SameDepartures side moves moves') {m m' : PendingMove}
    (hm : m'.departure = m.departure) :
    SameDepartures side (moves.update side.enemy (· ++ [m]))
      (moves'.update side.enemy (· ++ [m'])) where
  own := by
    have hne : side ≠ side.enemy := Ne.symm (PlayerSide.enemy_ne side)
    rw [PerSide.get_update_of_ne _ hne, PerSide.get_update_of_ne _ hne, h.own]
  opponent := by
    rw [PerSide.get_update_same, PerSide.get_update_same, List.map_append, List.map_append,
      h.opponent, List.map_singleton, List.map_singleton, hm]

end SameDepartures

/-! ## What reads no destination

Three calls that read the reserved moves, or copy the room: the checks of a move, a join and a
decision. -/

section Room

variable {side : PlayerSide} {room : GameRoom} {moves : PerSide (List PendingMove)}

/-- A move is refused alike, -/
theorem sessionMoveRefusal_moves (h : SameDepartures side room.pendingMoves moves) (t : PlayerSide)
    (command : MoveCommand) :
    { room with pendingMoves := moves }.sessionMoveRefusal t command =
      room.sessionMoveRefusal t command := by
  -- The only thing that is read of the plans is how many units are still available at a node.
  have havail : ∀ (node : Node) (id : NodeId),
      { room with pendingMoves := moves }.availableAt t node id = room.availableAt t node id := by
    intro node id
    rw [availableAt, availableAt]
    exact congrArg (node.getMobileCount t - ·) (h.committed t id)
  unfold sessionMoveRefusal moveRefusal
  simp only [havail]
  rfl

/-- a join does the same to the rest of the room, -/
theorem joined_moves (room : GameRoom) (moves : PerSide (List PendingMove)) (playerId : PlayerId)
    (deadline : Time) :
    { room with pendingMoves := moves }.joined playerId deadline =
      { room.joined playerId deadline with pendingMoves := moves } := by
  have hseated : { room with pendingMoves := moves }.seated playerId =
    { room.seated playerId with pendingMoves := moves } := rfl
  rw [GameRoom.joined, GameRoom.joined, hseated]
  rcases room.seated playerId with ⟨_, _, _, _, _, _, _, ⟨_ | playerA, _ | playerB⟩, _, _, _,
    _⟩ <;> rfl

/-- and so does a decision. -/
theorem decideEncounter_moves (room : GameRoom) (moves : PerSide (List PendingMove)) (edgeId : EdgeId)
    (t : PlayerSide) (decision : EncounterDecision) :
    { room with pendingMoves := moves }.decideEncounter edgeId t decision =
      { room.decideEncounter edgeId t decision with pendingMoves := moves } := by
  have hon : { room with pendingMoves := moves }.encounterOn edgeId = room.encounterOn edgeId := rfl
  have hedge : { room with pendingMoves := moves }.edges.get? edgeId = room.edges.get? edgeId := rfl
  rw [decideEncounter, decideEncounter, hon, hedge]
  rcases room.encounterOn edgeId with _ | pending
  · rfl
  · rcases room.edges.get? edgeId with _ | edge <;> rfl

end Room

/-! ## Hosts that look the same

The relation is kept by each part of a handler; a handler then keeps it by the lemmas about its
parts. -/

/-- Two hosts that a side cannot tell apart before the round is resolved. -/
structure LooksSame (side : PlayerSide) (h h' : Host) : Prop where
  /-- The same connections, flags, buffer and sequence number. -/
  session : h'.session = h.session
  /-- The same room, but for the plans, -/
  room : h'.room = { h.room with pendingMoves := h'.room.pendingMoves }
  /-- which differ in the opponent's destinations at most. -/
  moves : SameDepartures side h.room.pendingMoves h'.room.pendingMoves
  /-- And the side has received the same. -/
  inbox : h'.inbox.get side = h.inbox.get side

namespace LooksSame

variable {side : PlayerSide} {h h' : Host}

/-- A host looks the same as itself. -/
theorem refl (side : PlayerSide) (h : Host) : LooksSame side h h :=
  ⟨rfl, rfl, SameDepartures.refl side _, rfl⟩

/-- The second host, in terms of the first. -/
theorem eq (hl : LooksSame side h h') : ∃ moves inbox published gameOvers,
    h' = ⟨h.session, { h.room with pendingMoves := moves }, inbox, published, gameOvers⟩ ∧
      SameDepartures side h.room.pendingMoves moves ∧ inbox.get side = h.inbox.get side := by
  rcases h' with ⟨session, room, inbox, published, gameOvers⟩
  have hsession : session = h.session := hl.session
  have hroom : room = { h.room with pendingMoves := room.pendingMoves } := hl.room
  refine ⟨room.pendingMoves, inbox, published, gameOvers, ?_, hl.moves, hl.inbox⟩
  rw [← hroom, hsession]

/-- After a load they look the same, -/
theorem synced (hl : LooksSame side h h') : LooksSame side h.synced h'.synced := by
  obtain ⟨moves, inbox, published, gameOvers, rfl, hm, hi⟩ := hl.eq
  exact ⟨rfl, rfl, hm, hi⟩

/-- Both are told the same. -/
theorem notify (hl : LooksSame side h h') (t : PlayerSide) (n : Notice) :
    LooksSame side (h.notify t n) (h'.notify t n) where
  session := hl.session
  room := hl.room
  moves := hl.moves
  inbox := by rw [Host.inbox_notify, Host.inbox_notify, hl.inbox]

/-- The opponent is told anything. -/
theorem notify_opponent (hl : LooksSame side h h') (n n' : Notice) :
    LooksSame side (h.notify side.enemy n) (h'.notify side.enemy n') where
  session := hl.session
  room := hl.room
  moves := hl.moves
  inbox := by
    have hne : side ≠ side.enemy := Ne.symm (PlayerSide.enemy_ne side)
    rw [Host.inbox_notify, Host.inbox_notify, if_neg hne, if_neg hne, hl.inbox]

/-- Both are told the same list. -/
theorem tell (hl : LooksSame side h h') (t : PlayerSide) (ns : List Notice) :
    LooksSame side (h.tell t ns) (h'.tell t ns) where
  session := hl.session
  room := hl.room
  moves := hl.moves
  inbox := by
    show (h'.inbox.update t _).get side = (h.inbox.update t _).get side
    rcases em (side = t) with rfl | hne
    · rw [PerSide.get_update_same, PerSide.get_update_same, hl.inbox]
    · rw [PerSide.get_update_of_ne _ hne, PerSide.get_update_of_ne _ hne, hl.inbox]

/-- A change of the session that both make. -/
theorem mapSession (hl : LooksSame side h h') (f : GameSession → GameSession) :
    LooksSame side { h with session := f h.session } { h' with session := f h'.session } :=
  ⟨congrArg f hl.session, hl.room, hl.moves, hl.inbox⟩

/-- The same events are announced on both. -/
theorem flush (hl : LooksSame side h h') : LooksSame side h.flush h'.flush := by
  obtain ⟨moves, inbox, published, gameOvers, rfl, hm, hi⟩ := hl.eq
  refine ⟨?_, ?_, ?_, ?_⟩
  · rw [Host.flush_session, Host.flush_session]
  · rw [Host.flush_room, Host.flush_room]
  · rw [Host.flush_room, Host.flush_room]
    exact hm
  · rw [Host.flush_inbox, Host.flush_inbox, hi]

/-- after the timers are started, -/
theorem timed (hl : LooksSame side h h') (now : Time) :
    LooksSame side (h.timed now) (h'.timed now) := by
  obtain ⟨moves, inbox, published, gameOvers, rfl, hm, hi⟩ := hl.eq
  exact ⟨rfl, rfl, hm, hi⟩

/-- after the same player joins, -/
theorem welcomed (hl : LooksSame side h h') (playerId : PlayerId) (now : Time) :
    LooksSame side (h.welcomed playerId now) (h'.welcomed playerId now) := by
  obtain ⟨moves, inbox, published, gameOvers, rfl, hm, hi⟩ := hl.eq
  have hjoined := joined_moves h.room moves playerId (now + h.session.planningTimeout)
  have hkeep : (h.room.joined playerId (now + h.session.planningTimeout)).pendingMoves =
    h.room.pendingMoves := (joined_frame h.room playerId _).moves
  refine flush ⟨rfl, ?_, ?_, hi⟩
  · rw [hjoined]
  · rw [hjoined]
    show SameDepartures side (h.room.joined playerId _).pendingMoves moves
    rw [hkeep]
    exact hm

/-- after the same move, -/
theorem moved (hl : LooksSame side h h') (t : PlayerSide) (command : MoveCommand) :
    LooksSame side (h.moved t command) (h'.moved t command) := by
  obtain ⟨moves, inbox, published, gameOvers, rfl, hm, hi⟩ := hl.eq
  exact flush ⟨rfl, rfl, hm.append t _, hi⟩

/-- The opponent's moves to different destinations. -/
theorem moved_opponent (hl : LooksSame side h h') (fromNode toNode toNode' : NodeId) (count : Int) :
    LooksSame side (h.moved side.enemy ⟨fromNode, toNode, count⟩)
      (h'.moved side.enemy ⟨fromNode, toNode', count⟩) := by
  obtain ⟨moves, inbox, published, gameOvers, rfl, hm, hi⟩ := hl.eq
  refine flush ⟨rfl, rfl, ?_, hi⟩
  exact hm.append_opponent rfl

/-- after the same decision, -/
theorem decided (hl : LooksSame side h h') (t : PlayerSide) (edgeId : EdgeId)
    (decision : EncounterDecision) :
    LooksSame side (h.decided t edgeId decision) (h'.decided t edgeId decision) := by
  obtain ⟨moves, inbox, published, gameOvers, rfl, hm, hi⟩ := hl.eq
  have hdecide := decideEncounter_moves h.room moves edgeId t decision
  have hkeep : (h.room.decideEncounter edgeId t decision).pendingMoves = h.room.pendingMoves :=
    (decideEncounter_frame h.room edgeId t decision).moves
  refine flush ⟨?_, ?_, ?_, hi⟩
  · rw [hdecide]
    rfl
  · rw [hdecide]
  · rw [hdecide]
    show SameDepartures side (h.room.decideEncounter edgeId t decision).pendingMoves moves
    rw [hkeep]
    exact hm

/-- and after the same forced end. -/
theorem abandoned (hl : LooksSame side h h') (winner : PlayerSide) :
    LooksSame side (h.abandoned winner) (h'.abandoned winner) := by
  obtain ⟨moves, inbox, published, gameOvers, rfl, hm, hi⟩ := hl.eq
  have htold : LooksSame side
      (Host.flush { h with room := h.room.forced (some winner) .playerDisconnected })
      (Host.flush ⟨h.session,
        { h.room with pendingMoves := moves }.forced (some winner) .playerDisconnected,
        inbox, published, gameOvers⟩) :=
    flush ⟨rfl, rfl, hm, hi⟩
  have hstopped := htold.mapSession (·.stopPlanningTimer)
  exact ⟨hstopped.session, hstopped.room, hstopped.moves, hstopped.inbox⟩

/-- What `side` is shown is the same. -/
theorem shown (hl : LooksSame side h h') : h'.shown side = h.shown side := by
  obtain ⟨moves, inbox, published, gameOvers, rfl, hm, hi⟩ := hl.eq
  exact Host.shown_congr (buildGameStateView_pendingMoves hm.own _ _) rfl

/-- A call resolves a round on both or on neither. -/
theorem resolves (hl : LooksSame side h h') {call : SessionCall} {room : GameRoom} {now : Time}
    (hres : Resolves h' call room now) : ∃ room, Resolves h call room now := by
  obtain ⟨moves, inbox, published, gameOvers, rfl, hm, hi⟩ := hl.eq
  cases hres with
  | ready hready hall => exact ⟨_, .ready hready hall⟩
  | timeout hphase hround => exact ⟨_, .timeout hphase hround⟩
  | backup hphase hround => exact ⟨_, .backup hphase hround⟩

/-- What is not a resolution leaves them looking the same. -/
theorem next_same (hl : LooksSame side h h') (hmap : OnMap h.room) (hmap' : OnMap h'.room)
    {call : SessionCall} (hno : ∀ room now, ¬ Resolves h call room now) :
    LooksSame side (h.next call) (h'.next call) := by
  -- If the second host resolved, so would the first.
  have hno' : ∀ room now, ¬ Resolves h' call room now := by
    intro room now hres
    obtain ⟨room', hres'⟩ := hl.resolves hres
    exact hno room' now hres'
  have hlook : call.mayResolve = true → LooksSame side (h.next call) (h'.next call) := by
    intro hmay
    rw [next_of_not_resolves hmay hno, next_of_not_resolves hmay hno']
    exact hl.synced
  cases call with
  | checkAndResolveIfReady now => exact hlook rfl
  | planningTimeout forRound now => exact hlook rfl
  | backupPlanningTimeout forRound now => exact hlook rfl
  | addPlayer playerId now =>
    have hrefusal : h'.room.joinRefusal playerId = h.room.joinRefusal playerId := by
      rw [hl.room]
      rfl
    rw [next_addPlayer_host hmap, next_addPlayer_host hmap', hrefusal]
    split
    · exact hl.synced
    · exact (hl.synced.welcomed playerId now).synced
  | onPlayerConnected t now =>
    rw [next_onPlayerConnected, next_onPlayerConnected]
    have hreached : LooksSame side (h.reached t true) (h'.reached t true) :=
      hl.mapSession (·.updatePlayer t fun p => { p with isConnected := true })
    exact (hreached.synced.timed now).synced
  | onPlayerDisconnected t =>
    exact hl.mapSession (·.updatePlayer t fun p => { p with isConnected := false })
  | forceGameOver =>
    have hphase : h'.room.phase = h.room.phase := by rw [hl.room]
    rw [next_forceGameOver_host, next_forceGameOver_host, hl.session, hphase]
    split
    · exact hl.synced
    split
    · exact hl.synced
    · exact (hl.synced.abandoned _).synced
  | moveUnits t command =>
    have hrefusal : h'.room.sessionMoveRefusal t command = h.room.sessionMoveRefusal t command := by
      rw [hl.room]
      exact sessionMoveRefusal_moves hl.moves t command
    have hanswer : h'.room.moveAnswer t command = h.room.moveAnswer t command := by
      rw [hl.room]
      rfl
    rw [next_moveUnits_host, next_moveUnits_host, hl.session, hrefusal, hanswer]
    split
    · split
      · exact hl.synced.notify t _
      · exact (hl.synced.moved t command).synced.notify t _
    · exact hl.notify t _
  | encounterDecision t edgeId decision =>
    have hrefusal : h'.room.decisionRefusal edgeId t decision =
        h.room.decisionRefusal edgeId t decision := by
      rw [hl.room]
      rfl
    have hanswer : h'.room.decisionAnswer edgeId t decision =
        h.room.decisionAnswer edgeId t decision := by
      rw [hl.room, decisionAnswer, decideEncounter_moves]
      rfl
    rw [next_encounterDecision, next_encounterDecision, hl.session, hrefusal, hanswer]
    split
    · split
      · exact hl.synced.notify t _
      · exact (hl.synced.decided t edgeId decision).synced.notify t _
    · exact hl.notify t _
  | getGameState t =>
    rw [next_getGameState, next_getGameState]
    -- The side's own view is the same; the opponent's may differ, and is the opponent's to see.
    rcases em (t = side) with rfl | hne
    · rw [hl.shown]
      exact hl.synced.notify t _
    · rw [PlayerSide.ne_iff_eq_enemy.mp hne]
      exact hl.synced.notify_opponent _ _
  | reconnectSync t lastSeenSequence =>
    rw [next_reconnectSync, next_reconnectSync, hl.session]
    rcases em (t = side) with rfl | hne
    · rw [hl.shown]
      exact (hl.synced.tell t _).notify t _
    · rw [PlayerSide.ne_iff_eq_enemy.mp hne]
      exact (hl.synced.tell _ _).notify_opponent _ _

end LooksSame

/-! ## Two runs

The runs have the same calls but for destinations, and every command of the opponent is accepted in
both: a refusal would differ where only one of the destinations is a neighbour. -/

/-- The same call, but for the destination of a move of `side`. -/
inductive SameButDestination (side : PlayerSide) : SessionCall → SessionCall → Prop where
  /-- The same call in both runs; -/
  | same (call : SessionCall) : SameButDestination side call call
  /-- or a move from the same node, of the same number, to another node. -/
  | move (fromNode toNode toNode' : NodeId) (count : Int) :
      SameButDestination side (.moveUnits side ⟨fromNode, toNode, count⟩)
        (.moveUnits side ⟨fromNode, toNode', count⟩)

/-- The side whose command a call is. -/
def SessionCall.commander : SessionCall → Option PlayerSide
  | .moveUnits side _ | .encounterDecision side _ _ => some side
  | _ => none

/-- Is a command carried out? -/
def Host.accepts (h : Host) : SessionCall → Bool
  | .moveUnits side command =>
    match reliable.handleMoveUnits side command h with
    | .ok result _ => result.isSuccess
    | .error _ _ => false
  | .encounterDecision side edgeId decision =>
    match reliable.handleEncounterDecision side edgeId decision h with
    | .ok result _ => result.isSuccess
    | .error _ _ => false
  | _ => true

/-- A command of `side` is carried out. -/
def AcceptedFor (side : PlayerSide) (h : Host) (call : SessionCall) : Prop :=
  call.commander = some side → h.accepts call = true

instance (side : PlayerSide) (h : Host) (call : SessionCall) : Decidable (AcceptedFor side h call) :=
  inferInstanceAs (Decidable (_ → _))

/-- A move is carried out for a connected side and a command that nothing refuses. -/
theorem accepts_moveUnits {h : Host} {side : PlayerSide} {command : MoveCommand}
    (hacc : h.accepts (.moveUnits side command) = true) :
    (h.session.playerStates.get side).isConnected = true ∧
      h.room.sessionMoveRefusal side command = none := by
  rw [Host.accepts] at hacc
  rcases hconn : (h.session.playerStates.get side).isConnected with _ | _
  · rw [handleMoveUnits_disconnected hconn] at hacc
    cases hacc
  · rw [handleMoveUnits_eq hconn] at hacc
    rcases hr : h.room.sessionMoveRefusal side command with _ | e
    · exact ⟨rfl, rfl⟩
    · rw [hr] at hacc
      cases hacc

/-- **One step of the two runs**: what is not a resolution leaves the hosts looking the same, the
    opponent's accepted moves to different destinations included. -/
theorem LooksSame.next {side : PlayerSide} {h h' : Host} (hl : LooksSame side h h')
    (hroom : InSession h.room) (hroom' : InSession h'.room) {call call' : SessionCall}
    (htwin : SameButDestination side.enemy call call') (hacc : AcceptedFor side.enemy h call)
    (hacc' : AcceptedFor side.enemy h' call')
    (hround : (h.next call).room.currentRound = h.room.currentRound) :
    LooksSame side (h.next call) (h'.next call') := by
  cases htwin with
  | same =>
    refine hl.next_same hroom.sound.map hroom'.sound.map fun room now hres => ?_
    have hcount := currentRound_of_resolves hroom hres
    omega
  | move fromNode toNode toNode' count =>
    obtain ⟨hconn, hr⟩ := accepts_moveUnits (hacc rfl)
    obtain ⟨hconn', hr'⟩ := accepts_moveUnits (hacc' rfl)
    rw [next_moveUnits_host, next_moveUnits_host, if_pos hconn, if_pos hconn', hr, hr']
    exact (hl.synced.moved_opponent fromNode toNode toNode' count).synced.notify_opponent _ _

section Runs

variable {roomId serverId : String} {hasEventPublisher : Bool} {planningTimeout : Time}

/-- The hosts of two runs that differ in the opponent's destinations look the same. -/
theorem looksSame_runs {side : PlayerSide} {h h' : Host} {calls calls' : List SessionCall}
    (hh : Hosting h) (hh' : Hosting h') (hl : LooksSame side h h')
    (htwins : List.Forall₂ (SameButDestination side.enemy) calls calls')
    (hacc : (hosts roomId serverId hasEventPublisher planningTimeout).Steps
      (AcceptedFor side.enemy) h calls)
    (hacc' : (hosts roomId serverId hasEventPublisher planningTimeout).Steps
      (AcceptedFor side.enemy) h' calls')
    (hround : ∀ t ∈ (hosts roomId serverId hasEventPublisher planningTimeout).visited h calls,
      t.room.currentRound = h.room.currentRound) :
    LooksSame side ((hosts roomId serverId hasEventPublisher planningTimeout).after h calls)
      ((hosts roomId serverId hasEventPublisher planningTimeout).after h' calls') := by
  induction htwins generalizing h h' with
  | nil => exact hl
  | @cons call call' calls calls' htwin _ ih =>
    have hnext : (h.next call).room.currentRound = h.room.currentRound :=
      hround _ (List.mem_cons_of_mem _ (Machine.self_mem_visited _ _))
    refine ih (hh.next call) (hh'.next call')
      (hl.next hh.room hh'.room htwin hacc.1 hacc'.1 hnext) hacc.2 hacc'.2 fun t ht => ?_
    exact (hround t (List.mem_cons_of_mem _ ht)).trans hnext.symm

/-- **Destinations are secret while a round is planned.**  Two runs from one state that differ in
    the destinations of moves of the opponent, all commands of the opponent accepted in both and no
    round resolved, leave a side with the same received: answers and errors of its own calls, views,
    events and replays of missed events. -/
theorem destinations_secret {side : PlayerSide} {h : Host}
    (hreach : (hosts roomId serverId hasEventPublisher planningTimeout).Reachable h)
    {calls calls' : List SessionCall}
    (htwins : List.Forall₂ (SameButDestination side.enemy) calls calls')
    (hacc : (hosts roomId serverId hasEventPublisher planningTimeout).Steps
      (AcceptedFor side.enemy) h calls)
    (hacc' : (hosts roomId serverId hasEventPublisher planningTimeout).Steps
      (AcceptedFor side.enemy) h calls')
    (hround : ∀ t ∈ (hosts roomId serverId hasEventPublisher planningTimeout).visited h calls,
      t.room.currentRound = h.room.currentRound) :
    ((hosts roomId serverId hasEventPublisher planningTimeout).after h calls).inbox.get side =
      ((hosts roomId serverId hasEventPublisher planningTimeout).after h calls').inbox.get side := by
  have hh := hosting_of_reachable hreach
  exact (looksSame_runs hh hh (LooksSame.refl side h) htwins hacc hacc' hround).inbox.symm

end Runs

/-! ### Two runs of the first round -/

/-- One server without others, and half a minute for a round. -/
def lone : Machine Host SessionCall := hosts "room" "server" false 30000

/-- Both players join and connect. -/
def openingTurns : List SessionCall :=
  [.addPlayer ⟨"alice"⟩ 0, .addPlayer ⟨"bob"⟩ 5, .onPlayerConnected .a 10, .onPlayerConnected .b 20]

/-- The host when the first round has begun. -/
def openedHost : Host := lone.after lone.start openingTurns

theorem openedHost_reachable : lone.Reachable openedHost :=
  ⟨openingTurns, ⟨trivial, trivial, trivial, trivial, trivial⟩, rfl⟩

/-- Side A sends two units from its outpost to a node, and side B plans its own moves and looks. -/
def planTowards (toNode : NodeId) : List SessionCall :=
  [.moveUnits .a ⟨⟨1⟩, toNode, 2⟩, .checkAndResolveIfReady 30,
    .moveUnits .b ⟨⟨5⟩, ⟨3⟩, 9⟩,
    .checkAndResolveIfReady 40, .moveUnits .b ⟨⟨5⟩, ⟨3⟩, 1⟩, .getGameState .b,
    .reconnectSync .b 0]

/-- Side B cannot tell whether the two units are on their way to node 4 or to node 5. -/
theorem destinations_secret_opening :
    (lone.after openedHost (planTowards ⟨4⟩)).inbox.get .b =
        (lone.after openedHost (planTowards ⟨5⟩)).inbox.get .b ∧
      (lone.after openedHost (planTowards ⟨4⟩)).room.pendingMoves.get .a ≠
        (lone.after openedHost (planTowards ⟨5⟩)).room.pendingMoves.get .a := by
  have htwins : List.Forall₂ (SameButDestination .a) (planTowards ⟨4⟩) (planTowards ⟨5⟩) :=
    .cons (.move ⟨1⟩ ⟨4⟩ ⟨5⟩ 2) (.cons (.same _) (.cons (.same _) (.cons (.same _)
      (.cons (.same _) (.cons (.same _) (.cons (.same _) .nil))))))
  refine ⟨@destinations_secret _ _ _ _ .b _ openedHost_reachable _ _ htwins ?_ ?_ ?_, ?_⟩
  · decide +kernel
  · decide +kernel
  · decide +kernel
  · decide +kernel

end HexWar
