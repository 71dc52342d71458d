/-
  What each turn of a session does, as a function of the host.

  A command of a player is refused with the host as it was (but for the metadata the session copies
  from the room), or it changes the room as `GameRoom.reserve` and `GameRoom.decideEncounter` say and
  announces what was raised (`handleMoveUnits_eq`, `handleEncounterDecision_eq`).  A round is resolved
  by `resolvedRound`, after the default decision on every encounter still undecided when a timer
  does it (`resolveTimedOut_ok`).

  That the two timers get through is where the invariant of the room is needed: the decisions are
  taken one after the other on the encounters found undecided at the start, and each of them is
  still there, and undecided, when its turn comes (`retreatUndecided_ok`).

  Every handler of the session has an equation here, in the words of the room's own functions; the
  monadic programs of `GameSession` are not unfolded again after this module.

  1. The lock: an action that returns is followed by a second copy of the metadata, one that throws is
     not.
  2. Joining, and the two commands, each with what they answer.
  3. The resolution, and the default decisions that a timer takes before it.
  4. The turns: `Host.next` of each call, put together from these.
-/
import HexWar.Domain.Encounters
import HexWar.Session.Announcements

namespace HexWar

open Lib Lib.Action GameRoom

/-! ## Under the lock

`Host.synced` is what ExecuteOnGameRoomAsync does before and after the action. -/

/-- The host with the metadata of its room copied to the session. -/
def Host.synced (h : Host) : Host := { h with session := h.session.syncMetadata h.room }

@[simp] theorem Host.inbox_synced (h : Host) : h.synced.inbox = h.inbox := rfl

@[simp] theorem Host.room_synced (h : Host) : h.synced.room = h.room := rfl

/-- An action that returns: the metadata is copied again. -/
theorem executeOnGameRoom_ok {α : Type} {x : Service α} {h t : Host} {a : α}
    (hx : x h.synced = .ok a t) : executeOnGameRoom x h = .ok a t.synced := by
  rw [executeOnGameRoom, syncMetadata, bind_of_ok (modify_apply _ h)]
  show (x >>= _) h.synced = _
  rw [bind_of_ok hx]
  rfl

/-- An action that throws: what it has done stays, and the metadata is not copied. -/
theorem executeOnGameRoom_error {α : Type} {x : Service α} {h h' : Host} {e : GameError}
    (hx : x h.synced = .error e h') : executeOnGameRoom x h = .error e h' := by
  rw [executeOnGameRoom, syncMetadata, bind_of_ok (modify_apply _ h)]
  show (x >>= _) h.synced = _
  rw [bind_of_error hx]

/-- An operation of the room, as a step of the session. -/
theorem onRoom_ok {α : Type} {x : Game α} {h : Host} {a : α} {room : GameRoom}
    (hx : x h.room = .ok a room) : onRoom x h = .ok a { h with room := room } := by
  rw [onRoom, hx]

/-- One that throws, in the same way. -/
theorem onRoom_error {α : Type} {x : Game α} {h : Host} {e : GameError} {room : GameRoom}
    (hx : x h.room = .error e room) : onRoom x h = .error e { h with room := room } := by
  rw [onRoom, hx]

/-- The takeover by a backup timer. -/
theorem assignOwner_ok (h : Host) (serverId : String) : reliable.onRoom (assignOwner serverId) h =
    .ok () { h with room := { h.room with ownerServerId := some serverId } } := rfl

/-! ## Joining

The deadline of the first round is counted from the clock of the turn. -/

/-- The host after a player has joined. -/
def Host.welcomed (h : Host) (playerId : PlayerId) (now : Time) : Host :=
  Host.flush { h with room := h.room.joined playerId (now + h.session.planningTimeout) }

/-- AddPlayerToRoomAsync, as an equation. -/
theorem addPlayerToRoom_eq {h : Host} (hmap : OnMap h.room) (playerId : PlayerId) (now : Time) :
    reliable.addPlayerToRoom playerId now h = match h.room.joinRefusal playerId with
      | some e => .error e h.synced
      | none => .ok h.room.vacantSide (h.synced.welcomed playerId now).synced := by
  obtain ⟨node, hnode⟩ := hmap.start h.room.vacantSide
  have heq := addPlayer_eq hnode playerId (some (now + h.session.planningTimeout)) now
  rcases hr : h.room.joinRefusal playerId with _ | e
  · rw [hr] at heq
    refine executeOnGameRoom_ok ?_
    rw [bind_of_ok (get_apply _)]
    exact bind_of_ok (@onRoom_ok _ _ h.synced _ _ heq)
  · rw [hr] at heq
    refine executeOnGameRoom_error ?_
    rw [bind_of_ok (get_apply _)]
    exact bind_of_error (@onRoom_error _ _ h.synced _ _ heq)

/-! ## Commands

A session checks the phase and the units that are left itself, and cuts the count of a move down,
before it asks the room. -/

/-- The command with its count cut down to what the side has left this round. -/
def GameRoom.adjusted (room : GameRoom) (side : PlayerSide) (command : MoveCommand) : MoveCommand :=
  ⟨command.fromNode, command.toNode, min command.unitCount (room.getRemainingUnits side)⟩

/-- Why a session refuses a move. -/
def GameRoom.sessionMoveRefusal (room : GameRoom) (side : PlayerSide) (command : MoveCommand) :
    Option GameError :=
  if room.phase ≠ .planning then some (.domain "Wrong phase")
  else if room.getRemainingUnits side ≤ 0 then some (.domain "No units remaining")
  else room.moveRefusal side (room.adjusted side command)

/-- The host after a move was reserved. -/
def Host.moved (h : Host) (side : PlayerSide) (command : MoveCommand) : Host :=
  let room := h.room.reserve side (h.room.adjusted side command)
  Host.flush { h with
    room := room
    session := h.session.updatePlayer side fun p =>
      { p with moveCommandCompleted := decide (room.getRemainingUnits side ≤ 0) } }

/-- The answer to a move that was reserved. -/
def GameRoom.moveAnswer (room : GameRoom) (side : PlayerSide) (command : MoveCommand) :
    MoveUnitsCommandResult :=
  .success (room.granted side (room.adjusted side command)) (toString command.fromNode)
    (toString command.toNode)

/-- A side that is not connected is answered without the room being loaded. -/
theorem handleMoveUnits_disconnected {h : Host} {side : PlayerSide}
    (hconn : (h.session.playerStates.get side).isConnected = false) (command : MoveCommand) :
    reliable.handleMoveUnits side command h = .ok (.fail "Not connected" "NOT_CONNECTED") h := by
  have hc : ¬ (h.session.playerStates.get side).isConnected = true := by rw [hconn]; decide
  rw [RoomAccess.handleMoveUnits, bind_of_ok (get_apply h)]
  rw [if_pos hc]
  rfl

/-- HandleMoveUnitsAsync of a connected side, as an equation. -/
theorem handleMoveUnits_eq {h : Host} {side : PlayerSide}
    (hconn : (h.session.playerStates.get side).isConnected = true) (command : MoveCommand) :
    reliable.handleMoveUnits side command h = match h.room.sessionMoveRefusal side command with
      | some e => .error e h.synced
      | none => .ok (h.room.moveAnswer side command) (h.synced.moved side command).synced := by
  have hc : ¬ ¬ (h.session.playerStates.get side).isConnected = true := not_not_intro hconn
  have heq := moveUnits_eq h.room side (h.room.adjusted side command)
  rw [RoomAccess.handleMoveUnits, bind_of_ok (get_apply h)]
  rw [if_neg hc]
  unfold sessionMoveRefusal
  -- the three checks in their order, each of which throws before the room is touched
  by_cases hphase : h.room.phase ≠ .planning
  · rw [if_pos hphase]
    refine executeOnGameRoom_error ?_
    rw [bind_of_ok (get_apply _), throwIf_bind]
    exact if_pos hphase
  rw [if_neg hphase]
  by_cases hrem : h.room.getRemainingUnits side ≤ 0
  · rw [if_pos hrem]
    refine executeOnGameRoom_error ?_
    rw [bind_of_ok (get_apply _), throwIf_bind]
    refine (if_neg hphase).trans ?_
    rw [throwIf_bind]
    exact if_pos hrem
  rw [if_neg hrem]
  rcases hr : h.room.moveRefusal side (h.room.adjusted side command) with _ | e
  · rw [hr] at heq
    refine executeOnGameRoom_ok ?_
    rw [bind_of_ok (get_apply _), throwIf_bind]
    refine (if_neg hphase).trans ?_
    rw [throwIf_bind]
    refine (if_neg hrem).trans ?_
    exact bind_of_ok (@onRoom_ok _ _ h.synced _ _ heq)
  · rw [hr] at heq
    refine executeOnGameRoom_error ?_
    rw [bind_of_ok (get_apply _), throwIf_bind]
    refine (if_neg hphase).trans ?_
    rw [throwIf_bind]
    refine (if_neg hrem).trans ?_
    exact bind_of_error (@onRoom_error _ _ h.synced _ _ heq)

/-- The host after a decision was taken. -/
def Host.decided (h : Host) (side : PlayerSide) (edgeId : EdgeId) (decision : EncounterDecision) :
    Host :=
  let room := h.room.decideEncounter edgeId side decision
  Host.flush { h with
    room := room
    session := h.session.updatePlayer side fun p =>
      { p with encounterDecisionsCompleted := (room.getUndecidedEncounters side).isEmpty } }

/-- The answer to a decision that was taken. -/
def GameRoom.decisionAnswer (room : GameRoom) (edgeId : EdgeId) (side : PlayerSide)
    (decision : EncounterDecision) : EncounterDecisionCommandResult :=
  .success (toString edgeId) (toString decision)
    (!(room.decideEncounter edgeId side decision).hasPendingEncounterOn edgeId)

/-- The same answer for a decision. -/
theorem handleEncounterDecision_disconnected {h : Host} {side : PlayerSide}
    (hconn : (h.session.playerStates.get side).isConnected = false) (edgeId : EdgeId)
    (decision : EncounterDecision) :
    reliable.handleEncounterDecision side edgeId decision h =
      .ok (.fail "Not connected" "NOT_CONNECTED") h := by
  have hc : ¬ (h.session.playerStates.get side).isConnected = true := by rw [hconn]; decide
  rw [RoomAccess.handleEncounterDecision, bind_of_ok (get_apply h)]
  rw [if_pos hc]
  rfl

/-- HandleEncounterDecisionAsync of a connected side, as an equation. -/
theorem handleEncounterDecision_eq {h : Host} {side : PlayerSide}
    (hconn : (h.session.playerStates.get side).isConnected = true) (edgeId : EdgeId)
    (decision : EncounterDecision) :
    reliable.handleEncounterDecision side edgeId decision h =
      match h.room.decisionRefusal edgeId side decision with
      | some e => .error e h.synced
      | none => .ok (h.room.decisionAnswer edgeId side decision)
          (h.synced.decided side edgeId decision).synced := by
  have hc : ¬ ¬ (h.session.playerStates.get side).isConnected = true := not_not_intro hconn
  have heq := resolveEncounter_eq h.room edgeId side decision
  rw [RoomAccess.handleEncounterDecision, bind_of_ok (get_apply h)]
  rw [if_neg hc]
  rcases hr : h.room.decisionRefusal edgeId side decision with _ | e
  · rw [hr] at heq
    refine executeOnGameRoom_ok ?_
    rw [bind_of_ok (@onRoom_ok _ _ h.synced _ _ heq)]
    show EStateM.Result.ok (EncounterDecisionCommandResult.success (toString edgeId)
      (toString decision) (!(h.synced.decided side edgeId decision).room.hasPendingEncounterOn
        edgeId)) (h.synced.decided side edgeId decision) = _
    rw [Host.decided, Host.flush_room]
    rfl
  · rw [hr] at heq
    refine executeOnGameRoom_error ?_
    exact bind_of_error (@onRoom_error _ _ h.synced _ _ heq)

/-! ## Resolving a round

ResolveRoundAsync stops the timer, resolves the room, tells everyone, resets the flags of both
sides, and then either starts the timer of the next round or reports the end of the game. -/

/-- The session at the start of the next round, or at the end of the game. -/
def GameSession.opened (s : GameSession) (gameOver : Bool) (deadline : Time) (currentRound : Int)
    (now : Time) : GameSession :=
  if gameOver then s.resetForNewRound.stopPlanningTimer
  else GameSession.startPlanningTimer { s.resetForNewRound with planningDeadline := some deadline }
    currentRound none now

/-- The session goes on for the same room. -/
theorem roomId_opened (s : GameSession) (gameOver : Bool) (deadline : Time) (currentRound : Int)
    (now : Time) : (s.opened gameOver deadline currentRound now).roomId = s.roomId := by
  rw [GameSession.opened]
  split
  · rfl
  · rw [GameSession.startPlanningTimer]
    split <;> rfl

/-- The host once the room is resolved and everyone is told, with the timer started a moment later. -/
def Host.advanced (h : Host) (result : RoundResolutionResult) (room : GameRoom)
    (now later : Time) : Host :=
  let deadline := now + h.session.planningTimeout
  let told : Host := Host.flush { h with
    room := room, session := h.session.stopPlanningTimer.syncMetadata room }
  { told with
    session := told.session.opened result.gameOver deadline room.currentRound later
    gameOvers := if result.gameOver then
        told.gameOvers ++ [⟨told.session.roomId, result.winner, .allNodesCaptured⟩]
      else told.gameOvers }

/-- At the end of the game no timer is started. -/
theorem Host.advanced_over (h : Host) {result : RoundResolutionResult}
    (hover : result.gameOver = true) (room : GameRoom) (now later : Time) :
    h.advanced result room now later = h.advanced result room now now := by
  rw [Host.advanced, Host.advanced, hover]
  rfl

/-- The host after a resolution. -/
def Host.resolvedRound (h : Host) (now later : Time) : Host :=
  h.advanced (sourceOrder.closedRoom h.room).openingResult
    (sourceOrder.resolved h.room (now + h.session.planningTimeout)) now later

/-- ResolveRoundAsync, if the room can be resolved. -/
theorem resolveRoundNow_of_ok {h : Host} {result : RoundResolutionResult} {room : GameRoom}
    {now : Time} (later : Time)
    (hok : resolveRound (some (now + h.session.planningTimeout)) now h.room = .ok result room) :
    reliable.resolveRoundNow now later h = .ok () (h.advanced result room now later) := by
  let told : Host := Host.flush { h with
    room := room, session := h.session.stopPlanningTimer.syncMetadata room }
  have hround : told.room.currentRound = room.currentRound := by
    rw [Host.flush_room]
  rw [RoomAccess.resolveRoundNow, RoomAccess.modifySession, modifySession,
    bind_of_ok (modify_apply _ h), bind_of_ok (get_apply _)]
  refine (bind_of_ok (@onRoom_ok _ _ { h with session := h.session.stopPlanningTimer } _ _
    hok)).trans ?_
  -- only the round is read off the room again after the events are told
  let next (round : Int) : Host := { told with
    session := told.session.opened result.gameOver (now + h.session.planningTimeout) round later }
  have hnotice : ∀ t : Host,
      (if result.gameOver = true then onGameOver result.winner .allNodesCaptured else pure ()) t =
        .ok () { t with gameOvers := if result.gameOver then
            t.gameOvers ++ [⟨t.session.roomId, result.winner, .allNodesCaptured⟩]
          else t.gameOvers } := by
    intro t
    split <;> rfl
  show (if result.gameOver = true then onGameOver result.winner .allNodesCaptured else pure ())
    (next told.room.currentRound) = _
  rw [hnotice, hround]
  have hid : told.session.roomId = (next room.currentRound).session.roomId :=
    (roomId_opened _ _ _ _ _).symm
  rw [← hid]
  rfl

/-- A sound room in its planning phase can be. -/
theorem resolveRoundNow_ok {h : Host} (hres : Resolvable h.room) (now later : Time) :
    reliable.resolveRoundNow now later h = .ok () (h.resolvedRound now later) :=
  resolveRoundNow_of_ok later
    (resolveRound_ok hres (some (now + h.session.planningTimeout)) now)

/-! ### The default decisions

A timer makes each side retreat from what it has left undecided, side A first.  The loop runs over a
list that was read at its start, so each element has to be found again. -/

/-- The room after a side has retreated from every encounter it had left undecided. -/
def GameRoom.retreated (room : GameRoom) (side : PlayerSide) : GameRoom :=
  (room.getUndecidedEncounters side).foldl
    (fun r enc => r.decideEncounter enc.edgeId side .retreat) room

/-- What decisions leave alone: the clock of the room, its plans and its players. -/
structure OnlyDecided (room room' : GameRoom) : Prop where
  phase : room'.phase = room.phase
  currentRound : room'.currentRound = room.currentRound
  maxRounds : room'.maxRounds = room.maxRounds
  moves : room'.pendingMoves = room.pendingMoves
  players : room'.players = room.players

/-- Decisions one after the other are decisions. -/
theorem OnlyDecided.trans {room room' room'' : GameRoom} (h : OnlyDecided room room')
    (h' : OnlyDecided room' room'') : OnlyDecided room room'' where
  phase := h'.phase.trans h.phase
  currentRound := h'.currentRound.trans h.currentRound
  maxRounds := h'.maxRounds.trans h.maxRounds
  moves := h'.moves.trans h.moves
  players := h'.players.trans h.players

/-- A decision touches the edges, the encounters and the events alone. -/
theorem decideEncounter_frame (room : GameRoom) (edgeId : EdgeId) (side : PlayerSide)
    (decision : EncounterDecision) :
    OnlyDecided room (room.decideEncounter edgeId side decision) := by
  rw [decideEncounter]
  split <;> exact ⟨rfl, rfl, rfl, rfl, rfl⟩

variable {room : GameRoom}

/-- In a session a side may decide any encounter it has not decided. -/
theorem decidable_of_undecided (h : InSession room) (hphase : room.phase = .planning)
    {side : PlayerSide} {p : PendingEncounter} (hp : p ∈ room.pendingEncounters)
    (hund : p.hasDecided side = false) (decision : EncounterDecision) :
    room.encounterOn p.edgeId = some p ∧ room.decisionRefusal p.edgeId side decision = none := by
  have hfirst : room.encounterOn p.edgeId = some p := by
    rcases hq : room.encounterOn p.edgeId with _ | q
    · exact absurd (decide_eq_true rfl) (List.find?_eq_none.mp hq p hp)
    · obtain ⟨hmem, hid⟩ := encounterOn_mem hq
      rw [List.inj_on_of_nodup_map h.orderly.unique hmem hp hid]
  obtain ⟨e, he⟩ := (h.sound.encounters p hp).edge
  have hend := ((h.sound.encounters p hp).groups side).destination
  refine ⟨hfirst, ?_⟩
  rw [decisionRefusal, if_neg (not_not_intro hphase), hfirst]
  simp only [hund, Bool.false_eq_true, if_false, he]
  cases decision with
  | advance => rfl
  | retreat =>
    have hid : e.id = p.edgeId := h.sound.map.keyed _ _ he
    rw [retreatRefusal, getOppositeNode_eq, hid, if_pos hend]

/-- Of the elements with `q`, changing the first element with `p` drops the first one, when that is
    the only one with `p` and its successor has not `q`. -/
theorem filter_modifyFirst {α : Type} {p q : α → Bool} {f : α → Option α} {l rest : List α} {x : α}
    (hl : l.filter q = x :: rest) (hx : p x = true) (honly : ∀ y ∈ l, p y = true → y = x)
    (hf : ∀ y, f x = some y → q y = false) : (modifyFirst p f l).filter q = rest := by
  have hqx : q x = true := (List.mem_filter.mp (hl ▸ List.mem_cons_self)).2
  induction l with
  | nil => cases hl
  | cons z l ih =>
    by_cases hz : q z = true
    · rw [List.filter_cons_of_pos hz] at hl
      cases hl
      have hdrop : (f x).toList.filter q = [] := by
        rcases hfx : f x with _ | y
        · rfl
        · exact List.filter_cons_of_neg (by rw [hf y hfx]; decide)
      rw [modifyFirst, if_pos hx, List.filter_append, hdrop, List.nil_append]
    · rw [List.filter_cons_of_neg hz] at hl
      have hpz : ¬ p z = true := fun hpz => hz (honly z List.mem_cons_self hpz ▸ hqx)
      rw [modifyFirst, if_neg hpz, List.filter_cons_of_neg hz]
      exact ih hl fun y hy => honly y (List.mem_cons_of_mem _ hy)

/-- A decision takes its encounter off the list of those the side has to decide. -/
theorem undecided_decideEncounter (h : InSession room) (hphase : room.phase = .planning)
    {side : PlayerSide} {p : PendingEncounter} {rest : List PendingEncounter}
    (hund : room.getUndecidedEncounters side = p :: rest) (decision : EncounterDecision) :
    (room.decideEncounter p.edgeId side decision).getUndecidedEncounters side = rest := by
  have hp : p ∈ room.getUndecidedEncounters side := hund ▸ List.mem_cons_self
  obtain ⟨hmem, hopen⟩ := List.mem_filter.mp hp
  have hopen' : p.hasDecided side = false := by simpa using hopen
  obtain ⟨hfirst, hok⟩ := decidable_of_undecided h hphase hmem hopen' decision
  obtain ⟨-, pending, e, hpending, -, he, -⟩ := decisionRefusal_none hok
  rw [decideEncounter_eq hfirst he]
  refine filter_modifyFirst hund (decide_eq_true rfl) (fun q hq hid => ?_) fun q hq => ?_
  · exact List.inj_on_of_nodup_map h.orderly.unique hq hmem (of_decide_eq_true hid)
  · split at hq
    · cases hq
    · cases hq
      have hdec : (marked e p side decision).hasDecided side = true := by
        rw [marked, hasDecided_markDecided, if_pos rfl]
      simp [hdec]

/-- Where a side has nothing left to decide, no decision of anyone gives it something. -/
theorem undecided_nil_decideEncounter {t : PlayerSide} (h : room.getUndecidedEncounters t = [])
    (edgeId : EdgeId) (side : PlayerSide) (decision : EncounterDecision) :
    (room.decideEncounter edgeId side decision).getUndecidedEncounters t = [] := by
  have hall : ∀ p ∈ room.pendingEncounters, p.hasDecided t = true := by
    intro p hp
    simpa using List.filter_eq_nil_iff.mp h p hp
  rw [decideEncounter]
  split
  · rename_i pending edge hpending _
    refine List.filter_eq_nil_iff.mpr fun q hq => ?_
    have hdec : q.hasDecided t = true := by
      rcases mem_modifyFirst hq with hold | ⟨y, -, -, hnew⟩
      · exact hall q hold
      · split at hnew
        · cases hnew
        · cases hnew
          rw [marked, hasDecided_markDecided, hall pending (encounterOn_mem hpending).1, ite_self]
    simp [hdec]
  · exact h

/-- A decision keeps the room one of a session. -/
theorem InSession.decided (h : InSession room) (edgeId : EdgeId) (side : PlayerSide)
    {decision : EncounterDecision} (hok : room.decisionRefusal edgeId side decision = none) :
    InSession (room.decideEncounter edgeId side decision) := by
  have hnext := h.next (show room.SessionLegal (.resolveEncounter edgeId side decision) from trivial)
  rwa [next_resolveEncounter, hok] at hnext

/-- What the loop over a side's undecided encounters keeps: the rest of the list is what the side
    still has to decide. -/
structure Retreating (side : PlayerSide) (rest : List PendingEncounter) (h : Host) : Prop where
  inSession : InSession h.room
  phase : h.room.phase = .planning
  undecided : h.room.getUndecidedEncounters side = rest

/-- **The loop gets through**, and leaves the side with nothing to decide. -/
theorem retreatUndecided_ok {h : Host} (hroom : InSession h.room)
    (hphase : h.room.phase = .planning) (side : PlayerSide) :
    reliable.retreatUndecided side h = .ok () { h with room := h.room.retreated side } ∧
      Retreating side [] { h with room := h.room.retreated side } := by
  -- the head of the rest is still pending and undecided, so its decision is accepted and drops it
  have hstep : ∀ (enc : PendingEncounter) (rest : List PendingEncounter) (h : Host),
      Retreating side (enc :: rest) h →
        onRoom (resolveEncounter enc.edgeId side .retreat) h =
          .ok () { h with room := h.room.decideEncounter enc.edgeId side .retreat } ∧
        Retreating side rest { h with room := h.room.decideEncounter enc.edgeId side .retreat } := by
    intro enc rest h hinv
    have hmem : enc ∈ h.room.getUndecidedEncounters side := hinv.undecided ▸ List.mem_cons_self
    obtain ⟨hpending, hopen⟩ := List.mem_filter.mp hmem
    obtain ⟨-, hok⟩ := decidable_of_undecided hinv.inSession hinv.phase hpending
      (show enc.hasDecided side = false by simpa using hopen) .retreat
    have heq := resolveEncounter_eq h.room enc.edgeId side .retreat
    rw [hok] at heq
    exact ⟨onRoom_ok heq, hinv.inSession.decided _ _ hok,
      (decideEncounter_frame _ _ _ _).phase.trans hinv.phase,
      undecided_decideEncounter hinv.inSession hinv.phase hinv.undecided .retreat⟩
  obtain ⟨hloop, hlast⟩ :=
    forEach_ok hstep (h.room.getUndecidedEncounters side) h ⟨hroom, hphase, rfl⟩
  have hroom' : ∀ (encs : List PendingEncounter) (h : Host),
      encs.foldl (fun h enc => { h with room := h.room.decideEncounter enc.edgeId side .retreat }) h =
        { h with
          room := encs.foldl (fun r enc => r.decideEncounter enc.edgeId side .retreat) h.room } := by
    intro encs
    induction encs with
    | nil => exact fun _ => rfl
    | cons enc encs ih => exact fun h => ih _
  rw [hroom'] at hloop hlast
  refine ⟨?_, hlast⟩
  rw [RoomAccess.retreatUndecided, bind_of_ok (get_apply h), bind_of_ok hloop]
  rfl

/-- All retreats of a side touch no more than one does. -/
theorem retreated_frame (room : GameRoom) (side : PlayerSide) :
    OnlyDecided room (room.retreated side) := by
  unfold GameRoom.retreated
  generalize room.getUndecidedEncounters side = encs
  induction encs generalizing room with
  | nil => exact ⟨rfl, rfl, rfl, rfl, rfl⟩
  | cons enc encs ih => exact (decideEncounter_frame room enc.edgeId side .retreat).trans (ih _)

/-- The default decisions of one side leave the other side with nothing to decide, if it had
    nothing. -/
theorem undecided_nil_retreated {t : PlayerSide} (h : room.getUndecidedEncounters t = [])
    (side : PlayerSide) : (room.retreated side).getUndecidedEncounters t = [] := by
  unfold GameRoom.retreated
  generalize room.getUndecidedEncounters side = encs
  induction encs generalizing room with
  | nil => exact h
  | cons enc encs ih => exact ih (undecided_nil_decideEncounter h enc.edgeId side .retreat)

/-- The room with the default decisions of both sides taken. -/
def GameRoom.timedOut (room : GameRoom) : GameRoom := (room.retreated .a).retreated .b

/-- And so do those of both. -/
theorem timedOut_frame (room : GameRoom) : OnlyDecided room room.timedOut :=
  (retreated_frame room .a).trans (retreated_frame (room.retreated .a) .b)

/-- **A timer resolves its round**: the default decisions are all taken, the room is ready for the
    resolution, and the resolution goes through. -/
theorem resolveTimedOut_ok {h : Host} (hroom : InSession h.room)
    (hphase : h.room.phase = .planning) (now later : Time) :
    reliable.resolveTimedOut now later h =
        .ok () (Host.resolvedRound { h with room := h.room.timedOut } now later) ∧
      InSession h.room.timedOut ∧ h.room.timedOut.isReadyForResolution = true := by
  obtain ⟨hA, hinvA⟩ := retreatUndecided_ok hroom hphase .a
  obtain ⟨hB, hinvB⟩ := retreatUndecided_ok hinvA.inSession hinvA.phase .b
  -- side B's retreats give side A nothing to decide
  have hundA : h.room.timedOut.getUndecidedEncounters .a = [] :=
    undecided_nil_retreated hinvA.undecided .b
  have hundB : h.room.timedOut.getUndecidedEncounters .b = [] := hinvB.undecided
  have hready : h.room.timedOut.isReadyForResolution = true := by
    have hphase' : h.room.timedOut.phase = .planning := hinvB.phase
    rw [isReadyForResolution, if_neg (not_not_intro hphase')]
    refine List.all_eq_true.mpr fun p hp => ?_
    have hdecA : p.hasDecided .a = true := by simpa using List.filter_eq_nil_iff.mp hundA p hp
    have hdecB : p.hasDecided .b = true := by simpa using List.filter_eq_nil_iff.mp hundB p hp
    rw [PendingEncounter.bothDecided, hdecA, hdecB]
    rfl
  refine ⟨?_, hinvB.inSession, hready⟩
  rw [RoomAccess.resolveTimedOut, bind_of_ok hA, bind_of_ok hB]
  exact resolveRoundNow_ok (hinvB.inSession.sound.resolvable hinvB.phase) now later

/-! ## The turns

What each call of the session makes of the host. -/

/-- The name of the owner and the raised events are no part of what a session relies on. -/
theorem InSession.relabel (h : InSession room) (owner : Option String) (events : List DomainEvent) :
    InSession { room with ownerServerId := owner, domainEvents := events } where
  sound := ⟨⟨h.sound.map.nodes, h.sound.map.edges⟩, h.sound.edges, h.sound.mobile,
    fun p hp => ⟨(h.sound.encounters p hp).edge, (h.sound.encounters p hp).side,
      (h.sound.encounters p hp).groups⟩,
    fun s => ⟨(h.sound.moves s).moves, (h.sound.moves s).solvent, (h.sound.moves s).used,
      (h.sound.moves s).bounded⟩,
    h.sound.phase, h.sound.seats,
    fun hlt => ⟨(h.sound.waiting hlt).phase, (h.sound.waiting hlt).moves,
      (h.sound.waiting hlt).used, (h.sound.waiting hlt).encounters, (h.sound.waiting hlt).edges,
      (h.sound.waiting hlt).nodes⟩⟩
  orderly := ⟨h.orderly.unique, h.orderly.meeting⟩

/-- The room a resolving turn starts from: the timers take the default decisions first, and the
    backup timer takes the room over. -/
inductive Resolves (h : Host) : SessionCall → GameRoom → Time → Prop where
  /-- Both sides have completed the round. -/
  | ready {now : Time} (hready : h.room.isReadyForResolution = true)
      (hall : h.session.allReady h.room = true) :
      Resolves h (.checkAndResolveIfReady now) h.room now
  /-- The owner's timer fires in its own round. -/
  | timeout {forRound : Int} {now : Time} (hphase : h.room.phase = .planning)
      (hround : h.room.currentRound = forRound) :
      Resolves h (.planningTimeout forRound now) h.room.timedOut now
  /-- The backup timer of another server does. -/
  | backup {forRound : Int} {now : Time} (hphase : h.room.phase = .planning)
      (hround : h.room.currentRound = forRound) :
      Resolves h (.backupPlanningTimeout forRound now)
        (GameRoom.timedOut { h.room with ownerServerId := some h.session.serverId }) now

/-- The host with the planning timer running. -/
def Host.timed (h : Host) (now : Time) : Host :=
  { h with session :=
      if h.room.phase = .planning ∧ h.session.timer = none then
        h.session.startPlanningTimer h.room.currentRound none now
      else h.session }

/-- The host once a side is known as connected, or as disconnected. -/
def Host.reached (h : Host) (side : PlayerSide) (isConnected : Bool) : Host :=
  { h with session := h.session.updatePlayer side fun p => { p with isConnected := isConnected } }

/-- A player connects. -/
theorem next_onPlayerConnected (h : Host) (side : PlayerSide) (now : Time) :
    h.next (.onPlayerConnected side now) = ((h.reached side true).synced.timed now).synced := by
  refine after_ok (a := ()) (executeOnGameRoom_ok (h := h.reached side true) ?_)
  rw [bind_of_ok (get_apply _)]
  unfold Host.timed
  by_cases hc : (h.reached side true).synced.room.phase = .planning ∧
      (h.reached side true).synced.session.timer = none
  · rw [if_pos hc, if_pos hc]
    rfl
  · rw [if_neg hc, if_neg hc]
    rfl

/-- A player joins, or is refused. -/
theorem next_addPlayer_host {h : Host} (hmap : OnMap h.room) (playerId : PlayerId) (now : Time) :
    h.next (.addPlayer playerId now) =
      if (h.room.joinRefusal playerId).isSome then h.synced
      else (h.synced.welcomed playerId now).synced := by
  have heq := addPlayerToRoom_eq hmap playerId now
  rcases hr : h.room.joinRefusal playerId with _ | e
  · rw [hr] at heq
    exact after_ok heq
  · rw [hr] at heq
    exact after_error heq

/-- A resolving turn ends in the resolution of its room. -/
theorem nextLate_of_resolves {h : Host} (hroom : InSession h.room) {call : SessionCall}
    {room : GameRoom} {now : Time} (hres : Resolves h call room now) (later : Time) :
    h.nextLate call later =
        (Host.resolvedRound { h.synced with room := room } now later).synced ∧
      InSession room ∧ room.isReadyForResolution = true := by
  cases hres with
  | ready hready hall =>
    have hphase := (hroom.orderly.ready hroom.sound hready).1
    refine ⟨after_ok (executeOnGameRoom_ok (a := ()) ?_), hroom, hready⟩
    rw [bind_of_ok (get_apply _)]
    refine (congrFun (if_pos ⟨hready, hall⟩) _).trans ?_
    exact resolveRoundNow_ok (h := h.synced) (hroom.sound.resolvable hphase) now later
  | timeout hphase hround =>
    obtain ⟨hok, hin, hready⟩ := resolveTimedOut_ok (h := h.synced) hroom hphase now later
    refine ⟨after_ok (executeOnGameRoom_ok (a := ()) ?_), hin, hready⟩
    rw [bind_of_ok (get_apply _)]
    exact (congrFun (if_pos ⟨hphase, hround⟩) _).trans hok
  | backup hphase hround =>
    let owned : GameRoom := { h.room with ownerServerId := some h.session.serverId }
    obtain ⟨hok, hin, hready⟩ := resolveTimedOut_ok (h := { h.synced with room := owned })
      (hroom.relabel _ _) hphase now later
    refine ⟨after_ok (executeOnGameRoom_ok (a := ()) ?_), hin, hready⟩
    rw [bind_of_ok (get_apply _)]
    refine (congrFun (if_pos ⟨hphase, hround⟩) _).trans ?_
    exact (bind_of_ok (assignOwner_ok h.synced _)).trans hok

/-- A turn in which no time passes. -/
theorem nextLate_self {h : Host} {call : SessionCall} {now : Time} (hreads : call.readsAt now = true) :
    h.nextLate call now = h.next call := by
  cases call with
  | checkAndResolveIfReady t | planningTimeout _ t | backupPlanningTimeout _ t =>
    rw [of_decide_eq_true hreads]
    rfl
  | addPlayer _ _ | onPlayerConnected _ _ | onPlayerDisconnected _ | forceGameOver | moveUnits _ _
  | encounterDecision _ _ _ | getGameState _ | reconnectSync _ _ => rfl

/-- A turn that resolves a round reads the clock when it does. -/
theorem Resolves.clock {h : Host} {call : SessionCall} {room : GameRoom} {now : Time}
    (hres : Resolves h call room now) : call.clock = now := by
  cases hres <;> rfl

/-- The same with no time between the two readings of the clock. -/
theorem next_of_resolves {h : Host} (hroom : InSession h.room) {call : SessionCall} {room : GameRoom}
    {now : Time} (hres : Resolves h call room now) :
    h.next call = (Host.resolvedRound { h.synced with room := room } now now).synced ∧
      InSession room ∧ room.isReadyForResolution = true := by
  have hlate := nextLate_of_resolves hroom hres call.clock
  rw [hres.clock] at hlate
  rw [Host.next, hres.clock]
  exact hlate

/-- Is the call one that looks whether its round can be resolved? -/
def SessionCall.mayResolve : SessionCall → Bool
  | .checkAndResolveIfReady _ | .planningTimeout _ _ | .backupPlanningTimeout _ _ => true
  | _ => false

/-- A turn that finds nothing to resolve only copies the metadata. -/
theorem nextLate_of_not_resolves {h : Host} {call : SessionCall} (hmay : call.mayResolve = true)
    (hno : ∀ room now, ¬ Resolves h call room now) (later : Time) :
    h.nextLate call later = h.synced := by
  cases call with
  | checkAndResolveIfReady now =>
    refine after_ok (a := ()) (executeOnGameRoom_ok (t := h.synced) ?_)
    rw [bind_of_ok (get_apply _)]
    exact congrFun (if_neg fun hc => hno _ _ (.ready hc.1 hc.2)) _
  | planningTimeout forRound now =>
    refine after_ok (a := ()) (executeOnGameRoom_ok (t := h.synced) ?_)
    rw [bind_of_ok (get_apply _)]
    exact congrFun (if_neg fun hc => hno _ _ (.timeout hc.1 hc.2)) _
  | backupPlanningTimeout forRound now =>
    refine after_ok (a := ()) (executeOnGameRoom_ok (t := h.synced) ?_)
    rw [bind_of_ok (get_apply _)]
    exact congrFun (if_neg fun hc => hno _ _ (.backup hc.1 hc.2)) _
  | addPlayer _ _ | onPlayerConnected _ _ | onPlayerDisconnected _ | forceGameOver | moveUnits _ _
  | encounterDecision _ _ _ | getGameState _ | reconnectSync _ _ => cases hmay

/-- And where there is nothing to resolve. -/
theorem next_of_not_resolves {h : Host} {call : SessionCall} (hmay : call.mayResolve = true)
    (hno : ∀ room now, ¬ Resolves h call room now) : h.next call = h.synced :=
  nextLate_of_not_resolves hmay hno call.clock

/-- The host after a game was ended because a side stayed away. -/
def Host.abandoned (h : Host) (winner : PlayerSide) : Host :=
  let told : Host := Host.flush { h with room := h.room.forced (some winner) .playerDisconnected }
  { told with
    session := told.session.stopPlanningTimer
    gameOvers := told.gameOvers ++ [⟨told.session.roomId, some winner, .playerDisconnected⟩] }

/-- The end of a game because a side stays away.  With nobody connected the search for a winner throws. -/
theorem forceGameOver_eq (h : Host) :
    reliable.forceGameOver .playerDisconnected h =
      if h.room.phase = .gameOver then .ok () h.synced
      else match firstConnected h.session.playerStates with
        | none => .error (.invalidOperation "Sequence contains no matching element") h.synced
        | some winner => .ok () (h.synced.abandoned winner).synced := by
  by_cases hover : h.room.phase = .gameOver
  · rw [if_pos hover]
    refine executeOnGameRoom_ok (t := h.synced) ?_
    rw [bind_of_ok (get_apply _)]
    exact congrFun (if_neg (not_not_intro hover)) _
  rw [if_neg hover]
  rcases hc : firstConnected h.session.playerStates with _ | winner
  · refine executeOnGameRoom_error ?_
    rw [bind_of_ok (get_apply _)]
    refine (congrFun (if_pos hover) _).trans ?_
    rw [throwIf_bind]
    exact if_pos ⟨rfl, hc⟩
  · refine executeOnGameRoom_ok (t := h.synced.abandoned winner) ?_
    rw [bind_of_ok (get_apply _)]
    refine (congrFun (if_pos hover) _).trans ?_
    rw [throwIf_bind]
    refine (if_neg fun hn => ?_).trans ?_
    · have hnone : firstConnected h.session.playerStates = none := hn.2
      rw [hc] at hnone
      cases hnone
    · have hc' : firstConnected h.synced.session.playerStates = some winner := hc
      show _ = EStateM.Result.ok () (h.synced.abandoned winner)
      simp only [hc', if_pos]
      rfl

/-- The locked part of a grace check: nothing is done when the game is over or nobody is
    connected. -/
theorem next_forceGameOver_host (h : Host) :
    h.next .forceGameOver =
      if h.room.phase = .gameOver then h.synced
      else match firstConnected h.session.playerStates with
        | none => h.synced
        | some winner => (h.synced.abandoned winner).synced := by
  have heq := forceGameOver_eq h
  show after (reliable.forceGameOver .playerDisconnected) h = _
  split at heq
  · rename_i hover
    rw [if_pos hover]
    exact after_ok heq
  rename_i hopen
  rw [if_neg hopen]
  rcases hc : firstConnected h.session.playerStates with _ | winner
  · rw [hc] at heq
    exact after_error heq
  · rw [hc] at heq
    exact after_ok heq

/-- Tell a side several things. -/
def Host.tell (h : Host) (side : PlayerSide) (ns : List Notice) : Host :=
  { h with inbox := h.inbox.update side (· ++ ns) }

/-- A move, with the answer that the side gets. -/
theorem next_moveUnits_host (h : Host) (side : PlayerSide) (command : MoveCommand) :
    h.next (.moveUnits side command) =
      if (h.session.playerStates.get side).isConnected = true then
        match h.room.sessionMoveRefusal side command with
        | some e => h.synced.notify side (.exception e)
        | none => (h.synced.moved side command).synced.notify side
            (.moved (h.room.moveAnswer side command))
      else h.notify side (.moved (.fail "Not connected" "NOT_CONNECTED")) := by
  show h.answering side (reliable.handleMoveUnits side command) .moved = _
  rw [Host.answering]
  rcases hconn : (h.session.playerStates.get side).isConnected with _ | _
  · rw [handleMoveUnits_disconnected hconn]
    rfl
  · rw [handleMoveUnits_eq hconn, if_pos rfl]
    cases h.room.sessionMoveRefusal side command <;> rfl

/-- A decision, with the answer that the side gets. -/
theorem next_encounterDecision (h : Host) (side : PlayerSide) (edgeId : EdgeId)
    (decision : EncounterDecision) :
    h.next (.encounterDecision side edgeId decision) =
      if (h.session.playerStates.get side).isConnected = true then
        match h.room.decisionRefusal edgeId side decision with
        | some e => h.synced.notify side (.exception e)
        | none => (h.synced.decided side edgeId decision).synced.notify side
            (.decided (h.room.decisionAnswer edgeId side decision))
      else h.notify side (.decided (.fail "Not connected" "NOT_CONNECTED")) := by
  show h.answering side (reliable.handleEncounterDecision side edgeId decision) .decided = _
  rw [Host.answering]
  rcases hconn : (h.session.playerStates.get side).isConnected with _ | _
  · rw [handleEncounterDecision_disconnected hconn]
    rfl
  · rw [handleEncounterDecision_eq hconn, if_pos rfl]
    cases h.room.decisionRefusal edgeId side decision <;> rfl

/-- What a side is shown, or the error instead. -/
def Host.shown (h : Host) (side : PlayerSide) : Notice :=
  match buildGameStateView h.room side (h.session.playerStates.get side)
      h.session.planningDeadline with
  | .ok view => .message (.stateUpdate view h.room.currentRound)
  | .error e => .exception e

/-- What is shown depends on the view and the round only. -/
theorem Host.shown_congr {h h' : Host} {side : PlayerSide}
    (hview : buildGameStateView h'.room side (h'.session.playerStates.get side)
        h'.session.planningDeadline =
      buildGameStateView h.room side (h.session.playerStates.get side) h.session.planningDeadline)
    (hround : h'.room.currentRound = h.room.currentRound) : h'.shown side = h.shown side := by
  unfold Host.shown
  rw [hview, hround]

/-- A view carries no number. -/
theorem Host.shown_sequenceNumber (h : Host) (side : PlayerSide) :
    ∀ m, h.shown side = .message m → m.sequenceNumber = 0 := by
  intro m hm
  rw [Host.shown] at hm
  split at hm
  · rw [← Notice.message.inj hm]
    rfl
  · cases hm

/-- SendGameState: the view, or the error in building it. -/
theorem serving_sendState (h : Host) (side : PlayerSide) :
    h.serving side (reliable.sendState side) = h.synced.notify side (h.shown side) := by
  rw [Host.serving, RoomAccess.sendState, Host.shown]
  rcases hv : buildGameStateView h.room side (h.session.playerStates.get side)
      h.session.planningDeadline with e | view
  · have hget : reliable.getGameStateForPlayer side h = .error e h.synced := by
      refine executeOnGameRoom_error ?_
      rw [bind_of_ok (get_apply _)]
      show (match buildGameStateView h.room side (h.session.playerStates.get side)
        h.session.planningDeadline with
        | .ok view => pure view
        | .error e => throw e : Service GameStateView) h.synced = _
      rw [hv]
      rfl
    rw [bind_of_error hget]
  · have hget : reliable.getGameStateForPlayer side h = .ok view h.synced := by
      refine executeOnGameRoom_ok (t := h.synced) ?_
      rw [bind_of_ok (get_apply _)]
      show (match buildGameStateView h.room side (h.session.playerStates.get side)
        h.session.planningDeadline with
        | .ok view => pure view
        | .error e => throw e : Service GameStateView) h.synced = _
      rw [hv]
      rfl
    rw [bind_of_ok hget]
    rfl

/-- A player asks for the view. -/
theorem next_getGameState (h : Host) (side : PlayerSide) :
    h.next (.getGameState side) = h.synced.notify side (h.shown side) := serving_sendState h side

/-- Telling one thing after another is telling a list of things. -/
theorem foldl_notify (h : Host) (side : PlayerSide) (f : BufferedEvent → Notice)
    (bs : List BufferedEvent) :
    bs.foldl (fun h b => h.notify side (f b)) h = h.tell side (bs.map f) := by
  induction bs generalizing h with
  | nil =>
    rcases h with ⟨session, room, ⟨a, b⟩, published, gameOvers⟩
    cases side <;> simp [Host.tell, PerSide.update, PerSide.set, PerSide.get]
  | cons b bs ih =>
    rw [List.foldl_cons, ih]
    rcases h with ⟨session, room, ⟨a, b⟩, published, gameOvers⟩
    cases side <;> simp [Host.tell, Host.notify, PerSide.update, PerSide.set, PerSide.get]

/-- The missed events as they are sent again. -/
def GameSession.replay (s : GameSession) (lastSeenSequence : Int) : List Notice :=
  (s.getEventsAfter lastSeenSequence).map fun b => .message (.replayed b.event b.sequenceNumber)

/-- The buffered events after a number, each of them. -/
theorem mem_getEventsAfter {s : GameSession} {n : Int} {b : BufferedEvent} :
    b ∈ s.getEventsAfter n ↔ b ∈ s.eventBuffer.items ∧ n < b.sequenceNumber := by
  rw [GameSession.getEventsAfter, List.mem_insertionSort, CircularBuffer.where_, List.mem_filter,
    decide_eq_true_eq]

/-- An event is sent again exactly if it is in the buffer under a higher number. -/
theorem mem_replay {s : GameSession} {n k : Int} {e : DomainEvent} :
    Notice.message (.replayed e k) ∈ s.replay n ↔ ⟨k, e⟩ ∈ s.eventBuffer.items ∧ n < k := by
  rw [GameSession.replay, List.mem_map]
  constructor
  · rintro ⟨b, hb, heq⟩
    obtain ⟨hitem, hnew⟩ := mem_getEventsAfter.mp hb
    have hmessage : ServerMessage.replayed b.event b.sequenceNumber = .replayed e k :=
      Notice.message.inj heq
    have hevent : b.event = e := Payload.domainEvent.inj (congrArg ServerMessage.payload hmessage)
    have hnumber : b.sequenceNumber = k := congrArg ServerMessage.sequenceNumber hmessage
    rw [← hevent, ← hnumber]
    exact ⟨hitem, hnew⟩
  · rintro ⟨hitem, hnew⟩
    exact ⟨⟨k, e⟩, mem_getEventsAfter.mpr ⟨hitem, hnew⟩, rfl⟩

/-- A player who was away is sent the missed events, and then the view. -/
theorem next_reconnectSync (h : Host) (side : PlayerSide) (lastSeenSequence : Int) :
    h.next (.reconnectSync side lastSeenSequence) =
      (h.synced.tell side (h.session.replay lastSeenSequence)).notify side (h.shown side) := by
  have hmissed := foldl_notify h side
    (fun b => .message (.replayed b.event b.sequenceNumber)) (h.session.getEventsAfter lastSeenSequence)
  show h.serving side (reliable.reconnectSync side lastSeenSequence) = _
  rw [Host.serving, RoomAccess.reconnectSync, bind_of_ok (modify_apply _ h), hmissed]
  exact serving_sendState (h.tell side (h.session.replay lastSeenSequence)) side

end HexWar
