/-
  What a session does to its room is a run of the domain.

  The domain is one machine (`session`), driven by calls that change nothing but the room.  A session
  adds connections, timers, numbered events and the name of the owner, several servers add messages to
  each other; the game itself, which is the room without that name and without the events it holds,
  knows nothing of them.  `session_refines_domain` says so in both directions: the game of every state
  that a server reaches, alone or among others, is one that a run of the domain reaches; and every game
  that the domain reaches without a forced end is reached by a server.

  So what is proved of the domain's runs holds of every session, and no theorem about the domain speaks
  of games that no session can have.

  The proof goes turn by turn and call by call.

  1. The game of a room is the room without owner and events (`bare`).  A call of the domain does the same
     to two rooms of one game (`bare_next`), so a run can be carried from one to the other.
  2. A turn does nothing to the game or one call's worth; a timer's turn first makes the default decisions,
     which are calls of the domain too (`after_timedOut`).
  3. A call of the domain is made by at most two turns: whoever moves or decides connects first, since a
     session hears only of players that are connected (`Host.turnsOf`).
  4. `Lib.Simulation` carries both from single steps to runs.
-/
import HexWar.Domain.Conquest
import HexWar.Lib.Simulation
import HexWar.Session.Rounds

namespace HexWar

open Lib Lib.Action GameRoom

/-! ## The game in the room

The name of the owner and the events are what only a session looks at.  No guard of a call reads
them, and no call but the handlers of a session writes the name. -/

/-- The room but for the name of its owner and the events that it still holds. -/
def GameRoom.bare (room : GameRoom) : GameRoom := { room with ownerServerId := none, domainEvents := [] }

variable {room room' : GameRoom}

/-- Rooms of one game differ in owner and events only. -/
theorem eq_of_bare (h : room'.bare = room.bare) :
    room' = { room with
      ownerServerId := room'.ownerServerId
      domainEvents := room'.domainEvents } := by
  cases room
  cases room'
  cases h
  rfl

section Relabel

variable (owner : Option String) (events : List DomainEvent)

/-- The game starts when the second player is there, whatever the deadline says. -/
theorem bare_started (room : GameRoom) (deadline : Time) : (room.started deadline).bare =
    if room.players.a.isSome && room.players.b.isSome then
      { room.bare with phase := .planning, currentRound := 1 }
    else room.bare := by
  rw [started]
  split
  · rename_i ha hb
    rw [ha, hb]
    rfl
  · rename_i hnot
    rw [if_neg]
    rw [Bool.and_eq_true]
    rintro ⟨ha, hb⟩
    obtain ⟨playerA, ha⟩ := Option.isSome_iff_exists.mp ha
    obtain ⟨playerB, hb⟩ := Option.isSome_iff_exists.mp hb
    exact hnot playerA playerB ha hb

/-- Joining writes the owner and the deadline into events only. -/
theorem bare_joined (room : GameRoom) (playerId : PlayerId) (deadline deadline' : Time) :
    (GameRoom.joined { room with ownerServerId := owner, domainEvents := events } playerId
      deadline).bare = (room.joined playerId deadline').bare := by
  rw [joined, joined, bare_started, bare_started]
  rfl

/-- So does the opening of the next round, or the end. -/
theorem bare_opened (room : GameRoom) (completedRound : Int) (deadline : Time) :
    (room.opened completedRound deadline).bare =
      { room.bare with phase := if room.endsGame then .gameOver else .planning } := by
  rw [GameRoom.opened]
  split <;> rfl

/-- And the whole resolution. -/
theorem bare_resolved (room : GameRoom) (deadline deadline' : Time) :
    (sourceOrder.resolved { room with ownerServerId := owner, domainEvents := events } deadline).bare =
      (sourceOrder.resolved room deadline').bare := by
  rw [ProcessingOrder.resolved, ProcessingOrder.resolved, bare_opened, bare_opened]
  rfl

/-- Owner and events make no difference to what a call does to the game. -/
theorem bare_next_relabel (hroom : InSession room) (call : Call) :
    (GameRoom.next { room with ownerServerId := owner, domainEvents := events } call).bare =
      (room.next call).bare := by
  have hlabelled := hroom.relabel owner events
  cases call with
  | addPlayer playerId deadline now =>
    rw [next_addPlayer hlabelled.sound.map, next_addPlayer hroom.sound.map]
    show GameRoom.bare (if (room.joinRefusal playerId).isSome then _ else _) = _
    split
    · rfl
    · exact bare_joined owner events room playerId _ _
  | moveUnits side command =>
    rw [next_moveUnits, next_moveUnits]
    show GameRoom.bare (if (room.moveRefusal side command).isSome then _ else _) = _
    split <;> rfl
  | resolveEncounter edgeId side decision =>
    rw [next_resolveEncounter, next_resolveEncounter]
    show GameRoom.bare (if (room.decisionRefusal edgeId side decision).isSome then _ else _) = _
    -- a decision changes an edge and an encounter, which are found in both rooms alike
    rcases hr : room.decisionRefusal edgeId side decision with _ | e
    · obtain ⟨-, p, e, hp, -, he, -⟩ := decisionRefusal_none hr
      have hp' : GameRoom.encounterOn { room with ownerServerId := owner, domainEvents := events }
          edgeId = some p := hp
      show (GameRoom.decideEncounter _ edgeId side decision).bare = (room.decideEncounter _ _ _).bare
      rw [decideEncounter_eq hp he, decideEncounter_eq hp' he]
      cases decision <;> rfl
    · rfl
  | resolveRound deadline now =>
    by_cases hphase : room.phase = .planning
    · rw [next_resolveRound hlabelled.sound hphase, next_resolveRound hroom.sound hphase]
      exact bare_resolved owner events room _ _
    · have hphase' : GameRoom.phase { room with ownerServerId := owner, domainEvents := events } ≠
          .planning := hphase
      rw [next_resolveRound_refused hphase', next_resolveRound_refused hphase]
      rfl
  | forceGameOver winner reason => rfl

end Relabel

/-- **A call does the same to rooms of one game**, and is made in both. -/
theorem bare_next (hroom : InSession room) (h : room'.bare = room.bare) (call : Call) :
    (room'.next call).bare = (room.next call).bare ∧
      (room'.SessionLegal call ↔ room.SessionLegal call) := by
  rw [eq_of_bare h]
  refine ⟨bare_next_relabel _ _ hroom call, ?_⟩
  cases call <;> exact Iff.rfl

/-- A run of the domain goes the same way from rooms of one game. -/
theorem bare_run (roomId : String) : ∀ {calls : List Call} {room room' : GameRoom}, InSession room →
    InSession room' → room'.bare = room.bare →
    (session roomId).Steps GameRoom.SessionLegal room calls →
    (session roomId).Steps GameRoom.SessionLegal room' calls ∧
      ((session roomId).after room' calls).bare = ((session roomId).after room calls).bare
  | [], _, _, _, _, h, _ => ⟨trivial, h⟩
  | call :: _, room, room', hroom, hroom', h, hrun => by
    obtain ⟨hbare, hlegal⟩ := bare_next hroom h call
    have hlegal' : room'.SessionLegal call := hlegal.mpr hrun.1
    obtain ⟨hrest, hlast⟩ := bare_run roomId (hroom.next hrun.1) (hroom'.next hlegal') hbare hrun.2
    exact ⟨⟨hlegal', hrest⟩, hlast⟩

/-! ## A turn as a run of the domain

One turn may be several calls: a timer's turn decides for both sides before it resolves.  All other
turns that do something are one call. -/

/-- The domain's calls behind the default decisions of a side. -/
def GameRoom.retreats (room : GameRoom) (side : PlayerSide) : List Call :=
  (room.getUndecidedEncounters side).map fun p => .resolveEncounter p.edgeId side .retreat

/-- What the default decisions of a side do to the room. -/
theorem after_retreats (roomId : String) (side : PlayerSide) :
    ∀ (rest : List PendingEncounter) {room : GameRoom}, InSession room → room.phase = .planning →
      room.getUndecidedEncounters side = rest →
      (session roomId).Steps GameRoom.SessionLegal room
          (rest.map fun p => .resolveEncounter p.edgeId side .retreat) ∧
        (session roomId).after room (rest.map fun p => .resolveEncounter p.edgeId side .retreat) =
          rest.foldl (fun r p => r.decideEncounter p.edgeId side .retreat) room
  | [], _, _, _, _ => ⟨trivial, rfl⟩
  | p :: rest, room, hroom, hphase, hund => by
    have hmem : p ∈ room.getUndecidedEncounters side := hund ▸ List.mem_cons_self
    obtain ⟨hpending, hopen⟩ := List.mem_filter.mp hmem
    obtain ⟨-, hok⟩ := decidable_of_undecided hroom hphase hpending
      (show p.hasDecided side = false by simpa using hopen) .retreat
    have hnext : room.next (.resolveEncounter p.edgeId side .retreat) =
        room.decideEncounter p.edgeId side .retreat := by
      rw [next_resolveEncounter, hok]
      rfl
    obtain ⟨hrest, hlast⟩ := after_retreats roomId side rest (hroom.decided _ _ hok)
      ((decideEncounter_frame _ _ _ _).phase.trans hphase)
      (undecided_decideEncounter hroom hphase hund .retreat)
    refine ⟨⟨trivial, ?_⟩, ?_⟩
    · show (session roomId).Steps _ (room.next (.resolveEncounter p.edgeId side .retreat)) _
      rw [hnext]
      exact hrest
    · show (session roomId).after (room.next (.resolveEncounter p.edgeId side .retreat)) (rest.map
        fun p => .resolveEncounter p.edgeId side .retreat) = _
      rw [hnext]
      exact hlast

/-- What both sides' default decisions do to it. -/
theorem after_timedOut (roomId : String) (hroom : InSession room) (hphase : room.phase = .planning) :
    ∃ calls, (session roomId).Steps GameRoom.SessionLegal room calls ∧
      (session roomId).after room calls = room.timedOut := by
  obtain ⟨hstepsA, hafterA⟩ := after_retreats roomId .a _ hroom hphase rfl
  replace hafterA : (session roomId).after room (room.retreats .a) = room.retreated .a := hafterA
  have hroomA : InSession (room.retreated .a) := by
    rw [← hafterA]
    exact Machine.after_of_invariant (fun _ _ h hlegal => h.next hlegal) hroom hstepsA
  have hphaseA := (retreated_frame room .a).phase.trans hphase
  obtain ⟨hstepsB, hafterB⟩ := after_retreats roomId .b _ hroomA hphaseA rfl
  refine ⟨room.retreats .a ++ (room.retreated .a).retreats .b, ?_, ?_⟩
  · refine Machine.steps_append.mpr ⟨hstepsA, ?_⟩
    rw [hafterA]
    exact hstepsB
  · rw [Machine.after_append, hafterA]
    exact hafterB

/-- What is saved at the end of a turn is the room it has left, for the game. -/
theorem Done.bare {h : Host} {call : SessionCall} {room : GameRoom} (hdone : Done h call room) :
    (h.next call).room.bare = room.bare := by
  rw [hdone.saved]
  rfl

/-- **The game that a turn leaves is that of a run of the domain.** -/
theorem domain_of_turn (roomId : String) {h : Host} (hroom : InSession h.room)
    (hquiet : h.room.domainEvents = []) (call : SessionCall) :
    ∃ calls, (session roomId).Steps GameRoom.SessionLegal h.room calls ∧
      ((session roomId).after h.room calls).bare = (h.next call).room.bare := by
  -- a call of the domain that does what the turn does
  have hone : ∀ (room : GameRoom) (c : Call), h.room.SessionLegal c → Done h call room →
      (h.room.next c).bare = room.bare →
      ∃ calls, (session roomId).Steps GameRoom.SessionLegal h.room calls ∧
        ((session roomId).after h.room calls).bare = (h.next call).room.bare := by
    intro room c hlegal hdone hbare
    exact ⟨[c], ⟨hlegal, trivial⟩, hbare.trans hdone.bare.symm⟩
  rcases next_does hroom hquiet call with ⟨room, hdone⟩ | hidle
  -- each thing that a turn can do has its call
  · cases hdone.does with
    | @join playerId now hr =>
      refine hone _ (.addPlayer playerId (some (now + h.session.planningTimeout)) now) trivial hdone ?_
      rw [next_addPlayer hroom.sound.map, hr]
      rfl
    | @move side command hconn hr =>
      refine hone _ (.moveUnits side (h.room.adjusted side command)) trivial hdone ?_
      rw [next_moveUnits, (moveRefusal_of_session hr).2.2]
      rfl
    | @decide side edgeId decision hconn hr =>
      refine hone _ (.resolveEncounter edgeId side decision) trivial hdone ?_
      rw [next_resolveEncounter, hr]
      rfl
    | @resolve _ ready now hres =>
      have hphase := planning_of_resolves hroom hres
      obtain ⟨-, hready, hlegal⟩ := next_of_resolves hroom hres
      -- the default decisions come first where a timer has fired
      obtain ⟨calls, hsteps, hbare⟩ : ∃ calls,
          (session roomId).Steps GameRoom.SessionLegal h.room calls ∧
            ready.bare = ((session roomId).after h.room calls).bare := by
        cases hres with
        | ready _ _ => exact ⟨[], trivial, rfl⟩
        | timeout _ _ =>
          obtain ⟨calls, hsteps, hafter⟩ := after_timedOut roomId hroom hphase
          exact ⟨calls, hsteps, congrArg GameRoom.bare hafter.symm⟩
        | backup _ _ =>
          let owned : GameRoom := { h.room with ownerServerId := some h.session.serverId }
          have howned : InSession owned := hroom.relabel _ _
          obtain ⟨calls, hsteps, hafter⟩ := after_timedOut roomId howned hphase
          obtain ⟨hsteps', hafter'⟩ := bare_run roomId howned hroom rfl hsteps
          refine ⟨calls, hsteps', ?_⟩
          rw [hafter', hafter]
      have hreached : InSession ((session roomId).after h.room calls) :=
        Machine.after_of_invariant (fun _ _ h hlegal => h.next hlegal) hroom hsteps
      let last : Call := .resolveRound (some (now + h.session.planningTimeout)) now
      obtain ⟨hsame, hlegal'⟩ := bare_next hreached hbare last
      refine ⟨calls ++ [last], Machine.steps_append.mpr ⟨hsteps, hlegal'.mp hlegal, trivial⟩, ?_⟩
      rw [Machine.after_append, hdone.bare]
      show (((session roomId).after h.room calls).next last).bare = _
      rw [← hsame, next_resolveRound hready.sound ((hready.orderly.ready hready.sound hlegal).1),
        Option.getD_some]
    | @abandon winner _ _ =>
      exact hone _ (.forceGameOver (some winner) .playerDisconnected) trivial hdone rfl
  · refine ⟨[], trivial, ?_⟩
    rw [hidle.kept]
    rfl

/-! ## A call of the domain as turns of a session

`GameSession` checks a move before the room does, and cuts it down to what remains.  Whatever the
room would take passes that check unchanged, so no game of the domain is out of reach. -/

/-- What was cut down to the remaining units is not cut down again. -/
theorem granted_adjusted (room : GameRoom) (side : PlayerSide) (command : MoveCommand) :
    room.granted side (room.adjusted side command) = room.granted side command :=
  (min_assoc _ _ _).trans (congrArg _ (min_self _))

/-- What a session cuts down first, the room would have cut down. -/
theorem reserve_adjusted (room : GameRoom) (side : PlayerSide) (command : MoveCommand) :
    room.reserve side (room.adjusted side command) = room.reserve side command := by
  rw [GameRoom.reserve, GameRoom.reserve, grantedMove, grantedMove, granted_adjusted]
  rfl

/-- A session takes every move that the room takes. -/
theorem sessionMoveRefusal_none {side : PlayerSide} {command : MoveCommand}
    (h : room.moveRefusal side command = none) : room.sessionMoveRefusal side command = none := by
  obtain ⟨hphase, hpos, -⟩ := moveRefusal_none h
  have hleft : 0 < room.getRemainingUnits side := hpos.trans_le (min_le_right _ _)
  rw [sessionMoveRefusal, if_neg (not_not_intro hphase), if_neg (Int.not_le.mpr hleft), ← h]
  simp only [moveRefusal, granted_adjusted]
  rfl

/-- In a room that is ready nothing is left for the default decisions. -/
theorem timedOut_ready (hready : room.isReadyForResolution = true) : room.timedOut = room := by
  rw [isReadyForResolution] at hready
  split at hready
  · cases hready
  have hnone : ∀ side, room.getUndecidedEncounters side = [] := by
    intro side
    refine List.filter_eq_nil_iff.mpr fun p hp => ?_
    have hboth := List.all_eq_true.mp hready p hp
    rw [PendingEncounter.bothDecided, Bool.and_eq_true] at hboth
    cases side
    · rw [hboth.1]
      decide
    · rw [hboth.2]
      decide
  have hsame : ∀ side, room.retreated side = room := by
    intro side
    rw [GameRoom.retreated, hnone side]
    rfl
  rw [GameRoom.timedOut, hsame .a, hsame .b]

/-- The turns of a session behind a call of the domain.  Who moves or decides connects first. -/
def Host.turnsOf (h : Host) : Call → List SessionCall
  | .addPlayer playerId _ now => [.addPlayer playerId now]
  | .moveUnits side command =>
    if h.room.moveRefusal side command = none then
      [.onPlayerConnected side 0, .moveUnits side command]
    else []
  | .resolveEncounter edgeId side decision =>
    if h.room.decisionRefusal edgeId side decision = none then
      [.onPlayerConnected side 0, .encounterDecision side edgeId decision]
    else []
  | .resolveRound _ now => [.planningTimeout h.room.currentRound now]
  | .forceGameOver _ _ => []

section Turns

variable {roomId serverId : String} {hasEventPublisher : Bool} {planningTimeout : Time}

/-- A connection touches the flag only. -/
theorem connected_host (h : Host) (side : PlayerSide) (now : Time) :
    (h.next (.onPlayerConnected side now)).room = h.room ∧
      ((h.next (.onPlayerConnected side now)).session.playerStates.get side).isConnected = true := by
  refine ⟨?_, ?_⟩
  · rw [next_onPlayerConnected]
    rfl
  · have hflag := connected_next_of_reaches h (.onPlayerConnected side now) rfl side
    rwa [if_pos rfl] at hflag

/-- A turn that does something leaves the game it has made. -/
theorem bare_of_does {h : Host} (hh : Hosting h) {call : SessionCall} {room : GameRoom}
    (hdoes : Does h call room) : (h.next call).room.bare = room.bare := by
  rw [room_of_does hh.room hh.quiet hdoes]
  rfl

/-- Two turns: the side connects, and does something. -/
theorem bare_connected {h : Host} (hh : Hosting h) (side : PlayerSide) {call : SessionCall}
    {room : GameRoom} (hdoes : ∀ h' : Host, h'.room = h.room →
      (h'.session.playerStates.get side).isConnected = true → Does h' call room) :
    ((h.next (.onPlayerConnected side 0)).next call).room.bare = room.bare := by
  obtain ⟨hroom, hflag⟩ := connected_host h side 0
  exact bare_of_does (hh.next _) (hdoes _ hroom hflag)

/-- **A session does what the domain does.** -/
theorem turns_of_domain {h : Host} (hh : Hosting h) {call : Call} (hlegal : h.room.SessionLegal call)
    (hunforced : call.Unforced) :
    ((hosts roomId serverId hasEventPublisher planningTimeout).after h (h.turnsOf call)).room.bare =
      (h.room.next call).bare := by
  have hroom := hh.room
  cases call with
  | addPlayer playerId deadline now =>
    show (h.next (.addPlayer playerId now)).room.bare = _
    rw [next_addPlayer hroom.sound.map, next_addPlayer_host hroom.sound.map]
    rcases hr : h.room.joinRefusal playerId with _ | e
    · have hbare := bare_of_does hh (show Does h (.addPlayer playerId now) _ from .join hr)
      rw [next_addPlayer_host hroom.sound.map, hr] at hbare
      refine hbare.trans ?_
      exact bare_joined h.room.ownerServerId h.room.domainEvents h.room playerId _ _
    · rfl
  | moveUnits side command =>
    rw [next_moveUnits, Host.turnsOf]
    rcases hr : h.room.moveRefusal side command with _ | e
    · rw [if_pos rfl]
      show ((h.next (.onPlayerConnected side 0)).next (.moveUnits side command)).room.bare = _
      refine (bare_connected hh side fun h' hsame hconn => ?_).trans
        (congrArg GameRoom.bare (reserve_adjusted h.room side command))
      rw [← hsame]
      refine .move hconn ?_
      rw [hsame]
      exact sessionMoveRefusal_none hr
    · rfl
  | resolveEncounter edgeId side decision =>
    rw [next_resolveEncounter, Host.turnsOf]
    rcases hr : h.room.decisionRefusal edgeId side decision with _ | e
    · rw [if_pos rfl]
      show ((h.next (.onPlayerConnected side 0)).next
        (.encounterDecision side edgeId decision)).room.bare = _
      refine bare_connected hh side fun h' hsame hconn => ?_
      rw [← hsame]
      refine .decide hconn ?_
      rw [hsame]
      exact hr
    · rfl
  | resolveRound deadline now =>
    have hphase := (hroom.orderly.ready hroom.sound hlegal).1
    rw [next_resolveRound hroom.sound hphase]
    show (h.next (.planningTimeout h.room.currentRound now)).room.bare = _
    rw [bare_of_does hh (.resolve (.timeout hphase rfl)), timedOut_ready hlegal]
    exact bare_resolved h.room.ownerServerId h.room.domainEvents h.room _ _
  | forceGameOver winner reason => exact hunforced.elim

end Turns

/-! ## The two machines

The relation is the same in both directions: the rooms have one game.  With the invariants of either
side along, a step of one is matched by steps of the other. -/

/-- A room of the domain with the game of a session's room. -/
structure SameGame (room room' : GameRoom) : Prop where
  /-- The session's room keeps the invariant of sessions, -/
  here : InSession room
  /-- and so does the domain's. -/
  there : InSession room'
  bare : room'.bare = room.bare

/-- What a turn does is done in the domain, from any room of the same game. -/
theorem SameGame.turn (roomId : String) {h : Host} (hsame : SameGame h.room room)
    (hquiet : h.room.domainEvents = []) (call : SessionCall) :
    ∃ calls, (session roomId).Steps GameRoom.SessionLegal room calls ∧
      SameGame (h.next call).room ((session roomId).after room calls) := by
  obtain ⟨calls, hsteps, hbare⟩ := domain_of_turn roomId hsame.here hquiet call
  obtain ⟨hsteps', hbare'⟩ := bare_run roomId hsame.here hsame.there hsame.bare hsteps
  obtain ⟨es, hturn, -⟩ := next_turn hsame.here hquiet call
  exact ⟨calls, hsteps', hturn.room,
    Machine.after_of_invariant (fun _ _ h hlegal => h.next hlegal) hsame.there hsteps',
    hbare'.trans hbare⟩

/-- At first both are empty. -/
theorem sameGame_initial (roomId : String) (owner : Option String) :
    SameGame { initialRoom roomId with ownerServerId := owner } (initialRoom roomId) :=
  ⟨(inSession_initial roomId).relabel owner _, inSession_initial roomId, rfl⟩

section Simulations

variable (roomId serverId : String) (hasEventPublisher : Bool) (planningTimeout : Time)
  (side : PlayerSide)

/-- A server that is alone is simulated by the domain. -/
theorem host_simulated : (hosts roomId serverId hasEventPublisher planningTimeout).Simulation
    (session roomId) fun h room => Hosting h ∧ SameGame h.room room where
  start := ⟨hosting_initial _ _ _ _, sameGame_initial roomId (some serverId)⟩
  step := by
    rintro h room call ⟨hh, hsame⟩ -
    obtain ⟨calls, hsteps, hsame'⟩ := hsame.turn roomId hh.quiet call
    exact ⟨calls, hsteps, hh.next call, hsame'⟩

/-- So are any number of servers: only their turns touch the room. -/
theorem cluster_simulated : (clusters roomId serverId planningTimeout side).Simulation
    (session roomId) fun c room => Consistent c ∧ SameGame c.room room where
  start := ⟨consistent_initial _ _ _ _, sameGame_initial roomId (some serverId)⟩
  step := by
    rintro c room call ⟨hc, hsame⟩ -
    have hc' := hc.next planningTimeout call
    -- a turn on a server that is there, or a step that leaves the stored room
    by_cases hturn : ∃ id s turn, call = .turn id turn ∧ c.servers.get? id = some s
    · obtain ⟨id, s, turn, rfl, hget⟩ := hturn
      have hsame' : SameGame (s.host c.room).room room := hsame
      obtain ⟨calls, hsteps, hlast⟩ := hsame'.turn roomId hc.quiet turn
      refine ⟨calls, hsteps, hc', ?_⟩
      show SameGame (c.turn id turn).room _
      rw [turn_eq hget]
      exact hlast
    · refine ⟨[], trivial, hc', ?_⟩
      have hkept : (c.next planningTimeout call).room = c.room := by
        cases call with
        | turn id turn =>
          rcases hget : c.servers.get? id with _ | s
          · exact congrArg Cluster.room (turn_unknown hget turn)
          · exact absurd ⟨id, s, turn, rfl, hget⟩ hturn
        | hydrate _ | deliver _ _ | connect _ | disconnect =>
          refine (c.next_frame planningTimeout ?_).1
          rintro id turn ⟨⟩
      show SameGame (c.next planningTimeout call).room room
      rw [hkept]
      exact hsame

/-- The domain without forced ends is simulated by a server that is alone. -/
theorem domain_simulated : (unforced roomId).Simulation
    (hosts roomId serverId hasEventPublisher planningTimeout)
    fun room h => Hosting h ∧ SameGame room h.room where
  start := by
    have hsame := sameGame_initial roomId (some serverId)
    exact ⟨hosting_initial _ _ _ _, hsame.there, hsame.here, rfl⟩
  step := by
    rintro room h call ⟨hh, hsame⟩ ⟨hlegal, hunforced⟩
    obtain ⟨hbare, hlegal'⟩ := bare_next hsame.here hsame.bare call
    refine ⟨h.turnsOf call, Machine.steps_of_forall (fun _ _ => trivial) _ _, ?_⟩
    have hh' : Hosting ((hosts roomId serverId hasEventPublisher planningTimeout).after h
        (h.turnsOf call)) :=
      Machine.after_of_invariant (C := fun _ _ => True) (fun _ call hh _ => hh.next call) hh
        (Machine.steps_of_forall (fun _ _ => trivial) _ _)
    exact ⟨hh', hsame.here.next hlegal, hh'.room,
      (turns_of_domain hh (hlegal'.mpr hlegal) hunforced).trans hbare⟩

/-- **Sessions and domain reach the same games**: the game of every state of a server, alone or among
    others, is one that a run of the domain reaches; and every game that the domain reaches without
    a forced end is reached by a server that is alone. -/
theorem session_refines_domain :
    (∀ h, (hosts roomId serverId hasEventPublisher planningTimeout).Reachable h →
      ∃ room, (session roomId).Reachable room ∧ room.bare = h.room.bare) ∧
    (∀ c, (clusters roomId serverId planningTimeout side).Reachable c →
      ∃ room, (session roomId).Reachable room ∧ room.bare = c.room.bare) ∧
    ∀ room, (unforced roomId).Reachable room →
      ∃ h, (hosts roomId serverId hasEventPublisher planningTimeout).Reachable h ∧
        h.room.bare = room.bare := by
  refine ⟨fun h hreach => ?_, fun c hreach => ?_, fun room hreach => ?_⟩
  · obtain ⟨room, hroom, -, hsame⟩ :=
      (host_simulated roomId serverId hasEventPublisher planningTimeout).reachable hreach
    exact ⟨room, hroom, hsame.bare⟩
  · obtain ⟨room, hroom, -, hsame⟩ :=
      (cluster_simulated roomId serverId planningTimeout side).reachable hreach
    exact ⟨room, hroom, hsame.bare⟩
  · obtain ⟨h, hh, -, hsame⟩ :=
      (domain_simulated roomId serverId hasEventPublisher planningTimeout).reachable hreach
    exact ⟨h, hh, hsame.bare⟩

end Simulations

end HexWar
