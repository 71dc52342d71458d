/-
  When a game has one result.

  A result is told in three places: the GameOver event, the notice to the subscribers of OnGameOver,
  and the winner in every view built afterwards.  The event of a forced end names the first side that
  is still connected, the views name the side with more nodes; and a resolution that ends the game
  gives its subscribers the reason AllNodesCaptured, whatever the event says.

  `Trial` is a host together with the GameOver events it has raised; `oneResult_iff` says in which
  runs the three agree.

  The theorem follows one turn.

  1. What the views show is one string of the room, `BuildWinnerString`, whatever the side.
  2. What the subscribers hear comes from two places: the end of a resolution, with one reason for all
     causes, and the forced end, with the reason of its event.
  3. The first turn that ends the game decides whether the three agree (`agrees_done_iff`).  Afterwards
     only joining changes anything, and that always does (`winnerString_joined_ne`).
-/
import HexWar.Session.Course
import HexWar.Session.Finality

namespace HexWar

open Lib Lib.Action GameRoom

/-! ## The properties -/

/-- A host, and the GameOver events it has raised so far. -/
structure Trial where
  host : Host
  raised : List GameOver

/-- The events that a turn raises. -/
def Host.raisedBy (h : Host) (call : SessionCall) : List DomainEvent :=
  ((h.next call).session.getEventsAfter h.session.eventSequence).map (·.event)

/-- A turn, and the GameOver events among those it raises. -/
def Trial.next (t : Trial) (call : SessionCall) : Trial :=
  ⟨t.host.next call, t.raised ++ verdicts (t.host.raisedBy call)⟩

/-- A session whose GameOver events are collected. -/
def trials (roomId serverId : String) (hasEventPublisher : Bool) (planningTimeout : Time) :
    Machine Trial SessionCall :=
  ⟨⟨Host.initial roomId serverId hasEventPublisher planningTimeout, []⟩, Trial.next,
    fun _ _ => True⟩

/-- A winner in the words of a view. -/
def winnerName : Option PlayerSide → String
  | some side => toString side
  | none => "Draw"

/-- **One result**: what the subscribers were told are the winners and reasons of the events, and
    every view shows the winner of every event. -/
structure OneResult (t : Trial) : Prop where
  /-- Event by event, with winner and reason. -/
  told : t.host.gameOvers.map (fun args => (args.winner, args.reason)) =
    t.raised.map fun e => (e.winner, e.reason)
  /-- Either side's view, with whatever state and deadline. -/
  shown : ∀ e ∈ t.raised, ∀ side state deadline view,
    buildGameStateView t.host.room side state deadline = .ok view →
      view.winner = some (winnerName e.winner)

/-- A turn that leaves no doubt about the result: nobody joins a room that is over; the side that wins
    because the other has left owns more nodes; and no resolution completes the last round. -/
def Host.Undisputed (h : Host) : SessionCall → Prop
  | .addPlayer playerId _ => h.room.isOver → h.room.Shut playerId
  | .forceGameOver => h.raises .forceGameOver = true →
      ∀ winner, firstConnected h.session.playerStates = some winner →
        h.room.nodesOwned (.fromPlayerSide winner.enemy) <
          h.room.nodesOwned (.fromPlayerSide winner)
  | .checkAndResolveIfReady now => h.raises (.checkAndResolveIfReady now) = true →
      h.room.currentRound < h.room.maxRounds
  | .planningTimeout forRound now => h.raises (.planningTimeout forRound now) = true →
      h.room.currentRound < h.room.maxRounds
  | .backupPlanningTimeout forRound now => h.raises (.backupPlanningTimeout forRound now) = true →
      h.room.currentRound < h.room.maxRounds
  | .onPlayerConnected _ _ | .onPlayerDisconnected _ | .moveUnits _ _ | .encounterDecision _ _ _
  | .getGameState _ | .reconnectSync _ _ => True

/-! ## The views

A view is built for a side, but its winner is not: `BuildWinnerString` counts nodes.  So that a view
shows a winner can be said of the room alone. -/

/-- A list that is mapped fails only where an element does. -/
theorem mapM_ok {α β ε : Type} {f : α → Except ε β} {l : List α}
    (h : ∀ x ∈ l, ∃ y, f x = .ok y) :
    ∃ ys, l.mapM f = .ok ys := by
  induction l with
  | nil => exact ⟨[], rfl⟩
  | cons x l ih =>
    obtain ⟨y, hy⟩ := h x List.mem_cons_self
    obtain ⟨ys, hys⟩ := ih fun z hz => h z (List.mem_cons_of_mem _ hz)
    refine ⟨y :: ys, ?_⟩
    rw [List.mapM_cons, hy]
    show (l.mapM f >>= _) = _
    rw [hys]
    rfl

/-- A view of a sound room can be built, and its winner is the winner string of the room. -/
theorem buildGameStateView_ok {room : GameRoom} (hs : Sound room) (side : PlayerSide)
    (state : PlayerSessionState) (deadline : Option Time) :
    ∃ view, buildGameStateView room side state deadline = .ok view ∧
      view.winner = buildWinnerString room := by
  obtain ⟨pendings, hpendings⟩ := mapM_ok (l := room.pendingEncounters)
    (f := buildPendingEncounterView room side) fun p hp => by
      obtain ⟨e, he⟩ := (hs.encounters p hp).edge
      rw [buildPendingEncounterView, he]
      exact ⟨_, rfl⟩
  rw [buildGameStateView, hpendings]
  exact ⟨_, rfl, rfl⟩

/-- What all views show is the winner string. -/
theorem shown_iff {room : GameRoom} (hs : Sound room) (winner : Option String) :
    (∀ side state deadline view, buildGameStateView room side state deadline = .ok view →
      view.winner = winner) ↔ buildWinnerString room = winner := by
  constructor
  · intro h
    obtain ⟨view, hview, hwinner⟩ :=
      buildGameStateView_ok hs .a PlayerSessionState.new none
    rw [← hwinner]
    exact h _ _ _ view hview
  · intro h side state deadline view hview
    obtain ⟨view', hview', hwinner⟩ := buildGameStateView_ok hs side state deadline
    rw [hview] at hview'
    cases hview'
    exact hwinner.trans h

/-- One result, said of the room instead of its views. -/
theorem oneResult_iff_winnerString {t : Trial} (hs : Sound t.host.room) : OneResult t ↔
    t.host.gameOvers.map (fun args => (args.winner, args.reason)) =
        (t.raised.map fun e => (e.winner, e.reason)) ∧
      ∀ e ∈ t.raised, buildWinnerString t.host.room = some (winnerName e.winner) := by
  constructor
  · exact fun h => ⟨h.told, fun e he => (shown_iff hs _).mp (h.shown e he)⟩
  · exact fun h => ⟨h.1, fun e he => (shown_iff hs _).mpr (h.2 e he)⟩

/-! ## The notices

Each kind of turn for what it adds to `gameOvers`: a resolution that ends the game one entry, a
forced end one, all others none. -/

/-- A message to a player is no notice, -/
theorem Host.sendEvent_gameOvers (h : Host) (e : DomainEvent) (n : Int) :
    (h.sendEvent e n).gameOvers = h.gameOvers := by
  cases e <;> rfl

/-- nor is one to the other servers. -/
theorem Host.publish_gameOvers (h : Host) (e : DomainEvent) (n : Int) :
    (h.publish e n).gameOvers = h.gameOvers := by
  rw [Host.publish]
  split <;> rfl

/-- Announcing tells the subscribers of OnGameOver nothing. -/
theorem Host.flush_gameOvers (h : Host) : h.flush.gameOvers = h.gameOvers := by
  have hall : ∀ (es : List DomainEvent) (h : Host), (es.foldl Host.announce h).gameOvers =
    h.gameOvers := by
    intro es
    induction es with
    | nil => exact fun _ => rfl
    | cons e es ih =>
      intro h
      rw [List.foldl_cons, ih, Host.announce, Host.broadcastSingleEvent, Host.publish_gameOvers,
        Host.sendEvent_gameOvers]
  exact hall _ _

/-- And the notices stay when the state of the room is copied. -/
theorem Host.gameOvers_synced (h : Host) : h.synced.gameOvers = h.gameOvers := rfl

/-- `AdvanceToNextRoundAsync` tells them at its end, when the events are out. -/
theorem gameOvers_advanced (h : Host) (result : RoundResolutionResult) (room : GameRoom)
    (now later : Time) : (h.advanced result room now later).gameOvers = h.gameOvers ++
      if result.gameOver then [⟨h.session.roomId, result.winner, .allNodesCaptured⟩] else [] := by
  show (if result.gameOver = true then
    (Host.flush _).gameOvers ++ [⟨(Host.flush _).session.roomId, _, _⟩] else
      (Host.flush _).gameOvers) = _
  rw [Host.flush_gameOvers, Host.flush_session]
  split
  · rfl
  · exact (List.append_nil _).symm

/-- A resolution that ends the game gives the reason AllNodesCaptured. -/
theorem gameOvers_of_resolves {h : Host} (hroom : InSession h.room) {call : SessionCall}
    {room : GameRoom} {now : Time} (hres : Resolves h call room now) :
    (h.next call).gameOvers = h.gameOvers ++ if (sourceOrder.closedRoom room).endsGame then
      [⟨h.session.roomId, (sourceOrder.closedRoom room).getWinner, .allNodesCaptured⟩] else [] := by
  rw [(next_of_resolves hroom hres).1, Host.gameOvers_synced, Host.resolvedRound,
    gameOvers_advanced, openingResult]
  by_cases hends : (sourceOrder.closedRoom room).endsGame
  · rw [if_pos hends, if_pos hends]
    rfl
  · rw [if_neg hends, if_neg hends]
    rfl

/-- A forced end gives the reason of its event. -/
theorem gameOvers_of_abandon {h : Host} {winner : PlayerSide} (hphase : h.room.phase ≠ .gameOver)
    (hwinner : firstConnected h.session.playerStates = some winner) :
    (h.next .forceGameOver).gameOvers =
      h.gameOvers ++ [⟨h.session.roomId, some winner, .playerDisconnected⟩] := by
  rw [next_forceGameOver_host, if_neg hphase, hwinner]
  show (Host.flush _).gameOvers ++ [⟨(Host.flush _).session.roomId, _, _⟩] = _
  rw [Host.flush_gameOvers, Host.flush_session]
  rfl

/-- No other turn tells them anything. -/
theorem gameOvers_kept {h : Host} (hmap : OnMap h.room) {call : SessionCall}
    (hno : ∀ room now, ¬ Resolves h call room now)
    (hstay : call = .forceGameOver → h.raises call = false) :
    (h.next call).gameOvers = h.gameOvers := by
  cases call with
  | addPlayer playerId now =>
    rw [next_addPlayer_host hmap]
    split
    · rfl
    · exact Host.flush_gameOvers _
  | onPlayerConnected side now =>
    rw [next_onPlayerConnected]
    rfl
  | onPlayerDisconnected side => rfl
  | forceGameOver =>
    have hfalse := hstay rfl
    rw [next_forceGameOver_host]
    split
    · rfl
    · rename_i hphase
      cases hwinner : firstConnected h.session.playerStates with
      | none => rfl
      | some winner => simp [Host.raises, hphase, hwinner] at hfalse
  | moveUnits side command =>
    rw [next_moveUnits_host]
    split
    · split
      · rfl
      · exact Host.flush_gameOvers _
    · rfl
  | encounterDecision side edgeId decision =>
    rw [next_encounterDecision]
    split
    · split
      · rfl
      · exact Host.flush_gameOvers _
    · rfl
  | checkAndResolveIfReady _ | planningTimeout _ _ | backupPlanningTimeout _ _ =>
    rw [next_of_not_resolves rfl hno]
    rfl
  | getGameState side =>
    rw [next_getGameState]
    rfl
  | reconnectSync side lastSeenSequence =>
    rw [next_reconnectSync]
    rfl

/-! ## One turn

By what the turn does to the room, if anything.  A turn that is refused or does nothing raises
nothing and keeps the string; the ends of the game are compared case by case. -/

/-- What holds of a trial between two turns: a game that is over has ended with an event. -/
structure Trial.Sound (t : Trial) : Prop where
  hosting : Hosting t.host
  /-- So a winner is never shown without an event. -/
  raised : t.host.room.isOver → t.raised ≠ []

/-- The events a turn raises are those it announces. -/
theorem raisedBy_eq {h : Host} (hn : Numbered h.session) {es : List DomainEvent}
    {call : SessionCall} (ha : Announces es h (h.next call)) (hlen : es.length ≤ 3) :
    h.raisedBy call = es := by
  have hsize : es.length ≤ GameSession.eventBufferSize := Nat.le_trans hlen (by decide)
  rw [Host.raisedBy, getEventsAfter_of_announces hn ha hsize, map_event_numberFrom]

/-- A turn that does something raises the GameOver events of the room it leaves. -/
theorem next_of_done {t : Trial} (ht : t.Sound) {call : SessionCall} {room : GameRoom}
    (hdone : Done t.host call room) :
    t.next call = ⟨t.host.next call, t.raised ++ verdicts room.domainEvents⟩ := by
  have hlen := length_events_le ht.hosting.quiet hdone.does
  rw [Trial.next, raisedBy_eq ht.hosting.numbered hdone.turn.announces hlen]

/-- A turn that does nothing raises none. -/
theorem next_of_idle {t : Trial} (ht : t.Sound) {call : SessionCall} (hidle : Idle t.host call) :
    t.next call = ⟨t.host.next call, t.raised⟩ := by
  rw [Trial.next, raisedBy_eq ht.hosting.numbered hidle.turn.announces (Nat.zero_le _)]
  exact congrArg (Trial.mk _) (List.append_nil _)

/-- A turn that raises nothing leaves no doubt, unless somebody joins. -/
theorem undisputed_of_idle {h : Host} {call : SessionCall} (hidle : Idle h call) :
    h.Undisputed call := by
  have hquiet : ¬ h.raises call = true := Bool.eq_false_iff.mp (raises_idle hidle)
  cases call with
  | addPlayer playerId now =>
    intro _
    by_contra hshut
    exact hidle.nothing _ (.join (joinRefusal_none_iff.mpr hshut))
  | forceGameOver => exact fun hraises => absurd hraises hquiet
  | checkAndResolveIfReady _ | planningTimeout _ _ | backupPlanningTimeout _ _ =>
    exact fun hraises => absurd hraises hquiet
  | onPlayerConnected _ _ | onPlayerDisconnected _ | moveUnits _ _ | encounterDecision _ _ _
  | getGameState _ | reconnectSync _ _ => trivial

/-- While the game goes on, every turn but a resolution and a forced end leaves no doubt. -/
theorem undisputed_of_open {h : Host} (hopen : ¬ h.room.isOver) {call : SessionCall}
    (hmay : call.mayResolve = false) (hgrace : call ≠ .forceGameOver) :
    h.Undisputed call := by
  cases call with
  | addPlayer _ _ => exact fun hover => absurd hover hopen
  | forceGameOver => exact absurd rfl hgrace
  | checkAndResolveIfReady _ | planningTimeout _ _ | backupPlanningTimeout _ _ => cases hmay
  | onPlayerConnected _ _ | onPlayerDisconnected _ | moveUnits _ _ | encounterDecision _ _ _
  | getGameState _ | reconnectSync _ _ => trivial

/-- A resolving turn leaves no doubt if it does not complete the last round. -/
theorem undisputed_of_resolves {h : Host} {call : SessionCall} {room : GameRoom} {now : Time}
    (hres : Resolves h call room now) :
    h.Undisputed call ↔ h.room.currentRound < h.room.maxRounds := by
  have hmay : call.mayResolve = true := by cases hres <;> rfl
  have hraises := (raises_iff_resolves hmay).mpr ⟨_, _, hres⟩
  cases hres with
  | ready _ _ => exact forall_prop_of_true hraises
  | timeout _ _ => exact forall_prop_of_true hraises
  | backup _ _ => exact forall_prop_of_true hraises

/-- The winner string is read off the phase and the nodes. -/
theorem winnerString_congr {room room' : GameRoom} (hphase : room'.phase = room.phase)
    (hnodes : room'.nodes = room.nodes) : buildWinnerString room' = buildWinnerString room := by
  rw [buildWinnerString, buildWinnerString, nodesOwned, nodesOwned, nodesOwned, nodesOwned, hphase,
    hnodes]

/-- There is a winner string exactly when the game is over. -/
theorem winnerString_isSome (room : GameRoom) :
    (buildWinnerString room).isSome = true ↔ room.isOver := by
  rw [buildWinnerString]
  by_cases hover : room.phase = .gameOver
  · rw [if_neg (not_not_intro hover)]
    refine iff_of_true ?_ hover
    split
    · rfl
    · split <;> rfl
  · rw [if_pos hover]
    exact iff_of_false Bool.false_ne_true hover

/-- Whoever joins a room that is over changes the winner the views show. -/
theorem winnerString_joined_ne {room : GameRoom} (hs : Sound room) (hover : room.isOver)
    {playerId : PlayerId} (hr : room.joinRefusal playerId = none) (deadline : Time) :
    buildWinnerString (room.joined playerId deadline) ≠ buildWinnerString room := by
  have hcount := joinRefusal_none hr
  have hwaiting := hs.waiting hcount
  rcases seats_cases hs.seats hcount with ⟨hp, hv⟩ | ⟨p, hp, hv⟩
  · -- nobody was there: nobody owned a node, and now side A owns one
    let finished (nodes : Dict NodeId Node) : GameRoom :=
      { GameRoom.new "" with phase := .gameOver, nodes := nodes }
    have hbefore : buildWinnerString (finished initialNodes) = some "Draw" := by decide +kernel
    have hafter : buildWinnerString (finished (seatNodes initialNodes .a)) = some "A" := by
      decide +kernel
    have hnodes : room.nodes = initialNodes := by
      rw [hwaiting.nodes, hp]
      rfl
    have hjoined : room.joined playerId deadline = room.seated playerId := by
      rw [joined, started, seated, hv, hp]
      rfl
    have hseated : (room.seated playerId).nodes = seatNodes initialNodes .a := by
      rw [seated, hv, hnodes]
    have hdraw : buildWinnerString room = some "Draw" :=
      (@winnerString_congr (finished initialNodes) room hover hnodes).trans hbefore
    have hnamed : buildWinnerString (room.seated playerId) = some "A" :=
      (@winnerString_congr (finished (seatNodes initialNodes .a)) (room.seated playerId) hover
        hseated).trans hafter
    rw [hjoined, hdraw, hnamed]
    decide
  · -- side A was there: the game starts
    have hcountAfter : (room.seated playerId).playerCount ≥ 2 := by
      rw [two_le_playerCount, seated, hv, hp]
      exact ⟨rfl, rfl⟩
    have hphase : (room.joined playerId deadline).phase = .planning := by
      rw [joined, started_phase, if_pos hcountAfter]
    have hnone : buildWinnerString (room.joined playerId deadline) = none := by
      rw [buildWinnerString, hphase]
      rfl
    rw [hnone]
    intro heq
    have hsome := (winnerString_isSome room).mpr hover
    rw [← heq] at hsome
    cases hsome

/-- The side that is named has won in the views exactly if it owns more nodes. -/
theorem winnerString_forced (room : GameRoom) (hover : room.isOver) (winner : PlayerSide) :
    buildWinnerString room = some (winnerName (some winner)) ↔
      room.nodesOwned (.fromPlayerSide winner.enemy) <
        room.nodesOwned (.fromPlayerSide winner) := by
  have hphase : ¬ room.phase ≠ .gameOver := not_not_intro hover
  rw [buildWinnerString, if_neg hphase]
  cases winner with
  | a =>
    show _ ↔ room.nodesOwned .playerB < room.nodesOwned .playerA
    by_cases hA : room.nodesOwned .playerA > room.nodesOwned .playerB
    · rw [if_pos hA]
      exact iff_of_true rfl hA
    · rw [if_neg hA]
      refine iff_of_false ?_ hA
      split <;> decide
  | b =>
    show _ ↔ room.nodesOwned .playerA < room.nodesOwned .playerB
    by_cases hA : room.nodesOwned .playerA > room.nodesOwned .playerB
    · rw [if_pos hA]
      exact iff_of_false (by decide) (Int.not_lt.mpr (Int.le_of_lt hA))
    · rw [if_neg hA]
      by_cases hB : room.nodesOwned .playerB > room.nodesOwned .playerA
      · rw [if_pos hB]
        exact iff_of_true rfl hB
      · rw [if_neg hB]
        exact iff_of_false (by decide) hB

/-- The winner of a resolution is the one that the views show. -/
theorem winnerString_getWinner (room : GameRoom) (hover : room.isOver) :
    buildWinnerString room = some (winnerName room.getWinner) := by
  have hphase : ¬ room.phase ≠ .gameOver := not_not_intro hover
  rw [buildWinnerString, if_neg hphase, getWinner]
  split
  · rfl
  · split <;> rfl

/-- As long as the game goes on, nothing was raised. -/
theorem raised_nil_of_open {t : Trial} (ht : t.Sound) (hone : OneResult t)
    (hopen : ¬ t.host.room.isOver) : t.raised = [] := by
  refine List.eq_nil_iff_forall_not_mem.mpr fun e he => hopen ?_
  have hshown := ((oneResult_iff_winnerString ht.hosting.room.sound).mp hone).2 e he
  rw [← winnerString_isSome, hshown]
  rfl

/-- The end of the game by a resolution: the notice has the event's reason unless the last round was
    completed. -/
theorem agrees_resolved_iff (h : Host) (room : GameRoom) (deadline : Time) :
    ((if (sourceOrder.closedRoom room).endsGame then
          [(⟨h.session.roomId, (sourceOrder.closedRoom room).getWinner, .allNodesCaptured⟩ :
            GameOverEventArgs)] else []).map (fun args => (args.winner, args.reason)) =
        ((sourceOrder.following room deadline).asGameOver.toList.map fun e => (e.winner, e.reason)) ∧
      ∀ e ∈ (sourceOrder.following room deadline).asGameOver.toList,
        buildWinnerString (sourceOrder.resolved room deadline) = some (winnerName e.winner)) ↔
      room.currentRound < room.maxRounds := by
  have hround : (sourceOrder.closedRoom room).currentRound = room.currentRound + 1 := rfl
  have hmax : (sourceOrder.closedRoom room).maxRounds = room.maxRounds := rfl
  rw [ProcessingOrder.following]
  by_cases hends : (sourceOrder.closedRoom room).endsGame
  · simp only [if_pos hends]
    by_cases hlast : (sourceOrder.closedRoom room).currentRound >
        (sourceOrder.closedRoom room).maxRounds
    · -- the event says MaxRoundsReached
      simp only [if_pos hlast]
      rw [hround, hmax] at hlast
      refine iff_of_false ?_ (by omega)
      rintro ⟨hsame, -⟩
      have hreason := (Prod.mk.inj (List.cons.inj hsame).1).2
      cases hreason
    · simp only [if_neg hlast]
      have hover : (sourceOrder.resolved room deadline).isOver := by
        rw [isOver, ProcessingOrder.resolved, opened_phase, if_pos hends]
      have hnodes : (sourceOrder.resolved room deadline).nodes =
          (sourceOrder.closedRoom room).nodes := (resolved_frame _ _ _).nodes
      have hwinner : (sourceOrder.resolved room deadline).getWinner =
          (sourceOrder.closedRoom room).getWinner := by
        rw [getWinner, getWinner, nodesOwned, nodesOwned, nodesOwned, nodesOwned, hnodes]
      rw [hround, hmax] at hlast
      refine iff_of_true ⟨rfl, fun e he => ?_⟩ (by omega)
      rw [List.mem_singleton.mp he, winnerString_getWinner _ hover, hwinner]
  · simp only [if_neg hends]
    have hgoes : ¬ (sourceOrder.closedRoom room).currentRound >
        (sourceOrder.closedRoom room).maxRounds := fun hlast => hends (.inr hlast)
    rw [hround, hmax] at hgoes
    exact iff_of_true ⟨rfl, fun e he => absurd he List.not_mem_nil⟩ (by omega)

/-- The first turn that does something to end the game. -/
theorem agrees_done_iff {h : Host} (hroom : InSession h.room) (hquiet : h.room.domainEvents = [])
    (hopen : ¬ h.room.isOver) (hempty : h.gameOvers = []) {call : SessionCall} {room : GameRoom}
    (hdone : Done h call room) :
    ((h.next call).gameOvers.map (fun args => (args.winner, args.reason)) =
        ((verdicts room.domainEvents).map fun e => (e.winner, e.reason)) ∧
      ∀ e ∈ verdicts room.domainEvents, buildWinnerString room = some (winnerName e.winner)) ↔
      h.Undisputed call := by
  -- the turns that neither raise a GameOver event nor tell the subscribers anything
  have hminor : verdicts room.domainEvents = [] → call.mayResolve = false →
      call ≠ .forceGameOver →
      (((h.next call).gameOvers.map (fun args => (args.winner, args.reason)) =
          ((verdicts room.domainEvents).map fun e => (e.winner, e.reason)) ∧
        ∀ e ∈ verdicts room.domainEvents, buildWinnerString room = some (winnerName e.winner)) ↔
        h.Undisputed call) := by
    intro hnone hmay hgrace
    have hkept : (h.next call).gameOvers = h.gameOvers := by
      refine gameOvers_kept hroom.sound.map ?_ fun heq => absurd heq hgrace
      intro room' now hres
      cases hres <;> cases hmay
    rw [hnone, hkept, hempty]
    refine iff_of_true ⟨rfl, fun e he => absurd he List.not_mem_nil⟩ ?_
    exact undisputed_of_open hopen hmay hgrace
  -- joining, moving and deciding end nothing; the two ends of a game remain
  cases hdone.does with
  | @join playerId now hr =>
    refine hminor ?_ rfl fun heq => by cases heq
    rcases events_joined_eq hquiet playerId (now + h.session.planningTimeout) with hnone | ⟨_, _, hone⟩
    · rw [hnone]
      rfl
    · rw [hone]
      rfl
  | move hconn hr =>
    refine hminor ?_ rfl fun heq => by cases heq
    rw [events_reserve hquiet]
    rfl
  | decide hconn hr =>
    refine hminor ?_ rfl fun heq => by cases heq
    exact verdicts_minor (events_decideEncounter_minor hquiet _ _ _).1
  | @resolve _ room₀ now hres =>
    rw [gameOvers_of_resolves hroom hres, hempty, List.nil_append, verdicts_resolved,
      undisputed_of_resolves hres, ← (resolves_round hres).2.1, ← (resolves_round hres).2.2.1]
    exact agrees_resolved_iff h room₀ _
  | @abandon winner hphase hwinner =>
    rw [gameOvers_of_abandon hphase hwinner, hempty, events_forced hquiet]
    have hraises : h.raises .forceGameOver = true := by
      simp [Host.raises, hphase, hwinner]
    have hforced := winnerString_forced (h.room.forced (some winner) .playerDisconnected) rfl winner
    constructor
    · rintro ⟨-, hshown⟩ - winner' hw
      rw [hwinner] at hw
      cases hw
      exact hforced.mp (hshown _ List.mem_cons_self)
    · intro hmore
      refine ⟨rfl, fun e he => ?_⟩
      rw [List.mem_singleton.mp he]
      exact hforced.mpr (hmore hraises winner hwinner)

/-- **One turn**: the three places still agree exactly if the turn leaves no doubt. -/
theorem oneResult_next_iff {t : Trial} (ht : t.Sound) (hone : OneResult t) (call : SessionCall) :
    OneResult (t.next call) ↔ t.host.Undisputed call := by
  have hroom := ht.hosting.room
  have hquiet := ht.hosting.quiet
  have hnext := ht.hosting.next call
  obtain ⟨htold, hshown⟩ := (oneResult_iff_winnerString hroom.sound).mp hone
  rw [oneResult_iff_winnerString hnext.room.sound]
  rcases next_does hroom hquiet call with ⟨room, hdone⟩ | hidle
  · rw [next_of_done ht hdone]
    show (t.host.next call).gameOvers.map _ = (t.raised ++ verdicts room.domainEvents).map _ ∧
      (∀ e ∈ t.raised ++ verdicts room.domainEvents,
        buildWinnerString (t.host.next call).room = _) ↔ _
    have hwinner : buildWinnerString (t.host.next call).room = buildWinnerString room :=
      winnerString_congr (by rw [hdone.saved]) (by rw [hdone.saved])
    rw [hwinner]
    rcases em t.host.room.isOver with hover | hopen
    · -- somebody joins a room that is over
      obtain ⟨playerId, now, rfl, hr, rfl⟩ := does_of_over hover hdone.does
      refine iff_of_false ?_ fun hno => joinRefusal_none_iff.mp hr (hno hover)
      rintro ⟨-, hall⟩
      obtain ⟨e, he⟩ := List.exists_mem_of_ne_nil _ (ht.raised hover)
      exact winnerString_joined_ne hroom.sound hover hr _
        ((hall e (List.mem_append_left _ he)).trans (hshown e he).symm)
    have hnone := raised_nil_of_open ht hone hopen
    have hempty : t.host.gameOvers = [] := by
      rw [hnone] at htold
      exact List.map_eq_nil_iff.mp htold
    rw [hnone, List.nil_append]
    exact agrees_done_iff hroom hquiet hopen hempty hdone
  · have hkept := gameOvers_kept hroom.sound.map
      (fun room now hres => hidle.nothing _ (.resolve hres)) fun _ => raises_idle hidle
    rw [next_of_idle ht hidle]
    refine iff_of_true ⟨?_, ?_⟩ (undisputed_of_idle hidle)
    · show (t.host.next call).gameOvers.map _ = _
      rw [hkept]
      exact htold
    · show ∀ e ∈ t.raised, buildWinnerString (t.host.next call).room = _
      rw [hidle.kept]
      exact hshown

/-! ## Runs -/

/-- Every turn keeps what holds of a trial. -/
theorem Trial.Sound.next {t : Trial} (ht : t.Sound) (call : SessionCall) : (t.next call).Sound := by
  refine ⟨ht.hosting.next call, ?_⟩
  have hroom := ht.hosting.room
  have hquiet := ht.hosting.quiet
  rcases next_does hroom hquiet call with ⟨room, hdone⟩ | hidle
  · rw [next_of_done ht hdone]
    intro hover
    replace hover : (t.host.next call).room.phase = .gameOver := hover
    have hphase : room.phase = .gameOver := by
      rw [hdone.saved] at hover
      exact hover
    rcases em t.host.room.isOver with hwas | hopen
    · exact List.append_ne_nil_of_left_ne_nil (ht.raised hwas) _
    refine List.append_ne_nil_of_right_ne_nil _ ?_
    cases hdone.does with
    | join hr =>
      rw [joined, started_phase] at hphase
      split at hphase
      · cases hphase
      · exact absurd hphase hopen
    | move hconn hr => exact absurd hphase hopen
    | decide hconn hr => exact absurd ((decideEncounter_frame _ _ _ _).phase.symm.trans hphase) hopen
    | resolve hres =>
      rw [ProcessingOrder.resolved, opened_phase] at hphase
      rw [verdicts_resolved, ProcessingOrder.following]
      split at hphase
      · rename_i hends
        simp only [if_pos hends]
        exact List.cons_ne_nil _ _
      · cases hphase
    | abandon hphase hwinner =>
      rw [events_forced hquiet]
      exact List.cons_ne_nil _ _
  · rw [next_of_idle ht hidle]
    intro hover
    refine ht.raised ?_
    rw [← hidle.kept]
    exact hover

/-- At first nothing is over and nothing was raised. -/
theorem trialSound_initial (roomId serverId : String) (hasEventPublisher : Bool)
    (planningTimeout : Time) :
    Trial.Sound ⟨Host.initial roomId serverId hasEventPublisher planningTimeout, []⟩ where
  hosting := hosting_initial _ _ _ _
  raised hover := by
    have hphase : (initialRoom roomId).phase = .gameOver := hover
    rw [(initialRoom_fields roomId).phase] at hphase
    cases hphase

/-- **A game has one result exactly if no turn leaves it in doubt**: in every state of the run the
    subscribers of OnGameOver were told the winners and the reasons of the GameOver events, and every
    view shows their winner. -/
theorem oneResult_iff {roomId serverId : String} {hasEventPublisher : Bool} {planningTimeout : Time}
    (calls : List SessionCall) :
    (∀ t ∈ (trials roomId serverId hasEventPublisher planningTimeout).visited
        ⟨Host.initial roomId serverId hasEventPublisher planningTimeout, []⟩ calls, OneResult t) ↔
      (trials roomId serverId hasEventPublisher planningTimeout).Steps
        (fun t call => t.host.Undisputed call)
        ⟨Host.initial roomId serverId hasEventPublisher planningTimeout, []⟩ calls := by
  refine Machine.visited_iff (M := trials roomId serverId hasEventPublisher planningTimeout)
    (I := Trial.Sound) (fun _ call ht _ => ht.next call)
    (fun _ call ht _ hone => oneResult_next_iff ht hone call) (trialSound_initial _ _ _ _) ?_
    (Machine.steps_of_forall (fun _ _ => trivial) calls _)
  exact ⟨rfl, fun e he => absurd he List.not_mem_nil⟩

/-! ### Two endings -/

/-- A server on its own, with its results. -/
abbrev lonely : Machine Trial SessionCall := trials "room" "s1" false 30000

/-- Two players start, and twenty rounds run out. -/
def outlastedCalls : List SessionCall :=
  [.addPlayer ⟨"alice"⟩ 0, .addPlayer ⟨"bob"⟩ 5] ++
    (List.range 20).map fun n => .planningTimeout (n + 1) (30000 * (n + 1))

/-- Two players start, and side A stays away. -/
def desertedCalls : List SessionCall :=
  [.addPlayer ⟨"alice"⟩ 0, .addPlayer ⟨"bob"⟩ 5, .onPlayerDisconnected .a, .forceGameOver]

/-- After twenty rounds the event says MaxRoundsReached and the subscribers hear AllNodesCaptured; and
    side B, whose opponent has left, has won in the event and drawn in the views. -/
theorem result_disputed :
    ((lonely.after lonely.start outlastedCalls).raised.map (·.reason) = [.maxRoundsReached] ∧
      (lonely.after lonely.start outlastedCalls).host.gameOvers.map (·.reason) =
        [.allNodesCaptured] ∧ ¬ OneResult (lonely.after lonely.start outlastedCalls)) ∧
    (lonely.after lonely.start desertedCalls).raised.map (·.winner) = [some .b] ∧
      buildWinnerString (lonely.after lonely.start desertedCalls).host.room = some "Draw" ∧
      ¬ OneResult (lonely.after lonely.start desertedCalls) := by
  have houtlasted : (lonely.after lonely.start outlastedCalls).raised.map (·.reason) =
        [.maxRoundsReached] ∧
      (lonely.after lonely.start outlastedCalls).host.gameOvers.map (·.reason) =
        [.allNodesCaptured] := by
    decide +kernel
  have hdeserted : (lonely.after lonely.start desertedCalls).raised.map (·.winner) = [some .b] ∧
      buildWinnerString (lonely.after lonely.start desertedCalls).host.room = some "Draw" := by
    decide +kernel
  have hsound : (lonely.after lonely.start desertedCalls).Sound :=
    Machine.after_of_invariant (C := fun _ _ => True) (fun _ call ht _ => ht.next call)
      (trialSound_initial _ _ _ _) (Machine.steps_of_forall (fun _ _ => trivial) _ _)
  refine ⟨⟨houtlasted.1, houtlasted.2, fun hone => ?_⟩, hdeserted.1, hdeserted.2, fun hone => ?_⟩
  · have hreasons := congrArg (List.map Prod.snd) hone.told
    rw [List.map_map, List.map_map] at hreasons
    have hsame := houtlasted.2.symm.trans (hreasons.trans houtlasted.1)
    cases hsame
  · obtain ⟨e, he, hwinner⟩ :=
      List.mem_map.mp (hdeserted.1 ▸ List.mem_singleton_self (some PlayerSide.b))
    have hshown := ((oneResult_iff_winnerString hsound.hosting.room.sound).mp hone).2 e he
    rw [hdeserted.2, hwinner] at hshown
    exact absurd (Option.some.inj hshown) (by decide)

end HexWar
