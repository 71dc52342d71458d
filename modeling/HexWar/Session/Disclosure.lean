/-
  What a side learns of its opponent although it should not.

  An encounter decision is sent to the side that took it only, and no view shows it before both have
  decided.  But every event a room raises goes into the one buffer of the session, and a reconnecting
  side is sent everything in it that is new (`mem_replay`): the decision itself, and the retreat or
  the advance.  So two runs in which the opponent decides differently are told apart by a single
  `reconnectSync`, in every state in which both have still to decide (`decision_disclosed`).

  A reserved destination is secret until the round is resolved.  Then the RoundResolved that everyone
  is sent lists the moves that were executed, with their destinations, so two rounds that differ in
  a destination end in different messages, wherever the units are bound for (`travel_disclosed`).


  Both proofs find the one message in which two runs differ.
    1. what a reconnecting side is sent is what the buffer holds above its number, so the number of
       the last event before the decision picks out the decision's own events;
    2. a decision that is the first of two raises exactly two events, neither of which is sent to the
       other side (`heard_first_decision`): until the reconnection it knows nothing;
    3. a turn that resolves nothing keeps what was reserved (`PlansOn`), so the plans still differ
       when the round is resolved;
    4. the plans can be read off the summary of the round (`moves_of_summary`), with which what either
       side receives begins (`inbox_of_resolves`).
-/
import HexWar.Session.Course
import HexWar.Session.Secrecy

namespace HexWar

open Lib Lib.Action GameRoom

/-! ## The replay

HandleReconnectSyncAsync reads the buffer and sends a view; it changes nothing. -/

/-- A reconnecting side receives the replay, and then a view. -/
theorem inbox_reconnectSync (h : Host) (side : PlayerSide) (n : Int) :
    (h.next (.reconnectSync side n)).inbox.get side =
      h.inbox.get side ++ h.session.replay n ++ [h.shown side] := by
  rw [next_reconnectSync, Host.inbox_notify, if_pos rfl]
  refine congrArg (· ++ [h.shown side]) ?_
  exact PerSide.get_update_same h.inbox side (· ++ h.session.replay n)

/-- A reconnecting side tells two hosts apart that replay different events. -/
theorem apart_of_replay {h h' : Host} {side : PlayerSide} {n : Int} {m : Notice}
    (hinbox : h.inbox.get side = h'.inbox.get side) (hsent : m ∈ h.session.replay n)
    (hnot : m ∉ h'.session.replay n) :
    (h.next (.reconnectSync side n)).inbox.get side ≠
      (h'.next (.reconnectSync side n)).inbox.get side := by
  intro heq
  rw [inbox_reconnectSync, inbox_reconnectSync, hinbox, List.append_assoc, List.append_assoc] at heq
  have hreplay := (List.append_inj' (List.append_cancel_left heq) rfl).1
  exact hnot (hreplay ▸ hsent)

/-- Reconnecting leaves the room alone. -/
theorem room_reconnectSync (h : Host) (side : PlayerSide) (n : Int) :
    (h.next (.reconnectSync side n)).room = h.room := by
  rw [next_reconnectSync]
  rfl

/-- What is announced last is replayed to a side that has seen everything before. -/
theorem mem_replay_recordAll {s : GameSession} (hs : Numbered s) {es : List DomainEvent}
    (hlen : es.length ≤ GameSession.eventBufferSize) {e : DomainEvent} {k : Int} :
    Notice.message (.replayed e k) ∈ (s.recordAll es).replay s.eventSequence ↔
      ⟨k, e⟩ ∈ numberFrom s.eventSequence es := by
  rw [mem_replay]
  have hcap : (numberFrom s.eventSequence es).length ≤ s.eventBuffer.capacity := by
    rw [length_numberFrom, hs.size]
    exact hlen
  constructor
  · rintro ⟨hitem, hnew⟩
    -- What was recorded before has a number the side has seen.
    rcases List.mem_append.mp (CircularBuffer.mem_of_mem_items_addAll hitem) with hold | hlast
    · have hgiven : k ≤ s.eventSequence := hs.given _ hold
      omega
    · exact hlast
  · intro hlast
    exact ⟨CircularBuffer.mem_items_addAll hcap hlast, (mem_numberFrom hlast).1⟩

/-! ## A decision is disclosed

The event that carries a decision is meant for the side that took it.  It is kept in the buffer all
the same, and the buffer does not ask who reads. -/

/-- An encounter without a side's decision raises no event that it is resolved. -/
theorem resolvedEvent_undecided (room : GameRoom) {p : PendingEncounter} {side : PlayerSide}
    (hund : p.hasDecided side = false) : resolvedEvent room p = none := by
  have hnone : p.decision.get side = none := by
    rw [PendingEncounter.hasDecided] at hund
    exact Option.not_isSome_iff_eq_none.mp (by rw [hund]; decide)
  rw [resolvedEvent]
  cases side with
  | a =>
    have ha : p.decision.a = none := hnone
    rw [ha]
  | b =>
    have hb : p.decision.b = none := hnone
    rw [hb]
    -- Whatever the other side has decided, one decision is missing.
    cases p.decision.a <;> rfl

/-- The event that carries a decision. -/
def decisionMade (room : GameRoom) (p : PendingEncounter) (side : PlayerSide)
    (decision : EncounterDecision) : DomainEvent :=
  .encounterDecisionMade ⟨room.roomId, side, p.edgeId, decision, (p.groupOf side).unitCount,
    room.currentRound⟩

/-- The first of two decisions raises two events: what the units do, and the decision. -/
theorem events_first_decision {h : Host} (hh : Hosting h) (hphase : h.room.phase = .planning)
    {p : PendingEncounter} (hp : p ∈ h.room.pendingEncounters) {side : PlayerSide}
    (hund : p.hasDecided side = false) (hund' : p.hasDecided side.enemy = false)
    (decision : EncounterDecision) :
    (h.room.decideEncounter p.edgeId side.enemy decision).domainEvents =
      [h.room.decisionEvent p side.enemy decision, decisionMade h.room p side.enemy decision] := by
  obtain ⟨hfirst, hok⟩ := decidable_of_undecided hh.room hphase hp hund' decision
  obtain ⟨-, pending, e, hpending, -, he, -⟩ := decisionRefusal_none hok
  have hopen : (marked e p side.enemy decision).hasDecided side = false := by
    rw [marked, hasDecided_markDecided, if_neg (Ne.symm (PlayerSide.enemy_ne side)), hund]
  rw [decideEncounter_eq hfirst he, decideOn, resolvedEvent_undecided _ hopen]
  show h.room.domainEvents ++ _ ++ [] = _
  rw [hh.quiet]
  rfl

/-- Neither of them is sent to the side that has still to decide. -/
theorem heard_first_decision (room : GameRoom) (p : PendingEncounter) (side : PlayerSide)
    (decision : EncounterDecision) (currentRound n : Int) :
    heard side currentRound (numberFrom n
      [room.decisionEvent p side.enemy decision, decisionMade room p side.enemy decision]) = [] := by
  have hevent : sentTo side (room.decisionEvent p side.enemy decision) = false := by
    cases decision <;> rfl
  have hmade : sentTo side (decisionMade room p side.enemy decision) = false := by
    cases side <;> rfl
  rw [heard, numberFrom, numberFrom, numberFrom, List.filter_cons_of_neg (by simpa using hevent),
    List.filter_cons_of_neg (by simpa using hmade)]
  rfl

/-- The host after the opponent's decision, as far as `side` and the buffer are concerned. -/
theorem next_first_decision {h : Host} (hh : Hosting h) (hphase : h.room.phase = .planning)
    {p : PendingEncounter} (hp : p ∈ h.room.pendingEncounters) {side : PlayerSide}
    (hund : p.hasDecided side = false) (hund' : p.hasDecided side.enemy = false)
    (hconn : (h.session.playerStates.get side.enemy).isConnected = true)
    (decision : EncounterDecision) :
    (h.next (.encounterDecision side.enemy p.edgeId decision)).inbox.get side = h.inbox.get side ∧
      (h.next (.encounterDecision side.enemy p.edgeId decision)).room.currentRound =
        h.room.currentRound ∧
      ∃ s : GameSession, Numbered s ∧ s.eventSequence = h.session.eventSequence ∧
        SameEvents (s.recordAll [h.room.decisionEvent p side.enemy decision,
          decisionMade h.room p side.enemy decision])
          (h.next (.encounterDecision side.enemy p.edgeId decision)).session := by
  have hok := (decidable_of_undecided hh.room hphase hp hund' decision).2
  have hevents := events_first_decision hh hphase hp hund hund' decision
  have hne : side ≠ side.enemy := Ne.symm (PlayerSide.enemy_ne side)
  rw [next_encounterDecision, if_pos hconn, hok]
  refine ⟨?_, ?_, ?_⟩
  -- The answer goes to the side that has decided, and none of the events goes to the other.
  · rw [Host.inbox_notify, if_neg hne, List.append_nil]
    show (h.synced.decided side.enemy p.edgeId decision).inbox.get side = _
    rw [Host.decided, Host.flush_inbox]
    show h.inbox.get side ++ heard side _ (numberFrom h.session.eventSequence
      (h.room.decideEncounter p.edgeId side.enemy decision).domainEvents) = _
    rw [hevents, heard_first_decision, List.append_nil]
  · show (h.synced.decided side.enemy p.edgeId decision).room.currentRound = _
    rw [Host.decided, Host.flush_room]
    exact (decideEncounter_frame h.room p.edgeId side.enemy decision).currentRound
  · refine ⟨h.synced.session.updatePlayer side.enemy fun q => { q with encounterDecisionsCompleted :=
      ((h.room.decideEncounter p.edgeId side.enemy decision).getUndecidedEncounters
        side.enemy).isEmpty }, hh.numbered.of_same ⟨rfl, rfl, rfl, rfl, rfl⟩, rfl, ?_⟩
    rw [← hevents]
    show SameEvents _ (h.synced.decided side.enemy p.edgeId decision).session
    rw [Host.decided, Host.flush_session]
    exact ⟨rfl, rfl, rfl, rfl, rfl⟩

/-- What the side is replayed that has seen everything before the decision. -/
theorem mem_replay_first_decision {h : Host} (hh : Hosting h) (hphase : h.room.phase = .planning)
    {p : PendingEncounter} (hp : p ∈ h.room.pendingEncounters) {side : PlayerSide}
    (hund : p.hasDecided side = false) (hund' : p.hasDecided side.enemy = false)
    (hconn : (h.session.playerStates.get side.enemy).isConnected = true)
    (decision : EncounterDecision) {e : DomainEvent} {k : Int} :
    Notice.message (.replayed e k) ∈ (h.next (.encounterDecision side.enemy p.edgeId
        decision)).session.replay h.session.eventSequence ↔
      ⟨k, e⟩ ∈ numberFrom h.session.eventSequence
        [h.room.decisionEvent p side.enemy decision, decisionMade h.room p side.enemy decision] := by
  obtain ⟨-, -, s, hs, hseq, hsame⟩ := next_first_decision hh hphase hp hund hund' hconn decision
  have hnew := @mem_replay_recordAll s hs
    [h.room.decisionEvent p side.enemy decision, decisionMade h.room p side.enemy decision]
    (by show 2 ≤ 200; decide) e k
  rw [hseq] at hnew
  rw [mem_replay, hsame.1, ← mem_replay]
  exact hnew

section Runs

variable {roomId serverId : String} {hasEventPublisher : Bool} {planningTimeout : Time}

/-- A run of one call is one step, -/
theorem after_single (h : Host) (call : SessionCall) : lone.after h [call] = h.next call := rfl

/-- with the states before and after it. -/
theorem visited_single (h : Host) (call : SessionCall) :
    lone.visited h [call] = [h, h.next call] := rfl

/-- Is a call a decision of a side on an edge? -/
def SessionCall.decides (side : PlayerSide) (edgeId : EdgeId) : SessionCall → Bool
  | .encounterDecision side' edgeId' _ => side' = side ∧ edgeId' = edgeId
  | _ => false

/-- The opponent's decision on an edge is secret: whatever happens later, short of the side's own
    decision or a resolution, the side has received the same after an advance as after a retreat. -/
def DecisionSecret (side : PlayerSide) (edgeId : EdgeId) (h : Host) : Prop :=
  ∀ later : List SessionCall, (∀ call ∈ later, call.decides side edgeId = false) →
    (∀ decision, ∀ t ∈ lone.visited (h.next (.encounterDecision side.enemy edgeId decision)) later,
      t.room.currentRound = h.room.currentRound) →
    (lone.after (h.next (.encounterDecision side.enemy edgeId .advance)) later).inbox.get side =
      (lone.after (h.next (.encounterDecision side.enemy edgeId .retreat)) later).inbox.get side

/-- **No decision is secret**: in every planning state with an encounter that both sides have still
    to decide, a connected opponent's decision on it is disclosed. -/
theorem decision_disclosed {h : Host}
    (hreach : (hosts roomId serverId hasEventPublisher planningTimeout).Reachable h)
    (hphase : h.room.phase = .planning) {p : PendingEncounter}
    (hp : p ∈ h.room.pendingEncounters) {side : PlayerSide} (hund : p.hasDecided side = false)
    (hund' : p.hasDecided side.enemy = false)
    (hconn : (h.session.playerStates.get side.enemy).isConnected = true) :
    ¬ DecisionSecret side p.edgeId h := by
  intro hsecret
  have hh := hosting_of_reachable hreach
  have hafter := next_first_decision hh hphase hp hund hund' hconn
  have hreplay := fun decision e k =>
    @mem_replay_first_decision h hh hphase p hp side hund hund' hconn decision e k
  -- the side has seen everything before the decision, and reconnects
  have hlater : ∀ call ∈ [SessionCall.reconnectSync side h.session.eventSequence],
      call.decides side p.edgeId = false := by
    intro call hcall
    rw [List.mem_singleton.mp hcall]
    rfl
  have hround : ∀ decision, ∀ t ∈ lone.visited
      (h.next (.encounterDecision side.enemy p.edgeId decision))
      [.reconnectSync side h.session.eventSequence], t.room.currentRound = h.room.currentRound := by
    intro decision t ht
    rw [visited_single] at ht
    rcases List.mem_cons.mp ht with rfl | hlast
    · exact (hafter decision).2.1
    · rw [List.mem_singleton.mp hlast, room_reconnectSync]
      exact (hafter decision).2.1
  have heq := hsecret _ hlater hround
  rw [after_single, after_single] at heq
  refine apart_of_replay (m := .message (.replayed (decisionMade h.room p side.enemy .advance)
    (h.session.eventSequence + 1 + 1))) ?_ ?_ ?_ heq
  · rw [(hafter .advance).1, (hafter .retreat).1]
  · rw [hreplay]
    exact List.mem_cons_of_mem _ List.mem_cons_self
  · rw [hreplay]
    intro hmem
    rcases List.mem_cons.mp hmem with hfirst | hrest
    -- It cannot be the first event of the other run, which has another number;
    · have hnumber := congrArg BufferedEvent.sequenceNumber hfirst
      simp only at hnumber
      omega
    · rcases List.mem_cons.mp hrest with hsecond | hnil
      -- and the second one carries the other decision.
      · have hmade := DomainEvent.encounterDecisionMade.inj (congrArg BufferedEvent.event hsecond)
        have hdecision : EncounterDecision.advance = .retreat :=
          congrArg EncounterDecisionMade.decision hmade
        cases hdecision
      · cases hnil

end Runs

/-! ### Two sides that meet -/

/-- All units of both sides set out towards each other. -/
def headOnTurns : List SessionCall :=
  [.moveUnits .a ⟨⟨1⟩, ⟨5⟩, 3⟩, .checkAndResolveIfReady 30,
    .moveUnits .b ⟨⟨5⟩, ⟨1⟩, 3⟩,
    .checkAndResolveIfReady 40]

/-- The host at the start of the second round, with the two sides face to face. -/
def meetingHost : Host := lone.after openedHost headOnTurns

/-- The encounter they have to decide. -/
def headOnEncounter : PendingEncounter :=
  .new (EdgeId.of ⟨1⟩ ⟨5⟩) ⟨.a, 3, ⟨5⟩⟩ ⟨.b, 3, ⟨1⟩⟩ 1

/-- It is a state of a run. -/
theorem meetingHost_reachable : lone.Reachable meetingHost :=
  ⟨openingTurns ++ headOnTurns,
    ⟨trivial, trivial, trivial, trivial, trivial, trivial, trivial, trivial, trivial⟩,
    Machine.after_append _ _ _⟩

/-- Side A learns on reconnecting whether side B advanced or retreated. -/
theorem decision_disclosed_headOn :
    ¬ DecisionSecret .a headOnEncounter.edgeId meetingHost := by
  refine @decision_disclosed _ _ _ _ meetingHost meetingHost_reachable ?_ headOnEncounter ?_ .a ?_ ?_ ?_
  · decide +kernel
  · decide +kernel
  · decide
  · decide
  · decide +kernel

/-- The same state, seen to break the secrecy by running it: the encounter is pending, neither side
    has decided, and the inboxes differ once side A has reconnected. -/
theorem decision_leaks_headOn :
    lone.Reachable meetingHost ∧ meetingHost.room.phase = .planning ∧
      headOnEncounter ∈ meetingHost.room.pendingEncounters ∧
      headOnEncounter.hasDecided .a = false ∧ headOnEncounter.hasDecided .b = false ∧
      ¬ DecisionSecret .a headOnEncounter.edgeId meetingHost := by
  refine ⟨meetingHost_reachable, ?_, ?_, ?_, ?_, fun hsecret => ?_⟩
  · decide +kernel
  · decide +kernel
  · decide
  · decide
  · have hround : ∀ decision, ∀ t ∈ lone.visited
        (meetingHost.next (.encounterDecision .b headOnEncounter.edgeId decision))
        [.reconnectSync .a 3], t.room.currentRound = meetingHost.room.currentRound := by
      intro decision
      cases decision with
      | advance => decide +kernel
      | retreat => decide +kernel
    have heq := hsecret [.reconnectSync .a 3] (by decide) hround
    have hne : (lone.after (meetingHost.next (.encounterDecision .b headOnEncounter.edgeId .advance))
          [.reconnectSync .a 3]).inbox.get .a ≠
        (lone.after (meetingHost.next (.encounterDecision .b headOnEncounter.edgeId .retreat))
          [.reconnectSync .a 3]).inbox.get .a := by
      decide +kernel
    exact hne heq

/-! ## A destination is disclosed by the resolution

MoveExecutions lists every executed move as it was reserved, from where and to where. -/

/-- What a turn that resolves nothing leaves: every plan, perhaps with more moves behind it, and the
    round, but for the turn in which the second player joins. -/
structure PlansOn (h h' : Host) : Prop where
  moves : ∀ t, h.room.pendingMoves.get t <+: h'.room.pendingMoves.get t
  round : h'.room.currentRound = h.room.currentRound ∨ h.room.playerCount < 2

/-- A turn that leaves plans and round as they are. -/
theorem PlansOn.of_same {h h' : Host} (hmoves : h'.room.pendingMoves = h.room.pendingMoves)
    (hround : h'.room.currentRound = h.room.currentRound) : PlansOn h h' where
  moves t := ⟨[], (List.append_nil _).trans (congrArg (·.get t) hmoves.symm)⟩
  round := Or.inl hround

/-- Every turn but a resolution goes on with the plans there are. -/
theorem plansOn_next {h : Host} (hh : Hosting h) {call : SessionCall}
    (hno : ∀ room now, ¬ Resolves h call room now) : PlansOn h (h.next call) := by
  have hlook : call.mayResolve = true → PlansOn h (h.next call) := by
    intro hmay
    rw [next_of_not_resolves hmay hno]
    exact .of_same rfl rfl
  -- The calls that may resolve have been dealt with; the others one by one.
  cases call with
  | checkAndResolveIfReady now => exact hlook rfl
  | planningTimeout forRound now => exact hlook rfl
  | backupPlanningTimeout forRound now => exact hlook rfl
  | addPlayer playerId now =>
    -- The second join starts the first round; it reserves nothing.
    rw [next_addPlayer_host hh.room.sound.map]
    rcases hr : h.room.joinRefusal playerId with _ | e
    · refine ⟨fun t => ?_, Or.inr (joinRefusal_none hr)⟩
      have hkeep : (h.synced.welcomed playerId now).room.pendingMoves = h.room.pendingMoves := by
        rw [Host.welcomed, Host.flush_room]
        exact (joined_frame h.room playerId _).moves
      show h.room.pendingMoves.get t <+: (h.synced.welcomed playerId now).room.pendingMoves.get t
      exact ⟨[], (List.append_nil _).trans (congrArg (·.get t) hkeep.symm)⟩
    · exact .of_same rfl rfl
  | onPlayerConnected side now =>
    rw [next_onPlayerConnected]
    exact .of_same rfl rfl
  | onPlayerDisconnected side => exact .of_same rfl rfl
  | forceGameOver =>
    have hroom : ∀ winner, (h.synced.abandoned winner).synced.room =
        { h.room.forced (some winner) .playerDisconnected with domainEvents := [] } :=
      fun winner => Host.flush_room _
    rw [next_forceGameOver_host]
    split
    · exact .of_same rfl rfl
    split
    · exact .of_same rfl rfl
    · exact .of_same (by rw [hroom]; rfl) (by rw [hroom]; rfl)
  | moveUnits side command =>
    rw [next_moveUnits_host]
    split
    · split
      · exact .of_same rfl rfl
      · have hroom : (h.synced.moved side command).room =
            { h.room.reserve side (h.room.adjusted side command) with domainEvents := [] } :=
          Host.flush_room _
        have hround : (h.synced.moved side command).room.currentRound = h.room.currentRound := by
          rw [hroom]
          rfl
        -- An accepted move is added at the end of its side's plan, and the other side's stays as it
        -- is.
        refine ⟨fun t => ?_, Or.inl hround⟩
        show _ <+: (h.synced.moved side command).room.pendingMoves.get t
        rw [hroom]
        show _ <+: (h.room.pendingMoves.update side _).get t
        rcases em (t = side) with rfl | hne
        · rw [PerSide.get_update_same]
          exact List.prefix_append _ _
        · exact ⟨[], (List.append_nil _).trans (PerSide.get_update_of_ne _ hne _).symm⟩
    · exact .of_same rfl rfl
  | encounterDecision side edgeId decision =>
    rw [next_encounterDecision]
    split
    · split
      · exact .of_same rfl rfl
      · have hroom : (h.synced.decided side edgeId decision).room =
            { h.room.decideEncounter edgeId side decision with domainEvents := [] } :=
          Host.flush_room _
        have hframe := decideEncounter_frame h.room edgeId side decision
        exact .of_same ((congrArg GameRoom.pendingMoves hroom).trans hframe.moves)
          ((congrArg GameRoom.currentRound hroom).trans hframe.currentRound)
    · exact .of_same rfl rfl
  | getGameState side =>
    rw [next_getGameState]
    exact .of_same rfl rfl
  | reconnectSync side lastSeenSequence =>
    rw [next_reconnectSync]
    exact .of_same rfl rfl

/-- Once a move is reserved, a turn that resolves nothing is in the same round. -/
theorem round_of_planned {h : Host} (hh : Hosting h) {side : PlayerSide}
    (hplan : h.room.pendingMoves.get side ≠ []) {call : SessionCall}
    (hno : ∀ room now, ¬ Resolves h call room now) :
    (h.next call).room.currentRound = h.room.currentRound := by
  rcases (plansOn_next hh hno).round with hround | hcount
  · exact hround
  -- A room that still waits for a player has no plans.
  · have hmoves := (hh.room.sound.waiting hcount).moves
    rw [hmoves, PerSide.get_both] at hplan
    exact absurd rfl hplan

/-! ### What a resolution tells -/

/-- The plans of both sides can be read off the executed moves. -/
theorem moves_of_reservedMoves (room : GameRoom) (t : PlayerSide) :
    (room.reservedMoves.filter (·.1 = t)).map (·.2) = room.pendingMoves.get t := by
  have hside : ∀ (s : PlayerSide) (ms : List PendingMove),
      ((ms.map fun m => (s, m)).filter (·.1 = t)).map (·.2) = if s = t then ms else [] := by
    intro s ms
    induction ms with
    | nil => simp
    | cons m ms ih =>
      by_cases hst : s = t
      · rw [if_pos hst] at ih ⊢
        rw [List.map_cons, List.filter_cons_of_pos (by simpa using hst), List.map_cons, ih]
      · rw [if_neg hst] at ih ⊢
        rw [List.map_cons, List.filter_cons_of_neg (by simpa using hst), ih]
  rw [reservedMoves, List.filter_append, List.map_append, hside, hside]
  cases t with
  | a => exact List.append_nil _
  | b => rfl

/-- An executed move is recorded with everything it was reserved with. -/
theorem moveRecord_injective : Function.Injective moveRecord := by
  rintro ⟨s, m⟩ ⟨s', m'⟩ heq
  cases m
  cases m'
  cases heq
  rfl

/-- Equal summaries come from equal plans. -/
theorem moves_of_summary {room room' : GameRoom}
    (heq : sourceOrder.summary room = sourceOrder.summary room') (t : PlayerSide) :
    room.pendingMoves.get t = room'.pendingMoves.get t := by
  have hrecords : room.reservedMoves.map moveRecord = room'.reservedMoves.map moveRecord :=
    congrArg RoundResolved.moveExecutions heq
  have hmoves := List.map_injective_iff.mpr moveRecord_injective hrecords
  rw [← moves_of_reservedMoves, ← moves_of_reservedMoves, hmoves]

/-- Each side receives what it is meant to get of a resolution. -/
theorem inbox_advanced (h : Host) (result : RoundResolutionResult) (room : GameRoom)
    (now later : Time) (side : PlayerSide) :
    (h.advanced result room now later).inbox.get side = h.inbox.get side ++
      heard side room.currentRound (numberFrom h.session.eventSequence room.domainEvents) :=
  Host.flush_inbox _ side

/-- What a side receives in a resolution begins with the summary. -/
theorem inbox_resolvedRound (h : Host) (now later : Time) (side : PlayerSide) : ∃ rest,
    (h.resolvedRound now later).inbox.get side = h.inbox.get side ++
      (.message (.fromDomainEvent (.roundResolved (sourceOrder.summary h.room))
        (h.room.currentRound + 1) (h.session.eventSequence + 1)) :: rest) := by
  have hround := (resolved_frame sourceOrder h.room (now + h.session.planningTimeout)).currentRound
  rw [Host.resolvedRound, inbox_advanced, events_resolved, hround, numberFrom, heard_cons]
  exact ⟨_, rfl⟩

/-- A resolving turn takes the plans as they are. -/
theorem resolves_frame {h : Host} {call : SessionCall} {room : GameRoom} {now : Time}
    (hres : Resolves h call room now) :
    room.pendingMoves = h.room.pendingMoves ∧ room.currentRound = h.room.currentRound := by
  cases hres with
  | ready _ _ => exact ⟨rfl, rfl⟩
  | timeout _ _ => exact ⟨(timedOut_frame _).moves, (timedOut_frame _).currentRound⟩
  | backup _ _ => exact ⟨(timedOut_frame _).moves, (timedOut_frame _).currentRound⟩

/-- Neither of two hosts that look the same is the first one. -/
theorem LooksSame.symm {side : PlayerSide} {h h' : Host} (hl : LooksSame side h h') :
    LooksSame side h' h := by
  obtain ⟨moves, inbox, published, gameOvers, rfl, hm, hi⟩ := hl.eq
  exact ⟨rfl, rfl, ⟨hm.own.symm, hm.opponent.symm⟩, hi.symm⟩

/-- What a side receives in a resolving turn begins with the summary. -/
theorem inbox_of_resolves {h : Host} (hh : Hosting h) {call : SessionCall} {room : GameRoom}
    {now : Time} (hres : Resolves h call room now) (side : PlayerSide) : ∃ rest,
    (h.next call).inbox.get side = h.inbox.get side ++
      (.message (.fromDomainEvent (.roundResolved (sourceOrder.summary room))
        (room.currentRound + 1) (h.session.eventSequence + 1)) :: rest) := by
  obtain ⟨rest, hinbox⟩ := inbox_resolvedRound { h.synced with room := room } now now side
  refine ⟨rest, ?_⟩
  rw [(next_of_resolves hh.room hres).1, Host.inbox_synced, hinbox]
  rfl

/-- A summary can be read off its message. -/
theorem summary_of_message {e e' : RoundResolved} {n n' k k' : Int}
    (h : Notice.message (.fromDomainEvent (.roundResolved e) n k) =
      .message (.fromDomainEvent (.roundResolved e') n' k')) : e = e' :=
  DomainEvent.roundResolved.inj
    (Payload.domainEvent.inj (congrArg ServerMessage.payload (Notice.message.inj h)))

/-- **A resolution tells hosts apart that looked the same**, when the plans differ. -/
theorem apart_of_resolves {side t : PlayerSide} {h h' : Host} (hh : Hosting h) (hh' : Hosting h')
    (hl : LooksSame side h h')
    (hdiff : h.room.pendingMoves.get t ≠ h'.room.pendingMoves.get t) {call : SessionCall}
    {room : GameRoom} {now : Time} (hres : Resolves h call room now) :
    (h.next call).inbox.get side ≠ (h'.next call).inbox.get side := by
  -- The same call resolves the round on the other host too.
  obtain ⟨room', hres'⟩ := hl.symm.resolves hres
  obtain ⟨rest, hinbox⟩ := inbox_of_resolves hh hres side
  obtain ⟨rest', hinbox'⟩ := inbox_of_resolves hh' hres' side
  intro heq
  rw [hinbox, hinbox', hl.inbox] at heq
  have hfirst := (List.cons.inj (List.append_cancel_left heq)).1
  have hsummary := summary_of_message hfirst
  have hplans := moves_of_summary hsummary t
  rw [(resolves_frame hres).1, (resolves_frame hres').1] at hplans
  exact hdiff hplans

section Runs

variable {roomId serverId : String} {hasEventPublisher : Bool} {planningTimeout : Time}

/-- The same turns, none of them a resolution: the hosts look the same and the plans only grow. -/
theorem looksSame_after {side : PlayerSide} {calls : List SessionCall} {h h' : Host}
    (hh : Hosting h) (hh' : Hosting h') (hl : LooksSame side h h')
    (hround : ∀ t ∈ lone.visited h calls, t.room.currentRound = h.room.currentRound) :
    (Hosting (lone.after h calls) ∧ Hosting (lone.after h' calls) ∧
      LooksSame side (lone.after h calls) (lone.after h' calls)) ∧
    ∀ t, h.room.pendingMoves.get t <+: (lone.after h calls).room.pendingMoves.get t ∧
      h'.room.pendingMoves.get t <+: (lone.after h' calls).room.pendingMoves.get t := by
  induction calls generalizing h h' with
  | nil => exact ⟨⟨hh, hh', hl⟩, fun t => ⟨List.prefix_refl _, List.prefix_refl _⟩⟩
  | cons call calls ih =>
    have hnext : (h.next call).room.currentRound = h.room.currentRound :=
      hround _ (List.mem_cons_of_mem _ (Machine.self_mem_visited _ _))
    -- A resolution would have counted the round on.
    have hno : ∀ room now, ¬ Resolves h call room now := by
      intro room now hres
      have hcount := currentRound_of_resolves hh.room hres
      omega
    have hno' : ∀ room now, ¬ Resolves h' call room now := by
      intro room now hres
      obtain ⟨room', hres'⟩ := hl.resolves hres
      exact hno room' now hres'
    obtain ⟨hlast, hgrow⟩ := ih (hh.next call) (hh'.next call)
      (hl.next_same hh.room.sound.map hh'.room.sound.map hno)
      fun t ht => (hround t (List.mem_cons_of_mem _ ht)).trans hnext.symm
    exact ⟨hlast, fun t => ⟨((plansOn_next hh hno).moves t).trans (hgrow t).1,
      ((plansOn_next hh' hno').moves t).trans (hgrow t).2⟩⟩

/-- The plan of a side after an accepted move. -/
theorem pendingMoves_accepted {h : Host} {side : PlayerSide} {command : MoveCommand}
    (hacc : h.accepts (.moveUnits side command) = true) :
    (h.next (.moveUnits side command)).room.pendingMoves.get side = h.room.pendingMoves.get side ++
      [h.room.grantedMove side (h.room.adjusted side command)] := by
  obtain ⟨hconn, hr⟩ := accepts_moveUnits hacc
  rw [next_moveUnits_host, if_pos hconn, hr]
  show (h.synced.moved side command).room.pendingMoves.get side = _
  rw [Host.moved, Host.flush_room]
  exact PerSide.get_update_same _ _ _

/-- **A destination is disclosed by the resolution of its round.**  Two runs from one state that
    differ in the destination of one accepted move of the opponent, and go on alike up to the
    resolution of the round, leave a side with different messages: whatever the distance of the two
    edges, and whether or not the units meet anyone on the way. -/
theorem travel_disclosed {side : PlayerSide} {h : Host}
    (hreach : (hosts roomId serverId hasEventPublisher planningTimeout).Reachable h)
    {fromNode toNode toNode' : NodeId} {count : Int} (hne : toNode ≠ toNode')
    (hacc : h.accepts (.moveUnits side.enemy ⟨fromNode, toNode, count⟩) = true)
    (hacc' : h.accepts (.moveUnits side.enemy ⟨fromNode, toNode', count⟩) = true)
    {calls : List SessionCall} {last : SessionCall}
    (hround : ∀ t ∈ lone.visited (h.next (.moveUnits side.enemy ⟨fromNode, toNode, count⟩)) calls,
      t.room.currentRound = h.room.currentRound)
    (hlast : (lone.after h (.moveUnits side.enemy ⟨fromNode, toNode, count⟩ ::
      (calls ++ [last]))).room.currentRound = h.room.currentRound + 1) :
    (lone.after h (.moveUnits side.enemy ⟨fromNode, toNode, count⟩ ::
        (calls ++ [last]))).inbox.get side ≠
      (lone.after h (.moveUnits side.enemy ⟨fromNode, toNode', count⟩ ::
        (calls ++ [last]))).inbox.get side := by
  have hh := hosting_of_reachable hreach
  have hplan := pendingMoves_accepted hacc
  have hplan' := pendingMoves_accepted hacc'
  have hstep : LooksSame side (h.next (.moveUnits side.enemy ⟨fromNode, toNode, count⟩))
      (h.next (.moveUnits side.enemy ⟨fromNode, toNode', count⟩)) :=
    (LooksSame.refl side h).next hh.room hh.room (.move fromNode toNode toNode' count)
      (fun _ => hacc) (fun _ => hacc') (hround _ (Machine.self_mem_visited _ _))
  have hfirst := hround _ (Machine.self_mem_visited _ _)
  have hround' := fun t ht => (hround t ht).trans hfirst.symm
  obtain ⟨⟨hhosting, hhosting', hl⟩, hgrow⟩ :=
    looksSame_after (hh.next _) (hh.next _) hstep hround'
  have hrun : ∀ c : SessionCall, lone.after h (c :: (calls ++ [last])) =
      (lone.after (h.next c) calls).next last :=
    fun c => Machine.after_append (M := lone) (h.next c) calls [last]
  have hcount := hround _ (Machine.mem_visited_iff.mpr ⟨calls, [], (List.append_nil _).symm, rfl⟩)
  rw [hrun] at hlast
  rw [hrun, hrun]
  generalize lone.after (h.next (.moveUnits side.enemy ⟨fromNode, toNode, count⟩)) calls = t at *
  generalize lone.after (h.next (.moveUnits side.enemy ⟨fromNode, toNode', count⟩)) calls = t' at *
  have hprefix := (hgrow side.enemy).1
  have hprefix' := (hgrow side.enemy).2
  rw [hplan] at hprefix
  rw [hplan'] at hprefix'
  -- The opponent's plan begins with the move in question, so it is not empty,
  have hplanned : t.room.pendingMoves.get side.enemy ≠ [] := by
    intro hnil
    rw [hnil] at hprefix
    exact List.append_ne_nil_of_right_ne_nil _ (List.cons_ne_nil _ _) (List.prefix_nil.mp hprefix)
  -- and differs from the other run's in that move.
  have hdiff : t.room.pendingMoves.get side.enemy ≠ t'.room.pendingMoves.get side.enemy := by
    intro heq
    rw [← heq] at hprefix'
    have hshort := List.prefix_of_prefix_length_le hprefix hprefix' (by simp)
    have hmoves := List.append_cancel_left (hshort.eq_of_length (by simp))
    exact hne (congrArg PendingMove.toNode (List.cons.inj hmoves).1)
  -- The last call has counted the round on, so it is the resolution.
  rcases em (∃ room now, Resolves t last room now) with ⟨room, now, hres⟩ | hno
  · exact apart_of_resolves hhosting hhosting' hl hdiff hres
  · have hsame := round_of_planned hhosting hplanned fun room now hres => hno ⟨room, now, hres⟩
    omega

end Runs

/-! ### Two units under way -/

/-- Side A sends two units from its outpost, and the planning time runs out. -/
def flankTurns (toNode : NodeId) : List SessionCall :=
  .moveUnits .a ⟨⟨1⟩, toNode, 2⟩ :: ([.checkAndResolveIfReady 30] ++ [.planningTimeout 1 30020])

/-- The messages of side B differ with the node side A has sent its units to. -/
theorem travel_disclosed_flank :
    (lone.after openedHost (flankTurns ⟨4⟩)).inbox.get .b ≠
      (lone.after openedHost (flankTurns ⟨5⟩)).inbox.get .b := by
  refine @travel_disclosed _ _ _ _ .b openedHost openedHost_reachable ⟨1⟩ ⟨4⟩ ⟨5⟩ 2 ?_ ?_ ?_
    [.checkAndResolveIfReady 30] (.planningTimeout 1 30020) ?_ ?_
  · decide
  · decide +kernel
  · decide +kernel
  · decide +kernel
  · decide +kernel

/-- The same two runs, looked at: both edges take two rounds, both moves are accepted, the round is
    resolved in both, nobody meets, the units are still on their way, and side B has received
    different messages. -/
theorem travel_leaks_flank :
    (∀ toNode ∈ [NodeId.mk 4, ⟨5⟩],
      (openedHost.room.edges.get? (EdgeId.of ⟨1⟩ toNode)).map (·.distance.roundsRequired) = some 2 ∧
        openedHost.accepts (.moveUnits .a ⟨⟨1⟩, toNode, 2⟩) = true ∧
        (lone.after openedHost (flankTurns toNode)).room.currentRound =
          openedHost.room.currentRound + 1 ∧
        (lone.after openedHost (flankTurns toNode)).room.pendingEncounters = [] ∧
        ((lone.after openedHost (flankTurns toNode)).room.edges.get? (EdgeId.of ⟨1⟩ toNode)).map
          (·.bucket 1) = some [⟨.a, 2, toNode⟩]) ∧
      (lone.after openedHost (flankTurns ⟨4⟩)).inbox.get .b ≠
        (lone.after openedHost (flankTurns ⟨5⟩)).inbox.get .b := by
  refine ⟨?_, ?_⟩
  · decide +kernel
  · decide +kernel

end HexWar
