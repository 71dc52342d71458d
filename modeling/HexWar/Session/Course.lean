/-
  The events that mark the course of a game: its start, the end and the start of each round, and its
  end.

  What a turn raises follows from what it does to the room (`Does`).  A resolution raises exactly two
  events, the end of its round and then the start of the next one or the end of the game
  (`events_resolved`); the second player's joining and a forced end raise one; moves and decisions
  raise none of these.  What a turn has raised is what stands in the buffer after the old counter
  (`getEventsAfter_of_announces`).


  These are the events that the other servers act on, and the ones that a client needs to know where
  the game stands.
-/
import HexWar.Session.Hosts

namespace HexWar

open Lib Lib.Action GameRoom

/-! ## The events

Every event is a mark of the course or minor, by its kind alone. -/

/-- An event of a game that goes on. -/
def DomainEvent.goesOn : DomainEvent → Bool
  | .gameStarted _ | .roundStarted _ | .roundResolved _ => true
  | .gameOver _ | .unitsDeparted _ | .unitsRetreated _ | .unitsAdvanced _ | .encounterOccurred _
  | .encounterDecisionMade _ | .encounterResolved _ => false

/-- The round that an event ends. -/
def DomainEvent.completedRound : DomainEvent → Option Int
  | .roundResolved e => some e.completedRound
  | _ => none

/-- The round that an event opens on the other servers. -/
def DomainEvent.opensRound : DomainEvent → Option Int
  | .roundResolved e => some (e.completedRound + 1)
  | .roundStarted e => some e.roundNumber
  | .gameStarted _ => some 1
  | _ => none

/-- The end of the game that an event is. -/
def DomainEvent.asGameOver : DomainEvent → Option GameOver
  | .gameOver e => some e
  | _ => none

/-- An event that does not mark the course of the game. -/
def DomainEvent.isMinor (e : DomainEvent) : Bool := !e.goesOn && e.asGameOver.isNone

/-- The rounds that a list of events ends. -/
def completedRounds (es : List DomainEvent) : List Int := es.filterMap (·.completedRound)

/-- The ends of the game among a list of events. -/
def verdicts (es : List DomainEvent) : List GameOver := es.filterMap (·.asGameOver)

/-- Minor events end no round, -/
theorem completedRounds_minor {es : List DomainEvent} (h : ∀ e ∈ es, e.isMinor = true) :
    completedRounds es = [] := by
  refine List.filterMap_eq_nil_iff.mpr fun e he => ?_
  have hminor := h e he
  cases e with
  | roundResolved e => cases hminor
  | gameStarted _ | roundStarted _ | gameOver _ | unitsDeparted _ | unitsRetreated _
  | unitsAdvanced _ | encounterOccurred _ | encounterDecisionMade _ | encounterResolved _ => rfl

/-- end no game, -/
theorem verdicts_minor {es : List DomainEvent} (h : ∀ e ∈ es, e.isMinor = true) :
    verdicts es = [] := by
  refine List.filterMap_eq_nil_iff.mpr fun e he => ?_
  have hminor := h e he
  cases e with
  | gameOver e => cases hminor
  | gameStarted _ | roundStarted _ | roundResolved _ | unitsDeparted _ | unitsRetreated _
  | unitsAdvanced _ | encounterOccurred _ | encounterDecisionMade _ | encounterResolved _ => rfl

/-- and open no round. -/
theorem minor_opensRound {e : DomainEvent} (h : e.isMinor = true) : e.opensRound = none := by
  cases e with
  | gameStarted _ | roundStarted _ | roundResolved _ => cases h
  | gameOver _ | unitsDeparted _ | unitsRetreated _ | unitsAdvanced _ | encounterOccurred _
  | encounterDecisionMade _ | encounterResolved _ => rfl

/-! ## What the operations raise

For each case of `Does` the events of the room afterwards; the room had none before. -/

variable {room : GameRoom}

/-- A move raises a departure, and nothing else. -/
theorem events_reserve (hquiet : room.domainEvents = []) (side : PlayerSide)
    (command : MoveCommand) :
    (room.reserve side command).domainEvents = [.unitsDeparted
      ⟨room.roomId, side, command.fromNode, room.granted side command, room.currentRound⟩] := by
  show room.domainEvents ++ [_] = _
  rw [hquiet]
  rfl

/-- A decision raises three events at most, and none that marks the course of the game. -/
theorem events_decideEncounter_minor (hquiet : room.domainEvents = []) (edgeId : EdgeId)
    (side : PlayerSide) (decision : EncounterDecision) :
    (∀ e ∈ (room.decideEncounter edgeId side decision).domainEvents, e.isMinor = true) ∧
      (room.decideEncounter edgeId side decision).domainEvents.length ≤ 3 := by
  rw [decideEncounter]
  split
  · rename_i pending edge _ _
    have hresolved : ∀ e ∈ (resolvedEvent room (marked edge pending side decision)).toList,
        e.isMinor = true := by
      intro e he
      rw [resolvedEvent] at he
      split at he
      · rw [List.mem_singleton.mp he]
        rfl
      · cases he
    have hlength : (resolvedEvent room (marked edge pending side decision)).toList.length ≤ 1 := by
      cases resolvedEvent room (marked edge pending side decision) <;> simp
    unfold decideOn
    rw [hquiet]
    constructor
    · intro e he
      rcases List.mem_append.mp he with hown | hboth
      · rcases List.mem_cons.mp hown with rfl | hmade
        · cases decision <;> rfl
        · rw [List.mem_singleton.mp hmade]
          rfl
      · exact hresolved e hboth
    · rw [List.length_append]
      show 2 + _ ≤ 3
      omega
  · rw [hquiet]
    exact ⟨fun _ he => absurd he List.not_mem_nil, Nat.zero_le _⟩

/-- A forced end raises the end of the game. -/
theorem events_forced (hquiet : room.domainEvents = []) (winner : Option PlayerSide)
    (reason : GameOverReason) : (room.forced winner reason).domainEvents =
      [.gameOver ⟨room.roomId, winner, reason, room.currentRound, room.scores⟩] := by
  show room.domainEvents ++ [_] = _
  rw [hquiet]
  rfl

/-- The event of the room's first planning phase, if the player completes the room. -/
theorem events_joined_eq (hquiet : room.domainEvents = []) (playerId : PlayerId)
    (deadline : Time) : (room.joined playerId deadline).domainEvents = [] ∨
      ∃ playerA playerB, (room.joined playerId deadline).domainEvents =
        [.gameStarted ⟨room.roomId, playerA, playerB, 1, deadline⟩] := by
  have hseated : (room.seated playerId).domainEvents = [] := hquiet
  rw [joined, started]
  split
  · rename_i playerA playerB _ _
    refine .inr ⟨playerA, playerB, ?_⟩
    show (room.seated playerId).domainEvents ++ [_] = _
    rw [hseated]
    rfl
  · exact .inl hseated

/-- A resolution ends the round it resolves, and no other. -/
theorem completedRounds_resolved (room : GameRoom) (deadline : Time) :
    completedRounds (sourceOrder.resolved room deadline).domainEvents = [room.currentRound] := by
  rw [events_resolved]
  rcases following_cases sourceOrder room deadline with ⟨e, he⟩ | ⟨e, he⟩
  · rw [he]
    rfl
  · rw [he]
    rfl

/-- The end of the game, if the resolution brings it. -/
theorem verdicts_resolved (room : GameRoom) (deadline : Time) :
    verdicts (sourceOrder.resolved room deadline).domainEvents =
      (sourceOrder.following room deadline).asGameOver.toList := by
  rw [events_resolved, verdicts, List.filterMap_cons_none rfl]
  cases h : (sourceOrder.following room deadline).asGameOver with
  | none =>
    rw [List.filterMap_cons_none h]
    rfl
  | some e =>
    rw [List.filterMap_cons_some h]
    rfl

/-- The default decisions touch neither the clock of the room nor its players. -/
theorem resolves_round {h : Host} {call : SessionCall} {room : GameRoom} {now : Time}
    (hres : Resolves h call room now) :
    room.phase = h.room.phase ∧ room.currentRound = h.room.currentRound ∧
      room.maxRounds = h.room.maxRounds ∧ room.players = h.room.players := by
  cases hres with
  | ready _ _ => exact ⟨rfl, rfl, rfl, rfl⟩
  | timeout _ _ =>
    have hframe := timedOut_frame h.room
    exact ⟨hframe.phase, hframe.currentRound, hframe.maxRounds, hframe.players⟩
  | backup _ _ =>
    have hframe := timedOut_frame { h.room with ownerServerId := some h.session.serverId }
    exact ⟨hframe.phase, hframe.currentRound, hframe.maxRounds, hframe.players⟩

/-- The number of rounds of a game never changes. -/
theorem does_maxRounds {h : Host} {call : SessionCall} {room : GameRoom}
    (hdoes : Does h call room) : room.maxRounds = h.room.maxRounds := by
  cases hdoes with
  | join hr => exact (joined_frame _ _ _).maxRounds
  | move hconn hr => rfl
  | decide hconn hr => exact (decideEncounter_frame _ _ _ _).maxRounds
  | resolve hres => exact (resolved_frame _ _ _).maxRounds.trans (resolves_round hres).2.2.1
  | abandon hphase hwinner => rfl

/-- No turn raises more than three events. -/
theorem length_events_le {h : Host} (hquiet : h.room.domainEvents = []) {call : SessionCall}
    {room : GameRoom} (hdoes : Does h call room) : room.domainEvents.length ≤ 3 := by
  cases hdoes with
  | @join playerId now hr =>
    rcases events_joined_eq hquiet playerId (now + h.session.planningTimeout) with hnone | ⟨_, _, hone⟩
    · rw [hnone]
      exact Nat.zero_le _
    · rw [hone]
      simp
  | move hconn hr =>
    rw [events_reserve hquiet]
    simp
  | decide hconn hr => exact (events_decideEncounter_minor hquiet _ _ _).2
  | resolve hres =>
    rw [events_resolved]
    simp
  | abandon hphase hwinner =>
    rw [events_forced hquiet]
    simp

/-- What was announced last is what stands in the buffer after the old counter. -/
theorem getEventsAfter_of_announces {es : List DomainEvent} {h h' : Host}
    (hn : Numbered h.session) (ha : Announces es h h') (hlen : es.length ≤ GameSession.eventBufferSize) :
    h'.session.getEventsAfter h.session.eventSequence = numberFrom h.session.eventSequence es := by
  let n := h.session.eventSequence
  have hlength : (numberFrom n es).length = es.length := length_numberFrom n es
  -- The buffer has what it had, and the new events behind it; the oldest may have gone.
  have hitems : h'.session.eventBuffer.items =
      (h.session.eventBuffer.items ++ numberFrom n es).rtake GameSession.eventBufferSize := by
    rw [ha.buffer, CircularBuffer.items_addAll, hn.size]
  have hold : ∀ bs : List BufferedEvent, (∀ b ∈ bs, b ∈ h.session.eventBuffer.items) →
      bs.filter (fun b => b.sequenceNumber > n) = [] := by
    intro bs hbs
    refine List.filter_eq_nil_iff.mpr fun b hb => ?_
    have hgiven := hn.given b (hbs b hb)
    rw [decide_eq_true_eq]
    exact Int.not_lt.mpr hgiven
  have hnew : (numberFrom n es).filter (fun b => b.sequenceNumber > n) = numberFrom n es :=
    List.filter_eq_self.mpr fun b hb => decide_eq_true (mem_numberFrom hb).1
  have hfilter : h'.session.eventBuffer.where_ (fun b => b.sequenceNumber > n) =
      numberFrom n es := by
    rw [CircularBuffer.where_, hitems, List.rtake, List.drop_append, List.length_append]
    have hnone : h.session.eventBuffer.items.length + (numberFrom n es).length -
        GameSession.eventBufferSize - h.session.eventBuffer.items.length = 0 := by
      omega
    rw [hnone, List.drop_zero, List.filter_append, hnew,
      hold _ fun b hb => List.mem_of_mem_drop hb, List.nil_append]
  rw [GameSession.getEventsAfter]
  show (h'.session.eventBuffer.where_ fun b => b.sequenceNumber > n).insertionSort _ = _
  rw [hfilter]
  exact List.Pairwise.insertionSort_eq ((numberFrom_pairwise n es).imp fun hlt => Int.le_of_lt hlt)

end HexWar
