/-
  What a session does with the events the room has raised.

  `Host.flush` is publishAndBroadcastEvents as a function.  It takes the events out of the room and
  touches nothing else of it (`flush_room`); it numbers the events from the session's counter on
  (`flush_session`, `flush_published`); and each side receives exactly those it is meant to get, in
  their order (`flush_inbox`).

  Each of these is said first of one event (`announce`), then of a list of them by induction, and last of
  the events that the room holds.
-/
import HexWar.Session.GameSession

namespace HexWar

open Lib Lib.Action

/-! ## Numbering

The counter of a session runs on through all that it raises: an event gets the next number, is
buffered under it, sent under it and published under it.  A list of events is numbered in one piece
here, so that later modules need not follow the counter. -/

/-- Events with the numbers that follow `n`. -/
def numberFrom : Int → List DomainEvent → List BufferedEvent
  | _, [] => []
  | n, e :: es => ⟨n + 1, e⟩ :: numberFrom (n + 1) es

/-- Every event gets a number. -/
theorem length_numberFrom (n : Int) (es : List DomainEvent) :
    (numberFrom n es).length = es.length := by
  induction es generalizing n with
  | nil => rfl
  | cons e es ih => exact congrArg Nat.succ (ih (n + 1))

/-- Under the numbers stand the events. -/
theorem map_event_numberFrom (n : Int) (es : List DomainEvent) :
    (numberFrom n es).map (·.event) = es := by
  induction es generalizing n with
  | nil => rfl
  | cons e es ih => exact congrArg (e :: ·) (ih (n + 1))

/-- The numbers given are those after `n`, up to the number of events. -/
theorem mem_numberFrom {n : Int} {es : List DomainEvent} {b : BufferedEvent}
    (h : b ∈ numberFrom n es) : n < b.sequenceNumber ∧ b.sequenceNumber ≤ n + es.length := by
  induction es generalizing n with
  | nil => cases h
  | cons e es ih =>
    have hlen : ((e :: es).length : Int) = es.length + 1 := by simp
    rw [hlen]
    rcases List.mem_cons.mp h with rfl | hrest
    · constructor
      · show n < n + 1
        omega
      · show n + 1 ≤ n + (es.length + 1)
        omega
    · have hb := ih hrest
      omega

/-- All of them are given. -/
theorem exists_numberFrom {n k : Int} {es : List DomainEvent} (hlt : n < k)
    (hle : k ≤ n + es.length) : ∃ b ∈ numberFrom n es, b.sequenceNumber = k := by
  induction es generalizing n with
  | nil =>
    rw [List.length_nil] at hle
    omega
  | cons e es ih =>
    rw [List.length_cons] at hle
    rcases Int.lt_or_le (n + 1) k with hnext | hfirst
    · obtain ⟨b, hb, heq⟩ := ih hnext (by omega)
      exact ⟨b, List.mem_cons_of_mem _ hb, heq⟩
    · refine ⟨_, List.mem_cons_self, ?_⟩
      show n + 1 = k
      omega

/-- No number is given twice. -/
theorem numberFrom_pairwise (n : Int) (es : List DomainEvent) :
    (numberFrom n es).Pairwise fun b b' => b.sequenceNumber < b'.sequenceNumber := by
  induction es generalizing n with
  | nil => exact List.Pairwise.nil
  | cons e es ih => exact List.Pairwise.cons (fun b hb => (mem_numberFrom hb).1) (ih (n + 1))

/-- A session that has numbered and buffered a list of events. -/
def GameSession.recordAll (s : GameSession) (es : List DomainEvent) : GameSession :=
  { s with
    eventSequence := s.eventSequence + es.length
    eventBuffer := s.eventBuffer.addAll (numberFrom s.eventSequence es) }

/-- Event by event, or in one piece. -/
theorem foldl_record (s : GameSession) (es : List DomainEvent) :
    es.foldl GameSession.record s = s.recordAll es := by
  induction es generalizing s with
  | nil =>
    show s = { s with eventSequence := s.eventSequence + 0, eventBuffer := s.eventBuffer }
    rw [Int.add_zero]
  | cons e es ih =>
    have hlen : s.eventSequence + 1 + (es.length : Int) =
      s.eventSequence + ((e :: es).length : Int) := by
      rw [List.length_cons]
      omega
    rw [List.foldl_cons, ih]
    unfold GameSession.recordAll
    rw [← hlen]
    rfl

/-- The second list goes on where the first has stopped. -/
theorem numberFrom_append (n : Int) (es es' : List DomainEvent) :
    numberFrom n (es ++ es') = numberFrom n es ++ numberFrom (n + es.length) es' := by
  induction es generalizing n with
  | nil =>
    rw [List.nil_append, List.length_nil, Int.natCast_zero, Int.add_zero]
    rfl
  | cons e es ih =>
    have hlen : n + ((e :: es).length : Int) = n + 1 + es.length := by
      rw [List.length_cons]
      omega
    rw [hlen]
    exact congrArg (_ :: ·) (ih (n + 1))

/-- The messages to the other servers in which a session publishes numbered events. -/
def GameSession.messages (s : GameSession) (bs : List BufferedEvent) : List DistributedEventMessage :=
  if s.hasEventPublisher then bs.map fun b => ⟨s.roomId, b.event, b.sequenceNumber, s.serverId⟩
  else []

/-- Two lists of events are published one after the other. -/
theorem GameSession.messages_append (s : GameSession) (bs bs' : List BufferedEvent) :
    s.messages (bs ++ bs') = s.messages bs ++ s.messages bs' := by
  unfold GameSession.messages
  split
  · exact List.map_append
  · rfl

/-! ## Recipients

Of the ten kinds of events the handler sends five to both sides, one to the side that has decided,
and none of the rest.  Departures are sent without what is private (`toPublicInfo`). -/

/-- Is an event sent to a side by the server that raised it? -/
def sentTo (side : PlayerSide) : DomainEvent → Bool
  | .unitsDeparted _ | .roundResolved _ | .gameStarted _ | .roundStarted _ | .gameOver _ => true
  | .encounterDecisionMade decisionMade => decisionMade.decidingPlayer = side
  | .unitsRetreated _ | .unitsAdvanced _ | .encounterOccurred _ | .encounterResolved _ => false

/-- The message in which an event is sent. -/
def eventMessage (currentRound : Int) (b : BufferedEvent) : ServerMessage :=
  match b.event with
  | .unitsDeparted departed => .fromDto (.unitsDepartedPublicInfo departed.toPublicInfo)
      "UnitsDepartedPublicInfo" currentRound b.sequenceNumber
  | e => .fromDomainEvent e currentRound b.sequenceNumber

/-- The messages a side receives for a list of events. -/
def heard (side : PlayerSide) (currentRound : Int) (bs : List BufferedEvent) : List Notice :=
  (bs.filter fun b => sentTo side b.event).map fun b => .message (eventMessage currentRound b)

/-- Event by event. -/
theorem heard_cons (side : PlayerSide) (currentRound : Int) (b : BufferedEvent)
    (bs : List BufferedEvent) :
    heard side currentRound (b :: bs) = heard side currentRound [b] ++ heard side currentRound bs := by
  unfold heard
  rw [← List.map_append, ← List.filter_append]
  rfl

namespace Host

/-- A notice goes to its side only, -/
theorem inbox_notify (h : Host) (side t : PlayerSide) (n : Notice) :
    (h.notify side n).inbox.get t = h.inbox.get t ++ if t = side then [n] else [] := by
  cases side <;> cases t <;> simp [notify, PerSide.update, PerSide.set, PerSide.get]

/-- and a message to the room to both. -/
theorem inbox_broadcastToRoom (h : Host) (m : ServerMessage) (t : PlayerSide) :
    (h.broadcastToRoom m).inbox.get t = h.inbox.get t ++ [.message m] := by
  rw [broadcastToRoom, inbox_notify, inbox_notify, List.append_assoc]
  cases t <;> rfl

/-- What a side hears of one event. -/
theorem inbox_sendEvent (h : Host) (e : DomainEvent) (n : Int) (t : PlayerSide) :
    (h.sendEvent e n).inbox.get t = h.inbox.get t ++ heard t h.session.currentRound [⟨n, e⟩] := by
  cases e with
  | unitsDeparted _ | roundResolved _ | gameStarted _ | roundStarted _ | gameOver _ =>
    exact h.inbox_broadcastToRoom _ t
  | unitsRetreated _ | unitsAdvanced _ | encounterOccurred _ | encounterResolved _ =>
    exact (List.append_nil _).symm
  -- the only event that is sent to one side
  | encounterDecisionMade d =>
    refine (h.inbox_notify d.decidingPlayer t _).trans (congrArg (h.inbox.get t ++ ·) ?_)
    rcases em (t = d.decidingPlayer) with rfl | hne
    · rw [if_pos rfl, heard, List.filter_cons_of_pos (by simp [sentTo])]
      rfl
    · rw [if_neg hne, heard, List.filter_cons_of_neg (by simpa [sentTo] using fun heq => hne heq.symm)]
      rfl

/-- Sending an event touches nothing but the inboxes. -/
theorem sendEvent_frame (h : Host) (e : DomainEvent) (n : Int) :
    (h.sendEvent e n).session = h.session ∧ (h.sendEvent e n).room = h.room ∧
      (h.sendEvent e n).published = h.published := by
  cases e <;> exact ⟨rfl, rfl, rfl⟩

/-- Publishing touches nothing but the messages to the other servers. -/
theorem publish_frame (h : Host) (e : DomainEvent) (n : Int) :
    (h.publish e n).session = h.session ∧ (h.publish e n).room = h.room ∧
      (h.publish e n).inbox = h.inbox := by
  rw [publish]
  split <;> exact ⟨rfl, rfl, rfl⟩

/-- Without a publisher nothing is published. -/
theorem publish_published (h : Host) (e : DomainEvent) (n : Int) :
    (h.publish e n).published = h.published ++ h.session.messages [⟨n, e⟩] := by
  rw [publish, GameSession.messages]
  split
  · rfl
  · exact (List.append_nil _).symm

/-- One event: the session counts and buffers it, -/
theorem announce_session (h : Host) (e : DomainEvent) :
    (h.announce e).session = h.session.record e :=
  (publish_frame _ e _).1.trans (sendEvent_frame _ e _).1

/-- the room stays, -/
theorem announce_room (h : Host) (e : DomainEvent) : (h.announce e).room = h.room :=
  (publish_frame _ e _).2.1.trans (sendEvent_frame _ e _).2.1

/-- each side hears it if it is meant to, -/
theorem announce_inbox (h : Host) (e : DomainEvent) (t : PlayerSide) :
    (h.announce e).inbox.get t = h.inbox.get t ++
      heard t h.session.currentRound [⟨h.session.eventSequence + 1, e⟩] := by
  have hpub := (publish_frame (({ h with session := h.session.record e } : Host).sendEvent e
    (h.session.eventSequence + 1)) e (h.session.eventSequence + 1)).2.2
  refine (congrArg (PerSide.get · t) hpub).trans ?_
  exact inbox_sendEvent _ e _ t

/-- and the other servers are sent it. -/
theorem announce_published (h : Host) (e : DomainEvent) :
    (h.announce e).published = h.published ++
      h.session.messages [⟨h.session.eventSequence + 1, e⟩] := by
  rw [announce, broadcastSingleEvent, publish_published]
  obtain ⟨hsession, -, hpublished⟩ := sendEvent_frame
    { h with session := h.session.record e } e (h.session.eventSequence + 1)
  rw [hsession, hpublished]
  rfl

/-! ## All raised events

The events are taken out of the room before the first of them is announced; so nothing that is
raised meanwhile could be lost with them. -/

/-- Take the raised events out of the room and announce each of them. -/
def flush (h : Host) : Host :=
  h.room.domainEvents.foldl announce { h with room := { h.room with domainEvents := [] } }

/-- The same four of a list of events: the session, -/
theorem foldl_announce_session (h : Host) (es : List DomainEvent) :
    (es.foldl announce h).session = h.session.recordAll es := by
  rw [← foldl_record]
  induction es generalizing h with
  | nil => rfl
  | cons e es ih => rw [List.foldl_cons, ih, announce_session, List.foldl_cons]

/-- the room, -/
theorem foldl_announce_room (h : Host) (es : List DomainEvent) :
    (es.foldl announce h).room = h.room := by
  induction es generalizing h with
  | nil => rfl
  | cons e es ih => rw [List.foldl_cons, ih, announce_room]

/-- the inboxes, -/
theorem foldl_announce_inbox (h : Host) (es : List DomainEvent) (t : PlayerSide) :
    (es.foldl announce h).inbox.get t = h.inbox.get t ++
      heard t h.session.currentRound (numberFrom h.session.eventSequence es) := by
  induction es generalizing h with
  | nil => exact (List.append_nil _).symm
  | cons e es ih =>
    have hcons := heard_cons t h.session.currentRound ⟨h.session.eventSequence + 1, e⟩
      (numberFrom (h.session.eventSequence + 1) es)
    rw [List.foldl_cons, ih, announce_inbox, announce_session, List.append_assoc]
    exact congrArg (h.inbox.get t ++ ·) hcons.symm

/-- and the messages. -/
theorem foldl_announce_published (h : Host) (es : List DomainEvent) :
    (es.foldl announce h).published = h.published ++
      h.session.messages (numberFrom h.session.eventSequence es) := by
  induction es generalizing h with
  | nil =>
    have hnone : h.session.messages [] = [] := ite_self _
    rw [numberFrom, hnone, List.append_nil]
    rfl
  | cons e es ih =>
    have hcons := h.session.messages_append [⟨h.session.eventSequence + 1, e⟩]
      (numberFrom (h.session.eventSequence + 1) es)
    rw [List.foldl_cons, ih, announce_published, announce_session, List.append_assoc]
    exact congrArg (h.published ++ ·) hcons.symm

@[simp] theorem flush_session (h : Host) :
    h.flush.session = h.session.recordAll h.room.domainEvents := foldl_announce_session _ _

@[simp] theorem flush_room (h : Host) : h.flush.room = { h.room with domainEvents := [] } :=
  foldl_announce_room _ _

theorem flush_inbox (h : Host) (t : PlayerSide) :
    h.flush.inbox.get t = h.inbox.get t ++
      heard t h.session.currentRound (numberFrom h.session.eventSequence h.room.domainEvents) :=
  foldl_announce_inbox _ _ t

theorem flush_published (h : Host) : h.flush.published = h.published ++
    h.session.messages (numberFrom h.session.eventSequence h.room.domainEvents) :=
  foldl_announce_published _ _

end Host

end HexWar
