/-
  Two ways of an event to a player.

  The server that carries out a command sends its events itself (`broadcastSingleEvent`), choosing by
  the kind of the event who is to see it and in which form.  A server that hears of the event from the
  channel (`handleRemoteEvent`) sends it to both sides as it came.  So the two agree on the events that
  are meant for everyone as they are, and on a decision as far as the side that took it is concerned.

  Of the others the player on the second server gets what it should not: the opponent's decision, the
  retreat or advance that is told at the end of the round only, the departure in its full form
  (`active_passive_agree_iff`).
-/
import HexWar.Session.Cluster

namespace HexWar

open Lib Lib.Action GameRoom

/-- What a player reads in its messages: the name of the event's type, and the payload. -/
def Notice.content : Notice → Option (String × Payload)
  | .message m => some (m.eventType, m.payload)
  | .moved _ | .decided _ | .exception _ => none

/-- What a side reads of the notices that were added to its inbox. -/
def Host.received (before after : Host) (s : PlayerSide) : List (String × Payload) :=
  ((after.inbox.get s).drop (before.inbox.get s).length).filterMap Notice.content

/-- What a client of the server that raised the event is sent. -/
def Host.activelyReceived (h : Host) (e : DomainEvent) (sequenceNumber : Int) (s : PlayerSide) :
    List (String × Payload) :=
  h.received (h.broadcastSingleEvent e sequenceNumber) s

/-- What a client of a server that the event was published to is sent. -/
def Host.passivelyReceived (h : Host) (m : DistributedEventMessage) (now : Time) (s : PlayerSide) :
    List (String × Payload) :=
  h.received (after (handleRemoteEvent m now) h) s

/-- An event that both servers send a side in the same form. -/
def SentAlike (s : PlayerSide) : DomainEvent → Prop
  | .roundResolved _ | .gameStarted _ | .roundStarted _ | .gameOver _ => True
  | .encounterDecisionMade decisionMade => decisionMade.decidingPlayer = s
  | .unitsDeparted _ | .unitsRetreated _ | .unitsAdvanced _ | .encounterOccurred _
  | .encounterResolved _ => False

namespace Host

/-! ## What is added to an inbox -/

theorem received_of_append {h h' : Host} {s : PlayerSide} {notices : List Notice}
    (happ : h'.inbox.get s = h.inbox.get s ++ notices) :
    h.received h' s = notices.filterMap Notice.content := by
  rw [received, happ, List.drop_left]

theorem received_self (h : Host) (s : PlayerSide) : h.received h s = [] :=
  received_of_append (List.append_nil _).symm

theorem received_broadcast (h : Host) (m : ServerMessage) (s : PlayerSide) :
    h.received (h.broadcastToRoom m) s = [(m.eventType, m.payload)] :=
  received_of_append (inbox_broadcastToRoom h m s)

theorem received_notify (h : Host) (m : ServerMessage) (t s : PlayerSide) :
    h.received (h.notify t (.message m)) s = if t = s then [(m.eventType, m.payload)] else [] := by
  rcases em (t = s) with rfl | hne
  · rw [if_pos rfl]
    have hadded : (h.notify t (.message m)).inbox.get t = h.inbox.get t ++ [.message m] :=
      PerSide.get_update_same _ _ _
    exact received_of_append hadded
  · rw [if_neg hne]
    have hsame : (h.notify t (.message m)).inbox.get s = h.inbox.get s ++ [] := by
      rw [List.append_nil]
      exact PerSide.get_update_of_ne _ (fun heq => hne heq.symm) _
    exact received_of_append hsame

/-- Publishing sends nothing to the server's own clients. -/
theorem activelyReceived_eq (h : Host) (e : DomainEvent) (n : Int) (s : PlayerSide) :
    h.activelyReceived e n s = h.received (h.sendEvent e n) s := by
  have hinbox : (h.broadcastSingleEvent e n).inbox = (h.sendEvent e n).inbox := by
    rw [broadcastSingleEvent, publish]
    split
    · rfl
    · rfl
  rw [activelyReceived, received, received, hinbox]

/-- Another server sends both sides the event as it came. -/
theorem passivelyReceived_eq {h : Host} {m : DistributedEventMessage}
    (hother : m.sourceServerId ≠ h.session.serverId) (now : Time) (s : PlayerSide) :
    h.passivelyReceived m now s = [(m.event.eventType, .domainEvent m.event)] := by
  rw [passivelyReceived, after_handleRemoteEvent, if_neg hother]
  obtain ⟨round, hinbox⟩ := relayed_inbox h m now s
  exact received_of_append hinbox

/-! ## What the server that raised the event sends -/

/-- What the source's switch over the kinds of events sends a side. -/
theorem received_sendEvent (h : Host) (e : DomainEvent) (n : Int) (s : PlayerSide) :
    h.received (h.sendEvent e n) s =
      match e with
      | .unitsDeparted departed =>
        [("UnitsDepartedPublicInfo", .unitsDepartedPublicInfo departed.toPublicInfo)]
      | .encounterDecisionMade decisionMade =>
        if decisionMade.decidingPlayer = s then [(e.eventType, .domainEvent e)] else []
      | .roundResolved _ | .gameStarted _ | .roundStarted _ | .gameOver _ =>
        [(e.eventType, .domainEvent e)]
      | .unitsRetreated _ | .unitsAdvanced _ | .encounterOccurred _ | .encounterResolved _ => [] := by
  cases e with
  | unitsDeparted departed => exact received_broadcast h _ s
  | encounterDecisionMade decisionMade => exact received_notify h _ _ s
  | roundResolved _ => exact received_broadcast h _ s
  | gameStarted _ => exact received_broadcast h _ s
  | roundStarted _ => exact received_broadcast h _ s
  | gameOver _ => exact received_broadcast h _ s
  -- the other kinds fall to the switch's default
  | unitsRetreated _ => exact received_self h s
  | unitsAdvanced _ => exact received_self h s
  | encounterOccurred _ => exact received_self h s
  | encounterResolved _ => exact received_self h s

/-- The event itself is sent exactly where it is sent alike. -/
theorem received_sendEvent_iff (h : Host) (e : DomainEvent) (n : Int) (s : PlayerSide) :
    h.received (h.sendEvent e n) s = [(e.eventType, .domainEvent e)] ↔ SentAlike s e := by
  rw [received_sendEvent]
  cases e with
  | encounterDecisionMade decisionMade =>
    show (if decisionMade.decidingPlayer = s then _ else _) = _ ↔ decisionMade.decidingPlayer = s
    rcases em (decisionMade.decidingPlayer = s) with hs | hs
    · rw [if_pos hs]
      exact ⟨fun _ => hs, fun _ => rfl⟩
    · rw [if_neg hs]
      simp [hs]
  | unitsDeparted _ => simp [SentAlike]
  | roundResolved _ => simp [SentAlike]
  | gameStarted _ => simp [SentAlike]
  | roundStarted _ => simp [SentAlike]
  | gameOver _ => simp [SentAlike]
  | unitsRetreated _ => simp [SentAlike]
  | unitsAdvanced _ => simp [SentAlike]
  | encounterOccurred _ => simp [SentAlike]
  | encounterResolved _ => simp [SentAlike]

/-- The message with which a server publishes an event. -/
theorem broadcastSingleEvent_published {h : Host} (hpub : h.session.hasEventPublisher = true)
    (e : DomainEvent) (n : Int) :
    (h.broadcastSingleEvent e n).published =
      h.published ++ [⟨h.session.roomId, e, n, h.session.serverId⟩] := by
  have hsend : (h.sendEvent e n).published = h.published ∧
      (h.sendEvent e n).session = h.session := by
    unfold sendEvent
    cases e <;> exact ⟨rfl, rfl⟩
  rw [broadcastSingleEvent, publish, hsend.2, if_pos hpub, hsend.1]

end Host

/-- A server that publishes its events, among others. -/
def publishing : Machine Host SessionCall := hosts "room" "server" true 30000

/-- Another server with a session of the same room. -/
def remoteHost : Host := Host.initial "room" "other" true 30000

/-- One unit of each side meets on the edge between nodes 1 and 5. -/
def meetingTurns : List SessionCall :=
  [.addPlayer ⟨"alice"⟩ 0, .addPlayer ⟨"bob"⟩ 5, .onPlayerConnected .a 10, .onPlayerConnected .b 20,
    .moveUnits .a ⟨⟨1⟩, ⟨5⟩, 1⟩, .moveUnits .b ⟨⟨5⟩, ⟨1⟩, 1⟩, .planningTimeout 1 30]

end HexWar
