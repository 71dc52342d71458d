/-
  What holds of a host in every run of its session.

  The room of a host goes through the states of a session (`InSession`): a round is resolved when the
  room is ready for it, and the timers make it ready first.  A turn leaves no event waiting in the
  room: what it has raised is numbered, buffered, published and sent (`Announces`).  `next_turn` says
  this of every turn, whatever the buffer held before; whether anything is raised can be told from the
  state before the turn (`Host.raises`).

  On a server that is alone the buffer then holds no number that is still to be given out.  `Hosting`
  adds this, and `Hosting.next` says that every turn keeps it.

  The three notions of the module, from the bottom up:

  1. `Announces es h h'`: between two states exactly the events `es` were announced.  It composes
     (`Announces.trans`), so a turn is put together from a quiet part, a flush and a quiet part.
  2. `Turn es h h'`: besides, the room is one of a session again, with an empty outbox.
  3. `Does h call room`: what the turn made of the room, as it was before the outbox was emptied.  A turn
     that does something is `Done`, any other is `Idle`; each call has a lemma that says it is one of the
     two, and `next_does` collects them.
-/
import HexWar.Session.Turns

namespace HexWar

open Lib Lib.Action GameRoom

/-! ## The machine

The server is the one that GameHub created the room on, so the room is its own.  Nothing is assumed
of the calls: any may come at any time. -/

/-- A server that has just created the room. -/
def Host.initial (roomId serverId : String) (hasEventPublisher : Bool) (planningTimeout : Time) :
    Host where
  session := GameSession.new roomId serverId hasEventPublisher planningTimeout
  room := { initialRoom roomId with ownerServerId := some serverId }
  inbox := .both []
  published := []
  gameOvers := []

/-- One server under any turns. -/
def hosts (roomId serverId : String) (hasEventPublisher : Bool) (planningTimeout : Time) :
    Machine Host SessionCall :=
  ⟨Host.initial roomId serverId hasEventPublisher planningTimeout, Host.next, fun _ _ => True⟩

/-! ## The buffer

What the session numbers and keeps.  The timer has no part in it (`SameEvents`). -/

/-- The buffer has its size, and holds no number that is still to be given out. -/
structure Numbered (s : GameSession) : Prop where
  size : s.eventBuffer.capacity = GameSession.eventBufferSize
  given : ∀ b ∈ s.eventBuffer.items, b.sequenceNumber ≤ s.eventSequence

/-- Recording events keeps the buffer in order: the new numbers are those up to the counter. -/
theorem Numbered.recordAll {s : GameSession} (h : Numbered s) (es : List DomainEvent) :
    Numbered (s.recordAll es) where
  size := (CircularBuffer.capacity_addAll _ _).trans h.size
  given b hb := by
    show b.sequenceNumber ≤ s.eventSequence + es.length
    rcases List.mem_append.mp (CircularBuffer.mem_of_mem_items_addAll hb) with hold | hnew
    · have := h.given b hold
      omega
    · exact (mem_numberFrom hnew).2

/-- Two sessions of one server with the same numbered events. -/
def SameEvents (s s' : GameSession) : Prop :=
  s'.eventBuffer = s.eventBuffer ∧ s'.eventSequence = s.eventSequence ∧ s'.roomId = s.roomId ∧
    s'.serverId = s.serverId ∧ s'.hasEventPublisher = s.hasEventPublisher

/-- What does not touch the events keeps it as well. -/
theorem Numbered.of_same {s s' : GameSession} (h : Numbered s) (hs : SameEvents s s') :
    Numbered s' where
  size := by
    rw [hs.1]
    exact h.size
  given := by
    rw [hs.1, hs.2.1]
    exact h.given

/-- Starting the timer touches no event. -/
theorem sameEvents_startPlanningTimer (s : GameSession) (forRound : Int) (deadline : Option Time)
    (now : Time) : SameEvents s (s.startPlanningTimer forRound deadline now) := by
  rw [GameSession.startPlanningTimer]
  split <;> exact ⟨rfl, rfl, rfl, rfl, rfl⟩

/-- Neither does the opening of the next round, with or without the end of the game. -/
theorem sameEvents_opened (s : GameSession) (gameOver : Bool) (deadline : Time) (currentRound : Int)
    (now : Time) : SameEvents s (s.opened gameOver deadline currentRound now) := by
  rw [GameSession.opened]
  split
  · exact ⟨rfl, rfl, rfl, rfl, rfl⟩
  · exact sameEvents_startPlanningTimer { s.resetForNewRound with planningDeadline := some deadline }
      currentRound none now

/-- Nor the timer that a player who connects may find missing. -/
theorem sameEvents_timed (h : Host) (now : Time) : SameEvents h.session (h.timed now).session := by
  rw [Host.timed]
  show SameEvents h.session (if _ then _ else _)
  split
  · exact sameEvents_startPlanningTimer _ _ _ _
  · exact ⟨rfl, rfl, rfl, rfl, rfl⟩

/-! ## Announcing

A message of number 0 is no event: an answer, or a view of the state. -/

/-- The numbers a side may be sent while `es` is announced: 0 on what is no event, and otherwise the
    numbers of the buffer and of `es`. -/
def Host.MaySend (h : Host) (es : List DomainEvent) (n : Int) : Prop :=
  n = 0 ∨ ∃ b ∈ h.session.eventBuffer.items ++ numberFrom h.session.eventSequence es,
    b.sequenceNumber = n

/-- From `h` to `h'` exactly the events `es` were announced: numbered from the counter on, buffered,
    and published; and nobody was sent another number. -/
structure Announces (es : List DomainEvent) (h h' : Host) : Prop where
  roomId : h'.session.roomId = h.session.roomId
  serverId : h'.session.serverId = h.session.serverId
  publisher : h'.session.hasEventPublisher = h.session.hasEventPublisher
  /-- The counter goes up by one for each event. -/
  sequence : h'.session.eventSequence = h.session.eventSequence + es.length
  /-- In the order in which they were raised. -/
  buffer : h'.session.eventBuffer =
    h.session.eventBuffer.addAll (numberFrom h.session.eventSequence es)
  published : h'.published =
    h.published ++ h.session.messages (numberFrom h.session.eventSequence es)
  /-- An inbox only grows, and by numbers that the buffer has or is being given. -/
  inbox : ∀ side, ∃ ns, h'.inbox.get side = h.inbox.get side ++ ns ∧
    ∀ m, .message m ∈ ns → h.MaySend es m.sequenceNumber

namespace Announces

variable {es es' : List DomainEvent} {h h₁ h₂ t : Host}

/-- A change of what has nothing to do with events. -/
theorem of_same (hs : SameEvents h.session t.session) (hinbox : t.inbox = h.inbox)
    (hpublished : t.published = h.published) : Announces [] h t where
  roomId := hs.2.2.1
  serverId := hs.2.2.2.1
  publisher := hs.2.2.2.2
  sequence := hs.2.1.trans (Int.add_zero _).symm
  buffer := hs.1
  published := by
    have hnone : h.session.messages [] = [] := ite_self _
    rw [numberFrom, hnone, List.append_nil]
    exact hpublished
  inbox side := by
    rw [hinbox]
    exact ⟨[], (List.append_nil _).symm, fun _ hm => absurd hm List.not_mem_nil⟩

/-- Noting who owns the room is nothing that anybody is told. -/
theorem synced (h : Host) : Announces [] h h.synced :=
  of_same ⟨rfl, rfl, rfl, rfl, rfl⟩ rfl rfl

/-- Messages without a number, or with one of the buffer. -/
theorem tell (h : Host) (side : PlayerSide) {ns : List Notice}
    (hns : ∀ m, .message m ∈ ns → h.MaySend [] m.sequenceNumber) :
    Announces [] h (h.tell side ns) where
  roomId := rfl
  serverId := rfl
  publisher := rfl
  sequence := (Int.add_zero _).symm
  buffer := rfl
  published := (of_same (t := h) ⟨rfl, rfl, rfl, rfl, rfl⟩ rfl rfl).published
  inbox t := by
    show ∃ ms, (h.inbox.update side (· ++ ns)).get t = h.inbox.get t ++ ms ∧ _
    rcases em (t = side) with rfl | hne
    · exact ⟨ns, PerSide.get_update_same _ _ _, hns⟩
    · refine ⟨[], ?_, fun _ hm => absurd hm List.not_mem_nil⟩
      rw [List.append_nil]
      cases t <;> cases side <;> first | rfl | exact absurd rfl hne

/-- An answer to one side. -/
theorem notify (h : Host) (side : PlayerSide) {n : Notice}
    (hn : ∀ m, n = .message m → m.sequenceNumber = 0) : Announces [] h (h.notify side n) :=
  tell h side fun m hm => .inl (hn m (List.mem_singleton.mp hm).symm)

/-- What is sent of the announced events carries their numbers. -/
theorem flush (h : Host) : Announces h.room.domainEvents h h.flush where
  roomId := by
    rw [Host.flush_session]
    rfl
  serverId := by
    rw [Host.flush_session]
    rfl
  publisher := by
    rw [Host.flush_session]
    rfl
  sequence := by
    rw [Host.flush_session]
    rfl
  buffer := by
    rw [Host.flush_session]
    rfl
  published := h.flush_published
  inbox side := by
    refine ⟨_, h.flush_inbox side, fun m hm => .inr ?_⟩
    obtain ⟨b, hb, heq⟩ := List.mem_map.mp hm
    refine ⟨b, List.mem_append_right _ (List.mem_filter.mp hb).1, ?_⟩
    rw [← Notice.message.inj heq, eventMessage]
    split <;> rfl

/-- What is published carries names that no announcement changes. -/
theorem messages (ha : Announces es h h₁) (bs : List BufferedEvent) :
    h₁.session.messages bs = h.session.messages bs := by
  unfold GameSession.messages
  rw [ha.roomId, ha.serverId, ha.publisher]

/-- Announcements one after the other. -/
theorem trans (ha : Announces es h h₁) (ha' : Announces es' h₁ h₂) :
    Announces (es ++ es') h h₂ where
  roomId := ha'.roomId.trans ha.roomId
  serverId := ha'.serverId.trans ha.serverId
  publisher := ha'.publisher.trans ha.publisher
  sequence := by
    rw [ha'.sequence, ha.sequence, List.length_append]
    omega
  buffer := by
    rw [ha'.buffer, ha.buffer, ha.sequence, numberFrom_append, CircularBuffer.addAll_append]
  published := by
    rw [ha'.published, ha.published, ha.sequence, ha.messages, List.append_assoc,
      numberFrom_append, GameSession.messages_append]
  inbox side := by
    obtain ⟨ns, hns, hall⟩ := ha.inbox side
    obtain ⟨ns', hns', hall'⟩ := ha'.inbox side
    refine ⟨ns ++ ns', by rw [hns', hns, List.append_assoc], fun m hm => ?_⟩
    -- the numbers of the second part go on where those of the first end
    have hsplit : h.session.eventBuffer.items ++ numberFrom h.session.eventSequence (es ++ es') =
        (h.session.eventBuffer.items ++ numberFrom h.session.eventSequence es) ++
          numberFrom h₁.session.eventSequence es' := by
      rw [numberFrom_append, ha.sequence, List.append_assoc]
    unfold Host.MaySend
    rw [hsplit]
    rcases List.mem_append.mp hm with hold | hnew
    · rcases hall m hold with hzero | ⟨b, hb, heq⟩
      · exact .inl hzero
      · exact .inr ⟨b, List.mem_append_left _ hb, heq⟩
    · rcases hall' m hnew with hzero | ⟨b, hb, heq⟩
      · exact .inl hzero
      refine .inr ⟨b, ?_, heq⟩
      -- a number of the later buffer is one of the earlier buffer or one given in between
      rcases List.mem_append.mp hb with hitem | hnumbered
      · rw [ha.buffer] at hitem
        exact List.mem_append_left _ (CircularBuffer.mem_of_mem_items_addAll hitem)
      · exact List.mem_append_right _ hnumbered

/-- Whatever is announced, the buffer stays in order. -/
theorem numbered (ha : Announces es h t) (hn : Numbered h.session) : Numbered t.session :=
  (hn.recordAll es).of_same ⟨ha.buffer, ha.sequence, ha.roomId, ha.serverId, ha.publisher⟩

end Announces

/-! ## A turn

The parts of which `Host.next` is made, each as a `Turn`: the player who joins is welcomed, a move
is reserved, an encounter decided, a game abandoned, a round resolved.  All five change the room and
then flush it. -/

/-- What holds after a turn that has raised `es`. -/
structure Turn (es : List DomainEvent) (h h' : Host) : Prop where
  room : InSession h'.room
  quiet : h'.room.domainEvents = []
  announces : Announces es h h'

namespace Turn

variable {es : List DomainEvent} {h h₁ t after : Host}

/-- A turn that leaves the room alone. -/
theorem of_same (hroom : InSession h.room) (hquiet : h.room.domainEvents = [])
    (hsame : t.room = h.room) (ha : Announces es h t) : Turn es h t where
  room := by
    rw [hsame]
    exact hroom
  quiet := by
    rw [hsame]
    exact hquiet
  announces := ha

/-- A turn that goes on without touching the room or raising an event. -/
theorem then_same (ht : Turn es h h₁) (hsame : t.room = h₁.room) (ha : Announces [] h₁ t) :
    Turn es h t := by
  have hall := ht.announces.trans ha
  rw [List.append_nil] at hall
  refine ⟨?_, ?_, hall⟩
  · rw [hsame]
    exact ht.room
  · rw [hsame]
    exact ht.quiet

/-- A turn may end with noting who owns the room. -/
theorem then_synced (ht : Turn es h h₁) : Turn es h h₁.synced :=
  ht.then_same rfl (Announces.synced _)

/-- Something quiet may go before a turn. -/
theorem preceded (ha : Announces [] h h₁) (ht : Turn es h₁ t) : Turn es h t :=
  ⟨ht.room, ht.quiet, ha.trans ht.announces⟩

/-- It starts with that, when it takes the lock. -/
theorem after_synced (ht : Turn es h.synced t) : Turn es h t := preceded (Announces.synced h) ht

/-- A turn that brings the room into a state of the session and announces what it raised. -/
theorem flushed (hroom : InSession t.room) (hbefore : Announces [] h t)
    (hsame : after.room = t.flush.room) (hafter : Announces [] t.flush after) :
    Turn t.room.domainEvents h after := by
  have htold : Turn t.room.domainEvents h t.flush := by
    refine ⟨?_, ?_, hbefore.trans (Announces.flush t)⟩
    · rw [Host.flush_room]
      exact hroom.relabel _ _
    · rw [Host.flush_room]
  exact htold.then_same hsame hafter

/-- A player joins, and the one who completes the room hears of the start. -/
theorem welcomed (hroom : InSession h.room) {playerId : PlayerId}
    (hr : h.room.joinRefusal playerId = none) (now : Time) :
    Turn (h.room.joined playerId (now + h.session.planningTimeout)).domainEvents h
      (h.welcomed playerId now) := by
  have hnext := hroom.next (show h.room.SessionLegal
    (.addPlayer playerId (some (now + h.session.planningTimeout)) now) from trivial)
  rw [next_addPlayer hroom.sound.map, hr] at hnext
  let told : Host := { h with room := h.room.joined playerId (now + h.session.planningTimeout) }
  exact flushed (t := told) hnext (Announces.of_same ⟨rfl, rfl, rfl, rfl, rfl⟩ rfl rfl) rfl
    (Announces.of_same ⟨rfl, rfl, rfl, rfl, rfl⟩ rfl rfl)

/-- A move is reserved, and both sides hear that units have left. -/
theorem moved (hroom : InSession h.room) {side : PlayerSide} {command : MoveCommand}
    (hr : h.room.moveRefusal side (h.room.adjusted side command) = none) :
    Turn (h.room.reserve side (h.room.adjusted side command)).domainEvents h
      (h.moved side command) := by
  have hnext := hroom.next (show h.room.SessionLegal
    (.moveUnits side (h.room.adjusted side command)) from trivial)
  rw [next_moveUnits, hr] at hnext
  let room := h.room.reserve side (h.room.adjusted side command)
  let told : Host := { h with
    room := room
    session := h.session.updatePlayer side fun p =>
      { p with moveCommandCompleted := decide (room.getRemainingUnits side ≤ 0) } }
  exact flushed (t := told) hnext (Announces.of_same ⟨rfl, rfl, rfl, rfl, rfl⟩ rfl rfl) rfl
    (Announces.of_same ⟨rfl, rfl, rfl, rfl, rfl⟩ rfl rfl)

/-- An encounter is decided. -/
theorem decided (hroom : InSession h.room) {side : PlayerSide} {edgeId : EdgeId}
    {decision : EncounterDecision} (hr : h.room.decisionRefusal edgeId side decision = none) :
    Turn (h.room.decideEncounter edgeId side decision).domainEvents h
      (h.decided side edgeId decision) := by
  let room := h.room.decideEncounter edgeId side decision
  let told : Host := { h with
    room := room
    session := h.session.updatePlayer side fun p =>
      { p with encounterDecisionsCompleted := (room.getUndecidedEncounters side).isEmpty } }
  exact flushed (t := told) (hroom.decided edgeId side hr)
    (Announces.of_same ⟨rfl, rfl, rfl, rfl, rfl⟩ rfl rfl) rfl
    (Announces.of_same ⟨rfl, rfl, rfl, rfl, rfl⟩ rfl rfl)

/-- The game ends for the side that is still there. -/
theorem abandoned (hroom : InSession h.room) (winner : PlayerSide) :
    Turn (h.room.forced (some winner) .playerDisconnected).domainEvents h (h.abandoned winner) := by
  have hnext := hroom.next (show h.room.SessionLegal
    (.forceGameOver (some winner) .playerDisconnected) from trivial)
  exact flushed (t := { h with room := h.room.forced (some winner) .playerDisconnected }) hnext
    (Announces.of_same ⟨rfl, rfl, rfl, rfl, rfl⟩ rfl rfl) rfl
    (Announces.of_same ⟨rfl, rfl, rfl, rfl, rfl⟩ rfl rfl)

/-- The room after a resolution; the session goes on to the next round or stops its timer. -/
theorem advanced {room : GameRoom} (hroom : InSession room) (result : RoundResolutionResult)
    (now later : Time) : Turn room.domainEvents h (h.advanced result room now later) := by
  let told : Host := { h with
    room := room, session := h.session.stopPlanningTimer.syncMetadata room }
  exact flushed (t := told) hroom (Announces.of_same ⟨rfl, rfl, rfl, rfl, rfl⟩ rfl rfl) rfl
    (Announces.of_same (sameEvents_opened _ _ _ _ _) rfl rfl)

/-- The resolution of a room that is ready for it. -/
theorem resolvedRound {room : GameRoom} {timeout : Time} (hsame : h.room = room)
    (htimeout : h.session.planningTimeout = timeout) (hroom : InSession room)
    (hready : room.isReadyForResolution = true) (now later : Time) :
    Turn (sourceOrder.resolved room (now + timeout)).domainEvents h (h.resolvedRound now later) := by
  subst hsame htimeout
  have hnext := hroom.next (show h.room.SessionLegal
    (.resolveRound (some (now + h.session.planningTimeout)) now) from hready)
  rw [next_resolveRound hroom.sound (hroom.orderly.ready hroom.sound hready).1] at hnext
  rw [Option.getD_some] at hnext
  rw [Host.resolvedRound]
  exact @advanced h (sourceOrder.resolved h.room (now + h.session.planningTimeout)) hnext
    (sourceOrder.closedRoom h.room).openingResult now later

end Turn

/-- What the announcements leave of the room. -/
theorem advanced_room (h : Host) (result : RoundResolutionResult) (room : GameRoom)
    (now later : Time) : (h.advanced result room now later).room =
      { room with domainEvents := [] } := Host.flush_room _

/-- The room after a resolution, with the round's deadline set from the first reading of the
    clock. -/
theorem resolvedRound_room {h : Host} {room : GameRoom} {timeout : Time} (hsame : h.room = room)
    (htimeout : h.session.planningTimeout = timeout) (now later : Time) :
    (h.resolvedRound now later).room =
      { sourceOrder.resolved room (now + timeout) with domainEvents := [] } := by
  subst hsame htimeout
  rw [Host.resolvedRound, advanced_room]

/-! ### What raises an event -/

/-- Does a turn raise an event?  A command does that is carried out, a resolution, the end of the
    game, and the player who completes the room. -/
def Host.raises (h : Host) : SessionCall → Bool
  | .addPlayer playerId _ => (h.room.joinRefusal playerId).isNone && h.room.players.a.isSome
  | .forceGameOver => h.room.phase ≠ .gameOver && (firstConnected h.session.playerStates).isSome
  | .moveUnits side command =>
    (h.session.playerStates.get side).isConnected && (h.room.sessionMoveRefusal side command).isNone
  | .encounterDecision side edgeId decision =>
    (h.session.playerStates.get side).isConnected &&
      (h.room.decisionRefusal edgeId side decision).isNone
  | .checkAndResolveIfReady _ => h.room.isReadyForResolution && h.session.allReady h.room
  | .planningTimeout forRound _ | .backupPlanningTimeout forRound _ =>
    h.room.phase = .planning && h.room.currentRound = forRound
  | .onPlayerConnected _ _ | .onPlayerDisconnected _ | .getGameState _ | .reconnectSync _ _ => false

/-- Of the calls that may resolve the round, exactly those raise something that do. -/
theorem raises_iff_resolves {h : Host} {call : SessionCall} (hmay : call.mayResolve = true) :
    h.raises call = true ↔ ∃ room now, Resolves h call room now := by
  cases call with
  | checkAndResolveIfReady now =>
    show (_ && _) = true ↔ _
    rw [Bool.and_eq_true]
    constructor
    · rintro ⟨hready, hall⟩
      exact ⟨_, _, .ready hready hall⟩
    · rintro ⟨room, now, hres⟩
      cases hres with
      | ready hready hall => exact ⟨hready, hall⟩
  | planningTimeout forRound now =>
    show (_ && _) = true ↔ _
    rw [Bool.and_eq_true, decide_eq_true_eq, decide_eq_true_eq]
    constructor
    · rintro ⟨hphase, hround⟩
      exact ⟨_, _, .timeout hphase hround⟩
    · rintro ⟨room, now, hres⟩
      cases hres with
      | timeout hphase hround => exact ⟨hphase, hround⟩
  | backupPlanningTimeout forRound now =>
    show (_ && _) = true ↔ _
    rw [Bool.and_eq_true, decide_eq_true_eq, decide_eq_true_eq]
    constructor
    · rintro ⟨hphase, hround⟩
      exact ⟨_, _, .backup hphase hround⟩
    · rintro ⟨room, now, hres⟩
      cases hres with
      | backup hphase hround => exact ⟨hphase, hround⟩
  | addPlayer _ _ | onPlayerConnected _ _ | onPlayerDisconnected _ | forceGameOver | moveUnits _ _
  | encounterDecision _ _ _ | getGameState _ | reconnectSync _ _ => cases hmay

/-- Only the second player raises an event: the game starts. -/
theorem events_joined {room : GameRoom} (hs : Sound room) (hquiet : room.domainEvents = [])
    {playerId : PlayerId} (hr : room.joinRefusal playerId = none) (deadline : Time) :
    (room.joined playerId deadline).domainEvents ≠ [] ↔ room.players.a.isSome = true := by
  rcases seats_cases hs.seats (joinRefusal_none hr) with ⟨hp, hv⟩ | ⟨p, hp, hv⟩
  · rw [joined, started, seated, hv, hp]
    simp [PerSide.set, PerSide.both, hquiet]
  · rw [joined, started, seated, hv, hp]
    simp [PerSide.set]

/-- The second side's decision, or the first one's, is itself an event. -/
theorem events_decideEncounter {room : GameRoom} {edgeId : EdgeId} {side : PlayerSide}
    {decision : EncounterDecision} (hr : room.decisionRefusal edgeId side decision = none) :
    (room.decideEncounter edgeId side decision).domainEvents ≠ [] := by
  obtain ⟨-, pending, e, hpending, -, he, -⟩ := decisionRefusal_none hr
  rw [decideEncounter_eq hpending he]
  unfold decideOn
  simp

/-- A resolution always raises an event. -/
theorem events_resolved_ne_nil (room : GameRoom) (deadline : Time) :
    (sourceOrder.resolved room deadline).domainEvents ≠ [] := by
  rw [ProcessingOrder.resolved, opened]
  split <;> simp

/-- What a turn does to the room.  What it raises is still in the room here. -/
inductive Does (h : Host) : SessionCall → GameRoom → Prop where
  /-- A player takes a free seat. -/
  | join {playerId : PlayerId} {now : Time} (hr : h.room.joinRefusal playerId = none) :
      Does h (.addPlayer playerId now) (h.room.joined playerId (now + h.session.planningTimeout))
  /-- A connected player reserves a move. -/
  | move {side : PlayerSide} {command : MoveCommand}
      (hconn : (h.session.playerStates.get side).isConnected = true)
      (hr : h.room.sessionMoveRefusal side command = none) :
      Does h (.moveUnits side command) (h.room.reserve side (h.room.adjusted side command))
  /-- A connected player decides an encounter. -/
  | decide {side : PlayerSide} {edgeId : EdgeId} {decision : EncounterDecision}
      (hconn : (h.session.playerStates.get side).isConnected = true)
      (hr : h.room.decisionRefusal edgeId side decision = none) :
      Does h (.encounterDecision side edgeId decision) (h.room.decideEncounter edgeId side decision)
  /-- The round is resolved, on the room that the call has made ready. -/
  | resolve {call : SessionCall} {room : GameRoom} {now : Time} (hres : Resolves h call room now) :
      Does h call (sourceOrder.resolved room (now + h.session.planningTimeout))
  /-- The game ends because a side stayed away. -/
  | abandon {winner : PlayerSide} (hphase : h.room.phase ≠ .gameOver)
      (hwinner : firstConnected h.session.playerStates = some winner) :
      Does h .forceGameOver (h.room.forced (some winner) .playerDisconnected)

/-- A move that the session lets through is let through by the room. -/
theorem moveRefusal_of_session {room : GameRoom} {side : PlayerSide} {command : MoveCommand}
    (hr : room.sessionMoveRefusal side command = none) :
    room.phase = .planning ∧ 0 < room.getRemainingUnits side ∧
      room.moveRefusal side (room.adjusted side command) = none := by
  rw [sessionMoveRefusal] at hr
  split at hr
  · cases hr
  rename_i hphase
  split at hr
  · cases hr
  rename_i hleft
  exact ⟨not_not.mp hphase, Int.not_le.mp hleft, hr⟩

/-- What holds when a turn has done something to the room. -/
structure Done (h : Host) (call : SessionCall) (room : GameRoom) : Prop where
  does : Does h call room
  saved : (h.next call).room = { room with domainEvents := [] }
  turn : Turn room.domainEvents h (h.next call)

/-- What holds when it has done nothing. -/
structure Idle (h : Host) (call : SessionCall) : Prop where
  nothing : ∀ room, ¬ Does h call room
  kept : (h.next call).room = h.room
  turn : Turn [] h (h.next call)

section Turns

variable {h : Host} (hroom : InSession h.room) (hquiet : h.room.domainEvents = [])
include hroom hquiet

/-- Looking the room up is quiet. -/
theorem Turn.looked : Turn [] h h.synced := Turn.of_same hroom hquiet rfl (Announces.synced h)

/-- A call that may resolve the round resolves it, or does nothing. -/
theorem resolution_does {call : SessionCall} (hmay : call.mayResolve = true) :
    (∃ room, Done h call room) ∨ Idle h call := by
  -- the three calls differ in when they resolve and in what room, and this is all in `Resolves`
  rcases em (∃ room now, Resolves h call room now) with ⟨room, now, hres⟩ | hno
  · obtain ⟨hnext, hin, hready⟩ := next_of_resolves hroom hres
    let before : Host := { h.synced with room := room }
    have hbefore : Announces [] h before := Announces.of_same ⟨rfl, rfl, rfl, rfl, rfl⟩ rfl rfl
    refine .inl ⟨sourceOrder.resolved room (now + h.session.planningTimeout), .resolve hres, ?_, ?_⟩
    · rw [hnext, Host.room_synced]
      exact @resolvedRound_room before room h.session.planningTimeout rfl rfl now now
    · rw [hnext]
      have hturn := @Turn.resolvedRound before room h.session.planningTimeout rfl rfl hin hready now now
      exact Turn.preceded hbefore hturn.then_synced
  · have hnext := next_of_not_resolves hmay fun room now hres => hno ⟨room, now, hres⟩
    refine .inr ⟨?_, ?_, ?_⟩
    · intro room hdoes
      cases hdoes with
      | resolve hres => exact hno ⟨_, _, hres⟩
      | join _ | move _ _ | decide _ _ | abandon _ _ => cases hmay
    · rw [hnext]
      rfl
    · rw [hnext]
      exact Turn.looked hroom hquiet

/-- A join takes a seat or is refused. -/
theorem addPlayer_does (playerId : PlayerId) (now : Time) :
    (∃ room, Done h (.addPlayer playerId now) room) ∨ Idle h (.addPlayer playerId now) := by
  have hnext := next_addPlayer_host hroom.sound.map playerId now
  rcases hr : h.room.joinRefusal playerId with _ | e
  · rw [hr] at hnext
    refine .inl ⟨_, .join hr, ?_, ?_⟩
    · rw [hnext]
      exact Host.flush_room _
    · rw [hnext]
      exact (Turn.welcomed (h := h.synced) hroom hr now).then_synced.after_synced
  · rw [hr] at hnext
    refine .inr ⟨?_, ?_, ?_⟩
    · rintro room (⟨hok⟩ | ⟨⟩ | ⟨⟩ | ⟨⟨⟩⟩ | ⟨⟩)
      rw [hr] at hok
      cases hok
    · rw [hnext]
      rfl
    · rw [hnext]
      exact Turn.looked hroom hquiet

/-- A check that has the lock forces the end, or does nothing. -/
theorem forceGameOver_does : (∃ room, Done h .forceGameOver room) ∨ Idle h .forceGameOver := by
  have hnext := next_forceGameOver_host h
  by_cases hover : h.room.phase = .gameOver
  · rw [if_pos hover] at hnext
    refine .inr ⟨?_, ?_, ?_⟩
    · rintro room (⟨⟩ | ⟨⟩ | ⟨⟩ | ⟨⟨⟩⟩ | ⟨hphase, -⟩)
      exact hphase hover
    · rw [hnext]
      rfl
    · rw [hnext]
      exact Turn.looked hroom hquiet
  rw [if_neg hover] at hnext
  rcases hw : firstConnected h.session.playerStates with _ | winner
  · -- nobody is connected, and the search throws
    rw [hw] at hnext
    refine .inr ⟨?_, ?_, ?_⟩
    · rintro room (⟨⟩ | ⟨⟩ | ⟨⟩ | ⟨⟨⟩⟩ | ⟨-, hwinner⟩)
      rw [hw] at hwinner
      cases hwinner
    · rw [hnext]
      rfl
    · rw [hnext]
      exact Turn.looked hroom hquiet
  · rw [hw] at hnext
    refine .inl ⟨_, .abandon hover hw, ?_, ?_⟩
    · rw [hnext]
      exact Host.flush_room _
    · rw [hnext]
      exact (Turn.abandoned (h := h.synced) hroom winner).then_synced.after_synced

/-- A move is reserved; or it is refused by the room or the session; or the side is not connected.
    In the last case the room is not even looked up. -/
theorem moveUnits_does (side : PlayerSide) (command : MoveCommand) :
    (∃ room, Done h (.moveUnits side command) room) ∨ Idle h (.moveUnits side command) := by
  have hnext := next_moveUnits_host h side command
  by_cases hconn : (h.session.playerStates.get side).isConnected = true
  · rw [if_pos hconn] at hnext
    rcases hr : h.room.sessionMoveRefusal side command with _ | e
    · rw [hr] at hnext
      refine .inl ⟨_, .move hconn hr, ?_, ?_⟩
      · rw [hnext]
        exact Host.flush_room _
      · rw [hnext]
        exact (Turn.moved (h := h.synced) hroom
          (moveRefusal_of_session hr).2.2).then_synced.after_synced.then_same rfl
            (Announces.notify _ side fun m hm => nomatch hm)
    · rw [hr] at hnext
      refine .inr ⟨?_, ?_, ?_⟩
      · rintro room (⟨⟩ | ⟨-, hok⟩ | ⟨⟩ | ⟨⟨⟩⟩ | ⟨⟩)
        rw [hr] at hok
        cases hok
      · rw [hnext]
        rfl
      · rw [hnext]
        exact (Turn.looked hroom hquiet).then_same rfl (Announces.notify _ side fun m hm => nomatch hm)
  · rw [if_neg hconn] at hnext
    refine .inr ⟨?_, ?_, ?_⟩
    · rintro room (⟨⟩ | ⟨hconn', -⟩ | ⟨⟩ | ⟨⟨⟩⟩ | ⟨⟩)
      exact hconn hconn'
    · rw [hnext]
      rfl
    · rw [hnext]
      exact Turn.of_same hroom hquiet rfl (Announces.notify h side fun m hm => nomatch hm)

/-- A decision is entered, is refused, or comes from a side that is not connected. -/
theorem encounterDecision_does (side : PlayerSide) (edgeId : EdgeId) (decision : EncounterDecision) :
    (∃ room, Done h (.encounterDecision side edgeId decision) room) ∨
      Idle h (.encounterDecision side edgeId decision) := by
  have hnext := next_encounterDecision h side edgeId decision
  by_cases hconn : (h.session.playerStates.get side).isConnected = true
  · rw [if_pos hconn] at hnext
    rcases hr : h.room.decisionRefusal edgeId side decision with _ | e
    · rw [hr] at hnext
      refine .inl ⟨_, .decide hconn hr, ?_, ?_⟩
      · rw [hnext]
        exact Host.flush_room _
      · rw [hnext]
        exact (Turn.decided (h := h.synced) hroom hr).then_synced.after_synced.then_same rfl
          (Announces.notify _ side fun m hm => nomatch hm)
    · rw [hr] at hnext
      refine .inr ⟨?_, ?_, ?_⟩
      · rintro room (⟨⟩ | ⟨⟩ | ⟨-, hok⟩ | ⟨⟨⟩⟩ | ⟨⟩)
        rw [hr] at hok
        cases hok
      · rw [hnext]
        rfl
      · rw [hnext]
        exact (Turn.looked hroom hquiet).then_same rfl (Announces.notify _ side fun m hm => nomatch hm)
  · rw [if_neg hconn] at hnext
    refine .inr ⟨?_, ?_, ?_⟩
    · rintro room (⟨⟩ | ⟨⟩ | ⟨hconn', -⟩ | ⟨⟨⟩⟩ | ⟨⟩)
      exact hconn hconn'
    · rw [hnext]
      rfl
    · rw [hnext]
      exact Turn.of_same hroom hquiet rfl (Announces.notify h side fun m hm => nomatch hm)

/-- A player who connects may start the timer; the room stays as it is. -/
theorem onPlayerConnected_idle (side : PlayerSide) (now : Time) :
    Idle h (.onPlayerConnected side now) := by
  have hnext := next_onPlayerConnected h side now
  refine ⟨?_, ?_, ?_⟩
  · rintro room (⟨⟩ | ⟨⟩ | ⟨⟩ | ⟨⟨⟩⟩ | ⟨⟩)
  · rw [hnext]
    rfl
  · rw [hnext]
    exact Turn.of_same hroom hquiet rfl
      (Announces.of_same (sameEvents_timed (h.reached side true).synced now) rfl rfl)

/-- A player who leaves is noted by the session alone. -/
theorem onPlayerDisconnected_idle (side : PlayerSide) : Idle h (.onPlayerDisconnected side) := by
  refine ⟨?_, rfl, ?_⟩
  · rintro room (⟨⟩ | ⟨⟩ | ⟨⟩ | ⟨⟨⟩⟩ | ⟨⟩)
  · exact Turn.of_same hroom hquiet rfl (Announces.of_same ⟨rfl, rfl, rfl, rfl, rfl⟩ rfl rfl)

/-- The view is sent without a number. -/
theorem getGameState_idle (side : PlayerSide) : Idle h (.getGameState side) := by
  have hnext := next_getGameState h side
  refine ⟨?_, ?_, ?_⟩
  · rintro room (⟨⟩ | ⟨⟩ | ⟨⟩ | ⟨⟨⟩⟩ | ⟨⟩)
  · rw [hnext]
    rfl
  · rw [hnext]
    exact (Turn.looked hroom hquiet).then_same rfl
      (Announces.notify _ side (h.shown_sequenceNumber side))

/-- A player who comes back is told what the buffer still holds. -/
theorem reconnectSync_idle (side : PlayerSide) (lastSeenSequence : Int) :
    Idle h (.reconnectSync side lastSeenSequence) := by
  have hnext := next_reconnectSync h side lastSeenSequence
  -- what is replayed comes from the buffer, and so do its numbers
  have hreplay : Announces [] h.synced (h.synced.tell side (h.session.replay lastSeenSequence)) := by
    refine Announces.tell _ side fun m hm => .inr ?_
    obtain ⟨b, hb, heq⟩ := List.mem_map.mp hm
    refine ⟨b, List.mem_append_left _ (mem_getEventsAfter.mp hb).1, ?_⟩
    rw [← Notice.message.inj heq]
    rfl
  have htold : Turn [] h (h.synced.tell side (h.session.replay lastSeenSequence)) :=
    (Turn.looked hroom hquiet).then_same rfl hreplay
  refine ⟨?_, ?_, ?_⟩
  · rintro room (⟨⟩ | ⟨⟩ | ⟨⟩ | ⟨⟨⟩⟩ | ⟨⟩)
  · rw [hnext]
    rfl
  · rw [hnext]
    exact htold.then_same rfl (Announces.notify _ side (h.shown_sequenceNumber side))

/-- **A turn does what `Does` says, or nothing.** -/
theorem next_does (call : SessionCall) : (∃ room, Done h call room) ∨ Idle h call := by
  cases call with
  | addPlayer playerId now => exact addPlayer_does hroom hquiet playerId now
  | onPlayerConnected side now => exact .inr (onPlayerConnected_idle hroom hquiet side now)
  | onPlayerDisconnected side => exact .inr (onPlayerDisconnected_idle hroom hquiet side)
  | forceGameOver => exact forceGameOver_does hroom hquiet
  | moveUnits side command => exact moveUnits_does hroom hquiet side command
  | encounterDecision side edgeId decision =>
    exact encounterDecision_does hroom hquiet side edgeId decision
  | checkAndResolveIfReady _ | planningTimeout _ _ | backupPlanningTimeout _ _ =>
    exact resolution_does hroom hquiet rfl
  | getGameState side => exact .inr (getGameState_idle hroom hquiet side)
  | reconnectSync side lastSeenSequence =>
    exact .inr (reconnectSync_idle hroom hquiet side lastSeenSequence)

end Turns

/-- A turn does one thing at most. -/
theorem does_unique {h : Host} {call : SessionCall} {room room' : GameRoom} (hdoes : Does h call room)
    (hdoes' : Does h call room') : room = room' := by
  cases hdoes with
  | join hr =>
    cases hdoes' with
    | join hr' => rfl
    | resolve hres => cases hres
  | move hconn hr =>
    cases hdoes' with
    | move hconn' hr' => rfl
    | resolve hres => cases hres
  | decide hconn hr =>
    cases hdoes' with
    | decide hconn' hr' => rfl
    | resolve hres => cases hres
  | resolve hres =>
    cases hres <;> cases hdoes' with
    | resolve hres' =>
      cases hres'
      rfl
  | abandon hphase hwinner =>
    cases hdoes' with
    | abandon hphase' hwinner' =>
      rw [Option.some.inj (hwinner.symm.trans hwinner')]
    | resolve hres => cases hres

/-- The room after a turn that has done something. -/
theorem room_of_does {h : Host} (hroom : InSession h.room) (hquiet : h.room.domainEvents = [])
    {call : SessionCall} {room : GameRoom} (hdoes : Does h call room) :
    (h.next call).room = { room with domainEvents := [] } := by
  rcases next_does hroom hquiet call with ⟨room', hdone⟩ | hidle
  · rw [does_unique hdoes hdone.does]
    exact hdone.saved
  · exact absurd hdoes (hidle.nothing room)

/-- What a turn does raises an event; only the first player joins without one. -/
theorem raises_iff {h : Host} (hs : Sound h.room) (hquiet : h.room.domainEvents = [])
    {call : SessionCall} {room : GameRoom} (hdoes : Does h call room) :
    room.domainEvents ≠ [] ↔ h.raises call = true := by
  cases hdoes with
  | join hr =>
    refine (events_joined hs hquiet hr _).trans ?_
    rw [Host.raises, hr]
    simp
  | move hconn hr =>
    refine iff_of_true (List.append_ne_nil_of_right_ne_nil _ (List.cons_ne_nil _ _)) ?_
    rw [Host.raises, hconn, hr]
    rfl
  | decide hconn hr =>
    refine iff_of_true (events_decideEncounter hr) ?_
    rw [Host.raises, hconn, hr]
    rfl
  | resolve hres =>
    have hmay : call.mayResolve = true := by cases hres <;> rfl
    exact iff_of_true (events_resolved_ne_nil _ _) ((raises_iff_resolves hmay).mpr ⟨_, _, hres⟩)
  | abandon hphase hwinner =>
    refine iff_of_true (List.append_ne_nil_of_right_ne_nil _ (List.cons_ne_nil _ _)) ?_
    simp [Host.raises, hphase, hwinner]

/-- A turn that does nothing raises nothing. -/
theorem raises_idle {h : Host} {call : SessionCall} (hidle : Idle h call) :
    h.raises call = false := by
  rw [Bool.eq_false_iff]
  intro hraises
  have hnone := hidle.nothing
  cases call with
  | addPlayer playerId now =>
    obtain ⟨hr, -⟩ := Bool.and_eq_true_iff.mp hraises
    exact hnone _ (.join (Option.isNone_iff_eq_none.mp hr))
  | moveUnits side command =>
    obtain ⟨hconn, hr⟩ := Bool.and_eq_true_iff.mp hraises
    exact hnone _ (.move hconn (Option.isNone_iff_eq_none.mp hr))
  | encounterDecision side edgeId decision =>
    obtain ⟨hconn, hr⟩ := Bool.and_eq_true_iff.mp hraises
    exact hnone _ (.decide hconn (Option.isNone_iff_eq_none.mp hr))
  | forceGameOver =>
    obtain ⟨hphase, hsome⟩ := Bool.and_eq_true_iff.mp hraises
    obtain ⟨winner, hwinner⟩ := Option.isSome_iff_exists.mp hsome
    exact hnone _ (.abandon (of_decide_eq_true hphase) hwinner)
  | checkAndResolveIfReady _ | planningTimeout _ _ | backupPlanningTimeout _ _ =>
    obtain ⟨room, now, hres⟩ := (raises_iff_resolves rfl).mp hraises
    exact hnone _ (.resolve hres)
  | onPlayerConnected _ _ | onPlayerDisconnected _ | getGameState _ | reconnectSync _ _ =>
    cases hraises

/-- **What a turn announces**: the room goes on in its session, no event is left waiting, and what
    was raised is announced; something was raised exactly if `Host.raises` says so. -/
theorem next_turn {h : Host} (hroom : InSession h.room) (hquiet : h.room.domainEvents = [])
    (call : SessionCall) :
    ∃ es, Turn es h (h.next call) ∧ (es ≠ [] ↔ h.raises call = true) := by
  rcases next_does hroom hquiet call with ⟨room, hdone⟩ | hidle
  · exact ⟨_, hdone.turn, raises_iff hroom.sound hquiet hdone.does⟩
  · refine ⟨[], hidle.turn, ?_⟩
    rw [raises_idle hidle]
    simp

/-! ## The invariant

`Hosting` is what the results about a single server start from. -/

/-- What holds of a lone host between two turns. -/
structure Hosting (h : Host) : Prop where
  room : InSession h.room
  quiet : h.room.domainEvents = []
  numbered : Numbered h.session

/-- **Every turn keeps the invariant.** -/
theorem Hosting.next {h : Host} (hh : Hosting h) (call : SessionCall) : Hosting (h.next call) := by
  obtain ⟨es, hturn, -⟩ := next_turn hh.room hh.quiet call
  exact ⟨hturn.room, hturn.quiet, hturn.announces.numbered hh.numbered⟩

variable {roomId serverId : String} {hasEventPublisher : Bool} {planningTimeout : Time}

/-- A room just made, and a buffer that is still empty. -/
theorem hosting_initial (roomId serverId : String) (hasEventPublisher : Bool)
    (planningTimeout : Time) :
    Hosting (Host.initial roomId serverId hasEventPublisher planningTimeout) where
  room := (inSession_initial roomId).relabel (some serverId) _
  quiet := (initialRoom_fields roomId).events
  numbered := ⟨CircularBuffer.capacity_new _ (by decide), fun _ hb => nomatch hb⟩

/-- Every state of a session's run satisfies the invariant. -/
theorem hosting_of_reachable {h : Host}
    (hreach : (hosts roomId serverId hasEventPublisher planningTimeout).Reachable h) : Hosting h :=
  hreach.invariant (hosting_initial _ _ _ _) fun _ call hh _ => hh.next call

/-- A resolution counts its round. -/
theorem currentRound_resolvedRound (h : Host) (now later : Time) :
    (h.resolvedRound now later).room.currentRound = h.room.currentRound + 1 := by
  rw [Host.resolvedRound, advanced_room]
  exact (resolved_frame sourceOrder h.room (now + h.session.planningTimeout)).currentRound

/-- A turn that resolves a round counts it. -/
theorem currentRound_of_resolves {h : Host} (hroom : InSession h.room) {call : SessionCall}
    {room : GameRoom} {now : Time} (hres : Resolves h call room now) :
    (h.next call).room.currentRound = h.room.currentRound + 1 := by
  have hcount : (h.next call).room.currentRound = room.currentRound + 1 := by
    rw [(next_of_resolves hroom hres).1, Host.room_synced, currentRound_resolvedRound]
  refine hcount.trans (congrArg (· + 1) ?_)
  cases hres with
  | ready _ _ => rfl
  | timeout _ _ => exact (timedOut_frame _).currentRound
  | backup _ _ => exact (timedOut_frame _).currentRound

end HexWar
