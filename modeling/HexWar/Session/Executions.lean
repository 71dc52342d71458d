/-
  What each command in distributed mode comes to.

  A turn that does something to its room (`Does`) raises events, and all but one kind of them go out
  whatever fails.  Unless the message about a decision cannot be sent, the events are flushed, buffered
  and sent, and the copy is saved if the write goes through (`perform_quiet`); otherwise the command
  stops with the decision buffered and the copy thrown away (`perform_interrupted`).  A turn that does
  nothing leaves no trace (`perform_idle`).

  Whether the two timers lose something is decided in between: the default decisions raise their
  events, and ResolveRound starts by clearing the outbox (`Host.loses`).

  The order of the module is that of a command.

  1. Announcing: one event, then the loop over all of them, with and without an attempt that fails.
     Only a decision is sent in a way that can throw, so `Delivers` asks about decisions alone.
  2. Under the lock: the load before the action and the save after it.
  3. The commands: each of the five kinds that do something, carried out or broken off.
  4. Every command: the kinds put together by cases on `Does`, and the calls that do nothing.

  Every lemma about a command that is carried out ends in `Carried`, and every one about a command that
  is broken off in `BrokenOff`; both speak of the records only, so that what they say can be added up
  over a run (`Outbox`, `Saving`).
-/
import HexWar.Session.Distributed

namespace HexWar

open Lib Lib.Action GameRoom

/-! ## Announcing

PublishAndBroadcastEventsAsync empties the room's outbox and then works off what was in it.  An
event for both sides is buffered, broadcast and published, and none of this throws; an event for one
player is buffered and then sent, and the sending may throw. -/

/-- Is an event meant for one player only? -/
def DomainEvent.isPrivate : DomainEvent → Bool
  | .encounterDecisionMade _ => true
  | .unitsDeparted _ | .roundResolved _ | .gameStarted _ | .roundStarted _ | .gameOver _
  | .unitsRetreated _ | .unitsAdvanced _ | .encounterOccurred _ | .encounterResolved _ => false

/-- Is an event sent to anyone by the server that raised it? -/
def DomainEvent.isSent (event : DomainEvent) : Bool := sentTo .a event || sentTo .b event

/-- A decision is sent to one of the two, whoever has made it. -/
theorem isSent_decisionMade (d : EncounterDecisionMade) :
    DomainEvent.isSent (.encounterDecisionMade d) = true := by
  rw [DomainEvent.isSent, sentTo, sentTo]
  cases d.decidingPlayer <;> rfl

namespace DistributedExecution

/-- The execution once an event is announced. -/
def announced (x : DistributedExecution) (event : DomainEvent) : DistributedExecution :=
  { x with
    host := x.host.announce event
    sends := if event.isPrivate then x.sends + 1 else x.sends
    buffered := x.buffered ++ [event]
    sent := if event.isSent then x.sent ++ [event] else x.sent
    published := if x.host.session.hasEventPublisher then x.published ++ [event] else x.published }

/-- The execution once the events of the room are announced. -/
def flush (x : DistributedExecution) : DistributedExecution :=
  x.host.room.domainEvents.foldl announced { x with
    host := { x.host with room := { x.host.room with domainEvents := [] } }
    flushed := x.flushed ++ x.host.room.domainEvents }

variable (x : DistributedExecution)

/-- What announcing leaves alone, and what it adds to the records. -/
theorem foldl_announced (events : List DomainEvent) :
    (events.foldl announced x).host = events.foldl Host.announce x.host ∧
      (events.foldl announced x).stored = x.stored ∧
      (events.foldl announced x).raised = x.raised ∧
      (events.foldl announced x).flushed = x.flushed ∧
      (events.foldl announced x).buffered = x.buffered ++ events ∧
      (events.foldl announced x).sent = x.sent ++ events.filter DomainEvent.isSent := by
  induction events generalizing x with
  | nil => exact ⟨rfl, rfl, rfl, rfl, (List.append_nil _).symm, (List.append_nil _).symm⟩
  | cons event events ih =>
    obtain ⟨hhost, hstored, hraised, hflushed, hbuffered, hsent⟩ := ih (x.announced event)
    refine ⟨hhost, hstored, hraised, hflushed, ?_, ?_⟩
    · refine hbuffered.trans ?_
      show x.buffered ++ [event] ++ events = _
      rw [List.append_assoc, List.singleton_append]
    · refine hsent.trans ?_
      show (if event.isSent then x.sent ++ [event] else x.sent) ++ _ = _
      by_cases hout : event.isSent = true
      · rw [if_pos hout, List.filter_cons_of_pos hout, List.append_assoc, List.singleton_append]
      · rw [if_neg hout, List.filter_cons_of_neg hout]

end DistributedExecution

/-- No message about a decision fails, when the next attempt is the n-th. -/
def Delivers (f : Faults) : Nat → List DomainEvent → Prop
  | _, [] => True
  | n, event :: events => (event.isPrivate = true → f.sendFails n = none) ∧
    Delivers f (if event.isPrivate then n + 1 else n) events

/-- Without a decision there is nothing to fail. -/
theorem delivers_of_public {f : Faults} {events : List DomainEvent}
    (h : ∀ event ∈ events, event.isPrivate = false) (n : Nat) : Delivers f n events := by
  induction events generalizing n with
  | nil => trivial
  | cons event events ih =>
    have hpublic := h event List.mem_cons_self
    refine ⟨fun hprivate => ?_, ih (fun e he => h e (List.mem_cons_of_mem _ he)) _⟩
    rw [hpublic] at hprivate
    cases hprivate

/-- One event after none that waits, and not a decision. -/
theorem delivers_appended {f : Faults} {room : GameRoom} (hquiet : room.domainEvents = [])
    {event : DomainEvent} (hpublic : event.isPrivate = false) (n : Nat) :
    Delivers f n (room.domainEvents ++ [event]) := by
  rw [hquiet, List.nil_append]
  refine delivers_of_public (fun e he => ?_) n
  rw [List.mem_singleton.mp he]
  exact hpublic

namespace Distributed

variable {f : Faults} {x : DistributedExecution}

/-- An attempt that does not fail is counted, and the message is in the player's inbox. -/
theorem sendToPlayer_ok {event : DomainEvent} {n : Int} (hsend : f.sendFails x.sends = none) :
    sendToPlayer f event n x = .ok () { x with
      sends := x.sends + 1, host := x.host.sendEvent event n, sent := x.sent ++ [event] } := by
  rw [sendToPlayer, bind_of_ok (get_apply x), bind_of_ok (modify_apply _ x)]
  simp only [hsend]
  rfl

/-- An attempt that fails is counted as well, and leaves nothing in any inbox. -/
theorem sendToPlayer_error {event : DomainEvent} {n : Int} {err : GameError}
    (hsend : f.sendFails x.sends = some err) :
    sendToPlayer f event n x = .error err { x with sends := x.sends + 1 } := by
  rw [sendToPlayer, bind_of_ok (get_apply x), bind_of_ok (modify_apply _ x)]
  simp only [hsend]
  rfl

/-- An event is announced unless it is a decision whose message cannot be sent. -/
theorem announce_ok {event : DomainEvent}
    (hsend : event.isPrivate = true → f.sendFails x.sends = none) :
    announce f event x = .ok () (x.announced event) := by
  cases event with
  | encounterDecisionMade d =>
    let kept : DistributedExecution := { x with
      host := { x.host with session := x.host.session.record (.encounterDecisionMade d) }
      buffered := x.buffered ++ [.encounterDecisionMade d] }
    rw [announce, bind_of_ok (get_apply x)]
    show (sendToPlayer f _ (x.host.session.eventSequence + 1) >>= _) kept = _
    rw [bind_of_ok (sendToPlayer_ok (x := kept) (hsend rfl)), DistributedExecution.announced,
      isSent_decisionMade]
    rfl
  | unitsDeparted _ | roundResolved _ | gameStarted _ | roundStarted _ | gameOver _ => rfl
  | unitsRetreated _ | unitsAdvanced _ | encounterOccurred _ | encounterResolved _ => rfl

/-- A message about a decision that cannot be sent stops the command, once the event is buffered. -/
theorem announce_error {d : EncounterDecisionMade} {err : GameError}
    (hsend : f.sendFails x.sends = some err) :
    announce f (.encounterDecisionMade d) x = .error err { x with
      host := { x.host with session := x.host.session.record (.encounterDecisionMade d) }
      buffered := x.buffered ++ [.encounterDecisionMade d]
      sends := x.sends + 1 } := by
  let kept : DistributedExecution := { x with
    host := { x.host with session := x.host.session.record (.encounterDecisionMade d) }
    buffered := x.buffered ++ [.encounterDecisionMade d] }
  rw [announce, bind_of_ok (get_apply x)]
  show (sendToPlayer f _ (x.host.session.eventSequence + 1) >>= _) kept = _
  rw [bind_of_error (sendToPlayer_error (x := kept) hsend)]

/-- If no message about a decision fails, the loop goes through all the events. -/
theorem forEach_announce_ok {events : List DomainEvent} (hall : Delivers f x.sends events) :
    ∃ us, forEach (announce f) events x =
      .ok us (events.foldl DistributedExecution.announced x) := by
  -- the loop keeps what is left of it deliverable, counted from the attempts made so far
  let I : List DomainEvent → DistributedExecution → Prop := fun es y => Delivers f y.sends es
  have hstep : ∀ e es y, I (e :: es) y → announce f e y = .ok () (y.announced e) ∧
      I es (y.announced e) := fun e es y hI => ⟨announce_ok hI.1, hI.2⟩
  exact ⟨_, (forEach_ok hstep events x hall).1⟩

/-- Then PublishAndBroadcastEventsAsync returns, and has emptied the outbox of the room. -/
theorem publish_ok (hall : Delivers f x.sends x.host.room.domainEvents) :
    publishAndBroadcastEvents f x = .ok () x.flush := by
  let taken : DistributedExecution := { x with
    host := { x.host with room := { x.host.room with domainEvents := [] } }
    flushed := x.flushed ++ x.host.room.domainEvents }
  obtain ⟨us, hloop⟩ := forEach_announce_ok (x := taken) hall
  show (forEach (announce f) x.host.room.domainEvents >>= _) taken = _
  rw [bind_of_ok hloop]
  rfl

/-- Otherwise the loop stops at a decision.  What came before it has been told, it has been buffered
    itself, and the rest has neither been buffered nor sent. -/
theorem forEach_announce_error {events : List DomainEvent} (hno : ¬ Delivers f x.sends events) :
    ∃ err y, forEach (announce f) events x = .error err y ∧ y.stored = x.stored ∧
      y.raised = x.raised ∧ y.flushed = x.flushed ∧
      ∃ told decisionMade rest, events = told ++ .encounterDecisionMade decisionMade :: rest ∧
        y.buffered = x.buffered ++ told ++ [.encounterDecisionMade decisionMade] ∧
        y.sent = x.sent ++ told.filter DomainEvent.isSent := by
  induction events generalizing x with
  | nil => exact absurd trivial hno
  | cons event events ih =>
    show ∃ err y, (announce f event >>= fun b => forEach (announce f) events >>= fun bs =>
      pure (b :: bs)) x = .error err y ∧ _
    by_cases hsend : event.isPrivate = true → f.sendFails x.sends = none
    · -- this one is told, and the loop goes on
      have hrest : ¬ Delivers f (x.announced event).sends events := fun h => hno ⟨hsend, h⟩
      obtain ⟨err, y, hloop, hstored, hraised, hflushed, told, d, rest, hsplit, hbuffered, hsent⟩ :=
        ih hrest
      obtain ⟨-, -, -, -, hbuffered', hsent'⟩ := x.foldl_announced [event]
      refine ⟨err, y, ?_, hstored, hraised, hflushed, event :: told, d, rest, ?_, ?_, ?_⟩
      · rw [bind_of_ok (announce_ok hsend), bind_of_error hloop]
      · rw [hsplit, List.cons_append]
      · rw [hbuffered, show (x.announced event).buffered = x.buffered ++ [event] from hbuffered']
        simp
      · rw [hsent, show (x.announced event).sent = x.sent ++ _ from hsent', List.append_assoc,
          ← List.filter_append, List.singleton_append]
    · -- only a decision can fail
      obtain ⟨hprivate, hfails⟩ := Classical.not_imp.mp hsend
      obtain ⟨err, herr⟩ := Option.ne_none_iff_exists'.mp hfails
      cases event with
      | encounterDecisionMade d =>
        refine ⟨err, _, bind_of_error (announce_error herr), rfl, rfl, rfl, [], d, events, rfl, ?_, ?_⟩
        · rw [List.append_nil]
        · exact (List.append_nil _).symm
      | unitsDeparted _ | roundResolved _ | gameStarted _ | roundStarted _ | gameOver _ => cases hprivate
      | unitsRetreated _ | unitsAdvanced _ | encounterOccurred _ | encounterResolved _ => cases hprivate

end Distributed

/-! ## Under the lock

ExecuteOnGameRoomAsync gets a copy of the room, runs the action on it and saves it.  An action that
throws leaves the lock without a save, and with it goes everything it did to the copy; what it has
buffered and sent stays. -/

namespace DistributedExecution

/-- The execution with the room loaded. -/
def loaded (x : DistributedExecution) : DistributedExecution :=
  { x with host := Host.synced { x.host with room := x.stored } }

/-- The execution with its copy saved, unless the write fails. -/
def saved (f : Faults) (x : DistributedExecution) : DistributedExecution :=
  { x with host := x.host.synced, stored := if f.saveFails then x.stored else x.host.room }

/-- The execution with its copy at `room`, where all that waits has been raised since. -/
def atRoom (x : DistributedExecution) (room : GameRoom) : DistributedExecution :=
  { x with host := { x.host with room := room }, raised := x.raised ++ room.domainEvents }

/-- A flush takes the events out of the copy and leaves the rest of it. -/
theorem flush_room (x : DistributedExecution) (room : GameRoom) :
    (x.atRoom room).flush.host.room = { room with domainEvents := [] } := by
  let taken : DistributedExecution := { x.atRoom room with
    host := { x.host with room := { room with domainEvents := [] } }
    flushed := x.flushed ++ room.domainEvents }
  have hhost := (taken.foldl_announced room.domainEvents).1
  exact (congrArg Host.room hhost).trans (Host.foldl_announce_room _ _)

end DistributedExecution

namespace Distributed

variable {f : Faults} {x : DistributedExecution}

/-- What the action returns is returned, after the save. -/
theorem executeOnGameRoom_ok {α : Type} {action : Command α} {a : α} {y : DistributedExecution}
    (hx : action x.loaded = .ok a y) : executeOnGameRoom f action x = .ok a (y.saved f) := by
  show (action >>= _) x.loaded = _
  rw [bind_of_ok hx]
  rfl

/-- What the action throws is thrown, and nothing is saved. -/
theorem executeOnGameRoom_error {α : Type} {action : Command α} {e : GameError}
    {y : DistributedExecution} (hx : action x.loaded = .error e y) :
    executeOnGameRoom f action x = .error e y := by
  show (action >>= _) x.loaded = _
  rw [bind_of_error hx]

/-- The session's own steps are run on the server inside of the execution. -/
theorem lift_ok {α : Type} {action : Service α} {a : α} {host : Host}
    (h : action x.host = .ok a host) : lift action x = .ok a { x with host := host } := by
  rw [lift, h]

/-- They pass on what they throw. -/
theorem lift_error {α : Type} {action : Service α} {e : GameError} {host : Host}
    (h : action x.host = .error e host) : lift action x = .error e { x with host := host } := by
  rw [lift, h]

/-- An operation of the room that returns: the copy changes, and what it raised is recorded. -/
theorem onRoom_returns {α : Type} {op : Game α} {a : α} {room : GameRoom}
    (hop : op x.host.room = .ok a room) : onRoom op x = .ok a { x with
      host := { x.host with room := room }, raised := x.raised ++ raisedBy op x.host.room } := by
  rw [onRoom, bind_of_ok (modify_apply _ x)]
  exact lift_ok (HexWar.onRoom_ok hop)

/-- An operation that appends to the outbox what it raises. -/
theorem onRoom_ok {α : Type} {op : Game α} {a : α} {room room' : GameRoom}
    (hop : op room = .ok a room')
    (hraised : room.domainEvents ++ raisedBy op room = room'.domainEvents) :
    onRoom op (x.atRoom room) = .ok a (x.atRoom room') := by
  refine (onRoom_returns (x := x.atRoom room) hop).trans ?_
  show EStateM.Result.ok a { x.atRoom room' with
    raised := x.raised ++ room.domainEvents ++ raisedBy op room } = _
  rw [List.append_assoc, hraised]
  rfl

/-- What an operation raises in a room where nothing waits is all that waits after it. -/
theorem raisedBy_of_quiet {α : Type} {op : Game α} {a : α} {room room' : GameRoom}
    (hquiet : room.domainEvents = []) (hop : op room = .ok a room') :
    raisedBy op room = room'.domainEvents := by
  have hself : { room with domainEvents := [] } = room := by rw [← hquiet]
  rw [raisedBy, hself, after_ok hop]

/-- An operation on a copy in which nothing waits. -/
theorem onRoom_ok_of_quiet {α : Type} {op : Game α} {a : α} {room : GameRoom}
    (hquiet : x.host.room.domainEvents = []) (hop : op x.host.room = .ok a room) :
    onRoom op x = .ok a (x.atRoom room) := by
  rw [onRoom_returns hop, raisedBy_of_quiet hquiet hop]
  rfl

/-- A refused operation raises nothing. -/
theorem onRoom_error {α : Type} {op : Game α} {e : GameError}
    (hquiet : x.host.room.domainEvents = []) (hop : op x.host.room = .error e x.host.room) :
    onRoom op x = .error e x := by
  have hself : { x.host.room with domainEvents := [] } = x.host.room := by rw [← hquiet]
  have hraised : raisedBy op x.host.room = [] := by
    rw [raisedBy, hself, after_error hop, hquiet]
  rw [onRoom, bind_of_ok (modify_apply _ x), hraised, List.append_nil]
  exact lift_error (HexWar.onRoom_error hop)

end Distributed

/-! ## Commands

The relations between the execution before a command and after it.  They are the interface of this
module: the later ones never look at a command's steps again. -/

namespace DistributedExecution

/-- The server with the stored room. -/
def server (x : DistributedExecution) : Host := { x.host with room := x.stored }

end DistributedExecution

/-- A command was carried out: the events of `room` are flushed and told, and it is saved without them
    unless the write fails; `lost` was raised and never flushed. -/
structure Carried (f : Faults) (lost : List DomainEvent) (room : GameRoom)
    (x y : DistributedExecution) : Prop where
  /-- The error of a write is swallowed, so the command returns as if it had been saved. -/
  stored : y.stored = if f.saveFails then x.stored else { room with domainEvents := [] }
  /-- First what was cleared away, then what is left in the outbox. -/
  raised : y.raised = x.raised ++ lost ++ room.domainEvents
  flushed : y.flushed = x.flushed ++ room.domainEvents
  buffered : y.buffered = x.buffered ++ room.domainEvents
  sent : y.sent = x.sent ++ room.domainEvents.filter DomainEvent.isSent

/-- A command was broken off at a decision, which was buffered but could not be sent. -/
structure BrokenOff (room : GameRoom) (x y : DistributedExecution) : Prop where
  /-- The copy is thrown away, and the stored room does not know of the decision. -/
  stored : y.stored = x.stored
  raised : y.raised = x.raised ++ room.domainEvents
  flushed : y.flushed = x.flushed ++ room.domainEvents
  /-- The rest was raised and flushed, and is neither buffered nor sent. -/
  told : ∃ told decisionMade rest,
    room.domainEvents = told ++ .encounterDecisionMade decisionMade :: rest ∧
      y.buffered = x.buffered ++ told ++ [.encounterDecisionMade decisionMade] ∧
      y.sent = x.sent ++ told.filter DomainEvent.isSent

/-- Nothing was raised, told or changed. -/
structure Unmoved (x y : DistributedExecution) : Prop where
  stored : y.stored = x.stored
  raised : y.raised = x.raised
  flushed : y.flushed = x.flushed
  buffered : y.buffered = x.buffered
  sent : y.sent = x.sent
  published : y.published = x.published

namespace Distributed

variable {f : Faults} {x : DistributedExecution}

/-- Telling the events of the copy, and saving it: `y` is the command before anything of `room` was
    raised. -/
theorem carried_of_flush (x y : DistributedExecution) {lost : List DomainEvent}
    (hraised : y.raised = x.raised ++ lost)
    (hsame : y.stored = x.stored ∧ y.flushed = x.flushed ∧ y.buffered = x.buffered ∧
      y.sent = x.sent) {room : GameRoom} {host : Host}
    (hhost : host.room = (y.atRoom room).flush.host.room) :
    Carried f lost room x ({ (y.atRoom room).flush with host := host }.saved f) := by
  obtain ⟨hstored, hflushed, hbuffered, hsent⟩ := hsame
  -- the records of `y` are those of `x` but for what was lost; a flush adds the events of the room
  -- to each
  let z := y.atRoom room
  obtain ⟨-, hstored', hraised', hflushed', hbuffered', hsent'⟩ :=
    DistributedExecution.foldl_announced { z with
      host := { z.host with room := { z.host.room with domainEvents := [] } }
      flushed := z.flushed ++ z.host.room.domainEvents } z.host.room.domainEvents
  refine ⟨?_, ?_, ?_, ?_, ?_⟩
  · show (if f.saveFails then z.flush.stored else host.room) = _
    rw [hhost, y.flush_room room, ← hstored]
    exact congrArg (fun r => if f.saveFails = true then r else _) hstored'
  · rw [← hraised]
    exact hraised'
  · exact hflushed'.trans (congrArg (· ++ _) hflushed)
  · exact hbuffered'.trans (congrArg (· ++ _) hbuffered)
  · exact hsent'.trans (congrArg (· ++ _) hsent)

/-- A flush that meets a decision which cannot be sent breaks off. -/
theorem publish_error {room : GameRoom} (hno : ¬ Delivers f x.sends room.domainEvents) :
    ∃ err y, publishAndBroadcastEvents f (x.atRoom room) = .error err y ∧ BrokenOff room x y := by
  let taken : DistributedExecution := { x.atRoom room with
    host := { x.host with room := { room with domainEvents := [] } }
    flushed := x.flushed ++ room.domainEvents }
  obtain ⟨err, y, hloop, hstored, hraised, hflushed, htold⟩ :=
    forEach_announce_error (x := taken) hno
  refine ⟨err, y, ?_, hstored, hraised, hflushed, htold⟩
  show (forEach (announce f) room.domainEvents >>= _) taken = _
  rw [bind_of_error hloop]

/-- Joining: the copy is the joined room, and its events go out. -/
theorem addPlayerToRoom_joined (hmap : OnMap x.stored) (hquiet : x.stored.domainEvents = [])
    {playerId : PlayerId} (hr : x.stored.joinRefusal playerId = none) {now : Time}
    (hall : Delivers f x.sends
      (x.stored.joined playerId (now + x.host.session.planningTimeout)).domainEvents) :
    ∃ y, (access f).addPlayerToRoom playerId now x = .ok x.stored.vacantSide y ∧
      Carried f [] (x.stored.joined playerId (now + x.host.session.planningTimeout)) x y := by
  let room := x.stored.joined playerId (now + x.host.session.planningTimeout)
  obtain ⟨node, hnode⟩ := hmap.start x.stored.vacantSide
  have heq := addPlayer_eq hnode playerId (some (now + x.host.session.planningTimeout)) now
  rw [hr] at heq
  have hop : onRoom (addPlayer playerId (some (now + x.host.session.planningTimeout)) now) x.loaded =
      .ok x.stored.vacantSide (x.loaded.atRoom room) := onRoom_ok_of_quiet hquiet heq
  -- the action step by step: the clock, the room's own AddPlayer, the flush
  refine ⟨_, executeOnGameRoom_ok (y := (x.loaded.atRoom room).flush) ?_,
    carried_of_flush x x.loaded (List.append_nil _).symm ⟨rfl, rfl, rfl, rfl⟩ rfl⟩
  rw [bind_of_ok (get_apply _)]
  refine (bind_of_ok hop).trans ?_
  rw [bind_of_ok (publish_ok (x := x.loaded.atRoom room) hall)]
  rfl

/-- A move: the session notes whether the side has any move left, before the events go out. -/
theorem handleMoveUnits_moved (hquiet : x.stored.domainEvents = []) {side : PlayerSide}
    {command : MoveCommand} (hconn : (x.host.session.playerStates.get side).isConnected = true)
    (hr : x.stored.sessionMoveRefusal side command = none)
    (hall : Delivers f x.sends
      (x.stored.reserve side (x.stored.adjusted side command)).domainEvents) :
    ∃ y, (access f).handleMoveUnits side command x = .ok (x.stored.moveAnswer side command) y ∧
      Carried f [] (x.stored.reserve side (x.stored.adjusted side command)) x y := by
  let room := x.stored.reserve side (x.stored.adjusted side command)
  -- the session's own checks come first, the room's are made in `moveUnits`
  obtain ⟨hphase, hleft, hmove⟩ := moveRefusal_of_session hr
  have heq := moveUnits_eq x.stored side (x.stored.adjusted side command)
  rw [hmove] at heq
  have hop : onRoom (moveUnits side (x.stored.adjusted side command)) x.loaded =
      .ok ⟨x.stored.granted side (x.stored.adjusted side command), command.fromNode, command.toNode⟩
        (x.loaded.atRoom room) := onRoom_ok_of_quiet hquiet heq
  let noted : DistributedExecution := { x.loaded with
    host := { x.loaded.host with
      session := x.loaded.host.session.updatePlayer side fun p =>
        { p with moveCommandCompleted := decide (room.getRemainingUnits side ≤ 0) } } }
  refine ⟨((noted.atRoom room).flush).saved f, ?_,
    carried_of_flush x noted (List.append_nil _).symm ⟨rfl, rfl, rfl, rfl⟩ rfl⟩
  rw [RoomAccess.handleMoveUnits, bind_of_ok (get_apply x)]
  rw [if_neg (not_not_intro hconn)]
  refine executeOnGameRoom_ok (y := (noted.atRoom room).flush) ?_
  rw [bind_of_ok (get_apply _), throwIf_bind]
  refine (if_neg (not_not_intro hphase)).trans ?_
  rw [throwIf_bind]
  refine (if_neg (Int.not_le.mpr hleft)).trans ?_
  refine (bind_of_ok hop).trans ?_
  show (publishAndBroadcastEvents f >>= _) (noted.atRoom room) = _
  rw [bind_of_ok (publish_ok (x := noted.atRoom room) hall)]
  rfl

/-- The room's part of a decision, on the copy that was loaded. -/
theorem onRoom_decided (hquiet : x.stored.domainEvents = []) {side : PlayerSide} {edgeId : EdgeId}
    {decision : EncounterDecision} (hr : x.stored.decisionRefusal edgeId side decision = none) :
    onRoom (resolveEncounter edgeId side decision) x.loaded =
      .ok () (x.loaded.atRoom (x.stored.decideEncounter edgeId side decision)) := by
  have heq := resolveEncounter_eq x.stored edgeId side decision
  rw [hr] at heq
  exact onRoom_ok_of_quiet hquiet heq

/-- A decision whose message can be sent.  The answer says whether the encounter is still open, and
    asks the copy after the flush. -/
theorem handleEncounterDecision_decided (hquiet : x.stored.domainEvents = []) {side : PlayerSide}
    {edgeId : EdgeId} {decision : EncounterDecision}
    (hconn : (x.host.session.playerStates.get side).isConnected = true)
    (hr : x.stored.decisionRefusal edgeId side decision = none)
    (hall : Delivers f x.sends (x.stored.decideEncounter edgeId side decision).domainEvents) :
    ∃ y, (access f).handleEncounterDecision side edgeId decision x =
        .ok (x.stored.decisionAnswer edgeId side decision) y ∧
      Carried f [] (x.stored.decideEncounter edgeId side decision) x y := by
  let room := x.stored.decideEncounter edgeId side decision
  have hop : onRoom (resolveEncounter edgeId side decision) x.loaded =
      .ok () (x.loaded.atRoom room) := onRoom_decided hquiet hr
  let noted : DistributedExecution := { x.loaded with
    host := { x.loaded.host with
      session := x.loaded.host.session.updatePlayer side fun p =>
        { p with encounterDecisionsCompleted := (room.getUndecidedEncounters side).isEmpty } } }
  refine ⟨((noted.atRoom room).flush).saved f, ?_,
    carried_of_flush x noted (List.append_nil _).symm ⟨rfl, rfl, rfl, rfl⟩ rfl⟩
  rw [RoomAccess.handleEncounterDecision, bind_of_ok (get_apply x)]
  rw [if_neg (not_not_intro hconn)]
  refine executeOnGameRoom_ok (y := (noted.atRoom room).flush) ?_
  rw [bind_of_ok hop]
  show (publishAndBroadcastEvents f >>= _) (noted.atRoom room) = _
  rw [bind_of_ok (publish_ok (x := noted.atRoom room) hall)]
  show EStateM.Result.ok (EncounterDecisionCommandResult.success (toString edgeId)
    (toString decision) (!(noted.atRoom room).flush.host.room.hasPendingEncounterOn edgeId)) _ = _
  rw [noted.flush_room room]
  rfl

/-- A message about the decision cannot be sent: the copy is thrown away. -/
theorem handleEncounterDecision_interrupted (hquiet : x.stored.domainEvents = [])
    {side : PlayerSide} {edgeId : EdgeId} {decision : EncounterDecision}
    (hconn : (x.host.session.playerStates.get side).isConnected = true)
    (hr : x.stored.decisionRefusal edgeId side decision = none)
    (hno : ¬ Delivers f x.sends (x.stored.decideEncounter edgeId side decision).domainEvents) :
    ∃ err y, (access f).handleEncounterDecision side edgeId decision x = .error err y ∧
      BrokenOff (x.stored.decideEncounter edgeId side decision) x y := by
  let room := x.stored.decideEncounter edgeId side decision
  have hop : onRoom (resolveEncounter edgeId side decision) x.loaded =
      .ok () (x.loaded.atRoom room) := onRoom_decided hquiet hr
  let noted : DistributedExecution := { x.loaded with
    host := { x.loaded.host with
      session := x.loaded.host.session.updatePlayer side fun p =>
        { p with encounterDecisionsCompleted := (room.getUndecidedEncounters side).isEmpty } } }
  obtain ⟨err, y, hpublish, hbroken⟩ := publish_error (x := noted) hno
  refine ⟨err, y, ?_, hbroken.stored, hbroken.raised, hbroken.flushed, hbroken.told⟩
  rw [RoomAccess.handleEncounterDecision, bind_of_ok (get_apply x)]
  rw [if_neg (not_not_intro hconn)]
  refine executeOnGameRoom_error ?_
  rw [bind_of_ok hop]
  show (publishAndBroadcastEvents f >>= _) (noted.atRoom room) = _
  rw [bind_of_error hpublish]

end Distributed

/-! ### Resolving a round -/

/-- A decision appends what it raises. -/
theorem raisedBy_resolveEncounter {room : GameRoom} {edgeId : EdgeId} {side : PlayerSide}
    {decision : EncounterDecision} (hr : room.decisionRefusal edgeId side decision = none) :
    room.domainEvents ++ raisedBy (resolveEncounter edgeId side decision) room =
      (room.decideEncounter edgeId side decision).domainEvents := by
  let quiet : GameRoom := { room with domainEvents := [] }
  have hr' : quiet.decisionRefusal edgeId side decision = none := hr
  have heq := resolveEncounter_eq quiet edgeId side decision
  rw [hr'] at heq
  obtain ⟨-, pending, e, hpending, -, he, -⟩ := decisionRefusal_none hr
  have hpending' : quiet.encounterOn edgeId = some pending := hpending
  have he' : quiet.edges.get? edgeId = some e := he
  rw [raisedBy, after_ok heq, decideEncounter_eq hpending' he', decideEncounter_eq hpending he]
  show room.domainEvents ++ ([] ++ [_, _] ++ _) = room.domainEvents ++ [_, _] ++ _
  rw [List.nil_append, List.append_assoc]
  rfl

/-- A resolution starts by clearing the outbox. -/
theorem raisedBy_resolveRound {room : GameRoom} (hroom : InSession room)
    (hphase : room.phase = .planning) (deadline now : Time) :
    raisedBy (resolveRound (some deadline) now) room =
      (sourceOrder.resolved room deadline).domainEvents := by
  let quiet : GameRoom := { room with domainEvents := [] }
  have hquiet : InSession quiet := hroom.relabel room.ownerServerId []
  have hok := resolveRound_ok (hquiet.sound.resolvable hphase) (some deadline) now
  exact congrArg GameRoom.domainEvents (after_ok hok)

namespace Distributed

variable {f : Faults}

theorem retreatUndecided_ok (y : DistributedExecution) {room : GameRoom} (hroom : InSession room)
    (hphase : room.phase = .planning) (side : PlayerSide) :
    (access f).retreatUndecided side (y.atRoom room) = .ok () (y.atRoom (room.retreated side)) ∧
      Retreating side [] (y.atRoom (room.retreated side)).host := by
  let decide (r : GameRoom) (enc : PendingEncounter) : GameRoom :=
    r.decideEncounter enc.edgeId side .retreat
  -- only the copy changes, and what it raises is all that waits in it
  let I (encs : List PendingEncounter) (z : DistributedExecution) : Prop :=
    z = y.atRoom z.host.room ∧ Retreating side encs z.host
  have hstep : ∀ enc encs z, I (enc :: encs) z →
      onRoom (resolveEncounter enc.edgeId side .retreat) z = .ok () (y.atRoom (decide z.host.room enc)) ∧
        I encs (y.atRoom (decide z.host.room enc)) := by
    rintro enc encs z ⟨hz, hinv⟩
    have hmem : enc ∈ z.host.room.getUndecidedEncounters side :=
      hinv.undecided ▸ List.mem_cons_self
    obtain ⟨hpending, hopen⟩ := List.mem_filter.mp hmem
    obtain ⟨-, hok⟩ := decidable_of_undecided hinv.inSession hinv.phase hpending
      (show enc.hasDecided side = false by simpa using hopen) .retreat
    have heq := resolveEncounter_eq z.host.room enc.edgeId side .retreat
    rw [hok] at heq
    refine ⟨?_, rfl, hinv.inSession.decided _ _ hok,
      (decideEncounter_frame _ _ _ _).phase.trans hinv.phase,
      undecided_decideEncounter hinv.inSession hinv.phase hinv.undecided .retreat⟩
    rw [hz]
    exact onRoom_ok heq (raisedBy_resolveEncounter hok)
  obtain ⟨hloop, -, hlast⟩ := forEach_ok hstep (room.getUndecidedEncounters side) (y.atRoom room)
    ⟨rfl, hroom, hphase, rfl⟩
  have hfold : ∀ (encs : List PendingEncounter) (r : GameRoom),
      encs.foldl (fun z enc => y.atRoom (decide z.host.room enc)) (y.atRoom r) =
        y.atRoom (encs.foldl decide r) := by
    intro encs
    induction encs with
    | nil => exact fun _ => rfl
    | cons enc encs ih => exact fun r => ih _
  rw [hfold] at hloop hlast
  refine ⟨?_, hlast⟩
  rw [RoomAccess.retreatUndecided, bind_of_ok (get_apply _)]
  exact bind_of_ok hloop

/-- Nothing of a resolution is for one player only. -/
theorem delivers_resolved {room resolved : GameRoom} {deadline : Time}
    (hresolved : sourceOrder.resolved room deadline = resolved) (n : Nat) :
    Delivers f n resolved.domainEvents := by
  refine delivers_of_public (fun event hevent => ?_) n
  rw [← hresolved, ProcessingOrder.resolved, opened] at hevent
  split at hevent
  · rcases List.mem_append.mp hevent with hfirst | hlast
    · rw [List.mem_singleton.mp hfirst]
      rfl
    · rw [List.mem_singleton.mp hlast]
      rfl
  · rcases List.mem_append.mp hevent with hfirst | hlast
    · rw [List.mem_singleton.mp hfirst]
      rfl
    · rw [List.mem_singleton.mp hlast]
      rfl

/-- What follows the announcements of a resolution is the session's own business. -/
theorem afterResolution_ok (t : DistributedExecution) (result : RoundResolutionResult)
    (deadline now : Time) : ∃ host, (do
      (access f).modifySession (·.resetForNewRound)
      let h := (access f).host (← get)
      (access f).modifySession fun s =>
        if result.gameOver then s.stopPlanningTimer
        else GameSession.startPlanningTimer { s with planningDeadline := some deadline }
          h.room.currentRound none now
      if result.gameOver then (access f).lift (onGameOver result.winner .allNodesCaptured) :
        Command Unit) t =
        .ok () { t with host := host } ∧ host.room = t.host.room := by
  by_cases hover : result.gameOver = true
  · simp only [hover, if_true]
    exact ⟨_, rfl, rfl⟩
  · simp only [hover]
    exact ⟨_, rfl, rfl⟩

theorem resolveRoundNow_of_ok (y : DistributedExecution) {room resolved : GameRoom}
    {result : RoundResolutionResult} {now : Time}
    (hok : resolveRound (some (now + y.host.session.planningTimeout)) now room =
      .ok result resolved)
    (hraised : raisedBy (resolveRound (some (now + y.host.session.planningTimeout)) now) room =
      resolved.domainEvents)
    (hall : Delivers f y.sends resolved.domainEvents) :
    ∃ session host, (access f).resolveRoundNow now now (y.atRoom room) = .ok () {
        (DistributedExecution.atRoom
          { y with host := { y.host with session := session }, raised := y.raised ++ room.domainEvents }
          resolved).flush with host := host } ∧
      host.room = { resolved with domainEvents := [] } := by
  let deadline := now + y.host.session.planningTimeout
  let stopped : DistributedExecution := { y with
    host := { y.host with session := y.host.session.stopPlanningTimer } }
  have hop := onRoom_returns (x := stopped.atRoom room) hok
  rw [show (stopped.atRoom room).host.room = room from rfl, hraised] at hop
  let session := y.host.session.stopPlanningTimer.syncMetadata resolved
  let told : DistributedExecution :=
    { y with host := { y.host with session := session }, raised := y.raised ++ room.domainEvents }
  obtain ⟨host, hafter, hhost⟩ := afterResolution_ok (told.atRoom resolved).flush result deadline now
  refine ⟨session, host, ?_, hhost.trans (told.flush_room resolved)⟩
  show (onRoom (resolveRound (some deadline) now) >>= _) (stopped.atRoom room) = _
  rw [bind_of_ok hop]
  show (publishAndBroadcastEvents f >>= _) (told.atRoom resolved) = _
  rw [bind_of_ok (publish_ok (x := told.atRoom resolved) hall)]
  exact hafter

theorem resolveRoundNow_ok (y : DistributedExecution) {timeout : Time}
    (htimeout : y.host.session.planningTimeout = timeout) {room : GameRoom}
    (hroom : InSession room) (hphase : room.phase = .planning) (now : Time) :
    ∃ session host, (access f).resolveRoundNow now now (y.atRoom room) = .ok () {
        (DistributedExecution.atRoom
          { y with host := { y.host with session := session }, raised := y.raised ++ room.domainEvents }
          (sourceOrder.resolved room (now + timeout))).flush with host := host } ∧
      host.room = { sourceOrder.resolved room (now + timeout) with domainEvents := [] } := by
  subst htimeout
  have hok : resolveRound (some (now + y.host.session.planningTimeout)) now room =
      .ok (sourceOrder.closedRoom room).openingResult
        (sourceOrder.resolved room (now + y.host.session.planningTimeout)) :=
    resolveRound_ok (hroom.sound.resolvable hphase) _ now
  have hraised := raisedBy_resolveRound hroom hphase (now + y.host.session.planningTimeout) now
  generalize hresolved : sourceOrder.resolved room (now + y.host.session.planningTimeout) = resolved
    at hok hraised ⊢
  exact resolveRoundNow_of_ok y hok hraised (delivers_resolved hresolved _)

theorem resolveTimedOut_ok (y : DistributedExecution) {room : GameRoom} (hroom : InSession room)
    (hphase : room.phase = .planning) (now : Time) :
    (access f).resolveTimedOut now now (y.atRoom room) = (access f).resolveRoundNow now now
      (y.atRoom room.timedOut) ∧
      InSession room.timedOut := by
  obtain ⟨hA, hinvA⟩ := retreatUndecided_ok y hroom hphase .a
  obtain ⟨hB, hinvB⟩ := retreatUndecided_ok y hinvA.inSession hinvA.phase .b
  refine ⟨?_, hinvB.inSession⟩
  rw [RoomAccess.resolveTimedOut, bind_of_ok hA]
  exact bind_of_ok hB

variable {x : DistributedExecution}

theorem loaded_atRoom {room : GameRoom} (hquiet : room.domainEvents = []) :
    x.loaded.atRoom room = { x.loaded with host := { x.loaded.host with room := room } } := by
  rw [DistributedExecution.atRoom, hquiet, List.append_nil]

/-- A command that comes down to the resolution of a room. -/
theorem executeOnGameRoom_resolves {action : Command Unit} {room : GameRoom} {now : Time}
    (hroom : InSession room) (hphase : room.phase = .planning)
    (haction : action x.loaded = (access f).resolveRoundNow now now (x.loaded.atRoom room)) :
    ∃ y, executeOnGameRoom f action x = .ok () y ∧ Carried f room.domainEvents
      (sourceOrder.resolved room (now + x.host.session.planningTimeout)) x y := by
  have htimeout : x.loaded.host.session.planningTimeout = x.host.session.planningTimeout := rfl
  obtain ⟨session, host, hok, hhost⟩ := resolveRoundNow_ok (f := f) x.loaded htimeout hroom hphase now
  let told : DistributedExecution := { x.loaded with
    host := { x.loaded.host with session := session }, raised := x.raised ++ room.domainEvents }
  exact ⟨_, executeOnGameRoom_ok (haction.trans hok), carried_of_flush x told rfl
    ⟨rfl, rfl, rfl, rfl⟩ (hhost.trans (told.flush_room _).symm)⟩

/-- The same after the default decisions. -/
theorem executeOnGameRoom_timedOut {action : Command Unit} {room : GameRoom} {now : Time}
    (hroom : InSession room) (hphase : room.phase = .planning)
    (haction : action x.loaded = (access f).resolveTimedOut now now (x.loaded.atRoom room)) :
    ∃ y, executeOnGameRoom f action x = .ok () y ∧ Carried f room.timedOut.domainEvents
      (sourceOrder.resolved room.timedOut (now + x.host.session.planningTimeout)) x y := by
  obtain ⟨htimedOut, hin⟩ := resolveTimedOut_ok (f := f) x.loaded hroom hphase now
  exact executeOnGameRoom_resolves hin ((timedOut_frame room).phase.trans hphase)
    (haction.trans htimedOut)

theorem perform_resolves (hroom : InSession x.stored) (hquiet : x.stored.domainEvents = [])
    {call : SessionCall} {room : GameRoom} {now : Time} (hres : Resolves x.server call room now) :
    ∃ y, perform f call x = .ok true y ∧ Carried f room.domainEvents
      (sourceOrder.resolved room (now + x.host.session.planningTimeout)) x y := by
  cases hres with
  | ready hready hall =>
    have hphase := (hroom.orderly.ready hroom.sound hready).1
    have hrun : ∃ y, (access f).checkAndResolveIfReady now now x = .ok () y ∧
        Carried f x.stored.domainEvents
          (sourceOrder.resolved x.stored (now + x.host.session.planningTimeout)) x y := by
      refine executeOnGameRoom_resolves hroom hphase ?_
      rw [bind_of_ok (get_apply _), loaded_atRoom hquiet]
      exact congrFun (if_pos ⟨hready, hall⟩) _
    obtain ⟨y, hok, hcarried⟩ := hrun
    exact ⟨y, bind_of_ok hok, hcarried⟩
  | @timeout forRound _ hphase hround =>
    have hrun : ∃ y, (access f).onPlanningTimeout forRound now now x = .ok () y ∧
        Carried f x.stored.timedOut.domainEvents
          (sourceOrder.resolved x.stored.timedOut (now + x.host.session.planningTimeout)) x y := by
      refine executeOnGameRoom_timedOut hroom hphase ?_
      rw [bind_of_ok (get_apply _), loaded_atRoom hquiet]
      exact congrFun (if_pos ⟨hphase, hround⟩) _
    obtain ⟨y, hok, hcarried⟩ := hrun
    exact ⟨y, bind_of_ok hok, hcarried⟩
  | @backup forRound _ hphase hround =>
    -- the backup takes the room over before it decides for anybody, and that raises nothing
    let owned : GameRoom := { x.stored with ownerServerId := some x.host.session.serverId }
    have hassign : onRoom (assignOwner x.host.session.serverId) x.loaded =
        .ok () (x.loaded.atRoom owned) := onRoom_ok_of_quiet hquiet rfl
    have hrun : ∃ y, (access f).onBackupPlanningTimeout forRound now now x = .ok () y ∧
        Carried f owned.timedOut.domainEvents
          (sourceOrder.resolved owned.timedOut (now + x.host.session.planningTimeout)) x y := by
      refine executeOnGameRoom_timedOut
        (hroom.relabel (some x.host.session.serverId) x.stored.domainEvents) hphase ?_
      rw [bind_of_ok (get_apply _)]
      exact (congrFun (if_pos ⟨hphase, hround⟩) _).trans (bind_of_ok hassign)
    obtain ⟨y, hok, hcarried⟩ := hrun
    exact ⟨y, bind_of_ok hok, hcarried⟩

/-- The end of a game because a side stayed away. -/
theorem forceGameOver_abandoned (hquiet : x.stored.domainEvents = []) {winner : PlayerSide}
    (hphase : x.stored.phase ≠ .gameOver) (hwinner : firstConnected x.host.session.playerStates =
      some winner) :
    ∃ y, (access f).forceGameOver .playerDisconnected x = .ok () y ∧
      Carried f [] (x.stored.forced (some winner) .playerDisconnected) x y := by
  let room := x.stored.forced (some winner) .playerDisconnected
  have hop : onRoom (HexWar.forceGameOver (some winner) .playerDisconnected) x.loaded =
      .ok () (x.loaded.atRoom room) := onRoom_ok_of_quiet hquiet rfl
  have hpublic : Delivers f x.sends room.domainEvents := delivers_appended hquiet rfl _
  let told := (x.loaded.atRoom room).flush
  refine ⟨_, executeOnGameRoom_ok (y := { told with
    host := { told.host with
      session := told.host.session.stopPlanningTimer
      gameOvers := told.host.gameOvers ++
        [⟨told.host.session.roomId, some winner, .playerDisconnected⟩] } }) ?_,
    carried_of_flush x x.loaded (List.append_nil _).symm ⟨rfl, rfl, rfl, rfl⟩ rfl⟩
  rw [bind_of_ok (get_apply _)]
  refine (congrFun (if_pos hphase) _).trans ?_
  have hfirst : firstConnected x.loaded.host.session.playerStates = some winner := hwinner
  rw [throwIf_bind, hfirst]
  refine (if_neg fun hn => nomatch hn.2).trans ?_
  rw [if_pos rfl, bind_of_ok hop, bind_of_ok (publish_ok (x := x.loaded.atRoom room) hpublic)]
  rfl

end Distributed

/-! ### Every command

`Does` lists the calls that change the room.  For these the two cases of `Delivers` decide between
`Carried` and `BrokenOff`; every other call leaves its records as they were. -/

/-- Is this call the one whose message can fail? -/
def SessionCall.isDecision : SessionCall → Bool
  | .encounterDecision _ _ _ => true
  | _ => false

/-- What a call raises and ResolveRound clears away. -/
def Host.loses (h : Host) : SessionCall → List DomainEvent
  | .planningTimeout forRound _ =>
    if h.room.phase = .planning ∧ h.room.currentRound = forRound then h.room.timedOut.domainEvents
    else []
  | .backupPlanningTimeout forRound _ =>
    if h.room.phase = .planning ∧ h.room.currentRound = forRound then
      (GameRoom.timedOut { h.room with ownerServerId := some h.session.serverId }).domainEvents
    else []
  | _ => []

/-- A resolution loses what waits in the room it starts from, which is something only when default
    decisions were made just before. -/
theorem loses_of_resolves {h : Host} (hquiet : h.room.domainEvents = []) {call : SessionCall}
    {room : GameRoom} {now : Time} (hres : Resolves h call room now) :
    h.loses call = room.domainEvents := by
  cases hres with
  | ready _ _ => exact hquiet.symm
  | timeout hphase hround => exact if_pos ⟨hphase, hround⟩
  | backup hphase hround => exact if_pos ⟨hphase, hround⟩

/-- Of the events of a decision the second one is for the deciding player only. -/
theorem delivers_decision {f : Faults} {n : Nat} {event : DomainEvent} {d : EncounterDecisionMade}
    {rest : List DomainEvent} (hevent : event.isPrivate = false)
    (hrest : ∀ e ∈ rest, e.isPrivate = false) :
    Delivers f n ([event, .encounterDecisionMade d] ++ rest) ↔ f.sendFails n = none := by
  show ((event.isPrivate = true → f.sendFails n = none) ∧
    Delivers f (if event.isPrivate then n + 1 else n) (.encounterDecisionMade d :: rest)) ↔ _
  rw [hevent]
  constructor
  · rintro ⟨-, hsend, -⟩
    exact hsend rfl
  · intro hsend
    exact ⟨fun _ => hsend, fun _ => hsend, delivers_of_public hrest _⟩

/-- Only the message about a decision can fail. -/
theorem delivers_iff {f : Faults} {h : Host} (hquiet : h.room.domainEvents = [])
    {call : SessionCall} {room : GameRoom} (hdoes : Does h call room) (n : Nat) :
    Delivers f n room.domainEvents ↔ (call.isDecision = true → f.sendFails n = none) := by
  cases hdoes with
  | join hr =>
    refine iff_of_true ?_ fun hd => absurd hd Bool.false_ne_true
    -- the second player's joining starts the game and says so; the first player's says nothing
    rw [joined, started]
    split
    · exact delivers_appended hquiet rfl n
    · -- the first player joins without an event
      show Delivers f n h.room.domainEvents
      rw [hquiet]
      trivial
  | move hconn hr =>
    exact iff_of_true (delivers_appended hquiet rfl n) fun hd => absurd hd Bool.false_ne_true
  | decide hconn hr =>
    obtain ⟨-, pending, e, hpending, -, he, -⟩ := decisionRefusal_none hr
    rw [decideEncounter_eq hpending he]
    show Delivers f n (h.room.domainEvents ++ [_, _] ++ _) ↔ _
    rw [hquiet, List.nil_append]
    refine (delivers_decision ?_ fun event hevent => ?_).trans
      ⟨fun hsend _ => hsend, fun hsend => hsend rfl⟩
    -- the event before it, of an advance or a retreat, is for both sides
    · cases ‹EncounterDecision› <;> rfl
    -- and so is the one after it, if the encounter is resolved by this decision
    · rw [resolvedEvent] at hevent
      split at hevent
      · rw [List.mem_singleton.mp hevent]
        rfl
      · cases hevent
  | resolve hres =>
    generalize hresolved : sourceOrder.resolved _ _ = resolved
    refine iff_of_true (Distributed.delivers_resolved hresolved n) ?_
    cases hres <;> exact fun hd => absurd hd Bool.false_ne_true
  | abandon hphase hwinner =>
    exact iff_of_true (delivers_appended hquiet rfl n) fun hd => absurd hd Bool.false_ne_true

namespace Distributed

variable {f : Faults} {x : DistributedExecution}

/-- **A command that nothing breaks off is carried out**, up to the save. -/
theorem perform_quiet (hroom : InSession x.stored) (hquiet : x.stored.domainEvents = [])
    {call : SessionCall} {room : GameRoom} (hdoes : Does x.server call room)
    (hall : Delivers f x.sends room.domainEvents) :
    ∃ y, perform f call x = .ok true y ∧ Carried f (x.server.loses call) room x y := by
  cases hdoes with
  | join hr =>
    obtain ⟨y, hok, hcarried⟩ := addPlayerToRoom_joined hroom.sound.map hquiet hr hall
    exact ⟨y, bind_of_ok hok, hcarried⟩
  | move hconn hr =>
    obtain ⟨y, hok, hcarried⟩ := handleMoveUnits_moved hquiet hconn hr hall
    exact ⟨y, bind_of_ok hok, hcarried⟩
  | decide hconn hr =>
    obtain ⟨y, hok, hcarried⟩ := handleEncounterDecision_decided hquiet hconn hr hall
    exact ⟨y, bind_of_ok hok, hcarried⟩
  | resolve hres =>
    rw [loses_of_resolves hquiet hres]
    exact perform_resolves hroom hquiet hres
  | abandon hphase hwinner =>
    obtain ⟨y, hok, hcarried⟩ := forceGameOver_abandoned hquiet hphase hwinner
    exact ⟨y, bind_of_ok hok, hcarried⟩

/-- **A message about a decision that cannot be sent breaks the command off.** -/
theorem perform_interrupted (hquiet : x.stored.domainEvents = [])
    {call : SessionCall} {room : GameRoom} (hdoes : Does x.server call room)
    (hno : ¬ Delivers f x.sends room.domainEvents) :
    ∃ err y, perform f call x = .error err y ∧ BrokenOff room x y := by
  -- nothing but a decision can be what was not delivered
  have hdecision : call.isDecision = true := by
    by_contra hother
    exact hno ((delivers_iff hquiet hdoes x.sends).mpr fun hd => absurd hd hother)
  cases hdoes with
  | decide hconn hr =>
    obtain ⟨err, y, herr, hbroken⟩ := handleEncounterDecision_interrupted hquiet hconn hr hno
    exact ⟨err, y, bind_of_error herr, hbroken⟩
  | resolve hres => cases hres <;> cases hdecision
  | join _ | move _ _ | abandon _ _ => cases hdecision

/-- Loading the room is recorded nowhere. -/
theorem unmoved_loaded (x : DistributedExecution) : Unmoved x x.loaded := ⟨rfl, rfl, rfl, rfl, rfl, rfl⟩

/-- The room is written back as it was loaded. -/
theorem unmoved_saved {y : DistributedExecution} (h : Unmoved x y) (hroom : y.host.room = x.stored) :
    Unmoved x (y.saved f) := by
  refine ⟨?_, h.raised, h.flushed, h.buffered, h.sent, h.published⟩
  show (if f.saveFails then y.stored else y.host.room) = _
  rw [h.stored, hroom, ite_self]

/-- What the session noted before matters as little. -/
theorem unmoved_of_host (host : Host) {y : DistributedExecution}
    (h : Unmoved { x with host := host } y) : Unmoved x y :=
  ⟨h.stored, h.raised, h.flushed, h.buffered, h.sent, h.published⟩

/-- A command that only looks at the room. -/
theorem unmoved_of_ok {α : Type} {action : Command α} {a : α} {y : DistributedExecution}
    (hx : action x.loaded = .ok a y) (h : Unmoved x y) (hroom : y.host.room = x.stored) :
    Unmoved x (after (executeOnGameRoom f action) x) := by
  rw [after_ok (executeOnGameRoom_ok hx)]
  exact unmoved_saved h hroom

/-- A command that throws before it has changed anything. -/
theorem unmoved_of_error {α : Type} {action : Command α} {e : GameError}
    (hx : action x.loaded = .error e x.loaded) : Unmoved x (after (executeOnGameRoom f action) x) := by
  rw [after_error (executeOnGameRoom_error hx)]
  exact unmoved_loaded x

/-- What an action leaves does not depend on what is made of its answer. -/
theorem after_map {α β : Type} (action : Command α) (g : α → β) (x : DistributedExecution) :
    after (action >>= fun a => pure (g a)) x = after action x := by
  rcases hx : action x with ⟨a, y⟩ | ⟨e, y⟩
  · rw [after_ok hx]
    exact after_ok (bind_of_ok hx)
  · rw [after_error hx]
    exact after_error (bind_of_error hx)

/-- Asking for the view, whether it can be built or not. -/
theorem unmoved_getGameState (side : PlayerSide) :
    Unmoved x (after ((access f).getGameStateForPlayer side) x) := by
  rcases hv : buildGameStateView x.stored side (x.host.session.playerStates.get side)
      x.host.session.planningDeadline with e | view
  · refine unmoved_of_error (e := e) ?_
    have hv' : buildGameStateView x.loaded.host.room side
      (x.loaded.host.session.playerStates.get side) x.loaded.host.session.planningDeadline = _ := hv
    rw [bind_of_ok (get_apply _)]
    simp only [hv']
    rfl
  · refine unmoved_of_ok (a := view) ?_ (unmoved_loaded x) rfl
    have hv' : buildGameStateView x.loaded.host.room side
      (x.loaded.host.session.playerStates.get side) x.loaded.host.session.planningDeadline = _ := hv
    rw [bind_of_ok (get_apply _)]
    simp only [hv']
    rfl

/-- Sending the view adds nothing to the records. -/
theorem unmoved_sendState (side : PlayerSide) : Unmoved x (after ((access f).sendState side) x) := by
  have hget := @unmoved_getGameState f x side
  rcases hx : (access f).getGameStateForPlayer side x with ⟨view, y⟩ | ⟨e, y⟩
  · rw [after_ok hx] at hget
    have hsend : (access f).sendState side x = .ok () { y with
        host := y.host.notify side (.message (.stateUpdate view y.host.session.currentRound)) } :=
      bind_of_ok hx
    rw [after_ok hsend]
    exact ⟨hget.stored, hget.raised, hget.flushed, hget.buffered, hget.sent, hget.published⟩
  · rw [after_error hx] at hget
    rw [RoomAccess.sendState, after_error (bind_of_error hx)]
    exact hget

/-- Coming back starts the timer if the room is being planned and has none, and changes no room. -/
theorem unmoved_playerConnected (side : PlayerSide) (now : Time) :
    Unmoved x (after ((access f).playerConnected side now) x) := by
  let reached : DistributedExecution := { x with host := x.host.reached side true }
  refine unmoved_of_host (x.host.reached side true) ?_
  by_cases hc : reached.loaded.host.room.phase = .planning ∧ reached.loaded.host.session.timer = none
  · let round := reached.loaded.host.room.currentRound
    refine unmoved_of_ok (x := reached) (a := ()) (y := { reached.loaded with
      host := { reached.loaded.host with
        session := reached.loaded.host.session.startPlanningTimer round none now } }) ?_
      ⟨rfl, rfl, rfl, rfl, rfl, rfl⟩ rfl
    rw [bind_of_ok (get_apply _)]
    exact congrFun (if_pos hc) _
  · refine unmoved_of_ok (x := reached) (a := ()) ?_ (unmoved_loaded reached) rfl
    rw [bind_of_ok (get_apply _)]
    exact congrFun (if_neg hc) _

/-- A game that is over, or whose last player has left, is not ended again. -/
theorem unmoved_forceGameOver (hnothing : ∀ room, ¬ Does x.server .forceGameOver room) :
    Unmoved x (after ((access f).forceGameOver .playerDisconnected) x) := by
  by_cases hover : x.stored.phase = .gameOver
  · refine unmoved_of_ok (a := ()) ?_ (unmoved_loaded x) rfl
    rw [bind_of_ok (get_apply _)]
    exact congrFun (if_neg (not_not_intro hover)) _
  · -- with nobody connected `First` throws
    have hnone : firstConnected x.host.session.playerStates = none := by
      rcases hw : firstConnected x.host.session.playerStates with _ | winner
      · rfl
      · exact absurd (.abandon hover hw) (hnothing _)
    refine unmoved_of_error (e := .invalidOperation "Sequence contains no matching element") ?_
    rw [bind_of_ok (get_apply _)]
    refine (congrFun (if_pos hover) _).trans ?_
    rw [throwIf_bind]
    exact if_pos ⟨rfl, hnone⟩

/-- A move that is refused, by the session or by the room. -/
theorem unmoved_handleMoveUnits (hquiet : x.stored.domainEvents = []) {side : PlayerSide}
    {command : MoveCommand} (hnothing : ∀ room, ¬ Does x.server (.moveUnits side command) room) :
    Unmoved x (after ((access f).handleMoveUnits side command) x) := by
  by_cases hconn : (x.host.session.playerStates.get side).isConnected = true
  · rcases hr : x.stored.sessionMoveRefusal side command with _ | e
    · exact absurd (.move hconn hr) (hnothing _)
    -- all three checks throw before the room is touched
    have hthrow : (access f).handleMoveUnits side command x = .error e x.loaded := by
      rw [RoomAccess.handleMoveUnits, bind_of_ok (get_apply x)]
      rw [if_neg (not_not_intro hconn)]
      refine executeOnGameRoom_error ?_
      rw [bind_of_ok (get_apply _), throwIf_bind]
      rw [sessionMoveRefusal] at hr
      split at hr
      · rename_i hphase
        rw [← Option.some.inj hr]
        exact if_pos hphase
      rename_i hphase
      refine (if_neg hphase).trans ?_
      rw [throwIf_bind]
      split at hr
      · rename_i hleft
        rw [← Option.some.inj hr]
        exact if_pos hleft
      rename_i hleft
      refine (if_neg hleft).trans ?_
      have heq := moveUnits_eq x.stored side (x.stored.adjusted side command)
      rw [hr] at heq
      exact bind_of_error (@onRoom_error x.loaded _ _ _ hquiet heq)
    rw [after_error hthrow]
    exact unmoved_loaded x
  · have hstay : (access f).handleMoveUnits side command x =
        .ok (.fail "Not connected" "NOT_CONNECTED") x := by
      rw [RoomAccess.handleMoveUnits, bind_of_ok (get_apply x)]
      rw [if_pos hconn]
      rfl
    rw [after_ok hstay]
    exact ⟨rfl, rfl, rfl, rfl, rfl, rfl⟩

/-- A decision that is refused.  The session makes no checks of its own here but for the connection. -/
theorem unmoved_handleEncounterDecision (hquiet : x.stored.domainEvents = []) {side : PlayerSide}
    {edgeId : EdgeId} {decision : EncounterDecision}
    (hnothing : ∀ room, ¬ Does x.server (.encounterDecision side edgeId decision) room) :
    Unmoved x (after ((access f).handleEncounterDecision side edgeId decision) x) := by
  by_cases hconn : (x.host.session.playerStates.get side).isConnected = true
  · rcases hr : x.stored.decisionRefusal edgeId side decision with _ | e
    · exact absurd (.decide hconn hr) (hnothing _)
    have heq := resolveEncounter_eq x.stored edgeId side decision
    rw [hr] at heq
    have hthrow : (access f).handleEncounterDecision side edgeId decision x = .error e x.loaded := by
      rw [RoomAccess.handleEncounterDecision, bind_of_ok (get_apply x)]
      rw [if_neg (not_not_intro hconn)]
      exact executeOnGameRoom_error (bind_of_error (@onRoom_error x.loaded _ _ _ hquiet heq))
    rw [after_error hthrow]
    exact unmoved_loaded x
  · have hstay : (access f).handleEncounterDecision side edgeId decision x =
        .ok (.fail "Not connected" "NOT_CONNECTED") x := by
      rw [RoomAccess.handleEncounterDecision, bind_of_ok (get_apply x)]
      rw [if_pos hconn]
      rfl
    rw [after_ok hstay]
    exact ⟨rfl, rfl, rfl, rfl, rfl, rfl⟩

/-- A join that is refused. -/
theorem unmoved_addPlayerToRoom (hmap : OnMap x.stored) (hquiet : x.stored.domainEvents = [])
    {playerId : PlayerId} {now : Time}
    (hnothing : ∀ room, ¬ Does x.server (.addPlayer playerId now) room) :
    Unmoved x (after ((access f).addPlayerToRoom playerId now) x) := by
  rcases hr : x.stored.joinRefusal playerId with _ | e
  · exact absurd (.join hr) (hnothing _)
  obtain ⟨node, hnode⟩ := hmap.start x.stored.vacantSide
  have heq := addPlayer_eq hnode playerId (some (now + x.host.session.planningTimeout)) now
  rw [hr] at heq
  refine unmoved_of_error (e := e) ?_
  rw [bind_of_ok (get_apply _)]
  exact bind_of_error (@onRoom_error x.loaded _ _ _ hquiet heq)

/-- **A command that does nothing changes nothing**, whatever fails. -/
theorem perform_idle (hmap : OnMap x.stored) (hquiet : x.stored.domainEvents = []) {call : SessionCall}
    (hnothing : ∀ room, ¬ Does x.server call room) : Unmoved x (after (perform f call) x) := by
  cases call with
  | addPlayer playerId now =>
    rw [perform, after_map]
    exact unmoved_addPlayerToRoom hmap hquiet hnothing
  | onPlayerConnected side now =>
    rw [perform, after_map]
    exact unmoved_playerConnected side now
  | onPlayerDisconnected side => exact ⟨rfl, rfl, rfl, rfl, rfl, rfl⟩
  | forceGameOver =>
    rw [perform, after_map]
    exact unmoved_forceGameOver hnothing
  | moveUnits side command =>
    rw [perform, after_map]
    exact unmoved_handleMoveUnits hquiet hnothing
  | encounterDecision side edgeId decision =>
    rw [perform, after_map]
    exact unmoved_handleEncounterDecision hquiet hnothing
  | checkAndResolveIfReady now =>
    rw [perform, after_map]
    refine unmoved_of_ok (a := ()) ?_ (unmoved_loaded x) rfl
    rw [bind_of_ok (get_apply _)]
    exact congrFun (if_neg fun hc => hnothing _ (.resolve (.ready hc.1 hc.2))) _
  | planningTimeout forRound now =>
    rw [perform, after_map]
    refine unmoved_of_ok (a := ()) ?_ (unmoved_loaded x) rfl
    rw [bind_of_ok (get_apply _)]
    exact congrFun (if_neg fun hc => hnothing _ (.resolve (.timeout hc.1 hc.2))) _
  | backupPlanningTimeout forRound now =>
    rw [perform, after_map]
    refine unmoved_of_ok (a := ()) ?_ (unmoved_loaded x) rfl
    rw [bind_of_ok (get_apply _)]
    exact congrFun (if_neg fun hc => hnothing _ (.resolve (.backup hc.1 hc.2))) _
  | getGameState side =>
    rw [perform, after_map]
    exact unmoved_sendState side
  | reconnectSync side lastSeenSequence =>
    rw [perform, after_map]
    let replayed : Host := (x.host.session.getEventsAfter lastSeenSequence).foldl
      (fun h e => h.notify side (.message (.replayed e.event e.sequenceNumber))) x.host
    exact unmoved_of_host replayed (unmoved_sendState side)

end Distributed

end HexWar
