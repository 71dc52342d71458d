/-
  The outbox of the room loses nothing but what ResolveRound clears.

  An operation of the room puts its events in the outbox, and the session flushes the outbox before the
  command ends.  Only the two timers do two things in between: they take the default decisions, which
  raise events, and then resolve the round, which starts with ClearEvents.  So a timer that finds an
  encounter undecided throws away what it has just raised, and nothing else is ever thrown away
  (`outbox_kept_iff`).  Who left the message about a decision unsent is the other way for an event not
  to get out.

  The commands are those of any number of servers on one stored room.
-/
import HexWar.Session.Executions

namespace HexWar

open Lib Lib.Action GameRoom

/-! ## Runs -/

inductive DistributedCall where
  | perform (call : SessionCall) (faults : Faults)
  /-- Another server goes on; what its session holds is left open. -/
  | switch (host : Host)

/-- What a command, or a change of server, leaves. -/
def DistributedExecution.next (x : DistributedExecution) : DistributedCall → DistributedExecution
  | .perform call faults => after (Distributed.perform faults call) x
  | .switch host => { x with host := host }

/-- A server has just stored the room that it has created. -/
def DistributedExecution.initial (roomId serverId : String) (hasEventPublisher : Bool)
    (planningTimeout : Time) : DistributedExecution where
  host := Host.initial roomId serverId hasEventPublisher planningTimeout
  stored := (Host.initial roomId serverId hasEventPublisher planningTimeout).room
  sends := 0
  raised := []
  flushed := []
  buffered := []
  sent := []
  published := []

/-- Any commands of any servers, whatever fails. -/
def sharedRoom (roomId serverId : String) (hasEventPublisher : Bool) (planningTimeout : Time) :
    Machine DistributedExecution DistributedCall :=
  ⟨DistributedExecution.initial roomId serverId hasEventPublisher planningTimeout,
    DistributedExecution.next, fun _ _ => True⟩

/-- What holds of the stored room between two commands. -/
structure Stored (x : DistributedExecution) : Prop where
  room : InSession x.stored
  quiet : x.stored.domainEvents = []

/-- What a command comes to. -/
inductive Performed (f : Faults) (call : SessionCall) (x : DistributedExecution) : Prop where
  | idle (hnothing : ∀ room, ¬ Does x.server call room)
      (hsame : Unmoved x (after (Distributed.perform f call) x))
  | carried {room : GameRoom} (hdoes : Does x.server call room)
      (hsend : call.isDecision = true → f.sendFails x.sends = none)
      (hreturns : ∃ y, Distributed.perform f call x = .ok true y)
      (hcarried : Carried f (x.server.loses call) room x (after (Distributed.perform f call) x))
  | brokenOff {room : GameRoom} (hdoes : Does x.server call room)
      (hfails : call.isDecision = true ∧ f.sendFails x.sends ≠ none)
      (hthrows : ∃ err y, Distributed.perform f call x = .error err y)
      (hbroken : BrokenOff room x (after (Distributed.perform f call) x))

/-- **Every command is one of three**: it does nothing, it is carried out, or it is broken off. -/
theorem Stored.performed {x : DistributedExecution} (hx : Stored x) (f : Faults)
    (call : SessionCall) : Performed f call x := by
  rcases next_does (h := x.server) hx.room hx.quiet call with ⟨room, hdone⟩ | hidle
  · have hiff := delivers_iff (f := f) (h := x.server) hx.quiet hdone.does x.sends
    by_cases hall : Delivers f x.sends room.domainEvents
    · obtain ⟨y, hok, hcarried⟩ := Distributed.perform_quiet hx.room hx.quiet hdone.does hall
      refine .carried hdone.does (hiff.mp hall) ⟨y, hok⟩ ?_
      rw [after_ok hok]
      exact hcarried
    · obtain ⟨err, y, herr, hbroken⟩ := Distributed.perform_interrupted hx.quiet hdone.does hall
      refine .brokenOff hdone.does (Classical.not_imp.mp fun h => hall (hiff.mpr h)) ⟨err, y, herr⟩ ?_
      rw [after_error herr]
      exact hbroken
  · exact .idle hidle.nothing (Distributed.perform_idle hx.room.sound.map hx.quiet hidle.nothing)

/-- The room of a command is a room of the session. -/
theorem Stored.of_does {x y : DistributedExecution} (hx : Stored x) {call : SessionCall}
    {room : GameRoom} (hdoes : Does x.server call room)
    (hstored : y.stored = { room with domainEvents := [] }) : Stored y := by
  obtain ⟨es, hturn, -⟩ := next_turn (h := x.server) hx.room hx.quiet call
  have hnext : y.stored = (x.server.next call).room :=
    hstored.trans (room_of_does (h := x.server) hx.room hx.quiet hdoes).symm
  refine ⟨?_, ?_⟩
  · rw [hnext]
    exact hturn.room
  · rw [hnext]
    exact hturn.quiet

theorem Stored.next {x : DistributedExecution} (hx : Stored x) (c : DistributedCall) :
    Stored (x.next c) := by
  have hsame : ∀ {y : DistributedExecution}, y.stored = x.stored → Stored y := by
    intro y hy
    refine ⟨?_, ?_⟩
    · rw [hy]
      exact hx.room
    · rw [hy]
      exact hx.quiet
  cases c with
  | switch host => exact hsame rfl
  | perform call f =>
    cases hx.performed f call with
    | idle _ hidle => exact hsame hidle.stored
    | brokenOff _ _ _ hbroken => exact hsame hbroken.stored
    | carried hdoes _ _ hcarried =>
      have hstored := hcarried.stored
      split at hstored
      · exact hsame hstored
      · exact hx.of_does hdoes hstored

theorem stored_initial (roomId serverId : String) (hasEventPublisher : Bool) (planningTimeout : Time) :
    Stored (.initial roomId serverId hasEventPublisher planningTimeout) :=
  ⟨(hosting_initial roomId serverId hasEventPublisher planningTimeout).room,
    (hosting_initial roomId serverId hasEventPublisher planningTimeout).quiet⟩

/-! ## What the default decisions raise -/

/-- A decision adds to what waits. -/
theorem events_prefix_decideEncounter (room : GameRoom) (edgeId : EdgeId) (side : PlayerSide)
    (decision : EncounterDecision) :
    room.domainEvents <+: (room.decideEncounter edgeId side decision).domainEvents := by
  rw [decideEncounter]
  split
  · show room.domainEvents <+: room.domainEvents ++ [_, _] ++ _
    rw [List.append_assoc]
    exact List.prefix_append _ _
  · exact List.prefix_rfl

theorem events_prefix_retreats (side : PlayerSide) (encs : List PendingEncounter) (room : GameRoom) :
    room.domainEvents <+:
      (encs.foldl (fun r enc => r.decideEncounter enc.edgeId side .retreat) room).domainEvents := by
  induction encs generalizing room with
  | nil => exact List.prefix_rfl
  | cons enc encs ih =>
    have hfirst := events_prefix_decideEncounter room enc.edgeId side .retreat
    exact hfirst.trans (ih _)

/-- A side that has something to decide raises something. -/
theorem events_retreated {room : GameRoom} (hroom : InSession room) (hphase : room.phase = .planning)
    {side : PlayerSide} (hund : room.getUndecidedEncounters side ≠ []) :
    (room.retreated side).domainEvents ≠ [] := by
  obtain ⟨enc, rest, hsplit⟩ := List.exists_cons_of_ne_nil hund
  have hmem : enc ∈ room.getUndecidedEncounters side := hsplit ▸ List.mem_cons_self
  obtain ⟨hpending, hopen⟩ := List.mem_filter.mp hmem
  obtain ⟨-, hok⟩ := decidable_of_undecided hroom hphase hpending
    (show enc.hasDecided side = false by simpa using hopen) .retreat
  have hraises := events_decideEncounter hok
  have hlater := events_prefix_retreats side rest (room.decideEncounter enc.edgeId side .retreat)
  unfold GameRoom.retreated
  rw [hsplit, List.foldl_cons]
  intro hnone
  rw [hnone] at hlater
  exact hraises (List.prefix_nil.mp hlater)

theorem retreated_of_none {room : GameRoom} {side : PlayerSide}
    (hund : room.getUndecidedEncounters side = []) : room.retreated side = room := by
  rw [GameRoom.retreated, hund]
  rfl

/-- **The default decisions raise nothing exactly if there is nothing to decide.** -/
theorem events_timedOut {room : GameRoom} (hroom : InSession room) (hphase : room.phase = .planning)
    (hquiet : room.domainEvents = []) :
    room.timedOut.domainEvents = [] ↔ ∀ side, room.getUndecidedEncounters side = [] := by
  constructor
  · intro hnone
    have hA : room.getUndecidedEncounters .a = [] := by
      by_contra hund
      have hraises := events_retreated hroom hphase hund
      -- side B decides after side A, and takes nothing away
      have hlater : (room.retreated .a).domainEvents <+: room.timedOut.domainEvents :=
        events_prefix_retreats .b _ _
      rw [hnone] at hlater
      exact hraises (List.prefix_nil.mp hlater)
    have hB : room.getUndecidedEncounters .b = [] := by
      by_contra hund
      -- side A decides nothing, so what waits is what side B decides
      rw [GameRoom.timedOut, retreated_of_none hA] at hnone
      exact events_retreated hroom hphase hund hnone
    intro side
    cases side with
    | a => exact hA
    | b => exact hB
  · intro hund
    rw [GameRoom.timedOut, retreated_of_none (hund .a), retreated_of_none (hund .b)]
    exact hquiet

/-! ## The outbox -/

/-- Whatever was raised was flushed, in its order and once, kept for replay, and sent where it is sent
    to anyone. -/
structure OutboxKept (x : DistributedExecution) : Prop where
  flushed : x.flushed = x.raised
  buffered : x.buffered = x.raised
  sent : x.sent = x.raised.filter DomainEvent.isSent

/-- A timer that resolves its round finds every encounter decided; and the message about a decision
    that is taken can be sent. -/
def DistributedExecution.Spares (x : DistributedExecution) : DistributedCall → Prop
  | .perform (.planningTimeout forRound _) _ | .perform (.backupPlanningTimeout forRound _) _ =>
    x.stored.phase = .planning → x.stored.currentRound = forRound →
      ∀ side, x.stored.getUndecidedEncounters side = []
  | .perform (.encounterDecision side edgeId decision) f =>
    (x.host.session.playerStates.get side).isConnected = true →
      x.stored.decisionRefusal edgeId side decision = none → f.sendFails x.sends = none
  | _ => True

variable {x : DistributedExecution}

/-- A command that does nothing cannot lose anything. -/
theorem spares_of_idle {call : SessionCall} {f : Faults}
    (hnothing : ∀ room, ¬ Does x.server call room) : x.Spares (.perform call f) := by
  cases call with
  | planningTimeout forRound now =>
    intro hphase hround
    exact absurd (.resolve (.timeout hphase hround)) (hnothing _)
  | backupPlanningTimeout forRound now =>
    intro hphase hround
    exact absurd (.resolve (.backup hphase hround)) (hnothing _)
  | encounterDecision side edgeId decision =>
    intro hconn hr
    exact absurd (.decide hconn hr) (hnothing _)
  | addPlayer _ _ | onPlayerConnected _ _ | onPlayerDisconnected _ | forceGameOver | moveUnits _ _
  | checkAndResolveIfReady _ | getGameState _ | reconnectSync _ _ => trivial

/-- What a command that does something loses. -/
theorem spares_iff (hx : Stored x) {call : SessionCall} {room : GameRoom} (f : Faults)
    (hdoes : Does x.server call room) : x.Spares (.perform call f) ↔
      x.server.loses call = [] ∧ (call.isDecision = true → f.sendFails x.sends = none) := by
  cases hdoes with
  | join _ | move _ _ | abandon _ _ => exact iff_of_true trivial ⟨rfl, fun hd =>
      absurd hd Bool.false_ne_true⟩
  | decide hconn hr =>
    constructor
    · intro h
      exact ⟨rfl, fun _ => h hconn hr⟩
    · rintro ⟨-, h⟩ - -
      exact h rfl
  | resolve hres =>
    -- what was raised before ResolveRound is lost: nothing, unless a timer has decided first
    rw [loses_of_resolves hx.quiet hres]
    cases hres with
    | ready _ _ => exact iff_of_true trivial ⟨hx.quiet, fun hd => absurd hd Bool.false_ne_true⟩
    | timeout hphase hround =>
      have hiff := events_timedOut hx.room hphase hx.quiet
      constructor
      · intro h
        exact ⟨hiff.mpr (h hphase hround), fun hd => absurd hd Bool.false_ne_true⟩
      · rintro ⟨h, -⟩ - -
        exact hiff.mp h
    | backup hphase hround =>
      have hiff := events_timedOut
        (hx.room.relabel (some x.host.session.serverId) x.stored.domainEvents) hphase hx.quiet
      constructor
      · intro h
        exact ⟨hiff.mpr (h hphase hround), fun hd => absurd hd Bool.false_ne_true⟩
      · rintro ⟨h, -⟩ - -
        exact hiff.mp h

/-- One command. -/
theorem next_kept_iff (hx : Stored x) (hkept : OutboxKept x) (c : DistributedCall) :
    OutboxKept (x.next c) ↔ x.Spares c := by
  cases c with
  | switch host => exact iff_of_true ⟨hkept.flushed, hkept.buffered, hkept.sent⟩ trivial
  | perform call f =>
    cases hx.performed f call with
    | idle hnothing hsame =>
      refine iff_of_true ⟨?_, ?_, ?_⟩ (spares_of_idle hnothing)
      · exact hsame.flushed.trans (hkept.flushed.trans hsame.raised.symm)
      · exact hsame.buffered.trans (hkept.buffered.trans hsame.raised.symm)
      · refine hsame.sent.trans (hkept.sent.trans ?_)
        exact congrArg _ hsame.raised.symm
    | carried hdoes hsend _ hcarried =>
      rw [spares_iff hx f hdoes]
      constructor
      · -- what is missing from the flushed events is what was lost
        intro h
        refine ⟨?_, hsend⟩
        have hall := hcarried.flushed.symm.trans (h.flushed.trans hcarried.raised)
        have hlen := congrArg List.length hall
        rw [hkept.flushed] at hlen
        simp only [List.length_append] at hlen
        exact List.eq_nil_of_length_eq_zero (by omega)
      · rintro ⟨hnone, -⟩
        have hraised := hcarried.raised
        rw [hnone, List.append_nil] at hraised
        refine ⟨?_, ?_, ?_⟩
        · exact hcarried.flushed.trans ((congrArg (· ++ _) hkept.flushed).trans hraised.symm)
        · exact hcarried.buffered.trans ((congrArg (· ++ _) hkept.buffered).trans hraised.symm)
        · show (after (Distributed.perform f call) x).sent = List.filter _ (after _ x).raised
          rw [hcarried.sent, hkept.sent, hraised, List.filter_append]
    | brokenOff hdoes hfails _ hbroken =>
      rw [spares_iff hx f hdoes]
      obtain ⟨told, d, rest, hsplit, -, hsent⟩ := hbroken.told
      refine iff_of_false (fun h => ?_) fun h => hfails.2 (h.2 hfails.1)
      -- the decision itself was not sent
      have hall := hsent.symm.trans (h.sent.trans (congrArg _ hbroken.raised))
      have hlen := congrArg List.length hall
      rw [hkept.sent, hsplit] at hlen
      simp only [List.filter_append, List.filter_cons_of_pos (isSent_decisionMade d),
        List.length_append, List.length_cons] at hlen
      omega

/-- **Every raised event is flushed, in its order and once, and told, exactly if no timer resolves a
    round in which something is undecided** (and the messages about decisions get through). -/
theorem outbox_kept_iff {roomId serverId : String} {hasEventPublisher : Bool} {planningTimeout : Time}
    (calls : List DistributedCall) :
    let room := sharedRoom roomId serverId hasEventPublisher planningTimeout
    (∀ x ∈ room.visited room.start calls, OutboxKept x) ↔
      room.Steps DistributedExecution.Spares room.start calls :=
  Machine.visited_iff (M := sharedRoom roomId serverId hasEventPublisher planningTimeout)
    (fun _ c hx _ => hx.next c) (fun _ c hx _ hkept => next_kept_iff hx hkept c)
    (stored_initial _ _ _ _) ⟨rfl, rfl, rfl⟩ (Machine.steps_of_forall (fun _ _ => trivial) _ _)

/-- Both players meet on the edge between them, nobody decides, and the timer goes off. -/
def undecidedCalls : List DistributedCall :=
  [SessionCall.addPlayer ⟨"p"⟩ 0, .addPlayer ⟨"q"⟩ 0, .onPlayerConnected .a 0,
    .onPlayerConnected .b 0,
    .moveUnits .a ⟨⟨1⟩, ⟨5⟩, 1⟩, .moveUnits .b ⟨⟨5⟩, ⟨1⟩, 1⟩, .planningTimeout 1 30,
    .planningTimeout 2 60].map (.perform · .none)

/-- The five events of the two decisions are cleared away. -/
theorem default_decisions_unheard :
    ¬ ∀ calls, ∀ x ∈ (sharedRoom "room" "s1" true 30).visited (sharedRoom "room" "s1" true 30).start
      calls, OutboxKept x := by
  intro h
  have hlast := h undecidedCalls _ (Machine.after_mem_visited _ _)
  have hlen := congrArg List.length hlast.flushed
  revert hlen
  decide +kernel

end HexWar
