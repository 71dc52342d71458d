/-
  The deadline of a round.

  The event that opens a round carries a deadline, and every server keeps one, which it shows in its
  views.  A server that hears the event takes the deadline over.  The server that RAISES the event does
  not: ResolveRoundAsync sets the deadline of the event and then starts the timer, which reads the clock
  once more and writes over it; and the server on which the second player joins has no timer until
  somebody connects to it, and reads the clock then.  A RoundResolved that arrives before its
  RoundStarted starts a timer from the clock as well.

  `Timeline` is a cluster with a clock that goes on between any two readings; `one_deadline` says that
  there is one deadline a round where those readings happen to fall on the same instant.

  The proof follows the two numbers that a session keeps of its timer, the round it is for and the
  deadline, and nothing else of the timer.

  1. `Dates` is what a turn makes of them, `Realigned` what a message does.  In both there are few ways:
     they are kept, stopped, set from the clock, or set from the event.
  2. `Dated` is the invariant: besides the property itself it says that no message and no timer is ahead
     of the room, and that all events that set a deadline for the round set the same one.
  3. `Dated.turn` and `Dated.deliver` keep it under the condition, and it follows for every run.

  The condition `OnTime` names the readings of the clock that must agree.  It is what the source leaves
  to chance.
-/
import HexWar.Session.Rounds

namespace HexWar

open Lib Lib.Action GameRoom

/-! ## The machine

The clock goes on between steps, and within a turn between its two readings.  A turn whose argument
is an instant has read the clock once at its beginning (`readsAt`). -/

/-- A cluster, and what the clock shows. -/
structure Timeline where
  cluster : Cluster
  clock : Time

/-- What can happen on a timeline. -/
inductive TimelineCall where
  /-- Time passes, in milliseconds. -/
  | pass (delay : Nat)
  /-- A server looks the room up for the first time. -/
  | hydrate (id : String)
  /-- A turn on a server, with the time that passes in it until a timer is started. -/
  | turn (id : String) (call : SessionCall) (lag : Nat)
  /-- A message reaches a server, which reads the clock. -/
  | deliver (index : Nat)
deriving DecidableEq

/-- A turn on one server in which the timer is started late. -/
def Cluster.turnLate (c : Cluster) (id : String) (call : SessionCall) (later : Time) : Cluster :=
  match c.servers.get? id with
  | none => c
  | some s => c.save id s ((s.host c.room).nextLate call later)

namespace Timeline

/-- The clock after a turn stands where the turn has read it last. -/
def next (planningTimeout : Time) (t : Timeline) : TimelineCall → Timeline
  | .pass delay => { t with clock := t.clock + delay }
  | .hydrate id => { t with cluster := t.cluster.hydrate planningTimeout id }
  | .turn id call lag => ⟨t.cluster.turnLate id call (t.clock + lag), t.clock + lag⟩
  | .deliver index => { t with cluster := t.cluster.deliver index t.clock }

/-- Turns read the clock. -/
def Legal (t : Timeline) : TimelineCall → Prop
  | .turn _ call _ => call.readsAt t.clock = true
  | .pass _ | .hydrate _ | .deliver _ => True

instance (t : Timeline) : DecidablePred t.Legal
  | .turn _ _ _ => inferInstanceAs (Decidable (_ = true))
  | .pass _ | .hydrate _ | .deliver _ => .isTrue trivial

end Timeline

/-- The servers of one room, with their clock. -/
def timelines (roomId serverId : String) (planningTimeout : Time) : Machine Timeline TimelineCall :=
  ⟨⟨Cluster.initial roomId serverId planningTimeout .a, 0⟩, Timeline.next planningTimeout,
    Timeline.Legal⟩

/-! ## The properties

Who is asked: the servers that raised the event or own the room, once they have a timer for the
round, and the servers that the event has reached from elsewhere. -/

/-- The deadline that an event sets for a round. -/
def DomainEvent.deadlineFor (round : Int) : DomainEvent → Option Time
  | .gameStarted e => if round = 1 then some e.deadline else none
  | .roundStarted e => if e.roundNumber = round then some e.deadline else none
  | _ => none

/-- The sides that a turn sends a view. -/
def SessionCall.shows : SessionCall → Option PlayerSide
  | .getGameState side | .reconnectSync side _ => some side
  | .addPlayer _ _ | .onPlayerConnected _ _ | .onPlayerDisconnected _ | .forceGameOver
  | .moveUnits _ _ | .encounterDecision _ _ _ | .checkAndResolveIfReady _ | .planningTimeout _ _
  | .backupPlanningTimeout _ _ => none

namespace Cluster

/-- The deadline that a message announces for the round that is being planned. -/
def announced (c : Cluster) (m : DistributedEventMessage) : Option Time :=
  if c.room.phase = .planning then m.event.deadlineFor c.room.currentRound else none

/-- A server that has raised the event, or owns the room. -/
def Opener (c : Cluster) (id : String) (m : DistributedEventMessage) : Prop :=
  m.sourceServerId = id ∨ c.room.ownerServerId = some id

/-- A server that the event has reached. -/
def Handler (id : String) (s : Server) (m : DistributedEventMessage) : Prop :=
  m.sourceServerId ≠ id ∧ m ∈ s.processed

instance (c : Cluster) (id : String) (m : DistributedEventMessage) : Decidable (c.Opener id m) :=
  inferInstanceAs (Decidable (_ ∨ _))

instance (id : String) (s : Server) (m : DistributedEventMessage) : Decidable (Handler id s m) :=
  inferInstanceAs (Decidable (_ ∧ _))

/-- **One deadline for the round that is being planned**: the server that has opened the round or owns
    the room, once it has its timer for the round, and every other server that the event has reached
    keep the deadline of the event. -/
def OneDeadline (c : Cluster) : Prop :=
  ∀ m ∈ c.issued, ∀ deadline ∈ c.announced m, ∀ id s, c.servers.get? id = some s →
    c.Opener id m ∧ s.session.planningTimerRound = c.room.currentRound ∨ Handler id s m →
      s.session.planningDeadline = some deadline

end Cluster

namespace Timeline

/-- Every view that is built on one of these servers shows that deadline. -/
def ShownOne (t : Timeline) : TimelineCall → Prop
  | .turn id call _ => ∀ side ∈ call.shows, ∀ s ∈ t.cluster.servers.get? id,
      ∀ m ∈ t.cluster.issued, ∀ deadline ∈ t.cluster.announced m,
        t.cluster.Opener id m ∨ Cluster.Handler id s m →
          ∀ view round, (s.host t.cluster.room).shown side = .message (.stateUpdate view round) →
            view.deadline = some deadline
  | .pass _ | .hydrate _ | .deliver _ => True

end Timeline

/-- Does a turn resolve a round and open the next one? -/
def Host.goesOn (h : Host) : SessionCall → Bool
  | .checkAndResolveIfReady now => h.raises (.checkAndResolveIfReady now) &&
      !(sourceOrder.closedRoom h.room).openingResult.gameOver
  | .planningTimeout forRound now => h.raises (.planningTimeout forRound now) &&
      !(sourceOrder.closedRoom h.room.timedOut).openingResult.gameOver
  | .backupPlanningTimeout forRound now => h.raises (.backupPlanningTimeout forRound now) &&
      !(sourceOrder.closedRoom (GameRoom.timedOut
        { h.room with ownerServerId := some h.session.serverId })).openingResult.gameOver
  | .addPlayer _ _ | .onPlayerConnected _ _ | .onPlayerDisconnected _ | .forceGameOver
  | .moveUnits _ _ | .encounterDecision _ _ _ | .getGameState _ | .reconnectSync _ _ => false

/-- Does the event leave a timer for the round alone, or start one for it? -/
def DomainEvent.keepsUp (round : Int) (e : DomainEvent) : Bool :=
  e.isMinor || e.opensRound = some round

/-- Does the event start a timer for the round from the clock? -/
def DomainEvent.timesRound (round : Int) : DomainEvent → Bool
  | .roundResolved e => e.completedRound + 1 = round
  | _ => false

namespace Timeline

/-- A turn whose readings of the clock fall on the right instants: none passes between the two of a turn
    that opens a round; a connection that starts the timer of an opener, or of a handler, does so at the
    very instant of the announced deadline's reading; and an opener shows no view before its timer is
    started. -/
def OnTimeTurn (t : Timeline) (id : String) (call : SessionCall) (lag : Nat) : Prop :=
  ∀ s ∈ t.cluster.servers.get? id,
    ((s.host t.cluster.room).goesOn call = true → lag = 0) ∧
      ∀ m ∈ t.cluster.issued, ∀ deadline ∈ t.cluster.announced m,
        t.cluster.Opener id m ∨ Cluster.Handler id s m →
          (call.reaches.any (·.2) = true → s.session.timer = none →
            t.clock + s.session.planningTimeout = deadline) ∧
          (call.shows.isSome = true → Cluster.Handler id s m ∨
            s.session.planningTimerRound = t.cluster.room.currentRound)

/-- A delivery that comes in order: what reaches a handler opens no other round and does not end the
    game; and a RoundResolved finds the timer of an opener or a handler running, or the clock at the
    instant of the announced deadline's reading. -/
def OnTimeDelivery (t : Timeline) (index : Nat) : Prop :=
  ∀ d ∈ t.cluster.inFlight[index]?, d.2.sourceServerId ≠ d.1 →
    ∀ s ∈ t.cluster.servers.get? d.1, ∀ m ∈ t.cluster.issued,
      ∀ deadline ∈ t.cluster.announced m,
        (Cluster.Handler d.1 s m → d.2.event.keepsUp t.cluster.room.currentRound = true) ∧
        (t.cluster.Opener d.1 m ∨ Cluster.Handler d.1 s m →
          d.2.event.timesRound t.cluster.room.currentRound = true →
            s.session.planningTimerRound = t.cluster.room.currentRound ∧ s.session.timer.isSome ∨
              t.clock + s.session.planningTimeout = deadline)

/-- **The readings of the clock agree.** -/
def OnTime (t : Timeline) : TimelineCall → Prop
  | .turn id call lag => t.OnTimeTurn id call lag
  | .deliver index => t.OnTimeDelivery index
  | .pass _ | .hydrate _ => True

instance (t : Timeline) : DecidablePred t.OnTime
  | .turn _ _ _ => inferInstanceAs (Decidable (∀ s ∈ _, _ ∧ ∀ m ∈ _, ∀ deadline ∈ _, _))
  | .deliver _ => inferInstanceAs
      (Decidable (∀ d ∈ _, _ → ∀ s ∈ _, ∀ m ∈ _, ∀ deadline ∈ _, _))
  | .pass _ | .hydrate _ => .isTrue trivial

end Timeline

/-! ## What a turn makes of round and deadline

A session sets a deadline when it starts a timer.  In a turn it does so when the round is resolved,
or when a player connects and no timer runs. -/

/-- The resolution reports the end of the game exactly when the room ends it. -/
theorem openingResult_gameOver (room : GameRoom) :
    room.openingResult.gameOver = decide room.endsGame := by
  rw [GameRoom.openingResult]
  split
  · rename_i hends
    rw [decide_eq_true hends]
  · rename_i hends
    rw [decide_eq_false hends]

/-- A deadline for a round comes with the event that opens it. -/
theorem opensRound_of_deadlineFor {e : DomainEvent} {r : Int} {deadline : Time}
    (h : e.deadlineFor r = some deadline) : e.opensRound = some r := by
  cases e with
  | gameStarted e =>
    rw [DomainEvent.deadlineFor] at h
    split at h
    · rename_i hone
      rw [hone]
      rfl
    · cases h
  | roundStarted e =>
    rw [DomainEvent.deadlineFor] at h
    split at h
    · rename_i hround
      rw [← hround]
      rfl
    · cases h
  | roundResolved _ | gameOver _ | unitsDeparted _ | unitsRetreated _ | unitsAdvanced _
  | encounterOccurred _ | encounterDecisionMade _ | encounterResolved _ => cases h

/-- A room that is in its planning phase after a turn, and in the round it was in, was in it before. -/
theorem planning_left {h : Host} (hroom : InSession h.room) (hcounted : Counted h.room)
    {call : SessionCall} {room : GameRoom} {s : GameSession} (hleaves : Leaves h call room s)
    (hphase : room.phase = .planning) (hround : room.currentRound = h.room.currentRound) :
    h.room.phase = .planning := by
  cases hleaves with
  | connect | disconnect | refuse _ _ | look _ _ => exact hphase
  | @join playerId now hr =>
    have hzero := hcounted.waiting (joinRefusal_none hr)
    replace hphase : (h.room.joined playerId (now + h.session.planningTimeout)).phase = .planning :=
      hphase
    replace hround : (h.room.joined playerId (now + h.session.planningTimeout)).currentRound =
      h.room.currentRound := hround
    rw [joined, started] at hphase hround
    split at hphase
    · -- the game would have begun with round 1
      rename_i playerA playerB ha hb
      rw [ha, hb] at hround
      rw [hzero] at hround
      cases hround
    · exact hphase
  | move hconn hr => exact hphase
  | @decide side edgeId decision hconn hr =>
    exact (decideEncounter_frame h.room edgeId side decision).phase.symm.trans hphase
  | resolve hres => exact planning_of_resolves hroom hres
  | abandon _ _ => cases hphase

/-- What opens a round makes the round grow. -/
theorem grows_of_opens {h : Host} (hroom : InSession h.room) (hquiet : h.room.domainEvents = [])
    (hcounted : Counted h.room) {call : SessionCall} {room : GameRoom} (hdoes : Does h call room)
    {e : DomainEvent} (he : e ∈ room.domainEvents) {r : Int} (hopens : e.opensRound = some r) :
    h.room.currentRound < r := by
  obtain ⟨hr, -⟩ := opensRound_of_done hquiet hdoes he hopens
  have hminor : e.isMinor = true → False := by
    intro hminor
    rw [minor_opensRound hminor] at hopens
    cases hopens
  cases hdoes with
  | @join playerId now hrefusal =>
    have hzero := hcounted.waiting (joinRefusal_none hrefusal)
    rcases events_joined_eq hquiet playerId (now + h.session.planningTimeout) with hnone | ⟨pA, pB, hone⟩
    · rw [hnone] at he
      cases he
    · rw [hone, List.mem_singleton] at he
      rw [he] at hopens
      cases hopens
      omega
  | move hconn hrefusal =>
    rw [events_reserve hquiet, List.mem_singleton] at he
    rw [he] at hopens
    cases hopens
  | decide hconn hrefusal => exact (hminor ((events_decideEncounter_minor hquiet _ _ _).1 e he)).elim
  | @resolve _ ready now hres =>
    have hgrown := (counted_of_resolves hroom hcounted hres (now + h.session.planningTimeout)).2
    omega
  | abandon _ _ =>
    rw [events_forced hquiet, List.mem_singleton] at he
    rw [he] at hopens
    cases hopens

/-- The deadline of an event is counted from the instant at which its turn reads the clock. -/
theorem deadline_of_does {h : Host} (hquiet : h.room.domainEvents = []) {call : SessionCall}
    {room : GameRoom} (hdoes : Does h call room) {clock : Time} (hreads : call.readsAt clock = true)
    {e : DomainEvent} (he : e ∈ room.domainEvents) {r : Int} {deadline : Time}
    (hd : e.deadlineFor r = some deadline) : deadline = clock + h.session.planningTimeout := by
  have hminor : e.isMinor = true → False := by
    intro hminor
    have hnone := minor_opensRound hminor
    rw [opensRound_of_deadlineFor hd] at hnone
    cases hnone
  cases hdoes with
  | @join playerId now hrefusal =>
    have hnow : now = clock := of_decide_eq_true hreads
    rcases events_joined_eq hquiet playerId (now + h.session.planningTimeout) with hnone | ⟨pA, pB, hone⟩
    · rw [hnone] at he
      cases he
    · rw [hone, List.mem_singleton] at he
      rw [he, DomainEvent.deadlineFor] at hd
      split at hd
      · cases hd
        rw [hnow]
      · cases hd
  | move hconn hrefusal =>
    rw [events_reserve hquiet, List.mem_singleton] at he
    rw [he] at hd
    cases hd
  | decide hconn hrefusal => exact (hminor ((events_decideEncounter_minor hquiet _ _ _).1 e he)).elim
  | @resolve _ ready now hres =>
    have hnow : now = clock := by
      cases hres <;> exact of_decide_eq_true hreads
    rw [events_resolved] at he
    rcases List.mem_cons.mp he with rfl | hfollowing
    · cases hd
    · rw [List.mem_singleton.mp hfollowing, ProcessingOrder.following] at hd
      split at hd
      · cases hd
      · rw [DomainEvent.deadlineFor] at hd
        split at hd
        · cases hd
          rw [hnow]
        · cases hd
  | abandon _ _ =>
    rw [events_forced hquiet, List.mem_singleton] at he
    rw [he] at hd
    cases hd

/-- What a turn makes of the round of the timer and its deadline. -/
inductive Dates (h : Host) (call : SessionCall) (clock : Time) (room : GameRoom) (s : GameSession) :
    Prop where
  /-- The timer is left alone. -/
  | kept (hround : s.planningTimerRound = h.session.planningTimerRound)
      (hdeadline : s.planningDeadline = h.session.planningDeadline)
  /-- The game is over. -/
  | stopped (hround : s.planningTimerRound = -1) (hphase : room.phase = .gameOver)
  /-- A player has connected where no timer ran: the deadline is counted from now. -/
  | connected (hreaches : call.reaches.any (·.2) = true) (hnone : h.session.timer = none)
      (hsame : room = h.room) (hround : s.planningTimerRound = room.currentRound)
      (hdeadline : s.planningDeadline = some (clock + h.session.planningTimeout))
  /-- A round has been resolved: the deadline of the next one is counted from now. -/
  | opened (hgrown : h.room.currentRound < room.currentRound)
      (hround : s.planningTimerRound = room.currentRound)
      (hdeadline : s.planningDeadline = some (clock + h.session.planningTimeout))

/-- **Every turn does one of the four.** -/
theorem dates_left {h : Host} (hroom : InSession h.room) (hcounted : Counted h.room)
    {call : SessionCall} {clock : Time} (hreads : call.readsAt clock = true) {room : GameRoom}
    {s : GameSession} (hleaves : Leaves h call room s) : Dates h call clock room s := by
  cases hleaves with
  | @connect side now =>
    have hnow : now = clock := of_decide_eq_true hreads
    subst hnow
    let host := (h.reached side true).synced
    show Dates h _ now h.room (host.timed now).session
    rw [Host.timed]
    show Dates h _ now h.room (if _ then _ else _)
    split
    · rename_i hstart
      have hnone : h.session.timer = none := hstart.2
      -- StartPlanningTimer leaves a timer alone that runs for the round; here none runs
      rw [GameSession.startPlanningTimer, if_neg]
      · exact .connected rfl hnone rfl rfl rfl
      · rintro ⟨-, hsome, -⟩
        replace hsome : h.session.timer.isSome = true := hsome
        rw [hnone] at hsome
        cases hsome
    · exact .kept rfl rfl
  | disconnect | refuse _ _ | look _ _ | join _ | move _ _ | decide _ _ => exact .kept rfl rfl
  | @resolve _ ready now hres =>
    have hnow : now = clock := by
      cases hres <;> exact of_decide_eq_true hreads
    subst hnow
    have hgrown := (counted_of_resolves hroom hcounted hres (now + h.session.planningTimeout)).2
    have hover : (sourceOrder.closedRoom ready).endsGame →
        (sourceOrder.resolved ready (now + h.session.planningTimeout)).phase = .gameOver := by
      intro hends
      rw [ProcessingOrder.resolved, GameRoom.opened, if_pos hends]
    rw [GameSession.afterRound, openingResult_gameOver]
    -- nothing below depends on how the room was resolved
    generalize sourceOrder.resolved ready (now + h.session.planningTimeout) = resolved at hgrown hover ⊢
    by_cases hends : (sourceOrder.closedRoom ready).endsGame
    · rw [decide_eq_true hends]
      exact .stopped rfl (hover hends)
    · rw [decide_eq_false hends, opened_running rfl]
      exact .opened hgrown rfl rfl
  | abandon _ _ => exact .stopped rfl rfl

/-- A turn that resolves a round and opens no other ends the game. -/
theorem over_of_resolves {h : Host} {call : SessionCall} {room : GameRoom} {now : Time}
    (hmay : call.mayResolve = true) (hres : Resolves h call room now) (hno : h.goesOn call = false) :
    (sourceOrder.closedRoom room).openingResult.gameOver = true := by
  have hraises := (raises_iff_resolves hmay).mpr ⟨room, now, hres⟩
  cases hres with
  | ready _ _ | timeout _ _ | backup _ _ =>
    rw [Host.goesOn, hraises, Bool.true_and, Bool.not_eq_false'] at hno
    exact hno

/-- Time that passes in a turn is seen only where the turn opens a round. -/
theorem nextLate_eq {h : Host} (hroom : InSession h.room) {call : SessionCall}
    (hno : h.goesOn call = false) (later : Time) : h.nextLate call later = h.next call := by
  by_cases hmay : call.mayResolve = true
  · rcases em (∃ room now, Resolves h call room now) with ⟨room, now, hres⟩ | hnone
    · rw [(nextLate_of_resolves hroom hres later).1, (next_of_resolves hroom hres).1,
        Host.resolvedRound, Host.resolvedRound,
        Host.advanced_over _ (over_of_resolves hmay hres hno)]
    · have hnone' : ∀ room now, ¬ Resolves h call room now := fun room now hres =>
        hnone ⟨room, now, hres⟩
      rw [nextLate_of_not_resolves hmay hnone' later, next_of_not_resolves hmay hnone']
  · cases call with
    | checkAndResolveIfReady _ | planningTimeout _ _ | backupPlanningTimeout _ _ =>
      exact absurd rfl hmay
    | addPlayer _ _ | onPlayerConnected _ _ | onPlayerDisconnected _ | forceGameOver | moveUnits _ _
    | encounterDecision _ _ _ | getGameState _ | reconnectSync _ _ => rfl

/-! ## What a message makes of round and deadline

RoundResolved carries no deadline, so the timer it starts counts from the clock; RoundStarted and
GameStarted carry one, and it is taken over even if a timer runs. -/

/-- What a message makes of the round of the timer and its deadline. -/
inductive Realigned (s : GameSession) (m : DistributedEventMessage) (now : Time) (s' : GameSession) :
    Prop where
  /-- An event about units or encounters. -/
  | untouched (hminor : m.event.isMinor = true)
      (hround : s'.planningTimerRound = s.planningTimerRound)
      (hdeadline : s'.planningDeadline = s.planningDeadline)
  /-- A RoundResolved finds the timer running. -/
  | running (hround : s'.planningTimerRound = s.planningTimerRound)
      (hdeadline : s'.planningDeadline = s.planningDeadline)
      (htimes : m.event.timesRound s'.planningTimerRound = true)
  /-- A RoundResolved starts a timer, from the clock. -/
  | timed (hdeadline : s'.planningDeadline = some (now + s.planningTimeout))
      (htimes : m.event.timesRound s'.planningTimerRound = true)
      (hidle : ¬ (s.planningTimerRound = s'.planningTimerRound ∧ s.timer.isSome = true))
  /-- The deadline of the event is taken over. -/
  | announced (deadline : Time)
      (hevent : m.event.deadlineFor s'.planningTimerRound = some deadline)
      (hdeadline : s'.planningDeadline = some deadline)
  /-- The game is over. -/
  | stopped (hround : s'.planningTimerRound = -1) (hover : m.event.asGameOver.isSome = true)

/-- **Every message does one of the five.** -/
theorem realigned_aligned (s : GameSession) (m : DistributedEventMessage) (now : Time) :
    Realigned s m now ((s.aligned m now).keep m.buffered) := by
  rw [GameSession.aligned]
  split
  · rename_i resolved hevent
    have htimes : m.event.timesRound (resolved.completedRound + 1) = true := by
      rw [hevent]
      exact decide_eq_true rfl
    rw [GameSession.startPlanningTimer]
    split
    · rename_i hruns
      refine .running rfl rfl ?_
      show m.event.timesRound s.planningTimerRound = true
      rw [show s.planningTimerRound = resolved.completedRound + 1 from hruns.1]
      exact htimes
    · rename_i hidle
      exact .timed rfl htimes fun h => hidle ⟨h.1, h.2, rfl⟩
  · rename_i started hevent
    rw [GameSession.startPlanningTimer, if_neg fun h => by cases h.2.2]
    refine .announced started.deadline ?_ rfl
    rw [hevent]
    exact if_pos rfl
  · rename_i started hevent
    rw [GameSession.startPlanningTimer, if_neg fun h => by cases h.2.2]
    refine .announced started.deadline ?_ rfl
    rw [hevent]
    have hone : (DomainEvent.gameStarted started).deadlineFor 1 = some started.deadline := by
      rw [DomainEvent.deadlineFor, if_pos rfl]
    exact hone
  · rename_i e hevent
    refine .stopped rfl ?_
    rw [hevent]
    rfl
  · rename_i hresolved hstarted hbegun hover
    refine .untouched ?_ rfl rfl
    cases hevent : m.event with
    | roundResolved e => exact absurd hevent (hresolved e)
    | roundStarted e => exact absurd hevent (hstarted e)
    | gameStarted e => exact absurd hevent (hbegun e)
    | gameOver e => exact absurd hevent (hover e)
    | unitsDeparted _ | unitsRetreated _ | unitsAdvanced _ | encounterOccurred _
    | encounterDecisionMade _ | encounterResolved _ => rfl

/-- A RoundResolved opens the round it starts a timer for. -/
theorem opensRound_of_timesRound {e : DomainEvent} {r : Int} (h : e.timesRound r = true) :
    e.opensRound = some r := by
  cases e with
  | roundResolved e => exact congrArg some (of_decide_eq_true h)
  | gameStarted _ | roundStarted _ | gameOver _ | unitsDeparted _ | unitsRetreated _
  | unitsAdvanced _ | encounterOccurred _ | encounterDecisionMade _ | encounterResolved _ => cases h

/-- What opens a round is not minor. -/
theorem not_minor_of_opensRound {e : DomainEvent} {r : Int} (h : e.opensRound = some r) :
    e.isMinor = false := by
  rw [Bool.eq_false_iff]
  intro hminor
  rw [minor_opensRound hminor] at h
  cases h

/-- What keeps up with a round and opens one, opens this one. -/
theorem eq_of_keepsUp {e : DomainEvent} {r r' : Int} (hkeeps : e.keepsUp r = true)
    (hopens : e.opensRound = some r') : r' = r := by
  rw [DomainEvent.keepsUp, not_minor_of_opensRound hopens, Bool.false_or, hopens] at hkeeps
  exact Option.some.inj (of_decide_eq_true hkeeps)

/-- What keeps up with a round does not end the game. -/
theorem not_over_of_keepsUp {e : DomainEvent} {r : Int} (hkeeps : e.keepsUp r = true) :
    e.asGameOver.isSome = false := by
  cases e with
  | gameOver _ => cases hkeeps
  | gameStarted _ | roundStarted _ | roundResolved _ | unitsDeparted _ | unitsRetreated _
  | unitsAdvanced _ | encounterOccurred _ | encounterDecisionMade _ | encounterResolved _ => rfl

/-- A RoundResolved sets no deadline. -/
theorem not_timesRound_of_deadlineFor {e : DomainEvent} {r r' : Int} {deadline : Time}
    (h : e.deadlineFor r = some deadline) : e.timesRound r' = false := by
  cases e with
  | roundResolved _ => cases h
  | gameStarted _ | roundStarted _ | gameOver _ | unitsDeparted _ | unitsRetreated _
  | unitsAdvanced _ | encounterOccurred _ | encounterDecisionMade _ | encounterResolved _ => rfl

/-- What sets a deadline does not end the game. -/
theorem not_over_of_deadlineFor {e : DomainEvent} {r : Int} {deadline : Time}
    (h : e.deadlineFor r = some deadline) : e.asGameOver.isSome = false := by
  cases e with
  | gameOver _ => cases h
  | gameStarted _ | roundStarted _ | roundResolved _ | unitsDeparted _ | unitsRetreated _
  | unitsAdvanced _ | encounterOccurred _ | encounterDecisionMade _ | encounterResolved _ => rfl

/-! ## The invariant

`rounds`, `timers` and `unique` are what the step lemmas need of the past: a message that is still
on its way may be old, but not of a round to come. -/

/-- What holds of a cluster that is on time. -/
structure Dated (c : Cluster) : Prop where
  consistent : Consistent c
  counted : Counted c.room
  /-- Nothing has opened a later round. -/
  rounds : ∀ m ∈ c.issued, ∀ r, m.event.opensRound = some r → r ≤ c.room.currentRound
  /-- No server times a later round than the room is in. -/
  timers : ∀ id s, c.servers.get? id = some s → s.session.planningTimerRound ≤ c.room.currentRound
  /-- One event sets the deadline of the round. -/
  unique : ∀ m ∈ c.issued, ∀ m' ∈ c.issued, ∀ deadline deadline',
    m.event.deadlineFor c.room.currentRound = some deadline →
      m'.event.deadlineFor c.room.currentRound = some deadline' → deadline = deadline'
  one : c.OneDeadline

variable {c : Cluster} {planningTimeout : Time}

/-- A message announces a deadline for the round that is being planned. -/
theorem announced_eq_some {m : DistributedEventMessage} {deadline : Time}
    (h : deadline ∈ c.announced m) : c.room.phase = .planning ∧
      m.event.deadlineFor c.room.currentRound = some deadline := by
  rw [Cluster.announced] at h
  split at h
  · rename_i hphase
    exact ⟨hphase, h⟩
  · cases h

/-- Of a step that leaves the room and the messages alone only the servers need to be looked at. -/
theorem Dated.of_frame (hd : Dated c) {c' : Cluster} (hc' : Consistent c') (hroom : c'.room = c.room)
    (hissued : c'.issued = c.issued)
    (hbound : ∀ id s, c'.servers.get? id = some s → s.session.planningTimerRound ≤ c.room.currentRound)
    (hone : ∀ m ∈ c.issued, ∀ deadline ∈ c.announced m, ∀ id s, c'.servers.get? id = some s →
      c.Opener id m ∧ s.session.planningTimerRound = c.room.currentRound ∨ Cluster.Handler id s m →
        s.session.planningDeadline = some deadline) : Dated c' where
  consistent := hc'
  counted := by
    rw [hroom]
    exact hd.counted
  rounds := by
    rw [hroom, hissued]
    exact hd.rounds
  timers := by
    rw [hroom]
    exact hbound
  unique := by
    rw [hroom, hissued]
    exact hd.unique
  one := by
    rw [Cluster.OneDeadline, hissued]
    unfold Cluster.announced Cluster.Opener
    rw [hroom]
    exact hone

/-- A server that is new has no timer and has heard of nothing. -/
theorem Dated.hydrate (hd : Dated c) (id : String) : Dated (c.hydrate planningTimeout id) := by
  have hc := hd.consistent
  have hnonneg := hd.counted.nonneg
  obtain ⟨hroom, hissued⟩ := c.hydrate_frame planningTimeout id
  have hserver : ∀ k t, (c.hydrate planningTimeout id).servers.get? k = some t →
      c.servers.get? k = some t ∨ t.session.planningTimerRound = -1 ∧ t.processed = [] := by
    intro k t hk
    rw [Cluster.hydrate] at hk
    split at hk
    · exact .inl hk
    · replace hk : _ = some t := (Dict.get?_set _ _ _ _).symm.trans hk
      split at hk
      · cases hk
        exact .inr ⟨rfl, rfl⟩
      · exact .inl hk
  refine hd.of_frame (hc.next planningTimeout (.hydrate id)) hroom hissued (fun k t hk => ?_) ?_
  · rcases hserver k t hk with hold | ⟨hround, -⟩
    · exact hd.timers k t hold
    · omega
  · intro m hm deadline hann k t hk hwho
    rcases hserver k t hk with hold | ⟨hround, hnone⟩
    · exact hd.one m hm deadline hann k t hold hwho
    · rcases hwho with ⟨-, heq⟩ | ⟨-, hmem⟩
      · omega
      · rw [hnone] at hmem
        cases hmem

/-- What a delivery makes of a server. -/
theorem server_deliver (hc : Consistent c) {index : Nat} {clock : Time} {k : String} {t : Server}
    (hk : (c.deliver index clock).servers.get? k = some t) :
    (∃ s, c.servers.get? k = some s ∧ t.session = s.session ∧
        ∀ m, Cluster.Handler k t m → Cluster.Handler k s m) ∨
      ∃ s m', c.inFlight[index]? = some (k, m') ∧ c.servers.get? k = some s ∧
        m'.sourceServerId ≠ k ∧
        Realigned s.session m' clock t.session ∧
        ∀ m, Cluster.Handler k t m → Cluster.Handler k s m ∨ m = m' := by
  have htouched : Touched 0 c (.deliver index clock) k t.session := server_next hc hk
  have hprocessed : ∀ m, Cluster.Handler k t m →
      (∃ s, c.servers.get? k = some s ∧ m ∈ s.processed) ∨ ∃ i now,
        ClusterCall.deliver index clock = .deliver i now ∧ c.inFlight[i]? = some (k, m) :=
    fun m hm => @processed_next c 0 hc (.deliver index clock) k t hk m hm.2 hm.1
  generalize ht : t.session = session at htouched
  cases htouched with
  | @kept _ _ s hget _ hown =>
    refine .inl ⟨s, hget, rfl, fun m hm => ?_⟩
    rcases hprocessed m hm with ⟨s', hget', hmem⟩ | ⟨i, n, heq, hflight⟩
    · cases Option.some.inj (hget.symm.trans hget')
      exact ⟨hm.1, hmem⟩
    · cases heq
      exact absurd (hown _ _ m rfl hflight) hm.1
  | hydrated _ hcall => rcases hcall with ⟨i, heq⟩ | ⟨i, heq⟩ <;> cases heq
  | @delivered _ _ _ m' s hflight hget hother =>
    refine .inr ⟨s, m', hflight, hget, hother, ?_, fun m hm => ?_⟩
    · exact realigned_aligned s.session m' clock
    · rcases hprocessed m hm with ⟨s', hget', hmem⟩ | ⟨i, n, heq, hflight'⟩
      · cases Option.some.inj (hget.symm.trans hget')
        exact .inl ⟨hm.1, hmem⟩
      · cases heq
        rw [hflight] at hflight'
        cases hflight'
        exact .inr rfl

/-- **A delivery in order keeps the deadlines.** -/
theorem Dated.deliver (hd : Dated c) {index : Nat} {clock : Time}
    (hontime : (⟨c, clock⟩ : Timeline).OnTimeDelivery index) : Dated (c.deliver index clock) := by
  have hc := hd.consistent
  have hnonneg := hd.counted.nonneg
  obtain ⟨hroom, hissued⟩ := c.deliver_frame index clock
  refine hd.of_frame (hc.next 0 (.deliver index clock)) hroom hissued (fun k t hk => ?_) ?_
  -- first the bound: a timer that is started is for a round that has been opened
  · rcases server_deliver hc hk with ⟨s, hget, hsame, -⟩ | ⟨s, m', hflight, hget, -, hre, -⟩
    · rw [hsame]
      exact hd.timers k s hget
    · have hbound := hd.timers k s hget
      have hissued' : m' ∈ c.issued := hc.inFlight _ (List.mem_of_getElem? hflight)
      cases hre with
      | untouched _ hround _ => omega
      | running hround _ _ => omega
      | timed _ htimes _ => exact hd.rounds m' hissued' _ (opensRound_of_timesRound htimes)
      | announced d hevent _ => exact hd.rounds m' hissued' _ (opensRound_of_deadlineFor hevent)
      | stopped hround _ => omega
  intro m hm deadline hann k t hk hwho
  obtain ⟨hphase, hdeadline⟩ := announced_eq_some hann
  rcases server_deliver hc hk with ⟨s, hget, hsame, hhandled⟩ |
    ⟨s, m', hflight, hget, hother, hre, hhandled⟩
  · rw [hsame] at hwho ⊢
    exact hd.one m hm deadline hann k s hget (hwho.imp_right (hhandled m))
  have hmem' : m' ∈ c.issued := hc.inFlight _ (List.mem_of_getElem? hflight)
  obtain ⟨hkeeps, hstarts⟩ := hontime _ (Option.mem_def.mpr hflight) hother s
    (Option.mem_def.mpr hget) m hm deadline hann
  -- the message is the event itself, or the server was an opener or a handler before
  have hbefore : m = m' ∨ c.Opener k m ∧ t.session.planningTimerRound = c.room.currentRound ∨
      Cluster.Handler k s m := by
    rcases hwho with hopener | hhandler
    · exact .inr (.inl hopener)
    · exact (hhandled m hhandler).symm.imp_right .inr
  -- what is not the event itself, and opens a round, opens the current one
  have hcurrent : m'.event.opensRound = some t.session.planningTimerRound →
      t.session.planningTimerRound = c.room.currentRound := by
    intro hopens
    rcases hbefore with rfl | ⟨-, hround⟩ | hhandler
    · rw [opensRound_of_deadlineFor hdeadline] at hopens
      exact (Option.some.inj hopens).symm
    · exact hround
    · exact eq_of_keepsUp (hkeeps hhandler) hopens
  have hold : m ≠ m' → t.session.planningTimerRound = s.session.planningTimerRound →
      s.session.planningDeadline = some deadline := by
    intro hne hround
    refine hd.one m hm deadline hann k s hget ?_
    rw [← hround]
    exact hbefore.resolve_left hne
  cases hre with
  | untouched hminor hround hsame =>
    rw [hsame]
    refine hold ?_ hround
    rintro rfl
    have hno := not_minor_of_opensRound (opensRound_of_deadlineFor hdeadline)
    rw [hminor] at hno
    cases hno
  | running hround hsame htimes =>
    rw [hsame]
    refine hold ?_ hround
    rintro rfl
    rw [not_timesRound_of_deadlineFor hdeadline] at htimes
    cases htimes
  -- no timer ran, so by the condition the clock stands where the deadline was counted from
  | timed hclock htimes hidle =>
    have hround := hcurrent (opensRound_of_timesRound htimes)
    rw [hround] at htimes hidle
    have hwho' : c.Opener k m ∨ Cluster.Handler k s m := by
      rcases hbefore with rfl | ⟨hopener, -⟩ | hhandler
      · rw [not_timesRound_of_deadlineFor hdeadline] at htimes
        cases htimes
      · exact .inl hopener
      · exact .inr hhandler
    rw [hclock]
    exact congrArg some ((hstarts hwho' htimes).resolve_left hidle)
  | announced d hevent hsame =>
    have hround := hcurrent (opensRound_of_deadlineFor hevent)
    rw [hround] at hevent
    rw [hsame]
    exact congrArg some (hd.unique m' hmem' m hm d deadline hevent hdeadline)
  | stopped hround hover =>
    rcases hbefore with rfl | ⟨-, heq⟩ | hhandler
    · rw [not_over_of_deadlineFor hdeadline] at hover
      cases hover
    · omega
    · rw [not_over_of_keepsUp (hkeeps hhandler)] at hover
      cases hover

/-- What a turn makes of a server. -/
theorem server_turn (hc : Consistent c) {id : String} {s : Server} (hget : c.servers.get? id = some s)
    {call : SessionCall} {k : String} {t : Server} (hk : (c.turn id call).servers.get? k = some t) :
    (∃ s', c.servers.get? k = some s' ∧ t.session = s'.session ∧
        ∀ m, Cluster.Handler k t m → Cluster.Handler k s' m) ∧ k ≠ id ∨
      k = id ∧ t.session = ((s.host c.room).next call).session ∧
        ∀ m, Cluster.Handler k t m → Cluster.Handler k s m := by
  have htouched : Touched 0 c (.turn id call) k t.session := server_next hc hk
  have hprocessed : ∀ m, Cluster.Handler k t m →
      ∃ s, c.servers.get? k = some s ∧ m ∈ s.processed := by
    intro m hm
    rcases @processed_next c 0 hc (.turn id call) k t hk m hm.2 hm.1 with hold | ⟨i, now, heq, -⟩
    · exact hold
    · cases heq
  generalize ht : t.session = session at htouched
  cases htouched with
  | @kept _ _ s' hget' hturn _ =>
    refine .inl ⟨⟨s', hget', rfl, fun m hm => ?_⟩, ?_⟩
    · obtain ⟨s'', hget'', hmem⟩ := hprocessed m hm
      cases Option.some.inj (hget'.symm.trans hget'')
      exact ⟨hm.1, hmem⟩
    · rintro rfl
      exact hturn call rfl
  | hydrated _ hcall => rcases hcall with ⟨i, heq⟩ | ⟨i, heq⟩ <;> cases heq
  | @turned _ _ s' hget' =>
    cases Option.some.inj (hget'.symm.trans hget)
    refine .inr ⟨rfl, rfl, fun m hm => ?_⟩
    obtain ⟨s'', hget'', hmem⟩ := hprocessed m hm
    cases Option.some.inj (hget'.symm.trans hget'')
    exact ⟨hm.1, hmem⟩

/-- The round of the timer and its deadline are part of the bare session. -/
theorem Dates.of_bare {h : Host} {call : SessionCall} {clock : Time} {room : GameRoom}
    {s s' : GameSession} (hdates : Dates h call clock room s) (hbare : s'.bare = s.bare) :
    Dates h call clock room s' := by
  have hround : s'.planningTimerRound = s.planningTimerRound :=
    congr_bare GameSession.planningTimerRound (fun _ => rfl) hbare
  have hdeadline : s'.planningDeadline = s.planningDeadline :=
    congr_bare GameSession.planningDeadline (fun _ => rfl) hbare
  cases hdates with
  | kept hr hdl => exact .kept (hround.trans hr) (hdeadline.trans hdl)
  | stopped hr hphase => exact .stopped (hround.trans hr) hphase
  | connected hreaches hnone hsame hr hdl =>
    exact .connected hreaches hnone hsame (hround.trans hr) (hdeadline.trans hdl)
  | opened hgrown hr hdl => exact .opened hgrown (hround.trans hr) (hdeadline.trans hdl)

section Turn

variable {id : String} {s : Server} {call : SessionCall} {clock : Time}

/-- What a turn publishes is added to what has been issued. -/
theorem issued_turn (hget : c.servers.get? id = some s) :
    (c.turn id call).issued = c.issued ++ ((s.host c.room).next call).published := by
  rw [turn_eq hget]
  rfl

/-- What a turn on time makes of the session that it runs on. -/
theorem dates_turn (hd : Dated c) (hget : c.servers.get? id = some s)
    (hreads : call.readsAt clock = true) :
    ∃ session, Leaves (s.host c.room) call (c.turn id call).room session ∧
      Dates (s.host c.room) call clock (c.turn id call).room
        ((s.host c.room).next call).session := by
  obtain ⟨room, session, hleaves, rfl, hbare⟩ := left_turn hd.consistent hget call
  have hdates := dates_left (h := s.host c.room) hd.consistent.room hd.counted hreads hleaves
  exact ⟨session, hleaves, hdates.of_bare hbare⟩

/-- What a turn on time raises: only a later round is opened, and its deadline is counted from now. -/
theorem raised_turn (hd : Dated c) (hget : c.servers.get? id = some s)
    (hreads : call.readsAt clock = true) {m : DistributedEventMessage}
    (hm : m ∈ ((s.host c.room).next call).published) : m.sourceServerId = id ∧
      (∀ r, m.event.opensRound = some r →
        r = (c.turn id call).room.currentRound ∧ c.room.currentRound < r) ∧
      ∀ r deadline, m.event.deadlineFor r = some deadline →
        deadline = clock + s.session.planningTimeout := by
  have hc := hd.consistent
  obtain ⟨room, hdone, hevent, hsource⟩ := mem_published (hc.servers id s hget) hc.room hc.quiet hm
  have hsaved : (c.turn id call).room = room.told := by
    rw [turn_eq hget]
    exact hdone.saved
  refine ⟨hsource, fun r hopens => ?_, fun r deadline hdl => ?_⟩
  · rw [hsaved, currentRound_told]
    exact ⟨(opensRound_of_done hc.quiet hdone.does hevent hopens).1,
      grows_of_opens (h := s.host c.room) hc.room hc.quiet hd.counted hdone.does hevent hopens⟩
  · exact deadline_of_does (h := s.host c.room) hc.quiet hdone.does hreads hevent hdl

/-- The round goes on after a turn, or a later one has been opened. -/
theorem Dated.goes (hd : Dated c) (id : String) (call : SessionCall) :
    (c.turn id call).room.currentRound = c.room.currentRound ∧
        (c.turn id call).room.ownerServerId = c.room.ownerServerId ∨
      c.room.currentRound < (c.turn id call).room.currentRound :=
  (round_next hd.consistent hd.counted 0 (.turn id call)).2

/-- No timer is ahead of the room. -/
theorem Dated.timers_turn (hd : Dated c) (hget : c.servers.get? id = some s)
    (hreads : call.readsAt clock = true) {k : String} {t : Server}
    (hk : (c.turn id call).servers.get? k = some t) :
    t.session.planningTimerRound ≤ (c.turn id call).room.currentRound := by
  have hgoes := hd.goes id call
  rcases server_turn hd.consistent hget hk with ⟨⟨s', hget', hsame, -⟩, -⟩ | ⟨-, hsame, -⟩
  · have hbound := hd.timers k s' hget'
    rw [hsame]
    omega
  · have hbound := hd.timers id s hget
    have hnonneg := hd.counted.nonneg
    obtain ⟨-, -, hdates⟩ := dates_turn hd hget hreads
    rw [hsame]
    cases hdates with
    | kept hr _ =>
      replace hr : _ = s.session.planningTimerRound := hr
      omega
    | stopped hr _ => omega
    | connected _ _ _ hr _ => exact Int.le_of_eq hr
    | opened _ hr _ => exact Int.le_of_eq hr

/-- One event sets the deadline of the round: an old one and a new one are not for the same round, and
    a turn counts every deadline from now. -/
theorem Dated.unique_turn (hd : Dated c) (hget : c.servers.get? id = some s)
    (hreads : call.readsAt clock = true) {m m' : DistributedEventMessage}
    (hm : m ∈ (c.turn id call).issued) (hm' : m' ∈ (c.turn id call).issued) {deadline deadline' : Time}
    (hdl : m.event.deadlineFor (c.turn id call).room.currentRound = some deadline)
    (hdl' : m'.event.deadlineFor (c.turn id call).room.currentRound = some deadline') :
    deadline = deadline' := by
  have hgoes := hd.goes id call
  have hopens := opensRound_of_deadlineFor hdl
  have hopens' := opensRound_of_deadlineFor hdl'
  rw [issued_turn hget] at hm hm'
  rcases List.mem_append.mp hm with hold | hraised
  · have hle := hd.rounds m hold _ hopens
    rcases List.mem_append.mp hm' with hold' | hraised'
    -- both are old, so the round has not grown
    · have hsame : (c.turn id call).room.currentRound = c.room.currentRound := by omega
      rw [hsame] at hdl hdl'
      exact hd.unique m hold m' hold' deadline deadline' hdl hdl'
    · have hgrown := ((raised_turn hd hget hreads hraised').2.1 _ hopens').2
      omega
  · have hgrown := ((raised_turn hd hget hreads hraised).2.1 _ hopens).2
    rcases List.mem_append.mp hm' with hold' | hraised'
    · have hle := hd.rounds m' hold' _ hopens'
      omega
    · rw [(raised_turn hd hget hreads hraised).2.2 _ _ hdl,
        (raised_turn hd hget hreads hraised').2.2 _ _ hdl']

/-- While the round goes on, the deadline of its event stays. -/
theorem Dated.one_kept (hd : Dated c) (hget : c.servers.get? id = some s)
    (hreads : call.readsAt clock = true)
    (hontime : ∀ m ∈ c.issued, ∀ deadline ∈ c.announced m, c.Opener id m ∨
      Cluster.Handler id s m →
      call.reaches.any (·.2) = true → s.session.timer = none →
        clock + s.session.planningTimeout = deadline)
    {m : DistributedEventMessage} (hold : m ∈ c.issued) {deadline : Time}
    (hann : deadline ∈ (c.turn id call).announced m) {k : String} {t : Server}
    (hk : (c.turn id call).servers.get? k = some t)
    (hwho : (c.turn id call).Opener k m ∧
        t.session.planningTimerRound = (c.turn id call).room.currentRound ∨ Cluster.Handler k t m) :
    t.session.planningDeadline = some deadline := by
  have hc := hd.consistent
  obtain ⟨session, hleaves, hdates⟩ := dates_turn hd hget hreads
  obtain ⟨hphase, hdl⟩ := announced_eq_some hann
  have hle := hd.rounds m hold _ (opensRound_of_deadlineFor hdl)
  obtain ⟨hround, howner⟩ := (hd.goes id call).resolve_right (by omega)
  have hphase' : c.room.phase = .planning :=
    planning_left (h := s.host c.room) hc.room hd.counted hleaves hphase hround
  have hann' : deadline ∈ c.announced m := by
    rw [Cluster.announced, if_pos hphase', ← hround]
    exact hdl
  have hopener : (c.turn id call).Opener k m → c.Opener k m := by
    intro h
    rw [Cluster.Opener, howner] at h
    exact h
  rw [hround] at hwho
  rcases server_turn hc hget hk with ⟨⟨s', hget', hsame, hhandled⟩, -⟩ | ⟨rfl, hsame, hhandled⟩
  · rw [hsame] at hwho ⊢
    exact hd.one m hold deadline hann' k s' hget'
      (hwho.imp (And.imp_left hopener) (hhandled m))
  · rw [hsame] at hwho ⊢
    cases hdates with
    | kept hr hdl' =>
      rw [hdl']
      rw [hr] at hwho
      exact hd.one m hold deadline hann' k s hget (hwho.imp (And.imp_left hopener) (hhandled m))
    | stopped hr hover =>
      rw [hover] at hphase
      cases hphase
    | connected hreaches hnone _ _ hdl' =>
      rw [hdl']
      refine congrArg some (hontime m hold deadline hann' ?_ hreaches hnone)
      exact hwho.imp (fun h => hopener h.1) (hhandled m)
    | opened hgrown _ _ =>
      replace hgrown : c.room.currentRound < (c.turn k call).room.currentRound := hgrown
      omega

/-- Of the round that a turn opens nobody but its server has heard yet. -/
theorem Dated.one_opened (hd : Dated c) (hget : c.servers.get? id = some s)
    (hreads : call.readsAt clock = true) {m : DistributedEventMessage} (hnew : m ∉ c.issued)
    (hraised : m ∈ ((s.host c.room).next call).published) {deadline : Time}
    (hann : deadline ∈ (c.turn id call).announced m) {k : String} {t : Server}
    (hk : (c.turn id call).servers.get? k = some t)
    (hwho : (c.turn id call).Opener k m ∧
        t.session.planningTimerRound = (c.turn id call).room.currentRound ∨ Cluster.Handler k t m) :
    t.session.planningDeadline = some deadline := by
  have hc := hd.consistent
  obtain ⟨-, hdl⟩ := announced_eq_some hann
  obtain ⟨hsource, hopened, hclock⟩ := raised_turn hd hget hreads hraised
  have hgrown := (hopened _ (opensRound_of_deadlineFor hdl)).2
  rcases server_turn hc hget hk with ⟨⟨s', hget', hsame, hhandled⟩, -⟩ | ⟨rfl, hsame, hhandled⟩
  · rcases hwho with ⟨-, hround⟩ | hhandler
    · have hbound := hd.timers k s' hget'
      rw [hsame] at hround
      omega
    · exact absurd ((hc.servers k s' hget').processed m (hhandled m hhandler).2) hnew
  · rcases hwho with ⟨-, hround⟩ | hhandler
    · have hbound := hd.timers k s hget
      have hnonneg := hd.counted.nonneg
      obtain ⟨-, -, hdates⟩ := dates_turn hd hget hreads
      rw [hsame] at hround ⊢
      cases hdates with
      | kept hr _ =>
        replace hr : _ = s.session.planningTimerRound := hr
        omega
      | stopped hr _ => omega
      | connected _ _ hsame' _ _ =>
        replace hsame' : (c.turn k call).room = c.room := hsame'
        rw [hsame'] at hgrown
        omega
      | opened _ _ hdl' =>
        rw [hdl']
        exact congrArg some (hclock _ _ hdl).symm
    · exact absurd hsource hhandler.1

/-- **A turn on time keeps the deadlines.** -/
theorem Dated.turn (hd : Dated c) (hreads : call.readsAt clock = true)
    (hontime : ∀ s ∈ c.servers.get? id, ∀ m ∈ c.issued, ∀ deadline ∈ c.announced m,
      c.Opener id m ∨ Cluster.Handler id s m → call.reaches.any (·.2) = true →
        s.session.timer = none → clock + s.session.planningTimeout = deadline) :
    Dated (c.turn id call) := by
  rcases hget : c.servers.get? id with _ | s
  · rw [turn_unknown hget call]
    exact hd
  refine ⟨hd.consistent.next 0 (.turn id call),
    (round_next hd.consistent hd.counted 0 (.turn id call)).1, ?_,
    fun k t hk => hd.timers_turn hget hreads hk,
    fun m hm m' hm' deadline deadline' hdl hdl' => hd.unique_turn hget hreads hm hm' hdl hdl', ?_⟩
  · intro m hm r hopens
    rw [issued_turn hget] at hm
    rcases List.mem_append.mp hm with hold | hraised
    · have hle := hd.rounds m hold r hopens
      have hgoes := hd.goes id call
      omega
    · exact Int.le_of_eq ((raised_turn hd hget hreads hraised).2.1 r hopens).1
  · intro m hm deadline hann k t hk hwho
    by_cases hold : m ∈ c.issued
    · exact hd.one_kept hget hreads (hontime s (Option.mem_def.mpr hget)) hold hann hk hwho
    · rw [issued_turn hget] at hm
      have hraised := (List.mem_append.mp hm).resolve_left hold
      exact hd.one_opened hget hreads hold hraised hann hk hwho

end Turn

/-! ## Every run

A run in which every step is on time. -/

/-- At the start nothing has been issued and no timer runs. -/
theorem dated_initial (roomId serverId : String) (planningTimeout : Time) :
    Dated (Cluster.initial roomId serverId planningTimeout .a) where
  consistent := consistent_initial roomId serverId planningTimeout .a
  counted := counted_initial roomId serverId planningTimeout .a
  rounds m hm := by cases hm
  timers id s hget := by
    have hnonneg := (counted_initial roomId serverId planningTimeout .a).nonneg
    replace hget : _ = some s := (Dict.get?_set _ _ _ _).symm.trans hget
    split at hget
    · cases hget
      show (-1 : Int) ≤ _
      omega
    · cases hget
  unique m hm := by cases hm
  one m hm := by cases hm

/-- A view shows the deadline of the session. -/
theorem deadline_of_shown {h : Host} {side : PlayerSide} {view : GameStateView} {round : Int}
    (hshown : h.shown side = .message (.stateUpdate view round)) :
    view.deadline = h.session.planningDeadline := by
  rw [Host.shown] at hshown
  split at hshown
  · rename_i built hview
    cases hshown
    rw [buildGameStateView] at hview
    cases hpendings : h.room.pendingEncounters.mapM (buildPendingEncounterView h.room side) with
    | error e =>
      rw [hpendings] at hview
      cases hview
    | ok pendings =>
      rw [hpendings] at hview
      cases hview
      rfl
  · cases hshown

/-- **Every step on time keeps the deadlines.** -/
theorem Dated.next {t : Timeline} (hd : Dated t.cluster) {call : TimelineCall} (hlegal : t.Legal call)
    (hontime : t.OnTime call) : Dated (t.next planningTimeout call).cluster := by
  cases call with
  | pass delay => exact hd
  | hydrate id => exact hd.hydrate id
  | deliver index => exact hd.deliver hontime
  | turn id call lag =>
    have hreads : call.readsAt t.clock = true := hlegal
    have hturn : t.cluster.turnLate id call (t.clock + lag) = t.cluster.turn id call := by
      rw [Cluster.turnLate, Cluster.turn]
      rcases hget : t.cluster.servers.get? id with _ | s
      · rfl
      -- the second reading matters only where a round is opened, and there no time passes
      have hlate : (s.host t.cluster.room).nextLate call (t.clock + lag) =
          (s.host t.cluster.room).next call := by
        cases hgoes : (s.host t.cluster.room).goesOn call with
        | false => exact nextLate_eq hd.consistent.room hgoes _
        | true =>
          rw [(hontime s (Option.mem_def.mpr hget)).1 hgoes, Int.ofNat_zero, Int.add_zero]
          exact nextLate_self hreads
      show t.cluster.save id s _ = t.cluster.save id s _
      rw [hlate]
    show Dated (t.cluster.turnLate id call (t.clock + lag))
    rw [hturn]
    exact hd.turn hreads fun s hs m hm deadline hann hwho hreaches hnone =>
      ((hontime s hs).2 m hm deadline hann hwho).1 hreaches hnone

/-- What a view shows then is the deadline of the round. -/
theorem Dated.shown {t : Timeline} (hd : Dated t.cluster) {call : TimelineCall}
    (hontime : t.OnTime call) : t.ShownOne call := by
  cases call with
  | pass _ | hydrate _ | deliver _ => exact trivial
  | turn id call lag =>
    intro side hside s hs m hm deadline hann hwho view round hshown
    have hshows : call.shows.isSome = true := Option.isSome_of_mem hside
    have hready := ((hontime s hs).2 m hm deadline hann hwho).2 hshows
    rw [deadline_of_shown hshown]
    refine hd.one m hm deadline hann id s hs ?_
    rcases hwho with hopener | hhandler
    · rcases hready with hhandler | hround
      · exact .inr hhandler
      · exact .inl ⟨hopener, hround⟩
    · exact .inr hhandler

/-- **Where the readings of the clock agree, a round has one deadline.** -/
theorem one_deadline (roomId serverId : String) (planningTimeout : Time)
    (calls : List TimelineCall) :
    let servers := timelines roomId serverId planningTimeout
    servers.Run calls → servers.Steps Timeline.OnTime servers.start calls →
      (∀ t ∈ servers.visited servers.start calls, t.cluster.OneDeadline) ∧
        servers.Steps Timeline.ShownOne servers.start calls := by
  intro servers hrun hontime
  have hstart : Dated servers.start.cluster := dated_initial roomId serverId planningTimeout
  have hsteps := Machine.Steps.and hrun hontime
  have hnext : ∀ t call, Dated t.cluster → t.Legal call ∧ t.OnTime call →
      Dated (servers.next t call).cluster := fun t call hd hcall => hd.next hcall.1 hcall.2
  constructor
  · intro t ht
    exact (Machine.visited_of_invariant (I := fun t => Dated t.cluster) hnext hstart hsteps t ht).one
  · exact Machine.steps_of_invariant (I := fun t => Dated t.cluster) hnext
      (fun t call hd hcall => hd.shown hcall.2) hstart hsteps

/-- Two players join on `s1` at the same instant as the first of them connects, and `s2` serves the
    room as well. -/
def begunCalls : List TimelineCall :=
  [.hydrate "s2", .turn "s1" (.addPlayer ⟨"alice"⟩ 0) 0, .turn "s1" (.addPlayer ⟨"bob"⟩ 0) 0,
    .turn "s1" (.onPlayerConnected .a 0) 0, .deliver 0, .deliver 0]

/-- A whole round in which the readings agree: the lag of the turn that opens round 2 is 0. -/
def onTimeCalls : List TimelineCall := begunCalls ++
  [.pass 10, .turn "s1" (.getGameState .a) 0, .turn "s2" (.onPlayerConnected .b 10) 0,
    .turn "s2" (.getGameState .b) 0, .pass 29990, .turn "s1" (.planningTimeout 1 30000) 0, .pass 5,
    .deliver 0, .deliver 0, .deliver 0, .deliver 0, .turn "s2" (.getGameState .b) 0]

/-- The timer of `s1` resolves round 1, and it takes 7 ms until the next one is started. -/
def laggingCalls : List TimelineCall := begunCalls ++
  [.pass 30000, .turn "s1" (.planningTimeout 1 30000) 7, .deliver 0, .deliver 0, .deliver 0, .deliver 0]

/-- Both servers end up with the deadline of the event, through views, a timeout and four
    deliveries. -/
theorem one_deadline_onTime :
    let servers := timelines "room" "s1" 30000
    servers.Run onTimeCalls ∧ servers.Steps Timeline.OnTime servers.start onTimeCalls ∧
      (∀ t ∈ servers.visited servers.start onTimeCalls, t.cluster.OneDeadline) ∧
      servers.Steps Timeline.ShownOne servers.start onTimeCalls ∧
      ∀ e ∈ (servers.after servers.start onTimeCalls).cluster.servers.entries,
        e.2.session.planningTimerRound = 2 ∧ e.2.session.planningDeadline = some 60000 := by
  intro servers
  have hrun : servers.Steps Timeline.Legal servers.start onTimeCalls := by decide +kernel
  have hontime : servers.Steps Timeline.OnTime servers.start onTimeCalls := by decide +kernel
  obtain ⟨hone, hshown⟩ := one_deadline "room" "s1" 30000 onTimeCalls hrun hontime
  exact ⟨hrun, hontime, hone, hshown, by decide +kernel⟩

/-- The server that has resolved the round has another deadline than the event and the other server. -/
theorem two_deadlines :
    let servers := timelines "room" "s1" 30000
    let last := servers.after servers.start laggingCalls
    servers.Run laggingCalls ∧ last.cluster.room.phase = .planning ∧
      (∃ m ∈ last.cluster.issued, last.cluster.announced m = some 60000) ∧
      (∀ s ∈ last.cluster.servers.get? "s1", s.session.planningDeadline = some 60007) ∧
      (∀ s ∈ last.cluster.servers.get? "s2", s.session.planningDeadline = some 60000) ∧
      ¬ last.cluster.OneDeadline := by
  intro servers last
  have hfound : (last.cluster.servers.get? "s1").any (fun s => s.session.planningTimerRound = 2 ∧
      s.session.planningDeadline = some 60007) = true := by decide +kernel
  have hevent : ∃ m ∈ last.cluster.issued, last.cluster.announced m = some 60000 ∧
      last.cluster.Opener "s1" m := by decide +kernel
  have hround : last.cluster.room.currentRound = 2 := by decide +kernel
  have hrun : servers.Steps Timeline.Legal servers.start laggingCalls := by decide +kernel
  refine ⟨hrun, by decide +kernel, ?_, by decide +kernel, by decide +kernel, fun hone => ?_⟩
  · obtain ⟨m, hm, hann, -⟩ := hevent
    exact ⟨m, hm, hann⟩
  · obtain ⟨m, hm, hann, hopener⟩ := hevent
    obtain ⟨s, hget, hs⟩ := (Option.any_eq_true _ _).mp hfound
    obtain ⟨htimer, hdeadline⟩ := of_decide_eq_true hs
    have hwrong := hone m hm 60000 (Option.mem_def.mpr hann) "s1" s hget
      (.inl ⟨hopener, htimer.trans hround.symm⟩)
    rw [hdeadline] at hwrong
    cases hwrong

end HexWar
