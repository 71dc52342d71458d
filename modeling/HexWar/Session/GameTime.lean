/-
  How long a game takes.

  A server that is alone resolves the round when both sides are ready, and at the latest when its
  timer fires; and the timer is started again with every round.  So once a timer runs, the game cannot
  outlast the rounds that are left: whatever the players do or leave undone, `over_in_time` bounds the
  clock by one planning time, and the lag of one handler, for every round.

  The bound would say nothing if the clock could be held up, so `time_goes_on` says that it cannot: from
  any state on there is a run in which time passes for as long as one likes.

  How the bound comes about:

  1. `Ticks`: a turn keeps the timer, or starts it for the next round and one planning time, or stops it
     with the end of the game.
  2. `Lone`: a timer that runs is the owner's, for the round that is being planned.  So its handler
     finds what it needs and resolves the round (`resolves_handler`).
  3. `Attended`: a timer that runs has not been through and is not overdue by more than the lag, which is
     what `Clocked.Legal` asks of the clock.
  4. `Clocked.Within`: the deadline, and a planning time and a lag for every round after this one, do not
     pass a limit.  Opening a round takes one of them off and adds it to the deadline.

  Every handler is taken to get the lock of the room, as it does where the rooms are kept in memory.
-/
import HexWar.Domain.Conquest
import HexWar.Session.Timeouts
import Mathlib.Tactic.Linarith
import Mathlib.Tactic.Ring

namespace HexWar

open Lib Lib.Action GameRoom

/-! ## The machine

The handler of a timer may be late by the lag.  A timer that has fired and whose handler has been
through holds the clock up no longer. -/

/-- A server that is alone with its room, and what the clock shows. -/
structure Clocked where
  host : Host
  clock : Time
  /-- The timer in its field has elapsed, and its handler has been through. -/
  elapsed : Bool

/-- What happens on a server with a clock. -/
inductive ClockedTurn where
  /-- Time passes. -/
  | pass (delay : Nat)
  /-- A turn of the session, at the instant that the clock shows. -/
  | turn (call : SessionCall)
  /-- The timer elapses, and its handler gets the lock. -/
  | timeout
deriving DecidableEq

namespace Clocked

/-- What the handler of the running timer does. -/
def handler (w : Clocked) (kind : TimerKind) : SessionCall :=
  TimeoutHandler.call ⟨w.host.session.serverId, kind, w.host.session.planningTimerRound⟩ w.clock

/-- A turn that starts a timer makes the mark of the old one void. -/
def next (w : Clocked) : ClockedTurn → Clocked
  | .pass delay => { w with clock := w.clock + delay }
  | .turn call => ⟨w.host.next call, w.clock, w.elapsed && !w.host.startsTimer call⟩
  | .timeout =>
    match w.host.session.timer with
    | none => w
    | some kind => ⟨w.host.next (w.handler kind), w.clock, !w.host.startsTimer (w.handler kind)⟩

/-- Turns read the clock, a timer fires when it is due, and once; and its handler has been through
    when the lag is over. -/
def Legal (lag : Time) (w : Clocked) : ClockedTurn → Prop
  | .pass delay => w.elapsed = true ∨ ∀ due ∈ w.host.session.dueAt, w.clock + delay ≤ due + lag
  | .turn call => call.readsAt w.clock = true
  | .timeout => w.elapsed = false ∧ ∃ due ∈ w.host.session.dueAt, due ≤ w.clock

instance (lag : Time) (w : Clocked) : DecidablePred (w.Legal lag)
  | .pass _ => inferInstanceAs (Decidable (_ ∨ ∀ due ∈ _, _))
  | .turn _ => inferInstanceAs (Decidable (_ = true))
  | .timeout => inferInstanceAs (Decidable (_ ∧ ∃ due ∈ _, _))

end Clocked

/-- One server with a clock, whose timeouts are late by the lag at most. -/
def clockedHosts (roomId serverId : String) (hasEventPublisher : Bool) (planningTimeout lag : Time) :
    Machine Clocked ClockedTurn :=
  ⟨⟨Host.initial roomId serverId hasEventPublisher planningTimeout, 0, false⟩, Clocked.next,
    Clocked.Legal lag⟩

/-! ## What a turn makes of the timer

As in `Deadlines`, but for a server that owns its room, where the timer is always the planning
timer. -/

/-- The round is being planned, and the timer of its owner runs. -/
structure Host.RunsUntil (h : Host) (deadline : Time) : Prop where
  phase : h.room.phase = .planning
  timer : h.session.timer = some .planning
  round : h.session.planningTimerRound = h.room.currentRound
  deadline : h.session.planningDeadline = some deadline

/-- Such a timer is due at its deadline. -/
theorem Host.RunsUntil.dueAt {h : Host} {deadline : Time} (hr : h.RunsUntil deadline) :
    h.session.dueAt = some deadline := by
  rw [GameSession.dueAt, hr.timer, hr.deadline]

/-- What a turn that reads the clock makes of round and timer. -/
inductive Ticks (h : Host) (call : SessionCall) (clock : Time) (room : GameRoom) (s : GameSession) :
    Prop where
  /-- The turn resolves no round; a round that is being planned goes on. -/
  | kept (hno : ∀ ready now, ¬ Resolves h call ready now) (htimer : s.timer = h.session.timer)
      (hround : s.planningTimerRound = h.session.planningTimerRound)
      (hdeadline : s.planningDeadline = h.session.planningDeadline)
      (hsame : h.room.phase = .planning →
        room.phase = .planning ∧ room.currentRound = h.room.currentRound)
  /-- A player has connected, or a round was resolved and the next one opened. -/
  | started (hstarts : h.startsTimer call = true) (hphase : room.phase = .planning)
      (htimer : s.timer = some .planning) (hround : s.planningTimerRound = room.currentRound)
      (hdeadline : s.planningDeadline = some (clock + h.session.planningTimeout))
      (hnext : h.session.timer.isSome = true → room.currentRound = h.room.currentRound + 1)
  /-- The game is over. -/
  | stopped (htimer : s.timer = none) (hphase : room.phase = .gameOver)
      (hplayers : room.players = h.room.players)

/-- The players are where they were, unless one joins. -/
theorem not_join_planning {room : GameRoom} (hs : Sound room) (hphase : room.phase = .planning)
    {playerId : PlayerId} : room.joinRefusal playerId ≠ none := by
  intro hr
  exact hs.full hphase (joinRefusal_none hr)

/-- A resolution seats nobody. -/
theorem players_of_resolves {h : Host} {call : SessionCall} {ready : GameRoom} {now : Time}
    (hres : Resolves h call ready now) (deadline : Time) :
    (sourceOrder.resolved ready deadline).players = h.room.players :=
  (resolved_frame sourceOrder ready deadline).players.trans (resolves_round hres).2.2.2

/-- **Every turn does one of the three.** -/
theorem ticks_left {h : Host} (hroom : InSession h.room)
    (howner : h.room.ownerServerId = some h.session.serverId) {call : SessionCall} {clock : Time}
    (hreads : call.readsAt clock = true) {room : GameRoom} {s : GameSession}
    (hleaves : Leaves h call room s) : Ticks h call clock room s := by
  have hplain : call.mayResolve = false → ∀ ready now, ¬ Resolves h call ready now := by
    intro hmay ready now hres
    cases hres <;> cases hmay
  cases hleaves with
  | @connect side now =>
    have hnow : now = clock := of_decide_eq_true hreads
    subst hnow
    let host := (h.reached side true).synced
    show Ticks h _ now h.room (host.timed now).session
    rw [Host.timed]
    show Ticks h _ now h.room (if _ then _ else _)
    split
    · rename_i hstart
      have hnone : h.session.timer = none := hstart.2
      have hmine : host.session.ownerServerId = some host.session.serverId := howner
      -- no timer runs, and the server owns the room, so its planning timer starts
      rw [GameSession.startPlanningTimer, if_neg, if_pos hmine]
      · refine .started ?_ hstart.1 rfl rfl rfl fun hsome => ?_
        · rw [Host.startsTimer, Bool.and_eq_true, decide_eq_true_eq, decide_eq_true_eq]
          exact ⟨hstart.1, hnone⟩
        · rw [hnone] at hsome
          cases hsome
      · rintro ⟨-, hsome, -⟩
        replace hsome : h.session.timer.isSome = true := hsome
        rw [hnone] at hsome
        cases hsome
    · exact .kept (hplain rfl) rfl rfl rfl fun hphase => ⟨hphase, rfl⟩
  | disconnect | move _ _ => exact .kept (hplain rfl) rfl rfl rfl fun hphase => ⟨hphase, rfl⟩
  | refuse hno _ | look hno _ =>
    exact .kept (fun _ _ hres => hno _ (.resolve hres)) rfl rfl rfl fun hphase => ⟨hphase, rfl⟩
  | join hr =>
    exact .kept (hplain rfl) rfl rfl rfl fun hphase => absurd hr (not_join_planning hroom.sound hphase)
  | @decide side edgeId decision _ _ =>
    have hframe := decideEncounter_frame h.room edgeId side decision
    exact .kept (hplain rfl) rfl rfl rfl fun hphase =>
      ⟨hframe.phase.trans hphase, hframe.currentRound⟩
  | @resolve _ ready now hres =>
    have hnow : now = clock := by
      cases hres <;> exact of_decide_eq_true hreads
    subst hnow
    have hstarts := startsTimer_of_resolves hres
    have hplayers := players_of_resolves hres (now + h.session.planningTimeout)
    have hround : (sourceOrder.resolved ready (now + h.session.planningTimeout)).currentRound =
        h.room.currentRound + 1 := by
      rw [currentRound_resolved, (resolves_round hres).2.1]
    have hmine : (sourceOrder.resolved ready (now + h.session.planningTimeout)).ownerServerId =
        some h.session.serverId := by
      rw [owner_resolved]
      rcases owner_of_resolves hres with ⟨-, hkept⟩ | ⟨-, htaken⟩
      · exact hkept.trans howner
      · exact htaken
    have hphase : (sourceOrder.resolved ready (now + h.session.planningTimeout)).phase =
        if (sourceOrder.closedRoom ready).endsGame then .gameOver else .planning := by
      rw [ProcessingOrder.resolved, GameRoom.opened]
      split <;> rfl
    rw [GameSession.afterRound]
    rw [openingResult_gameOver] at hstarts ⊢
    -- nothing below depends on how the room was resolved
    generalize sourceOrder.resolved ready (now + h.session.planningTimeout) = resolved
      at hplayers hround hmine hphase ⊢
    by_cases hends : (sourceOrder.closedRoom ready).endsGame
    · rw [if_pos hends] at hphase
      rw [decide_eq_true hends]
      exact .stopped rfl hphase hplayers
    · rw [if_neg hends] at hphase
      rw [decide_eq_false hends] at hstarts ⊢
      have hplanning : (h.session.stopPlanningTimer.syncMetadata resolved).ownerServerId =
          some (h.session.stopPlanningTimer.syncMetadata resolved).serverId := hmine
      rw [opened_running rfl, if_pos hplanning]
      exact .started hstarts hphase rfl rfl rfl fun _ => hround
  | abandon _ _ => exact .stopped rfl rfl rfl

/-! ## A server that is alone

Nobody else takes the room over, so the owner stays, and a round is never resolved elsewhere. -/

/-- What holds of a server that is alone with its room, at any time. -/
structure Lone (planningTimeout : Time) (h : Host) : Prop where
  hosting : Hosting h
  timeout : h.session.planningTimeout = planningTimeout
  owner : h.room.ownerServerId = some h.session.serverId
  /-- The round that is planned is one of the game's twenty. -/
  rounds : RoundInGame h.room
  /-- A timer that runs is for the round that is being planned. -/
  timer : h.session.timer.isSome = true → ∃ deadline, h.RunsUntil deadline

/-- No turn changes what the session was made with. -/
theorem settings_left {h : Host} {call : SessionCall} {room : GameRoom} {s : GameSession}
    (hleaves : Leaves h call room s) :
    s.planningTimeout = h.session.planningTimeout ∧ s.serverId = h.session.serverId := by
  cases hleaves with
  | @connect side now =>
    rw [Host.timed]
    show GameSession.planningTimeout (if _ then _ else _) = _ ∧
      GameSession.serverId (if _ then _ else _) = _
    split
    · rw [GameSession.startPlanningTimer]
      split <;> exact ⟨rfl, rfl⟩
    · exact ⟨rfl, rfl⟩
  | disconnect | refuse _ _ | look _ _ | join _ | move _ _ | decide _ _ | abandon _ _ =>
    exact ⟨rfl, rfl⟩
  | @resolve _ ready now hres =>
    rw [GameSession.afterRound]
    generalize sourceOrder.resolved ready (now + h.session.planningTimeout) = resolved
    cases (sourceOrder.closedRoom ready).openingResult.gameOver with
    | true => exact ⟨rfl, rfl⟩
    | false =>
      rw [opened_running rfl]
      exact ⟨rfl, rfl⟩

/-- A server that is alone stays the owner of its room. -/
theorem owner_alone {h : Host} (howner : h.room.ownerServerId = some h.session.serverId)
    {call : SessionCall} {room : GameRoom} {s : GameSession} (hleaves : Leaves h call room s) :
    room.ownerServerId = some h.session.serverId := by
  cases hleaves with
  | connect | disconnect | refuse _ _ | look _ _ | move _ _ | abandon _ _ => exact howner
  | join hr => exact (owner_joined _ _ _).trans howner
  | decide hconn hr =>
    rw [owner_told, decideEncounter]
    split <;> exact howner
  | resolve hres =>
    rw [owner_told, owner_resolved]
    rcases owner_of_resolves hres with ⟨-, hkept⟩ | ⟨-, htaken⟩
    · exact hkept.trans howner
    · exact htaken

/-- Emptying the outbox changes no round. -/
theorem RoundInGame.told {room : GameRoom} (h : RoundInGame room) : RoundInGame room.told := ⟨h.1, h.2⟩

/-- After a resolution the next round is one of the game's, or the game is over. -/
theorem rounds_resolved {room : GameRoom} (hmax : room.maxRounds = 20) (deadline : Time) :
    RoundInGame (sourceOrder.resolved room deadline) := by
  have hframe := resolved_frame sourceOrder room deadline
  rw [RoundInGame, hframe.currentRound, hframe.maxRounds, ProcessingOrder.resolved, opened_phase]
  refine ⟨hmax, fun hphase => ?_⟩
  split at hphase
  · cases hphase
  · rename_i hgoes
    exact Int.not_lt.mp fun hlast => hgoes (.inr hlast)

/-- The second player opens round 1. -/
theorem rounds_joined {room : GameRoom} (hs : Sound room) (hmax : room.maxRounds = 20)
    {playerId : PlayerId} (hr : room.joinRefusal playerId = none) (deadline : Time) :
    RoundInGame (room.joined playerId deadline) := by
  have hsound : Sound (room.joined playerId deadline) := by
    have hnext := hs.next (.addPlayer playerId (some deadline) 0)
    rw [next_addPlayer hs.map, hr] at hnext
    exact hnext
  rw [RoundInGame, (joined_frame room playerId deadline).maxRounds]
  refine ⟨hmax, fun hphase => ?_⟩
  rw [hmax, currentRound_joined, if_neg (hsound.full hphase)]
  decide

/-- No round is planned after the last one. -/
theorem rounds_left {h : Host} (hroom : InSession h.room) (hrounds : RoundInGame h.room)
    {call : SessionCall} {room : GameRoom} {s : GameSession} (hleaves : Leaves h call room s) :
    RoundInGame room := by
  cases hleaves with
  | connect | disconnect | refuse _ _ | look _ _ | move _ _ => exact hrounds
  | join hr => exact (rounds_joined hroom.sound hrounds.1 hr _).told
  | @decide side edgeId decision hconn hr =>
    have hframe := decideEncounter_frame h.room edgeId side decision
    refine RoundInGame.told ⟨hframe.maxRounds.trans hrounds.1, fun hphase => ?_⟩
    rw [hframe.currentRound, hframe.maxRounds]
    exact hrounds.2 (hframe.phase.symm.trans hphase)
  | resolve hres => exact (rounds_resolved ((resolves_round hres).2.2.1.trans hrounds.1) _).told
  | abandon _ _ => exact ⟨hrounds.1, nofun⟩

/-- **A turn on a server that is alone**: it keeps the invariant, and what it makes of the timer can
    be read off its clock. -/
theorem Lone.next {planningTimeout : Time} {h : Host} (hl : Lone planningTimeout h)
    {call : SessionCall} {clock : Time} (hreads : call.readsAt clock = true) :
    Lone planningTimeout (h.next call) ∧
      Ticks h call clock (h.next call).room (h.next call).session := by
  obtain ⟨room, s, hleft⟩ := next_leaves hl.hosting.room call
  have hticks : Ticks h call clock (h.next call).room (h.next call).session := by
    rw [hleft.room]
    have htimer := congr_bare GameSession.timer (fun _ => rfl) hleft.session
    have hround := congr_bare GameSession.planningTimerRound (fun _ => rfl) hleft.session
    have hdeadline := congr_bare GameSession.planningDeadline (fun _ => rfl) hleft.session
    cases ticks_left hl.hosting.room hl.owner hreads hleft.leaves with
    | kept hno ht hr hd hsame =>
      exact .kept hno (htimer.trans ht) (hround.trans hr) (hdeadline.trans hd) hsame
    | started hstarts hphase ht hr hd hnext =>
      exact .started hstarts hphase (htimer.trans ht) (hround.trans hr) (hdeadline.trans hd) hnext
    | stopped ht hphase hplayers => exact .stopped (htimer.trans ht) hphase hplayers
  obtain ⟨htimeout, hserver⟩ := settings_left hleft.leaves
  refine ⟨⟨hl.hosting.next call, ?_, ?_, ?_, fun hsome => ?_⟩, hticks⟩
  · rw [congr_bare GameSession.planningTimeout (fun _ => rfl) hleft.session]
    exact htimeout.trans hl.timeout
  · rw [hleft.room, congr_bare GameSession.serverId (fun _ => rfl) hleft.session, hserver]
    exact owner_alone hl.owner hleft.leaves
  · rw [hleft.room]
    exact rounds_left hl.hosting.room hl.rounds hleft.leaves
  · cases hticks with
    | kept hno ht hr hd hsame =>
      rw [ht] at hsome
      obtain ⟨deadline, hruns⟩ := hl.timer hsome
      obtain ⟨hphase, hround⟩ := hsame hruns.phase
      exact ⟨deadline, hphase, ht.trans hruns.timer, hr.trans (hruns.round.trans hround.symm),
        hd.trans hruns.deadline⟩
    | started hstarts hphase ht hr hd hnext => exact ⟨_, hphase, ht, hr, hd⟩
    | stopped ht hphase hplayers =>
      rw [ht] at hsome
      cases hsome

/-- The server that makes the room owns it, and has no timer yet. -/
theorem lone_initial (roomId serverId : String) (hasEventPublisher : Bool) (planningTimeout : Time) :
    Lone planningTimeout (Host.initial roomId serverId hasEventPublisher planningTimeout) where
  hosting := hosting_initial _ _ _ _
  timeout := rfl
  owner := rfl
  rounds := by
    obtain ⟨hphase, -, -, -, -, -, hmax, -⟩ := initialRoom_fields roomId
    refine ⟨hmax, fun hplanning => ?_⟩
    replace hplanning : (initialRoom roomId).phase = .planning := hplanning
    rw [hphase] at hplanning
    cases hplanning
  timer := nofun

/-! ## Time

What the clock can and cannot show. -/

/-- What holds of it at any time: a timer that runs has not elapsed, and is not overdue. -/
structure Attended (planningTimeout lag : Time) (w : Clocked) : Prop where
  lone : Lone planningTimeout w.host
  /-- A timer that runs has not fired. -/
  waiting : w.host.session.timer.isSome = true → w.elapsed = false
  /-- It is at most one planning time ahead, and at most the lag behind. -/
  due : ∀ deadline, w.host.RunsUntil deadline →
    deadline ≤ w.clock + planningTimeout ∧ w.clock ≤ deadline + lag

/-- The game is over, and nobody can start it again; or its timer runs, and leaves every round that
    is still to come its time before the end. -/
def Clocked.Within (planningTimeout lag limit : Time) (w : Clocked) : Prop :=
  w.host.room.isOver ∧ 2 ≤ w.host.room.playerCount ∨
  ∃ deadline, w.host.RunsUntil deadline ∧
    deadline + lag + (20 - w.host.room.currentRound) * (planningTimeout + lag) ≤ limit

section Steps

variable {planningTimeout lag limit : Time} {w : Clocked}

/-- The handler of a timer that runs resolves the round. -/
theorem resolves_handler {deadline : Time} (hruns : w.host.RunsUntil deadline) :
    Resolves w.host (w.handler .planning) w.host.room.timedOut w.clock :=
  .timeout hruns.phase hruns.round.symm

/-- The handler of a timer reads the clock like any other turn. -/
theorem readsAt_handler (w : Clocked) (kind : TimerKind) :
    (w.handler kind).readsAt w.clock = true := by
  cases kind <;> exact decide_eq_true rfl

/-- A turn, whatever becomes of the mark of the timer where no timer is started. -/
theorem Attended.turned (htimeout : 0 ≤ planningTimeout) (hlag : 0 ≤ lag)
    (ha : Attended planningTimeout lag w) {call : SessionCall} (hreads : call.readsAt w.clock = true)
    {elapsed : Bool} (hstarts : w.host.startsTimer call = true → elapsed = false)
    (hkept : (∀ ready now, ¬ Resolves w.host call ready now) → w.elapsed = false → elapsed = false) :
    Attended planningTimeout lag ⟨w.host.next call, w.clock, elapsed⟩ := by
  obtain ⟨hlone, hticks⟩ := ha.lone.next hreads
  refine ⟨hlone, fun hsome => ?_, fun deadline hruns => ?_⟩
  · cases hticks with
    | kept hno ht _ _ _ => exact hkept hno (ha.waiting ((congrArg Option.isSome ht).symm.trans hsome))
    | started hs _ _ _ _ _ => exact hstarts hs
    | stopped ht _ _ =>
      replace hsome : (w.host.next call).session.timer.isSome = true := hsome
      rw [ht] at hsome
      cases hsome
  · cases hticks with
    | kept hno ht _ hd _ =>
      have hbefore : w.host.session.timer.isSome = true :=
        congrArg Option.isSome (ht.symm.trans hruns.timer)
      obtain ⟨due, hdue⟩ := ha.lone.timer hbefore
      have hsame : deadline = due :=
        Option.some.inj (hruns.deadline.symm.trans (hd.trans hdue.deadline))
      rw [hsame]
      exact ha.due due hdue
    | started _ _ _ _ hd _ =>
      have hnew : deadline = w.clock + planningTimeout := by
        rw [ha.lone.timeout] at hd
        exact Option.some.inj (hruns.deadline.symm.trans hd)
      show deadline ≤ w.clock + planningTimeout ∧ w.clock ≤ deadline + lag
      constructor <;> linarith
    | stopped ht _ _ =>
      have htimer := hruns.timer
      rw [ht] at htimer
      cases htimer

/-- **Every step keeps a timer from being overdue.** -/
theorem Attended.next (htimeout : 0 ≤ planningTimeout) (hlag : 0 ≤ lag)
    (ha : Attended planningTimeout lag w) {call : ClockedTurn} (hlegal : w.Legal lag call) :
    Attended planningTimeout lag (w.next call) := by
  cases call with
  | pass delay =>
    refine ⟨ha.lone, ha.waiting, fun deadline hruns => ?_⟩
    have hbound := ha.due deadline hruns
    have hsome : w.host.session.timer.isSome = true := congrArg Option.isSome hruns.timer
    have hpass : w.clock + delay ≤ deadline + lag := by
      rcases hlegal with helapsed | hdue
      -- a timer that runs has not elapsed, so time may pass only up to its deadline and the lag
      · rw [ha.waiting hsome] at helapsed
        cases helapsed
      · exact hdue deadline hruns.dueAt
    have hdelay : (0 : Int) ≤ delay := Int.natCast_nonneg delay
    show deadline ≤ w.clock + delay + planningTimeout ∧ w.clock + delay ≤ deadline + lag
    exact ⟨by linarith, hpass⟩
  | turn call =>
    refine ha.turned htimeout hlag hlegal (fun hstarts => ?_) fun _ hfresh => ?_
    · rw [hstarts, Bool.not_true, Bool.and_false]
    · rw [hfresh, Bool.false_and]
  | timeout =>
    rw [Clocked.next]
    split
    · exact ha
    · rename_i kind htimer
      have hsome : w.host.session.timer.isSome = true := congrArg Option.isSome htimer
      obtain ⟨deadline, hruns⟩ := ha.lone.timer hsome
      have hkind : kind = .planning := Option.some.inj (htimer.symm.trans hruns.timer)
      refine ha.turned htimeout hlag (readsAt_handler w kind) (fun hstarts => ?_) fun hno _ => ?_
      · rw [hstarts, Bool.not_true]
      · rw [hkind] at hno
        -- the handler of a running timer does resolve the round
        exact absurd (resolves_handler hruns) (hno _ _)

/-- A game that is over stays over where both players have come. -/
theorem over_next {h : Host} (hh : Hosting h) (hover : h.room.isOver) (hfull : 2 ≤ h.room.playerCount)
    (call : SessionCall) : (h.next call).room = h.room := by
  rcases idle_or_joined hh.room hh.quiet hover call with ⟨-, hidle⟩ | ⟨hlate, -⟩
  · exact hidle.kept
  · refine absurd ?_ hlate
    cases call with
    | addPlayer playerId now => exact fun _ => .inl hfull
    | onPlayerConnected _ _ | onPlayerDisconnected _ | forceGameOver | moveUnits _ _
    | encounterDecision _ _ _ | checkAndResolveIfReady _ | planningTimeout _ _
    | backupPlanningTimeout _ _ | getGameState _ | reconnectSync _ _ => trivial

/-- A turn keeps the limit: with a new deadline goes a round less. -/
theorem Clocked.Within.turned (ha : Attended planningTimeout lag w)
    (hw : w.Within planningTimeout lag limit) {call : SessionCall}
    (hreads : call.readsAt w.clock = true) (elapsed : Bool) :
    Clocked.Within planningTimeout lag limit ⟨w.host.next call, w.clock, elapsed⟩ := by
  rcases hw with ⟨hover, hfull⟩ | ⟨deadline, hruns, hlimit⟩
  · have hsame := over_next ha.lone.hosting hover hfull call
    refine .inl ⟨?_, ?_⟩
    · show (w.host.next call).room.isOver
      rw [hsame]
      exact hover
    · show 2 ≤ (w.host.next call).room.playerCount
      rw [hsame]
      exact hfull
  · obtain ⟨hlone, hticks⟩ := ha.lone.next hreads
    cases hticks with
    | kept hno ht hr hd hsame =>
      obtain ⟨hphase, hround⟩ := hsame hruns.phase
      refine .inr ⟨deadline, ⟨hphase, ht.trans hruns.timer, hr.trans (hruns.round.trans hround.symm),
        hd.trans hruns.deadline⟩, ?_⟩
      show deadline + lag + (20 - (w.host.next call).room.currentRound) * _ ≤ limit
      rw [hround]
      exact hlimit
    | started _ hphase ht hr hd hnext =>
      have hround := hnext (congrArg Option.isSome hruns.timer)
      refine .inr ⟨_, ⟨hphase, ht, hr, hd⟩, ?_⟩
      have hbound := (ha.due deadline hruns).2
      -- one round less, and its time
      have hless : (20 - w.host.room.currentRound) * (planningTimeout + lag) =
          (20 - (w.host.room.currentRound + 1)) * (planningTimeout + lag) +
            (planningTimeout + lag) := by
        ring
      show w.clock + w.host.session.planningTimeout + lag +
        (20 - (w.host.next call).room.currentRound) * (planningTimeout + lag) ≤ limit
      rw [hround, ha.lone.timeout]
      linarith
    | stopped ht hphase hplayers =>
      have hfull := ha.lone.hosting.room.sound.full hruns.phase
      refine .inl ⟨hphase, ?_⟩
      show 2 ≤ (w.host.next call).room.playerCount
      rw [playerCount_congr hplayers]
      exact Nat.not_lt.mp hfull

/-- So does every step. -/
theorem Clocked.Within.next (ha : Attended planningTimeout lag w)
    (hw : w.Within planningTimeout lag limit) {call : ClockedTurn} (hlegal : w.Legal lag call) :
    (w.next call).Within planningTimeout lag limit := by
  cases call with
  | pass delay => exact hw
  | turn call => exact Clocked.Within.turned ha hw hlegal _
  | timeout =>
    rw [Clocked.next]
    split
    · exact hw
    · exact Clocked.Within.turned ha hw (readsAt_handler w _) _

/-- Where a timer runs, the end can be read off the clock. -/
theorem Attended.within (ha : Attended planningTimeout lag w)
    (hsome : w.host.session.timer.isSome = true) : w.Within planningTimeout lag
      (w.clock + (w.host.room.maxRounds + 1 - w.host.room.currentRound) * (planningTimeout + lag)) := by
  obtain ⟨deadline, hruns⟩ := ha.lone.timer hsome
  have hbound := (ha.due deadline hruns).1
  have hmore : (w.host.room.maxRounds + 1 - w.host.room.currentRound) * (planningTimeout + lag) =
      (20 - w.host.room.currentRound) * (planningTimeout + lag) + (planningTimeout + lag) := by
    rw [ha.lone.rounds.1]
    ring
  refine .inr ⟨deadline, hruns, ?_⟩
  linarith

/-- Nothing but the end of the game is left when the time is over. -/
theorem Attended.over (htimeout : 0 ≤ planningTimeout) (hlag : 0 ≤ lag)
    (ha : Attended planningTimeout lag w) (hw : w.Within planningTimeout lag limit)
    (hlate : limit < w.clock) : w.host.room.isOver := by
  rcases hw with ⟨hover, -⟩ | ⟨deadline, hruns, hlimit⟩
  · exact hover
  · have hbound := (ha.due deadline hruns).2
    have hround := ha.lone.rounds.2 hruns.phase
    rw [ha.lone.rounds.1] at hround
    have hrest : 0 ≤ (20 - w.host.room.currentRound) * (planningTimeout + lag) :=
      Int.mul_nonneg (by linarith) (by linarith)
    linarith

end Steps

/-! ## Runs

From the steps to the two statements about runs. -/

section Runs

variable {roomId serverId : String} {hasEventPublisher : Bool} {planningTimeout lag : Time}

/-- At the start no timer runs. -/
theorem attended_initial (roomId serverId : String) (hasEventPublisher : Bool)
    (planningTimeout lag : Time) : Attended planningTimeout lag
      (clockedHosts roomId serverId hasEventPublisher planningTimeout lag).start where
  lone := lone_initial _ _ _ _
  waiting := nofun
  due := fun _ hruns => nomatch hruns.timer

/-- No reachable state has a timer that is overdue. -/
theorem attended_of_reachable (htimeout : 0 ≤ planningTimeout) (hlag : 0 ≤ lag) {w : Clocked}
    (hreach : (clockedHosts roomId serverId hasEventPublisher planningTimeout lag).Reachable w) :
    Attended planningTimeout lag w :=
  hreach.invariant (attended_initial _ _ _ _ _) fun _ _ ha hlegal => ha.next htimeout hlag hlegal

/-- Without a timer nothing holds the clock up. -/
theorem passes_idle {w : Clocked} (hnone : w.host.session.timer = none) (t : Time) :
    ∃ calls, (clockedHosts roomId serverId hasEventPublisher planningTimeout lag).Steps
        (Clocked.Legal lag) w calls ∧
      t ≤ ((clockedHosts roomId serverId hasEventPublisher planningTimeout lag).after w calls).clock := by
  refine ⟨[.pass (t - w.clock).toNat], ⟨.inr ?_, trivial⟩, ?_⟩
  · rw [GameSession.dueAt, hnone]
    nofun
  · have hdelay := Int.self_le_toNat (t - w.clock)
    show t ≤ w.clock + ((t - w.clock).toNat : Int)
    linarith

/-- Time passes until the timer is due, and its handler resolves the round. -/
theorem resolves_due (hlag : 0 ≤ lag) {w : Clocked} (ha : Attended planningTimeout lag w)
    {deadline : Time} (hruns : w.host.RunsUntil deadline) :
    ∃ calls, (clockedHosts roomId serverId hasEventPublisher planningTimeout lag).Steps
        (Clocked.Legal lag) w calls ∧
      ∀ deadline', ((clockedHosts roomId serverId hasEventPublisher planningTimeout lag).after w
          calls).host.RunsUntil deadline' →
        ((clockedHosts roomId serverId hasEventPublisher planningTimeout lag).after w
          calls).host.room.currentRound = w.host.room.currentRound + 1 := by
  -- wait until the timer is due, or not at all if it is overdue
  let delay := (deadline - w.clock).toNat
  have hdelay := Int.self_le_toNat (deadline - w.clock)
  let due : Clocked := { w with clock := w.clock + delay }
  have hfresh := ha.waiting (congrArg Option.isSome hruns.timer)
  have hpass : w.Legal lag (.pass delay) := by
    refine .inr fun at' hat => ?_
    have hsame : deadline = at' := Option.some.inj (hruns.dueAt.symm.trans hat)
    rw [← hsame]
    have hbound := (ha.due deadline hruns).2
    rcases Int.le_total deadline w.clock with hpast | hfuture
    · rw [show delay = 0 from Int.toNat_of_nonpos (by linarith)]
      show w.clock + ((0 : Nat) : Int) ≤ deadline + lag
      rw [Int.natCast_zero, Int.add_zero]
      exact hbound
    · rw [show (delay : Int) = deadline - w.clock from Int.toNat_of_nonneg (by linarith)]
      show w.clock + (deadline - w.clock) ≤ deadline + lag
      linarith
  have htimeout : due.Legal lag .timeout := by
    refine ⟨hfresh, deadline, hruns.dueAt, ?_⟩
    show deadline ≤ w.clock + ((deadline - w.clock).toNat : Int)
    linarith
  refine ⟨[.pass delay, .timeout], ⟨hpass, htimeout, trivial⟩, fun deadline' hnew => ?_⟩
  have hruns' : due.host.RunsUntil deadline := hruns
  have hnext : due.next .timeout = ⟨w.host.next (due.handler .planning), due.clock,
      !w.host.startsTimer (due.handler .planning)⟩ := by
    rw [Clocked.next]
    show (match w.host.session.timer with | none => due | some kind => _) = _
    rw [hruns.timer]
  replace hnew : (due.next .timeout).host.RunsUntil deadline' := hnew
  show (due.next .timeout).host.room.currentRound = _
  rw [hnext] at hnew ⊢
  cases (ha.lone.next (readsAt_handler due .planning)).2 with
  | kept hno _ _ _ _ => exact absurd (resolves_handler hruns') (hno _ _)
  | started _ _ _ _ _ hround => exact hround (congrArg Option.isSome hruns.timer)
  | stopped ht _ _ =>
    have htimer := hnew.timer
    rw [ht] at htimer
    cases htimer

/-- **Time goes on**: with nothing but timeouts the clock passes any instant. -/
theorem time_goes_on (htimeout : 0 ≤ planningTimeout) (hlag : 0 ≤ lag) (t : Time) (n : Nat) :
    ∀ {w : Clocked}, Attended planningTimeout lag w →
      (∀ deadline, w.host.RunsUntil deadline → 20 - w.host.room.currentRound < n) →
      ∃ calls, (clockedHosts roomId serverId hasEventPublisher planningTimeout lag).Steps
          (Clocked.Legal lag) w calls ∧
        t ≤ ((clockedHosts roomId serverId hasEventPublisher planningTimeout lag).after w calls).clock := by
  let M := clockedHosts roomId serverId hasEventPublisher planningTimeout lag
  -- by the rounds that are left
  induction n with
  | zero =>
    intro w ha hleft
    -- no round is left, so no timer can be running
    refine passes_idle ?_ t
    by_contra hsome
    obtain ⟨deadline, hruns⟩ := ha.lone.timer (Option.isSome_iff_ne_none.mpr hsome)
    have hround := ha.lone.rounds.2 hruns.phase
    rw [ha.lone.rounds.1] at hround
    have hnone := hleft deadline hruns
    omega
  | succ n ih =>
    intro w ha hleft
    rcases htimer : w.host.session.timer with _ | kind
    · exact passes_idle htimer t
    obtain ⟨deadline, hruns⟩ := ha.lone.timer (congrArg Option.isSome htimer)
    obtain ⟨calls, hrun, hround⟩ :=
      @resolves_due roomId serverId hasEventPublisher _ _ hlag _ ha _ hruns
    have ha' : Attended planningTimeout lag (M.after w calls) :=
      Machine.after_of_invariant (fun _ _ ha hlegal => ha.next htimeout hlag hlegal) ha hrun
    obtain ⟨rest, hrest, hlate⟩ := ih ha' fun deadline' hruns' => by
      have hone := hround deadline' hruns'
      have hbefore := hleft deadline hruns
      show 20 - (M.after w calls).host.room.currentRound < n
      rw [hone]
      omega
    refine ⟨calls ++ rest, Machine.steps_append.mpr ⟨hrun, hrest⟩, ?_⟩
    rw [Machine.after_append]
    exact hlate

/-- **A game takes its time and no longer**: from any state on the clock can go on for as long as one
    likes; and where a timer runs, the game is over as soon as one planning time, and the lag of one
    handler, have passed for every round that is left. -/
theorem over_in_time (htimeout : 0 ≤ planningTimeout) (hlag : 0 ≤ lag) {w : Clocked}
    (hreach : (clockedHosts roomId serverId hasEventPublisher planningTimeout lag).Reachable w) :
    (∀ t, ∃ calls, (clockedHosts roomId serverId hasEventPublisher planningTimeout lag).Steps
        (Clocked.Legal lag) w calls ∧
      t ≤ ((clockedHosts roomId serverId hasEventPublisher planningTimeout lag).after w calls).clock) ∧
    (w.host.session.timer.isSome = true → ∀ calls,
      (clockedHosts roomId serverId hasEventPublisher planningTimeout lag).Steps
        (Clocked.Legal lag) w calls →
      w.clock + (w.host.room.maxRounds + 1 - w.host.room.currentRound) * (planningTimeout + lag) <
        ((clockedHosts roomId serverId hasEventPublisher planningTimeout lag).after w calls).clock →
      ((clockedHosts roomId serverId hasEventPublisher planningTimeout lag).after w
        calls).host.room.isOver) := by
  have ha := attended_of_reachable htimeout hlag hreach
  refine ⟨fun t => ?_, fun hsome calls hrun hlate => ?_⟩
  · refine time_goes_on htimeout hlag t (21 - w.host.room.currentRound).toNat ha fun deadline hruns => ?_
    omega
  · have hend := Machine.after_of_invariant
      (I := fun v => Attended planningTimeout lag v ∧ v.Within planningTimeout lag _)
      (fun _ _ h hlegal => ⟨h.1.next htimeout hlag hlegal, h.2.next h.1 hlegal⟩)
      ⟨ha, ha.within hsome⟩ hrun
    exact hend.1.over htimeout hlag hend.2 hlate

end Runs

/-- Both players join, and one of them connects. -/
def seatedTurns : List ClockedTurn :=
  [.turn (.addPlayer ⟨"alice"⟩ 0), .turn (.addPlayer ⟨"bob"⟩ 0), .turn (.onPlayerConnected .a 0)]

/-- Every round is left to the timer, whose handler comes as late as it may. -/
def lateTimeouts : List ClockedTurn :=
  (List.replicate 20 [ClockedTurn.pass 30100, .timeout]).flatten ++ [.pass 1]

/-- A game in which nobody moves. -/
abbrev idle : Machine Clocked ClockedTurn := clockedHosts "room" "s1" false 30000 100

/-- Twenty rounds that are all left to a handler as late as it may be: the game is over a
    millisecond after the last of them. -/
theorem over_in_time_idle :
    let seated := idle.after idle.start seatedTurns
    let late := idle.after seated lateTimeouts
    idle.Reachable seated ∧ seated.host.session.timer.isSome = true ∧
      (∃ calls, idle.Steps (Clocked.Legal 100) seated calls ∧
        1000000 ≤ (idle.after seated calls).clock) ∧
      late.clock = 20 * 30100 + 1 ∧ late.host.room.isOver := by
  intro seated late
  have hrun : idle.Steps (Clocked.Legal 100) idle.start seatedTurns := by decide +kernel
  have htimer : seated.host.session.timer.isSome = true := by decide +kernel
  have hlate : idle.Steps (Clocked.Legal 100) seated lateTimeouts := by decide +kernel
  have hreach : idle.Reachable seated := ⟨seatedTurns, hrun, rfl⟩
  obtain ⟨hgoes, hover⟩ := over_in_time (by decide) (by decide) hreach
  exact ⟨hreach, htimer, hgoes 1000000, by decide +kernel, hover htimer lateTimeouts hlate
    (by decide +kernel)⟩

end HexWar
