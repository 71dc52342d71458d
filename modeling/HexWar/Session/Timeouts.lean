/-
  The timeout of a round.

  A planning timer elapses once.  Its handler asks for the lock of the room like everyone else, and if
  it does not get it in time, ExecuteOnGameRoomAsync returns null and the handler returns too: nobody
  asks again, and the timer, which has elapsed, stays in its field, where it keeps OnPlayerConnectedAsync
  and StartPlanningTimer from starting another one for the round.  A message that arrives late does
  harm as well: it moves the timer of a server to the round that it speaks of.

  `TimedCluster` is a cluster with its timers and their handlers; `attended_iff` says that a round which is
  being planned keeps a live timeout in exactly those runs in which neither happens to the last one.

  How the theorem comes about.

  - A round is `Attended` as long as some server has a timer for it that has not elapsed, or a handler for
    it waits for the lock.  That is all that can still end it if the players do nothing.
  - A turn never does harm (`attended_turn`): if it opens a round it starts a timer, and otherwise it
    leaves the timer of its server as it is (`Arms`).
  - A message does harm if it stops or moves the last timer (`Rearms`, `attended_deliver`), and a handler
    if it was the last and does not get the lock (`attended_giveUp`).
  - Everything else adds a timeout or leaves those that there are.
-/
import HexWar.Session.Deadlines

namespace HexWar

open Lib Lib.Action GameRoom

/-! ## The machine -/

/-- How much later than the deadline the backup timers fire. -/
def backupDelay : Time := 5000

/-- When the timer of a session fires. -/
def GameSession.dueAt (s : GameSession) : Option Time :=
  match s.timer, s.planningDeadline with
  | some .planning, some deadline => some deadline
  | some .backupPlanning, some deadline => some (deadline + backupDelay)
  | _, _ => none

/-- Does a turn start a timer?  A connection does if there is none, and whoever opens a round. -/
def Host.startsTimer (h : Host) : SessionCall → Bool
  | .onPlayerConnected _ _ => h.room.phase = .planning && h.session.timer = none
  | .checkAndResolveIfReady now => h.goesOn (.checkAndResolveIfReady now)
  | .planningTimeout forRound now => h.goesOn (.planningTimeout forRound now)
  | .backupPlanningTimeout forRound now => h.goesOn (.backupPlanningTimeout forRound now)
  | .addPlayer _ _ | .onPlayerDisconnected _ | .forceGameOver | .moveUnits _ _
  | .encounterDecision _ _ _ | .getGameState _ | .reconnectSync _ _ => false

/-- Does an event of another server start a timer?  A RoundResolved leaves one for the same round
    alone, whether or not it has elapsed. -/
def GameSession.restarts (s : GameSession) : DomainEvent → Bool
  | .roundResolved resolved =>
    !(s.planningTimerRound = resolved.completedRound + 1 && s.timer.isSome)
  | .roundStarted _ | .gameStarted _ => true
  | .gameOver _ | .unitsDeparted _ | .unitsRetreated _ | .unitsAdvanced _ | .encounterOccurred _
  | .encounterDecisionMade _ | .encounterResolved _ => false

/-- OnPlanningTimeoutAsync or OnBackupPlanningTimeoutAsync, from the elapsing of the timer on. -/
structure TimeoutHandler where
  serverId : String
  kind : TimerKind
  forRound : Int
deriving DecidableEq

/-- What a handler does once it has the lock. -/
def TimeoutHandler.call (t : TimeoutHandler) (now : Time) : SessionCall :=
  match t.kind with
  | .planning => .planningTimeout t.forRound now
  | .backupPlanning => .backupPlanningTimeout t.forRound now

/-- Is a turn one of a timer's handler? -/
def SessionCall.isTimeout : SessionCall → Bool
  | .planningTimeout _ _ | .backupPlanningTimeout _ _ => true
  | .addPlayer _ _ | .onPlayerConnected _ _ | .onPlayerDisconnected _ | .forceGameOver
  | .moveUnits _ _ | .encounterDecision _ _ _ | .checkAndResolveIfReady _ | .getGameState _
  | .reconnectSync _ _ => false

/-- A cluster with a clock, and with what becomes of its timers. -/
structure TimedCluster where
  /-- The servers, the stored room and the messages in flight. -/
  cluster : Cluster
  /-- What every server reads as the time. -/
  clock : Time
  /-- The servers whose timer has elapsed.  It is still in its field. -/
  elapsed : List String
  /-- The handlers that wait for the lock. -/
  running : List TimeoutHandler
  /-- The rounds that a timer was ever started for. -/
  timed : List Int

inductive TimedCall where
  /-- Time goes by. -/
  | pass (delay : Nat)
  /-- A server gets a session for the room. -/
  | hydrate (id : String)
  /-- A turn that gets the lock. -/
  | turn (id : String) (call : SessionCall)
  /-- A turn that does not get the lock. -/
  | contended (id : String) (call : SessionCall)
  /-- A message reaches its server. -/
  | deliver (index : Nat)
  /-- The timer of a server elapses. -/
  | elapse (id : String)
  /-- A handler gets the lock. -/
  | handle (index : Nat)
  /-- A handler does not get the lock. -/
  | giveUp (index : Nat)
deriving DecidableEq

/-- A turn on one server that does not get the lock. -/
def Cluster.turnContended (c : Cluster) (id : String) (call : SessionCall) : Cluster :=
  match c.servers.get? id with
  | none => c
  | some s => c.save id s ((s.host c.room).nextContended call)

namespace TimedCluster

/-- A timer was started on a server. -/
def start (w : TimedCluster) (id : String) : TimedCluster :=
  match w.cluster.servers.get? id with
  | none => w
  | some s => { w with
      elapsed := w.elapsed.filter (· ≠ id)
      timed := s.session.planningTimerRound :: w.timed }

/-- A turn, and the timer it starts if it starts one. -/
def turn (w : TimedCluster) (id : String) (call : SessionCall) : TimedCluster :=
  let turned := { w with cluster := w.cluster.turn id call }
  match w.cluster.servers.get? id with
  | none => turned
  | some s => if (s.host w.cluster.room).startsTimer call then turned.start id else turned

/-- A message, and the timer that it starts.  A server drops its own messages, so they start
    none. -/
def deliver (w : TimedCluster) (index : Nat) : TimedCluster :=
  let delivered := { w with cluster := w.cluster.deliver index w.clock }
  match w.cluster.inFlight[index]? with
  | none => delivered
  | some (id, m) =>
    match w.cluster.servers.get? id with
    | none => delivered
    | some s =>
      if m.sourceServerId ≠ s.session.serverId ∧ s.session.restarts m.event = true then
        delivered.start id
      else delivered

/-- The timer of a server elapses, and its handler is called for the round it was started for. -/
def elapse (w : TimedCluster) (id : String) : TimedCluster :=
  match w.cluster.servers.get? id with
  | none => w
  | some s =>
    match s.session.timer with
    | none => w
    | some kind =>
      if id ∈ w.elapsed then w
      else { w with
        elapsed := id :: w.elapsed
        running := w.running ++ [⟨id, kind, s.session.planningTimerRound⟩] }

/-- A handler is done. -/
def done (w : TimedCluster) (index : Nat) : TimedCluster :=
  { w with running := w.running.eraseIdx index }

/-- A handler with the lock does what `ExecuteOnGameRoomAsync` lets it do, as a turn of its
    server. -/
def handle (w : TimedCluster) (index : Nat) : TimedCluster :=
  match w.running[index]? with
  | none => w
  | some t => (w.done index).turn t.serverId (t.call w.clock)

/-- One step of it. -/
def next (planningTimeout : Time) (w : TimedCluster) : TimedCall → TimedCluster
  | .pass delay => { w with clock := w.clock + delay }
  | .hydrate id => { w with cluster := w.cluster.hydrate planningTimeout id }
  | .turn id call => w.turn id call
  | .contended id call => { w with cluster := w.cluster.turnContended id call }
  | .deliver index => w.deliver index
  | .elapse id => w.elapse id
  | .handle index => w.handle index
  -- the handler returns, and that is all
  | .giveUp index => w.done index

/-- Turns read the clock, and timers fire when they are due, and once. -/
def Legal (w : TimedCluster) : TimedCall → Prop
  | .turn _ call | .contended _ call => call.readsAt w.clock = true ∧ call.isTimeout = false
  | .elapse id => id ∉ w.elapsed ∧
      (w.cluster.servers.get? id).any (fun s => s.session.dueAt.any (· ≤ w.clock)) = true
  | .pass _ | .hydrate _ | .deliver _ | .handle _ | .giveUp _ => True

instance (w : TimedCluster) : DecidablePred w.Legal
  | .turn _ _ | .contended _ _ => inferInstanceAs (Decidable (_ = true ∧ _ = false))
  | .elapse _ => inferInstanceAs (Decidable (_ ∉ _ ∧ _ = true))
  | .pass _ | .hydrate _ | .deliver _ | .handle _ | .giveUp _ => .isTrue trivial

end TimedCluster

/-- The servers of one room with their timers; any attempt to get the lock may fail. -/
def timedClusters (roomId serverId : String) (planningTimeout : Time) : Machine TimedCluster TimedCall :=
  ⟨⟨Cluster.initial roomId serverId planningTimeout .a, 0, [], [], []⟩,
    TimedCluster.next planningTimeout,
    TimedCluster.Legal⟩

/-! ## The properties -/

namespace TimedCluster

/-- A server has a timer for the round that has not elapsed. -/
def Ticking (w : TimedCluster) (round : Int) (id : String) : Prop :=
  id ∉ w.elapsed ∧ (w.cluster.servers.get? id).any (fun s =>
    s.session.timer.isSome && s.session.planningTimerRound = round) = true

/-- Some server has a timer for the round that has not elapsed, or a handler for it is running. -/
def Live (w : TimedCluster) (round : Int) : Prop :=
  (∃ id, w.Ticking round id) ∨ ∃ t ∈ w.running, t.forRound = round

/-- The stored round is being planned, and a timer was once started for it. -/
def Planned (w : TimedCluster) : Prop :=
  w.cluster.room.phase = .planning ∧ w.cluster.room.currentRound ∈ w.timed

/-- **The round that is being planned has a live timeout**, once a timer was started for it. -/
def Attended (w : TimedCluster) : Prop := w.Planned → w.Live w.cluster.room.currentRound

/-- Some server has a timer for the round that has not elapsed, or a handler for it is running other
    than this one. -/
def LiveBeside (w : TimedCluster) (index : Nat) (round : Int) : Prop :=
  (∃ id, w.Ticking round id) ∨ ∃ t ∈ w.running.eraseIdx index, t.forRound = round

/-- A step that leaves the planned round another timeout where it takes one away: a handler of the
    round that does not get the lock, and a message that reaches a server and opens another round, or
    ends the game, are not the end of the last one. -/
def Relieved (w : TimedCluster) : TimedCall → Prop
  | .giveUp index => ∀ t ∈ w.running[index]?, w.Planned → t.forRound = w.cluster.room.currentRound →
      w.LiveBeside index w.cluster.room.currentRound
  | .deliver index => ∀ d ∈ w.cluster.inFlight[index]?, d.2.sourceServerId ≠ d.1 → w.Planned →
      d.2.event.keepsUp w.cluster.room.currentRound = false →
        -- not counting the timer of the server that it reaches
        { w with elapsed := d.1 :: w.elapsed }.Live w.cluster.room.currentRound
  | .pass _ | .hydrate _ | .turn _ _ | .contended _ _ | .elapse _ | .handle _ => True

theorem live_iff_entries {w : TimedCluster} {round : Int} : w.Live round ↔
    (∃ e ∈ w.cluster.servers.entries, w.Ticking round e.1) ∨ ∃ t ∈ w.running, t.forRound =
      round := by
  refine or_congr_left ⟨?_, ?_⟩
  · rintro ⟨id, hticking⟩
    obtain ⟨s, hget, -⟩ := (Option.any_eq_true _ _).mp hticking.2
    exact ⟨(id, s), Dict.mem_iff_get?.mpr hget, hticking⟩
  · rintro ⟨e, -, hticking⟩
    exact ⟨e.1, hticking⟩

instance (w : TimedCluster) (round : Int) (id : String) : Decidable (w.Ticking round id) :=
  inferInstanceAs (Decidable (_ ∧ _))

instance (w : TimedCluster) (round : Int) : Decidable
    (w.Live round) := decidable_of_iff' _ live_iff_entries

/-- It is what there is once the handler is through. -/
theorem liveBeside_iff {w : TimedCluster} {index : Nat} {round : Int} :
    w.LiveBeside index round ↔ (w.done index).Live round := Iff.rfl

instance (w : TimedCluster) (index : Nat) (round : Int) : Decidable (w.LiveBeside index round) :=
  decidable_of_iff' _ liveBeside_iff

instance (w : TimedCluster) : Decidable w.Planned := inferInstanceAs (Decidable (_ ∧ _))

instance (w : TimedCluster) : Decidable w.Attended := inferInstanceAs (Decidable (_ → _))

instance (w : TimedCluster) : DecidablePred w.Relieved
  | .giveUp _ => inferInstanceAs (Decidable (∀ t ∈ _, _ → _ → _))
  | .deliver _ => inferInstanceAs (Decidable (∀ d ∈ _, _ → _ → _ → _))
  | .pass _ | .hydrate _ | .turn _ _ | .contended _ _ | .elapse _ | .handle _ => .isTrue trivial

end TimedCluster

/-! ## What a turn makes of the timer -/

/-- What a turn makes of the timer of its server. -/
inductive Arms (h : Host) (call : SessionCall) (room : GameRoom) (s : GameSession) : Prop where
  /-- It resolves nothing and starts nothing. -/
  | kept (hstarts : h.startsTimer call = false) (htimer : s.timer = h.session.timer)
      (hround : s.planningTimerRound = h.session.planningTimerRound)
      (hno : ∀ ready now, ¬ Resolves h call ready now)
  /-- It ends the game. -/
  | stopped (hstarts : h.startsTimer call = false) (hphase : room.phase = .gameOver)
  /-- It starts a timer for the round that is being planned when it is through. -/
  | started (hstarts : h.startsTimer call = true) (htimer : s.timer.isSome = true)
      (hround : s.planningTimerRound = room.currentRound)

/-- A turn that resolves a round opens the next one, unless the game ends with it. -/
theorem startsTimer_of_resolves {h : Host} {call : SessionCall} {room : GameRoom} {now : Time}
    (hres : Resolves h call room now) :
    h.startsTimer call = !(sourceOrder.closedRoom room).openingResult.gameOver := by
  have hmay : call.mayResolve = true := by
    cases hres <;> rfl
  have hraises := (raises_iff_resolves hmay).mpr ⟨room, now, hres⟩
  cases hres with
  | ready _ _ | timeout _ _ | backup _ _ =>
    rw [Host.startsTimer, Host.goesOn, hraises, Bool.true_and]

/-- **What every turn makes of the timer.** -/
theorem arms_left {h : Host} {call : SessionCall} {room : GameRoom} {s : GameSession}
    (hleaves : Leaves h call room s) : Arms h call room s := by
  have hplain : call.mayResolve = false → ∀ ready now, ¬ Resolves h call ready now := by
    intro hmay ready now hres
    cases hres <;> cases hmay
  -- a turn that does nothing resolves nothing, and opens no round
  have hidle : (∀ room, ¬ Does h call room) → call.reaches = none →
      h.startsTimer call = false ∧ ∀ ready now, ¬ Resolves h call ready now := by
    intro hno hcall
    have hno' : ∀ ready now, ¬ Resolves h call ready now := fun ready now hres => hno _ (.resolve hres)
    refine ⟨?_, hno'⟩
    cases call with
    | onPlayerConnected _ _ => cases hcall
    | checkAndResolveIfReady _ | planningTimeout _ _ | backupPlanningTimeout _ _ =>
      rw [Host.startsTimer, Host.goesOn, Bool.and_eq_false_iff, Bool.eq_false_iff]
      refine .inl fun hraises => ?_
      obtain ⟨ready, now, hres⟩ := (raises_iff_resolves rfl).mp hraises
      exact hno' ready now hres
    | addPlayer _ _ | onPlayerDisconnected _ | forceGameOver | moveUnits _ _
    | encounterDecision _ _ _ | getGameState _ | reconnectSync _ _ => rfl
  cases hleaves with
  | @connect side now =>
    let host := (h.reached side true).synced
    show Arms h _ h.room (host.timed now).session
    rw [Host.timed]
    show Arms h _ h.room (if _ then _ else _)
    split
    · rename_i hstart
      have hnone : h.session.timer = none := hstart.2
      rw [GameSession.startPlanningTimer, if_neg]
      · refine .started ?_ rfl rfl
        rw [Host.startsTimer, Bool.and_eq_true, decide_eq_true_eq, decide_eq_true_eq]
        exact ⟨hstart.1, hnone⟩
      · rintro ⟨-, hsome, -⟩
        replace hsome : h.session.timer.isSome = true := hsome
        rw [hnone] at hsome
        cases hsome
    · rename_i hstart
      refine .kept ?_ rfl rfl (hplain rfl)
      rw [Host.startsTimer, Bool.eq_false_iff]
      intro hstarts
      obtain ⟨hphase, hidle⟩ := Bool.and_eq_true_iff.mp hstarts
      exact hstart ⟨of_decide_eq_true hphase, of_decide_eq_true hidle⟩
  | disconnect | join _ | move _ _ | decide _ _ => exact .kept rfl rfl rfl (hplain rfl)
  | refuse hno hcall | look hno hcall => exact .kept (hidle hno hcall).1 rfl rfl (hidle hno hcall).2
  | @resolve _ ready now hres =>
    have hstarts := startsTimer_of_resolves hres
    have hover : (sourceOrder.closedRoom ready).endsGame →
        (sourceOrder.resolved ready (now + h.session.planningTimeout)).phase = .gameOver := by
      intro hends
      rw [ProcessingOrder.resolved, GameRoom.opened, if_pos hends]
    rw [GameSession.afterRound]
    rw [openingResult_gameOver] at hstarts ⊢
    -- nothing below depends on how the room was resolved
    generalize sourceOrder.resolved ready (now + h.session.planningTimeout) = resolved at hover ⊢
    by_cases hends : (sourceOrder.closedRoom ready).endsGame
    · rw [decide_eq_true hends] at hstarts
      exact .stopped hstarts (hover hends)
    · rw [decide_eq_false hends] at hstarts ⊢
      rw [opened_running rfl]
      exact .started hstarts rfl rfl
  | abandon _ _ => exact .stopped rfl rfl

/-! ## What a message makes of the timer -/

/-- What an event of another server makes of the timer. -/
inductive Rearms (s : GameSession) (e : DomainEvent) (s' : GameSession) : Prop where
  /-- A notice, or the opening of the round it has a timer for. -/
  | kept (hrestarts : s.restarts e = false) (htimer : s'.timer = s.timer)
      (hround : s'.planningTimerRound = s.planningTimerRound)
      (hevent : e.isMinor = true ∨ e.opensRound = some s.planningTimerRound)
  /-- The end of the game. -/
  | stopped (hrestarts : s.restarts e = false) (htimer : s'.timer = none)
      (hevent : e.isMinor = false ∧ e.opensRound = none)
  /-- The timer is for the round that the event opens, whichever that is. -/
  | started (hrestarts : s.restarts e = true) (htimer : s'.timer.isSome = true)
      (hevent : e.opensRound = some s'.planningTimerRound)

/-- What every message of another server makes of the timer, as `HandleRemoteEventAsync` treats
    it. -/
theorem rearms_aligned (s : GameSession) (m : DistributedEventMessage) (now : Time) :
    Rearms s m.event ((s.aligned m now).keep m.buffered) := by
  rw [GameSession.aligned]
  split
  · rename_i resolved hevent
    rw [hevent, GameSession.startPlanningTimer]
    split
    · rename_i hruns
      have hround : s.planningTimerRound = resolved.completedRound + 1 := hruns.1
      refine .kept ?_ rfl rfl (.inr (congrArg some hround.symm))
      rw [GameSession.restarts, decide_eq_true hround, show s.timer.isSome = true from hruns.2.1]
      rfl
    · rename_i hidle
      refine .started ?_ rfl rfl
      rw [GameSession.restarts, Bool.not_eq_true', Bool.eq_false_iff]
      intro hruns
      obtain ⟨hround, hsome⟩ := Bool.and_eq_true_iff.mp hruns
      exact hidle ⟨of_decide_eq_true hround, hsome, rfl⟩
  · rename_i started hevent
    rw [hevent, GameSession.startPlanningTimer, if_neg fun h => by cases h.2.2]
    exact .started rfl rfl rfl
  · rename_i started hevent
    rw [hevent, GameSession.startPlanningTimer, if_neg fun h => by cases h.2.2]
    exact .started rfl rfl rfl
  · rename_i e hevent
    rw [hevent]
    exact .stopped rfl rfl ⟨rfl, rfl⟩
  · rename_i hresolved hstarted hbegun hover
    cases hevent : m.event with
    | roundResolved e => exact absurd hevent (hresolved e)
    | roundStarted e => exact absurd hevent (hstarted e)
    | gameStarted e => exact absurd hevent (hbegun e)
    | gameOver e => exact absurd hevent (hover e)
    | unitsDeparted _ | unitsRetreated _ | unitsAdvanced _ | encounterOccurred _
    | encounterDecisionMade _ | encounterResolved _ => exact .kept rfl rfl rfl (.inl rfl)

/-! ## Servers -/

variable {c : Cluster}

/-- The same with the servers: what is written back to the entry of a server leaves its timer
    alone. -/
theorem arms_turn (hc : Consistent c) {id : String} {s t : Server}
    (hget : c.servers.get? id = some s) {call : SessionCall}
    (hk : (c.turn id call).servers.get? id = some t) :
    Arms (s.host c.room) call (c.turn id call).room t.session := by
  rw [get?_turn, if_pos rfl, hget] at hk
  cases hk
  obtain ⟨room, session, hleaves, hroom, hbare⟩ := left_turn hc hget call
  have htimer : ((s.host c.room).next call).session.timer = session.timer :=
    congr_bare GameSession.timer (fun _ => rfl) hbare
  have hround : ((s.host c.room).next call).session.planningTimerRound = session.planningTimerRound :=
    congr_bare GameSession.planningTimerRound (fun _ => rfl) hbare
  rw [hroom]
  cases arms_left hleaves with
  | kept hstarts ht hr hno => exact .kept hstarts (htimer.trans ht) (hround.trans hr) hno
  | stopped hstarts hphase => exact .stopped hstarts hphase
  | started hstarts ht hr =>
    exact .started hstarts ((congrArg Option.isSome htimer).trans ht) (hround.trans hr)

/-- The server that a message reaches. -/
theorem get?_deliver_self (hc : Consistent c) {index : Nat} (now : Time) {id : String}
    {m : DistributedEventMessage} (hflight : c.inFlight[index]? = some (id, m)) {s : Server}
    (hget : c.servers.get? id = some s) :
    ∃ t, (c.deliver index now).servers.get? id = some t ∧
      (m.sourceServerId = id ∧ t.session = s.session ∨
        m.sourceServerId ≠ id ∧ Rearms s.session m.event t.session) := by
  let rest : Cluster := { c with inFlight := c.inFlight.eraseIdx index }
  have hdelivered : c.deliver index now = rest.receives id m now := by
    rw [Cluster.deliver, hflight]
  rw [hdelivered, receives_eq (c := rest) hget, (hc.servers id s hget).serverId]
  by_cases hown : m.sourceServerId = id
  · rw [if_pos hown]
    exact ⟨_, (get?_commit rest id id s _ _).trans (if_pos rfl), .inl ⟨hown, rfl⟩⟩
  · rw [if_neg hown]
    refine ⟨_, (get?_commit rest id id s _ _).trans (if_pos rfl), .inr ⟨hown, ?_⟩⟩
    exact rearms_aligned s.session m now

/-! ## The invariant -/

variable {w : TimedCluster} {planningTimeout : Time}

/-- What holds of it at any time. -/
structure Monitored (w : TimedCluster) : Prop where
  /-- No message opens a round that the stored room has not reached. -/
  paced : Paced w.cluster
  /-- No timer was started for a round that is still to come. -/
  timed : ∀ r ∈ w.timed, r ≤ w.cluster.room.currentRound
  /-- No server goes away while a handler of its timer waits. -/
  running : ∀ t ∈ w.running, (w.cluster.servers.get? t.serverId).isSome = true

/-- A server's timer, if there is that server. -/
theorem ticking_iff {round : Int} {id : String} {s : Server}
    (hget : w.cluster.servers.get? id = some s) :
    w.Ticking round id ↔
      id ∉ w.elapsed ∧ s.session.timer.isSome = true ∧ s.session.planningTimerRound = round := by
  rw [TimedCluster.Ticking, hget, Option.any_some, Bool.and_eq_true, decide_eq_true_eq]

/-- No server, no timer. -/
theorem not_ticking {round : Int} {id : String} (hget : w.cluster.servers.get? id = none) :
    ¬ w.Ticking round id := by
  rintro ⟨-, hsome⟩
  rw [hget] at hsome
  cases hsome

/-- A step that touches the server `id` only, and leaves its timer. -/
theorem live_of_live {w w' : TimedCluster} {round : Int} (id : String) (hlive : w.Live round)
    (hrunning : w'.running = w.running) (helapsed : ∀ k, k ∈ w'.elapsed → k ∈ w.elapsed)
    (hothers : ∀ k, k ≠ id → w'.cluster.servers.get? k = w.cluster.servers.get? k)
    (hself : w.Ticking round id → w'.Ticking round id) : w'.Live round := by
  rw [TimedCluster.Live, hrunning]
  refine hlive.imp_left ?_
  rintro ⟨k, hticking⟩
  refine ⟨k, ?_⟩
  by_cases hid : k = id
  · rw [hid] at hticking ⊢
    exact hself hticking
  · refine ⟨fun hmem => hticking.1 (helapsed k hmem), ?_⟩
    rw [hothers k hid]
    exact hticking.2

/-- A step that takes the timer of the server `id` away. -/
theorem live_iff_beside {w w' : TimedCluster} {round : Int} {id : String}
    (hrunning : w'.running = w.running) (helapsed : ∀ k, k ≠ id → (k ∈ w'.elapsed ↔
      k ∈ w.elapsed))
    (hothers : ∀ k, k ≠ id → w'.cluster.servers.get? k = w.cluster.servers.get? k)
    (hself : ¬ w'.Ticking round id) :
    w'.Live round ↔ { w with elapsed := id :: w.elapsed }.Live round := by
  rw [TimedCluster.Live, hrunning]
  refine or_congr_left (exists_congr fun k => ?_)
  by_cases hid : k = id
  · rw [hid]
    refine iff_of_false hself ?_
    rintro ⟨hno, -⟩
    exact hno List.mem_cons_self
  · rw [TimedCluster.Ticking, TimedCluster.Ticking, hothers k hid, helapsed k hid]
    show _ ↔ k ∉ id :: w.elapsed ∧ _
    rw [List.mem_cons, not_or]
    exact and_congr_left fun _ => ⟨fun hno => ⟨hid, hno⟩, fun hno => hno.2⟩

/-- A timer that is started is not one that has elapsed, and its round has been timed. -/
theorem start_of_get? {id : String} {s : Server} (hget : w.cluster.servers.get? id = some s) :
    w.start id = { w with
      elapsed := w.elapsed.filter (· ≠ id)
      timed := s.session.planningTimerRound :: w.timed } := by
  rw [TimedCluster.start, hget]

/-- A turn that starts a timer, -/
theorem turn_of_starts {id : String} {s t : Server} (hget : w.cluster.servers.get? id = some s)
    {call : SessionCall} (hk : (w.cluster.turn id call).servers.get? id = some t)
    (hstarts : (s.host w.cluster.room).startsTimer call = true) :
    w.turn id call = { w with
      cluster := w.cluster.turn id call
      elapsed := w.elapsed.filter (· ≠ id)
      timed := t.session.planningTimerRound :: w.timed } := by
  rw [TimedCluster.turn, hget]
  show (if _ then _ else _) = _
  rw [if_pos hstarts]
  exact start_of_get? hk

/-- and one that starts none. -/
theorem turn_of_not_starts {id : String} {s : Server} (hget : w.cluster.servers.get? id = some s)
    {call : SessionCall} (hstarts : (s.host w.cluster.room).startsTimer call = false) :
    w.turn id call = { w with cluster := w.cluster.turn id call } := by
  rw [TimedCluster.turn, hget]
  show (if _ then _ else _) = _
  rw [if_neg]
  rw [hstarts]
  exact Bool.false_ne_true

/-- The round goes on through a turn that neither resolves it nor opens one. -/
theorem planned_of_kept (hw : Monitored w) {id : String} {s : Server}
    (hget : w.cluster.servers.get? id = some s) {call : SessionCall}
    (hplanned : { w with cluster := w.cluster.turn id call }.Planned) :
    w.Planned ∧ (w.cluster.turn id call).room.currentRound = w.cluster.room.currentRound := by
  obtain ⟨hphase, htimed⟩ := hplanned
  have hc := hw.paced.consistent
  have hcounted := hw.paced.counted
  obtain ⟨room, session, hleaves, hroom, -⟩ := left_turn hc hget call
  obtain ⟨-, hgoes⟩ := round_left (h := s.host w.cluster.room) hc.room hcounted hleaves
  replace hphase : (w.cluster.turn id call).room.phase = .planning := hphase
  replace htimed : (w.cluster.turn id call).room.currentRound ∈ w.timed := htimed
  have hbound := hw.timed _ htimed
  rw [hroom] at hphase htimed hbound ⊢
  -- a round that grows was never timed before
  have hsame : room.currentRound = w.cluster.room.currentRound := by
    rcases hgoes with ⟨hsame, -⟩ | hgrown
    · exact hsame
    · replace hgrown : w.cluster.room.currentRound < room.currentRound := hgrown
      omega
  refine ⟨⟨?_, ?_⟩, hsame⟩
  · exact planning_left (h := s.host w.cluster.room) hc.room hcounted hleaves hphase hsame
  · rw [← hsame]
    exact htimed

/-- **A turn leaves the round attended**: it starts a timer, or ends the game, or leaves all timers as
    they are. -/
theorem attended_turn (hw : Monitored w) {id : String} {s : Server}
    (hget : w.cluster.servers.get? id = some s) {call : SessionCall}
    (hlive : (∀ ready now, ¬ Resolves (s.host w.cluster.room) call ready now) → w.Attended) :
    (w.turn id call).Attended := by
  have hc := hw.paced.consistent
  obtain ⟨t, hk⟩ : ∃ t, (w.cluster.turn id call).servers.get? id = some t := by
    rw [get?_turn, if_pos rfl, hget]
    exact ⟨_, rfl⟩
  -- the timer is kept, or the game is over, or there is a new one for the round
  cases arms_turn hc hget hk with
  | kept hstarts htimer hround hno =>
    rw [turn_of_not_starts hget hstarts]
    intro hplanned
    obtain ⟨hbefore, hsame⟩ := planned_of_kept hw hget hplanned
    show TimedCluster.Live _ (w.cluster.turn id call).room.currentRound
    rw [hsame]
    refine live_of_live id (hlive hno hbefore) rfl (fun _ hmem => hmem) (fun k hne => ?_)
      fun hticking => ?_
    · exact (get?_turn _ _ _ _).trans (if_neg hne.symm)
    · -- the server of the turn has kept its timer
      obtain ⟨helapsed, hsome, heq⟩ := (ticking_iff hget).mp hticking
      refine (ticking_iff hk).mpr ⟨helapsed, ?_, hround.trans heq⟩
      rw [htimer]
      exact hsome
  | stopped hstarts hphase =>
    rw [turn_of_not_starts hget hstarts]
    rintro ⟨hplanning, -⟩
    replace hplanning : (w.cluster.turn id call).room.phase = .planning := hplanning
    rw [hphase] at hplanning
    cases hplanning
  | started hstarts hsome hround =>
    rw [turn_of_starts hget hk hstarts]
    intro _
    refine .inl ⟨id, (ticking_iff hk).mpr ⟨?_, hsome, hround⟩⟩
    simp

/-! ## Without the lock

A turn that does not get the lock leaves the stored room and the timers as they were.  That goes for
the handlers too, but they were a timeout themselves: that case is `attended_giveUp`. -/

/-- Nothing is stored and nothing published. -/
theorem paced_turnContended (hp : Paced c) (id : String) (call : SessionCall) :
    Paced (c.turnContended id call) ∧ (c.turnContended id call).room = c.room := by
  rw [Cluster.turnContended]
  rcases hget : c.servers.get? id with _ | s
  · exact ⟨hp, rfl⟩
  have hc := hp.consistent
  obtain ⟨hturn, hroom, hpublished, -, -⟩ :=
    nextContended_refused (h := s.host c.room) hc.room hc.quiet call
  show Paced (c.save id s _) ∧ (c.save id s _).room = c.room
  refine ⟨⟨hc.save hget hturn, ?_, ?_⟩, hroom⟩
  · show Counted ((s.host c.room).nextContended call).room
    rw [hroom]
    exact hp.counted
  · intro d hd r hopens
    show r ≤ ((s.host c.room).nextContended call).room.currentRound
    rw [hroom]
    refine hp.messages d ?_ r hopens
    rcases List.mem_append.mp hd with hold | hnew
    · exact hold
    · rw [hpublished] at hnew
      cases hnew

/-- The servers after a turn without the lock. -/
theorem get?_turnContended (c : Cluster) (id k : String) (call : SessionCall) :
    (c.turnContended id call).servers.get? k =
      if id = k then (c.servers.get? id).map fun s =>
        s.processing ((s.host c.room).nextContended call)
          ((s.host c.room).nextContended call).published
      else c.servers.get? k := by
  rw [Cluster.turnContended]
  rcases hget : c.servers.get? id with _ | s
  · exact get?_absent hget k
  · exact get?_commit c id k s _ _

/-- Nothing is lost by a turn that has not been a timeout. -/
theorem attended_contended (hw : Monitored w) (hattended : w.Attended) (id : String)
    (call : SessionCall) : { w with cluster := w.cluster.turnContended id call }.Attended := by
  have hc := hw.paced.consistent
  have hroom := (paced_turnContended hw.paced id call).2
  intro hplanned
  rw [TimedCluster.Planned] at hplanned
  show TimedCluster.Live _ (w.cluster.turnContended id call).room.currentRound
  rw [hroom] at hplanned ⊢
  refine live_of_live id (hattended hplanned) rfl (fun _ hmem => hmem) (fun k hne => ?_)
    fun hticking => ?_
  · exact (get?_turnContended _ _ _ _).trans (if_neg hne.symm)
  rcases hget : w.cluster.servers.get? id with _ | s
  · exact absurd hticking (not_ticking hget)
  obtain ⟨-, -, -, htimer, hround⟩ :=
    nextContended_refused (h := s.host w.cluster.room) hc.room hc.quiet call
  obtain ⟨helapsed, hsome, heq⟩ := (ticking_iff hget).mp hticking
  have hk := get?_turnContended w.cluster id id call
  rw [if_pos rfl, hget] at hk
  refine (ticking_iff hk).mpr ⟨helapsed, ?_, hround.trans heq⟩
  show ((s.host w.cluster.room).nextContended call).session.timer.isSome = true
  rw [htimer]
  exact hsome

/-! ## Messages

Four cases, by what the message makes of the timer: it is the server's own, it is a notice, it ends
the game, or it opens a round.  A message that opens the planned round starts a fresh timer for it;
one that opens another moves the timer away, and then the others have to do. -/

/-- What keeps up with a round is no more than a notice, or opens this round. -/
theorem keepsUp_iff {round : Int} {e : DomainEvent} :
    e.keepsUp round = true ↔ e.isMinor = true ∨ e.opensRound = some round := by
  rw [DomainEvent.keepsUp, Bool.or_eq_true, decide_eq_true_eq]

/-- The servers' timers after a delivery. -/
theorem deliver_eq (hw : Monitored w) {index : Nat} {id : String} {m : DistributedEventMessage}
    (hflight : w.cluster.inFlight[index]? = some (id, m)) {s t : Server}
    (hget : w.cluster.servers.get? id = some s)
    (hk : (w.cluster.deliver index w.clock).servers.get? id = some t) :
    w.deliver index = if m.sourceServerId ≠ id ∧ s.session.restarts m.event = true then { w with
        cluster := w.cluster.deliver index w.clock
        elapsed := w.elapsed.filter (· ≠ id)
        timed := t.session.planningTimerRound :: w.timed }
      else { w with cluster := w.cluster.deliver index w.clock } := by
  have hserver := (hw.paced.consistent.servers id s hget).serverId
  rw [TimedCluster.deliver, hflight]
  dsimp only
  rw [hget]
  dsimp only
  rw [hserver]
  split
  · exact start_of_get? hk
  · rfl

section Delivery

variable {index : Nat} {id : String} {m : DistributedEventMessage}

/-- What a delivery has to leave the planned round, of the message that is delivered. -/
theorem relieved_iff (hflight : w.cluster.inFlight[index]? = some (id, m)) :
    w.Relieved (.deliver index) ↔ (m.sourceServerId ≠ id → w.Planned →
      m.event.keepsUp w.cluster.room.currentRound = false →
        { w with elapsed := id :: w.elapsed }.Live w.cluster.room.currentRound) := by
  rw [TimedCluster.Relieved, hflight]
  exact ⟨fun h => h (id, m) rfl, fun h d hd => by cases hd; exact h⟩

/-- A server without a timer for the round is not missed. -/
theorem live_beside (hattended : w.Attended) (hno : ¬ w.Ticking w.cluster.room.currentRound id)
    (hplanned : w.Planned) :
    { w with elapsed := id :: w.elapsed }.Live w.cluster.room.currentRound :=
  (live_iff_beside (w := w) rfl (fun _ _ => Iff.rfl) (fun _ _ => rfl) hno).mp (hattended hplanned)

/-- A delivery that starts no timer and leaves the one of the server alone. -/
theorem attended_deliver_kept (hattended : w.Attended)
    (hflight : w.cluster.inFlight[index]? = some (id, m))
    (hsame : w.deliver index = { w with cluster := w.cluster.deliver index w.clock })
    (hself : w.Ticking w.cluster.room.currentRound id → TimedCluster.Ticking
      { w with cluster := w.cluster.deliver index w.clock } w.cluster.room.currentRound id) :
    (w.deliver index).Attended := by
  have hroom := (w.cluster.deliver_frame index w.clock).1
  intro hplanned
  rw [hsame] at hplanned ⊢
  rw [TimedCluster.Planned] at hplanned
  show TimedCluster.Live _ (w.cluster.deliver index w.clock).room.currentRound
  rw [hroom] at hplanned ⊢
  exact live_of_live id (hattended hplanned) rfl (fun _ hmem => hmem)
    (fun k hne => get?_deliver w.cluster hflight hne) hself

/-- A delivery that stops the timer of the server: the others have to do. -/
theorem attended_deliver_stopped (hflight : w.cluster.inFlight[index]? = some (id, m))
    (hsame : w.deliver index = { w with cluster := w.cluster.deliver index w.clock })
    (hgone : ¬ TimedCluster.Ticking { w with cluster := w.cluster.deliver index w.clock }
      w.cluster.room.currentRound id) :
    (w.deliver index).Attended ↔
      (w.Planned → { w with elapsed := id :: w.elapsed }.Live w.cluster.room.currentRound) := by
  have hroom := (w.cluster.deliver_frame index w.clock).1
  rw [hsame, TimedCluster.Attended, TimedCluster.Planned, hroom]
  have hlive : TimedCluster.Live { w with cluster := w.cluster.deliver index w.clock }
      w.cluster.room.currentRound ↔
        { w with elapsed := id :: w.elapsed }.Live w.cluster.room.currentRound :=
    live_iff_beside rfl (fun _ _ => Iff.rfl) (fun k hne => get?_deliver w.cluster hflight hne) hgone
  rw [hlive]
  exact Iff.rfl

/-- A delivery that starts the timer of the server for another round: the others have to do. -/
theorem attended_deliver_moved (hflight : w.cluster.inFlight[index]? = some (id, m)) {t : Server}
    (hk : (w.cluster.deliver index w.clock).servers.get? id = some t)
    (hsame : w.deliver index = { w with
      cluster := w.cluster.deliver index w.clock
      elapsed := w.elapsed.filter (· ≠ id)
      timed := t.session.planningTimerRound :: w.timed })
    (hround : t.session.planningTimerRound ≠ w.cluster.room.currentRound) :
    (w.deliver index).Attended ↔
      (w.Planned → { w with elapsed := id :: w.elapsed }.Live w.cluster.room.currentRound) := by
  have hroom := (w.cluster.deliver_frame index w.clock).1
  let started : TimedCluster := { w with
    cluster := w.cluster.deliver index w.clock
    elapsed := w.elapsed.filter (· ≠ id)
    timed := t.session.planningTimerRound :: w.timed }
  replace hsame : w.deliver index = started := hsame
  have helapsed : ∀ k, k ∈ started.elapsed ↔ k ∈ w.elapsed ∧ k ≠ id := by
    intro k
    rw [List.mem_filter, decide_eq_true_eq]
  have hgone : ¬ started.Ticking w.cluster.room.currentRound id := by
    intro hticking
    exact hround ((ticking_iff hk).mp hticking).2.2
  have hplanned : started.Planned ↔ w.Planned := by
    show (w.cluster.deliver index w.clock).room.phase = _ ∧
      (w.cluster.deliver index w.clock).room.currentRound ∈ t.session.planningTimerRound :: w.timed ↔ _
    rw [hroom, List.mem_cons]
    exact and_congr_right fun _ => or_iff_right fun heq => hround heq.symm
  have hlive : started.Live w.cluster.room.currentRound ↔
      { w with elapsed := id :: w.elapsed }.Live w.cluster.room.currentRound :=
    live_iff_beside rfl (fun k hne => (helapsed k).trans (and_iff_left hne))
      (fun k hne => get?_deliver w.cluster hflight hne) hgone
  have hcurrent : started.cluster.room.currentRound = w.cluster.room.currentRound :=
    congrArg GameRoom.currentRound hroom
  rw [hsame, TimedCluster.Attended, hplanned, hcurrent, hlive]

end Delivery

/-- **A delivery leaves the round attended** exactly if it does not take the last timeout away. -/
theorem attended_deliver (hw : Monitored w) (hattended : w.Attended) (index : Nat) :
    (w.deliver index).Attended ↔ w.Relieved (.deliver index) := by
  have hc := hw.paced.consistent
  rcases hflight : w.cluster.inFlight[index]? with _ | ⟨id, m⟩
  · -- nothing is delivered
    have hsame : w.deliver index = w := by
      rw [TimedCluster.deliver, hflight]
      show { w with cluster := w.cluster.deliver index w.clock } = w
      rw [deliver_none w.cluster hflight]
    rw [hsame]
    refine iff_of_true hattended fun d hd => ?_
    rw [hflight] at hd
    cases hd
  rw [relieved_iff hflight]
  rcases hget : w.cluster.servers.get? id with _ | s
  · -- there is no such server
    have hno : ¬ w.Ticking w.cluster.room.currentRound id := not_ticking hget
    have hsame : w.deliver index = { w with cluster := w.cluster.deliver index w.clock } := by
      rw [TimedCluster.deliver, hflight]
      dsimp only
      rw [hget]
    refine iff_of_true ?_ fun _ hplanned _ => live_beside hattended hno hplanned
    exact attended_deliver_kept hattended hflight hsame fun hticking => absurd hticking hno
  obtain ⟨t, hk, ⟨hown, hsession⟩ | ⟨hother, hrearms⟩⟩ :=
    get?_deliver_self hc w.clock hflight hget
  · -- the server's own message
    have hsame := deliver_eq hw hflight hget hk
    rw [if_neg fun h => h.1 hown] at hsame
    refine iff_of_true ?_ fun hother => absurd hown hother
    refine attended_deliver_kept hattended hflight hsame fun hticking => ?_
    obtain ⟨helapsed, hsome, hround⟩ := (ticking_iff hget).mp hticking
    rw [← hsession] at hsome hround
    exact (ticking_iff hk).mpr ⟨helapsed, hsome, hround⟩
  have hsame := deliver_eq hw hflight hget hk
  -- a message of another server
  cases hrearms with
  | kept hrestarts htimer hround hevent =>
    rw [if_neg fun h => by rw [hrestarts] at h; cases h.2] at hsame
    refine iff_of_true (attended_deliver_kept hattended hflight hsame fun hticking => ?_)
      fun _ hplanned hfalse => live_beside hattended ?_ hplanned
    · obtain ⟨helapsed, hsome, heq⟩ := (ticking_iff hget).mp hticking
      rw [← htimer] at hsome
      exact (ticking_iff hk).mpr ⟨helapsed, hsome, hround.trans heq⟩
    · -- a RoundResolved of another round finds the timer of that round
      intro hticking
      obtain ⟨-, -, heq⟩ := (ticking_iff hget).mp hticking
      rw [heq] at hevent
      rw [keepsUp_iff.mpr hevent] at hfalse
      cases hfalse
  | stopped hrestarts htimer hevent =>
    rw [if_neg fun h => by rw [hrestarts] at h; cases h.2] at hsame
    have hfalse : m.event.keepsUp w.cluster.room.currentRound = false := by
      rw [DomainEvent.keepsUp, hevent.1, hevent.2]
      rfl
    refine (attended_deliver_stopped hflight hsame fun hticking => ?_).trans
      ⟨fun h _ hplanned _ => h hplanned, fun h hplanned => h hother hplanned hfalse⟩
    obtain ⟨-, hsome, -⟩ := (ticking_iff hk).mp hticking
    rw [htimer] at hsome
    cases hsome
  | started hrestarts hsome hevent =>
    rw [if_pos ⟨hother, hrestarts⟩] at hsame
    by_cases hround : t.session.planningTimerRound = w.cluster.room.currentRound
    · -- a fresh timer for the round
      have hroom := (w.cluster.deliver_frame index w.clock).1
      rw [hsame]
      refine iff_of_true (fun _ => .inl ⟨id, (ticking_iff hk).mpr ⟨?_, hsome, ?_⟩⟩) ?_
      · intro hmem
        exact of_decide_eq_true (List.mem_filter.mp hmem).2 rfl
      · exact hround.trans (congrArg GameRoom.currentRound hroom).symm
      · intro _ _ hfalse
        rw [hround] at hevent
        rw [keepsUp_iff.mpr (.inr hevent)] at hfalse
        cases hfalse
    · -- the timer is moved to another round
      have hfalse : m.event.keepsUp w.cluster.room.currentRound = false := by
        rw [Bool.eq_false_iff]
        intro hkeeps
        rcases keepsUp_iff.mp hkeeps with hminor | hopens
        · rw [not_minor_of_opensRound hevent] at hminor
          cases hminor
        · rw [hopens] at hevent
          exact hround (Option.some.inj hevent).symm
      exact (attended_deliver_moved hflight hk hsame hround).trans
        ⟨fun h _ hplanned _ => h hplanned, fun h hplanned => h hother hplanned hfalse⟩

/-! ## Steps -/

/-- Handlers are done with, or called on a server that is there. -/
theorem Monitored.with_running (hw : Monitored w) {running : List TimeoutHandler}
    (hrunning : ∀ t ∈ running, (w.cluster.servers.get? t.serverId).isSome = true)
    (elapsed : List String) : Monitored { w with running := running, elapsed := elapsed } :=
  ⟨hw.paced, hw.timed, hrunning⟩

/-- A handler that is through is not called any more. -/
theorem Monitored.done (hw : Monitored w) (index : Nat) : Monitored (w.done index) :=
  hw.with_running (fun t ht => hw.running t (List.mem_of_mem_eraseIdx ht)) w.elapsed

/-- A turn of a server that is not there. -/
theorem turn_of_none {id : String} (hget : w.cluster.servers.get? id = none) (call : SessionCall) :
    w.turn id call = w := by
  rw [TimedCluster.turn, hget]
  show { w with cluster := w.cluster.turn id call } = w
  rw [turn_unknown hget]

/-- A turn may open a round, which is then the latest and timed. -/
theorem Monitored.turn (hw : Monitored w) (id : String) (call : SessionCall) :
    Monitored (w.turn id call) := by
  have hc := hw.paced.consistent
  rcases hget : w.cluster.servers.get? id with _ | s
  · rw [turn_of_none hget]
    exact hw
  have hpaced : Paced (w.cluster.turn id call) := hw.paced.next 0 (.turn id call)
  have hgoes := (round_next hc hw.paced.counted 0 (.turn id call)).2
  replace hgoes : (w.cluster.turn id call).room.currentRound = w.cluster.room.currentRound ∧ _ ∨
    w.cluster.room.currentRound < (w.cluster.turn id call).room.currentRound := hgoes
  have htimed : ∀ r ∈ w.timed, r ≤ (w.cluster.turn id call).room.currentRound := by
    intro r hr
    have hbound := hw.timed r hr
    omega
  have hrunning : ∀ t ∈ w.running, ((w.cluster.turn id call).servers.get? t.serverId).isSome = true := by
    intro t ht
    rw [get?_turn, hget]
    split
    · rfl
    · exact hw.running t ht
  obtain ⟨t, hk⟩ : ∃ t, (w.cluster.turn id call).servers.get? id = some t := by
    rw [get?_turn, if_pos rfl, hget]
    exact ⟨_, rfl⟩
  cases arms_turn hc hget hk with
  | kept hstarts _ _ _ | stopped hstarts _ =>
    rw [turn_of_not_starts hget hstarts]
    exact ⟨hpaced, htimed, hrunning⟩
  | started hstarts _ hround =>
    rw [turn_of_starts hget hk hstarts]
    refine ⟨hpaced, fun r hr => ?_, hrunning⟩
    rcases List.mem_cons.mp hr with rfl | hold
    · exact Int.le_of_eq hround
    · exact htimed r hold

/-- A turn without the lock leaves the servers where they are. -/
theorem Monitored.contended (hw : Monitored w) (id : String) (call : SessionCall) :
    Monitored { w with cluster := w.cluster.turnContended id call } := by
  obtain ⟨hpaced, hroom⟩ := paced_turnContended hw.paced id call
  refine ⟨hpaced, fun r hr => ?_, fun t ht => ?_⟩
  · show r ≤ (w.cluster.turnContended id call).room.currentRound
    rw [hroom]
    exact hw.timed r hr
  · have hsome := hw.running t ht
    show ((w.cluster.turnContended id call).servers.get? t.serverId).isSome = true
    rw [get?_turnContended]
    split
    · rename_i heq
      rw [heq, Option.isSome_map]
      exact hsome
    · exact hsome

/-- A message opens no round that is still to come, so no timer is started for one. -/
theorem Monitored.deliver (hw : Monitored w) (index : Nat) : Monitored (w.deliver index) := by
  have hc := hw.paced.consistent
  have hpaced : Paced (w.cluster.deliver index w.clock) := hw.paced.next 0 (.deliver index w.clock)
  have hroom := (w.cluster.deliver_frame index w.clock).1
  have htimed : ∀ r ∈ w.timed, r ≤ (w.cluster.deliver index w.clock).room.currentRound := by
    rw [hroom]
    exact hw.timed
  rcases hflight : w.cluster.inFlight[index]? with _ | ⟨id, m⟩
  · rw [TimedCluster.deliver, hflight]
    show Monitored { w with cluster := w.cluster.deliver index w.clock }
    rw [deliver_none w.cluster hflight]
    exact hw
  rcases hget : w.cluster.servers.get? id with _ | s
  · have hsame : w.deliver index = { w with cluster := w.cluster.deliver index w.clock } := by
      rw [TimedCluster.deliver, hflight]
      dsimp only
      rw [hget]
    rw [hsame]
    refine ⟨hpaced, htimed, fun t ht => ?_⟩
    have hsome := hw.running t ht
    have hne : t.serverId ≠ id := by
      intro heq
      rw [heq, hget] at hsome
      cases hsome
    show ((w.cluster.deliver index w.clock).servers.get? t.serverId).isSome = true
    rw [get?_deliver w.cluster hflight hne]
    exact hsome
  obtain ⟨t, hk, hmakes⟩ := get?_deliver_self hc w.clock hflight hget
  have hrunning : ∀ t ∈ w.running,
      ((w.cluster.deliver index w.clock).servers.get? t.serverId).isSome = true := by
    intro t ht
    by_cases heq : t.serverId = id
    · rw [heq, hk]
      rfl
    · rw [get?_deliver w.cluster hflight heq]
      exact hw.running t ht
  rw [deliver_eq hw hflight hget hk]
  split
  · rename_i hstarts
    refine ⟨hpaced, fun r hr => ?_, hrunning⟩
    rcases List.mem_cons.mp hr with rfl | hold
    · rcases hmakes with ⟨hown, -⟩ | ⟨-, hrearms⟩
      · exact absurd hown hstarts.1
      cases hrearms with
      | kept hrestarts _ _ _ | stopped hrestarts _ _ =>
        rw [hrestarts] at hstarts
        cases hstarts.2
      | started _ _ hevent =>
        have hle := hw.paced.messages _ (List.mem_of_getElem? hflight) _ hevent
        show t.session.planningTimerRound ≤ (w.cluster.deliver index w.clock).room.currentRound
        rw [hroom]
        exact hle
    · exact htimed r hold
  · exact ⟨hpaced, htimed, hrunning⟩

/-- What the elapsing of a timer does. -/
inductive Elapses (w : TimedCluster) (id : String) : TimedCluster → Prop where
  /-- There is no such timer, or it has elapsed before. -/
  | nothing : Elapses w id w
  /-- Its handler is called, with the round of the timer as it is now. -/
  | called {s : Server} {kind : TimerKind} (hget : w.cluster.servers.get? id = some s)
      (htimer : s.session.timer = some kind) : Elapses w id { w with
        elapsed := id :: w.elapsed
        running := w.running ++ [⟨id, kind, s.session.planningTimerRound⟩] }

theorem elapses_elapse (w : TimedCluster) (id : String) : Elapses w id (w.elapse id) := by
  rw [TimedCluster.elapse]
  split
  · exact .nothing
  · rename_i s hget
    split
    · exact .nothing
    · rename_i kind htimer
      split
      · exact .nothing
      · exact .called hget htimer

/-- **Every step keeps the invariant.** -/
theorem Monitored.next (hw : Monitored w) (call : TimedCall) : Monitored
    (w.next planningTimeout call) := by
  cases call with
  | pass delay => exact ⟨hw.paced, hw.timed, hw.running⟩
  | hydrate id =>
    have hroom := (w.cluster.hydrate_frame planningTimeout id).1
    refine ⟨hw.paced.next planningTimeout (.hydrate id), fun r hr => ?_, fun t ht => ?_⟩
    · show r ≤ (w.cluster.hydrate planningTimeout id).room.currentRound
      rw [hroom]
      exact hw.timed r hr
    · obtain ⟨s, hget⟩ := Option.isSome_iff_exists.mp (hw.running t ht)
      exact Option.isSome_of_eq_some (get?_hydrate hget id)
  | turn id call => exact hw.turn id call
  | contended id call => exact hw.contended id call
  | deliver index => exact hw.deliver index
  | elapse id =>
    have helapses := elapses_elapse w id
    show Monitored (w.elapse id)
    generalize w.elapse id = w' at helapses ⊢
    cases helapses with
    | nothing => exact hw
    | called hget htimer =>
      refine hw.with_running (fun t ht => ?_) _
      rcases List.mem_append.mp ht with hold | hnew
      · exact hw.running t hold
      · rw [List.mem_singleton.mp hnew]
        exact Option.isSome_of_eq_some hget
  | handle index =>
    show Monitored (w.handle index)
    rw [TimedCluster.handle]
    split
    · exact hw
    · exact (hw.done index).turn _ _
  | giveUp index => exact hw.done index

/-- The elapsing of a timer calls a handler for its round. -/
theorem attended_elapse (hattended : w.Attended) (id : String) : (w.elapse id).Attended := by
  have helapses := elapses_elapse w id
  generalize w.elapse id = w' at helapses ⊢
  cases helapses with
  | nothing => exact hattended
  | @called s kind hget htimer =>
    intro hplanned
    rcases hattended hplanned with ⟨k, hticking⟩ | ⟨t, ht, hround⟩
    -- the timer that was live is the one that elapses: now its handler is
    · by_cases hid : k = id
      · rw [hid] at hticking
        obtain ⟨-, -, hround⟩ := (ticking_iff hget).mp hticking
        exact .inr ⟨_, List.mem_append_right _ (List.mem_singleton_self _), hround⟩
      · refine .inl ⟨k, fun hmem => ?_, hticking.2⟩
        exact hticking.1 ((List.mem_cons.mp hmem).resolve_left hid)
    · exact .inr ⟨t, List.mem_append_left _ ht, hround⟩

/-- A handler of another round is not missed. -/
theorem live_done {round : Int} (hlive : w.Live round) {index : Nat} {t : TimeoutHandler}
    (hrunning : w.running[index]? = some t) (hne : t.forRound ≠ round) : (w.done index).Live round := by
  refine hlive.imp_right ?_
  rintro ⟨t', ht', hround⟩
  obtain ⟨i, hi⟩ := List.mem_iff_getElem?.mp ht'
  refine ⟨t', List.mem_eraseIdx_iff_getElem?.mpr ⟨i, ?_, hi⟩, hround⟩
  rintro rfl
  rw [hrunning] at hi
  cases hi
  exact hne hround

/-- A handler that gets the lock resolves the round it was called for, if it is still being planned. -/
theorem attended_handle (hw : Monitored w) (hattended : w.Attended) (index : Nat) :
    (w.handle index).Attended := by
  rw [TimedCluster.handle]
  split
  · exact hattended
  rename_i t hrunning
  have hmem : t ∈ w.running := List.mem_of_getElem? hrunning
  obtain ⟨s, hget⟩ := Option.isSome_iff_exists.mp (hw.running t hmem)
  refine attended_turn (hw.done index) (s := s) hget fun hno hplanned => ?_
  refine live_done (hattended hplanned) hrunning fun heq => ?_
  -- the handler of the round would have resolved it
  rcases hkind : t.kind with _ | _
  · rw [TimeoutHandler.call, hkind] at hno
    exact hno _ _ (.timeout hplanned.1 heq.symm)
  · rw [TimeoutHandler.call, hkind] at hno
    exact hno _ _ (.backup hplanned.1 heq.symm)

/-- A handler that does not get the lock is missed if it was the last timeout of the round. -/
theorem attended_giveUp (hattended : w.Attended) (index : Nat) :
    (w.done index).Attended ↔ w.Relieved (.giveUp index) := by
  rw [TimedCluster.Relieved]
  rcases hrunning : w.running[index]? with _ | t
  · have hsame : w.done index = w := by
      rw [TimedCluster.done, List.eraseIdx_of_length_le (List.getElem?_eq_none_iff.mp hrunning)]
    rw [hsame]
    refine iff_of_true hattended fun t ht => ?_
    cases ht
  · constructor
    · intro h t' _ hplanned _
      exact TimedCluster.liveBeside_iff.mpr (h hplanned)
    · intro h hplanned
      by_cases hround : t.forRound = w.cluster.room.currentRound
      · exact TimedCluster.liveBeside_iff.mp (h t rfl hplanned hround)
      · exact live_done (hattended hplanned) hrunning hround

/-- A new session has no timer yet, and takes none away. -/
theorem attended_hydrate (hattended : w.Attended) (id : String) :
    { w with cluster := w.cluster.hydrate planningTimeout id }.Attended := by
  have hroom := (w.cluster.hydrate_frame planningTimeout id).1
  intro hplanned
  rw [TimedCluster.Planned] at hplanned
  show TimedCluster.Live _ (w.cluster.hydrate planningTimeout id).room.currentRound
  rw [hroom] at hplanned ⊢
  refine (hattended hplanned).imp_left ?_
  rintro ⟨k, hticking⟩
  obtain ⟨s, hget, -⟩ := (Option.any_eq_true _ _).mp hticking.2
  exact ⟨k, (ticking_iff (get?_hydrate hget id)).mpr ((ticking_iff hget).mp hticking)⟩

/-- **A step leaves the round attended** exactly if it leaves it another timeout where it takes one
    away. -/
theorem attended_next (hw : Monitored w) (hattended : w.Attended) (call : TimedCall) :
    (w.next planningTimeout call).Attended ↔ w.Relieved call := by
  cases call with
  | pass delay => exact iff_of_true hattended trivial
  | hydrate id => exact iff_of_true (attended_hydrate hattended id) trivial
  | turn id call =>
    refine iff_of_true ?_ trivial
    show (w.turn id call).Attended
    rcases hget : w.cluster.servers.get? id with _ | s
    · rw [turn_of_none hget]
      exact hattended
    · exact attended_turn hw hget fun _ => hattended
  | contended id call => exact iff_of_true (attended_contended hw hattended id call) trivial
  | deliver index => exact attended_deliver hw hattended index
  | elapse id => exact iff_of_true (attended_elapse hattended id) trivial
  | handle index => exact iff_of_true (attended_handle hw hattended index) trivial
  | giveUp index => exact attended_giveUp hattended index

/-! ## Every run -/

/-- Two players on `s1`, the first of them connected; `s2` has heard of the game. -/
def timedCalls : List TimedCall :=
  [.hydrate "s2", .turn "s1" (.addPlayer ⟨"alice"⟩ 0), .turn "s1" (.addPlayer ⟨"bob"⟩ 0),
    .turn "s1" (.onPlayerConnected .a 0), .deliver 0, .deliver 0]

/-- The timer of `s1` elapses, and its handler does not get the lock; that of `s2` does. -/
def relievedCalls : List TimedCall := timedCalls ++
  [.pass 30000, .elapse "s1", .contended "s1" (.moveUnits .a ⟨⟨1⟩, ⟨2⟩, 3⟩), .giveUp 0,
    .pass 5000,
    .elapse "s2", .handle 0, .deliver 0, .deliver 0, .deliver 0, .deliver 0]

/-- Two players on one server.  The timer elapses while the lock is held, and the second player
    connects. -/
def frozenCalls : List TimedCall :=
  [.turn "s1" (.addPlayer ⟨"alice"⟩ 0), .turn "s1" (.addPlayer ⟨"bob"⟩ 0),
    .turn "s1" (.onPlayerConnected .a 0), .pass 30000, .elapse "s1", .pass 500, .giveUp 0,
    .turn "s1" (.onPlayerConnected .b 30500)]

end HexWar
