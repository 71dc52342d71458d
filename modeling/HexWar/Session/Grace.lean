/-
  The end of a game because a side stays away.

  Whenever a side is disconnected a check is started that fires 15 seconds later at the earliest.  It
  is made in two parts, and other turns may come between them.

  1. Outside of the lock it looks whether its side is disconnected and the game goes on
     (`GameSession.graceExpired`).  It looks at the flag of that moment; a check of an earlier absence is
     not called off when the side comes back, and finds it disconnected if it has left again.
  2. If so it asks for the lock of the room, and ends the game when it gets it (`forceGameOver`).  It does
     not look at its side again, which may have come back by then.  The first side whose flag says
     connected wins, a side that never came included; when there is none, the search throws and the
     game goes on.  A lock in Redis may also be refused, and then the game goes on as well.

  `Watch` is a session with a clock, the checks that have not fired, those that wait for the lock, and
  where each side is, going by the calls that were made for it.  `Fair` is what one expects of a step,
  in three parts: who may be ended and who may win (`forced`), that a check which finds its side away
  goes on to the second part (`goesOn`), and that the second part ends the game (`ended`, `kept`).

  `forced_end_iff` says when all steps of a run are fair.  Its condition speaks of the second part only,
  and of where the sides are at that moment: one has been away for the whole period, and the other is
  there (`Deserted`).
-/
import HexWar.Session.Aftermath
import HexWar.Session.Verdict

namespace HexWar

open Lib Lib.Action GameRoom

/-! ## The machine -/

/-- How long a side may be away, in milliseconds. -/
def gracePeriod : Time := 15000

/-- Where a side is. -/
inductive Presence where
  /-- It has not come yet. -/
  | unseen
  | here
  | away (since : Time)
deriving DecidableEq, Repr

def Presence.awaySince : Presence → Option Time
  | .away since => some since
  | .unseen | .here => none

def Presence.isAway (p : Presence) : Bool := p.awaySince.isSome

/-- A side leaves, or is told to have left once more: what counts is when it was last there. -/
def Presence.leave (now : Time) : Presence → Presence
  | .away since => .away since
  | .unseen | .here => .away now

/-- A check that OnPlayerDisconnectedAsync has started. -/
structure GraceCheck where
  side : PlayerSide
  started : Time
deriving DecidableEq, Repr

structure Watch where
  host : Host
  clock : Time
  /-- The checks that were started and have not fired. -/
  checks : List GraceCheck
  /-- The checks that have found their side disconnected, and wait for the lock. -/
  ending : List GraceCheck
  presence : PerSide Presence

inductive WatchCall where
  | pass (delay : Nat)
  | turn (call : SessionCall)
  /-- A turn that does not get the lock. -/
  | contended (call : SessionCall)
  /-- A check fires: the part outside of the lock. -/
  | fire (index : Nat)
  /-- A check gets the lock. -/
  | force (index : Nat)
  /-- A check does not get the lock. -/
  | giveUp (index : Nat)
deriving DecidableEq

namespace Watch

/-- A turn has gone as far as it goes; a side that it is about has come or gone, and whoever goes starts
    a check. -/
def served (w : Watch) (call : SessionCall) (host : Host) : Watch :=
  match call with
  | .onPlayerConnected side _ => { w with host := host, presence := w.presence.set side .here }
  | .onPlayerDisconnected side => { w with
      host := host
      presence := w.presence.update side (·.leave w.clock)
      checks := w.checks ++ [⟨side, w.clock⟩] }
  | _ => { w with host := host }

/-- A check fires, and waits for the lock if it finds its side disconnected and the game going on. -/
def fire (w : Watch) (index : Nat) : Watch :=
  match w.checks[index]? with
  | none => w
  | some check => { w with
      checks := w.checks.eraseIdx index
      ending := if w.host.session.graceExpired check.side then w.ending ++ [check] else w.ending }

/-- A check has the lock.  Which side it was started for plays no part any more. -/
def force (w : Watch) (index : Nat) : Watch :=
  match w.ending[index]? with
  | none => w
  | some _ => { w with host := w.host.next .forceGameOver, ending := w.ending.eraseIdx index }

def next (w : Watch) : WatchCall → Watch
  | .pass delay => { w with clock := w.clock + delay }
  | .turn call => w.served call (w.host.next call)
  | .contended call => w.served call (w.host.nextContended call)
  | .fire index => w.fire index
  | .force index => w.force index
  | .giveUp index => { w with ending := w.ending.eraseIdx index }

/-- Turns read the clock, and the checks fire when they are due; nothing but a check ends a game so, and
    only the lock in Redis, which comes with the channel, is ever refused. -/
def Legal (w : Watch) : WatchCall → Prop
  | .pass _ | .force _ => True
  | .turn call => call.readsAt w.clock = true ∧ call ≠ .forceGameOver
  | .contended _ | .giveUp _ => w.host.session.hasEventPublisher = true
  | .fire index => ∀ check ∈ w.checks[index]?, check.started + gracePeriod ≤ w.clock

instance (w : Watch) : DecidablePred w.Legal
  | .pass _ | .force _ => .isTrue trivial
  | .turn _ => inferInstanceAs (Decidable (_ ∧ _))
  | .contended _ | .giveUp _ => inferInstanceAs (Decidable (_ = true))
  | .fire _ => inferInstanceAs (Decidable (∀ check ∈ _, _))

/-- The events that a step raises: those that are buffered in it. -/
def raisedBy (w : Watch) (call : WatchCall) : List DomainEvent :=
  ((w.next call).host.session.getEventsAfter w.host.session.eventSequence).map (·.event)

end Watch

/-- A session on one server, with its clock. -/
def watches (roomId serverId : String) (hasEventPublisher : Bool) (planningTimeout : Time) :
    Machine Watch WatchCall :=
  ⟨⟨Host.initial roomId serverId hasEventPublisher planningTimeout, 0, [], [], .both .unseen⟩,
    Watch.next, Watch.Legal⟩

namespace Watch

/-! ## The properties -/

/-- **A game is ended by force rightly.** -/
structure Fair (w : Watch) (call : WatchCall) : Prop where
  /-- Somebody was away for the whole grace period, and the winner is there. -/
  forced : ∀ e ∈ verdicts (w.raisedBy call), e.reason = .playerDisconnected →
    (∃ side since, w.presence.get side = .away since ∧ since + gracePeriod ≤ w.clock) ∧
      ∀ winner, e.winner = some winner → w.presence.get winner = .here
  /-- A check of a side that is still away goes on to end the game. -/
  goesOn : ∀ index check since, call = .fire index → w.checks[index]? = some check →
    w.presence.get check.side = .away since → ¬ w.host.room.isOver → check ∈ (w.next call).ending
  /-- It returns, and the game is over. -/
  ended : ∀ index check, call = .force index → w.ending[index]? = some check →
    succeeds (reliable.forceGameOver .playerDisconnected) w.host = true ∧
      (w.next call).host.room.isOver
  /-- If it cannot have the lock, the game is over anyway. -/
  kept : ∀ index check, call = .giveUp index → w.ending[index]? = some check →
    (w.next call).host.room.isOver

/-- A side has been away for the whole grace period, and its opponent is there. -/
def Deserted (w : Watch) (side : PlayerSide) : Prop :=
  (∃ since ∈ (w.presence.get side).awaySince, since + gracePeriod ≤ w.clock) ∧
    w.presence.get side.enemy = .here

instance (w : Watch) (side : PlayerSide) : Decidable (w.Deserted side) :=
  inferInstanceAs (Decidable ((∃ since ∈ _, _) ∧ _))

/-- A check that gets the lock while the game goes on finds a side that has been away for the whole
    grace period and its opponent there; and no check that waits is refused the lock before the game
    is over. -/
def Timely (w : Watch) : WatchCall → Prop
  | .force index => ∀ _check ∈ w.ending[index]?, ¬ w.host.room.isOver → w.Deserted .a ∨ w.Deserted .b
  | .giveUp index => ∀ _check ∈ w.ending[index]?, w.host.room.isOver
  | .pass _ | .turn _ | .contended _ | .fire _ => True

instance (w : Watch) : DecidablePred w.Timely
  | .force _ => inferInstanceAs (Decidable (∀ _check ∈ _, _))
  | .giveUp _ => inferInstanceAs (Decidable (∀ _check ∈ _, _))
  | .pass _ | .turn _ | .contended _ | .fire _ => .isTrue trivial

/-! ## The invariant -/

/-- What holds of a watched session between two steps. -/
structure Sound (w : Watch) : Prop where
  hosting : Hosting w.host
  /-- On a server of its own the session is never behind with the phase. -/
  phase : w.host.session.currentPhase = w.host.room.phase
  /-- The flag of a side is down exactly while it is away; it is up before the side has come. -/
  flags : ∀ side, w.host.session.connected side = !(w.presence.get side).isAway

variable {w : Watch}

theorem sound_initial (roomId serverId : String) (hasEventPublisher : Bool) (planningTimeout : Time) :
    (watches roomId serverId hasEventPublisher planningTimeout).start.Sound where
  hosting := hosting_initial _ _ _ _
  phase := (initialRoom_fields roomId).phase.symm
  flags side := by cases side <;> rfl

/-- A turn that changes the flags as its call says keeps them in step with where the sides are. -/
theorem Sound.served (hw : w.Sound) {call : SessionCall} {host : Host} (hhost : Hosting host)
    (hphase : host.session.currentPhase = host.room.phase)
    (hcome : ∀ side isConnected, call.reaches = some (side, isConnected) → ∀ t,
      host.session.connected t = if t = side then isConnected else w.host.session.connected t)
    (hother : call.reaches = none → host.session.connected = w.host.session.connected) :
    (w.served call host).Sound := by
  cases call with
  | onPlayerConnected side now =>
    refine ⟨hhost, hphase, fun t => (hcome side true rfl t).trans ?_⟩
    show _ = !((w.presence.set side .here).get t).isAway
    by_cases heq : t = side
    · rw [if_pos heq, heq, PerSide.get_set_same]
      rfl
    · rw [if_neg heq, PerSide.get_set_of_ne _ heq]
      exact hw.flags t
  | onPlayerDisconnected side =>
    refine ⟨hhost, hphase, fun t => (hcome side false rfl t).trans ?_⟩
    show _ = !((w.presence.update side (·.leave w.clock)).get t).isAway
    by_cases heq : t = side
    · rw [if_pos heq, heq, PerSide.get_update_same]
      cases w.presence.get side <;> rfl
    · rw [if_neg heq, PerSide.get_update_of_ne _ heq]
      exact hw.flags t
  | addPlayer _ _ | forceGameOver | moveUnits _ _ | encounterDecision _ _ _
  | checkAndResolveIfReady _ | planningTimeout _ _ | backupPlanningTimeout _ _
  | getGameState _ | reconnectSync _ _ =>
    exact ⟨hhost, hphase, fun t => (congrFun (hother rfl) t).trans (hw.flags t)⟩

/-- What a turn without the lock leaves of the host. -/
theorem contended_host (hw : w.Sound) (call : SessionCall) :
    Hosting (w.host.nextContended call) ∧ Announces [] w.host (w.host.nextContended call) ∧
      (w.host.nextContended call).room = w.host.room := by
  obtain ⟨hturn, hroom, -⟩ := nextContended_refused hw.hosting.room hw.hosting.quiet call
  exact ⟨⟨hturn.room, hturn.quiet, hturn.announces.numbered hw.hosting.numbered⟩, hturn.announces,
    hroom⟩

theorem served_host (w : Watch) (call : SessionCall) (host : Host) :
    (w.served call host).host = host := by
  cases call <;> rfl

/-- **Every step** keeps the invariant. -/
theorem Sound.next (hw : w.Sound) (call : WatchCall) : (w.next call).Sound := by
  cases call with
  | pass delay => exact ⟨hw.hosting, hw.phase, hw.flags⟩
  | turn call =>
    exact hw.served (hw.hosting.next call) (currentPhase_next hw.hosting.room hw.phase call)
      (fun side isConnected hcall => connected_next_of_reaches w.host call hcall)
      fun hcall => connected_next hw.hosting.room hcall
  | contended call =>
    obtain ⟨hhost, -, hroom⟩ := contended_host hw call
    have hsession := nextContended_session w.host call
    refine hw.served hhost ?_ (fun side isConnected hcall t => ?_) fun hcall => ?_
    · rw [hroom, hsession, ← hw.phase]
      split <;> rfl
    · rw [hsession, hcall]
      exact connected_reached w.host side t isConnected
    · rw [hsession, hcall]
  | fire index =>
    show (w.fire index).Sound
    rw [fire]
    split
    · exact hw
    · exact ⟨hw.hosting, hw.phase, hw.flags⟩
  | force index =>
    show (w.force index).Sound
    rw [force]
    split
    · exact hw
    · exact ⟨hw.hosting.next .forceGameOver, currentPhase_next hw.hosting.room hw.phase _,
        fun side => (congrFun (connected_next hw.hosting.room rfl) side).trans (hw.flags side)⟩
  | giveUp index => exact ⟨hw.hosting, hw.phase, hw.flags⟩

/-! ## The steps that end nothing -/

/-- Only a check ends a game for the reason that a side is away. -/
theorem verdicts_of_turn {h : Host} (hh : Hosting h) {call : SessionCall}
    (hcall : call ≠ .forceGameOver) :
    ∀ e ∈ verdicts (h.raisedBy call), e.reason ≠ .playerDisconnected := by
  intro e he
  rcases next_does hh.room hh.quiet call with ⟨room, hdone⟩ | hidle
  · rw [raisedBy_eq hh.numbered hdone.turn.announces (length_events_le hh.quiet hdone.does)] at he
    cases hdone.does with
    | @join playerId now hr =>
      rcases events_joined_eq hh.quiet playerId (now + h.session.planningTimeout) with
        hnone | ⟨playerA, playerB, hone⟩
      · rw [hnone] at he
        cases he
      · rw [hone] at he
        cases he
    | move hconn hr =>
      rw [events_reserve hh.quiet] at he
      cases he
    | decide hconn hr =>
      rw [verdicts_minor (events_decideEncounter_minor hh.quiet _ _ _).1] at he
      cases he
    | resolve hres =>
      -- a resolution ends a game for a reason of its own
      rw [verdicts_resolved, ProcessingOrder.following, Option.mem_toList] at he
      split at he
      · cases he
        show (if _ then _ else _) ≠ _
        split <;> decide
      · cases he
    | abandon _ _ => exact absurd rfl hcall
  · rw [raisedBy_eq hh.numbered hidle.turn.announces (Nat.zero_le _)] at he
    cases he

/-- A step in which the host announces nothing. -/
theorem raisedBy_quiet (hw : w.Sound) {call : WatchCall} (ha : Announces [] w.host (w.next call).host) :
    w.raisedBy call = [] := by
  rw [raisedBy, getEventsAfter_of_announces hw.hosting.numbered ha (Nat.zero_le _)]
  rfl

/-- The steps that leave the host alone. -/
theorem raisedBy_kept (hw : w.Sound) {call : WatchCall} (hkept : (w.next call).host = w.host) :
    w.raisedBy call = [] := by
  refine raisedBy_quiet hw ?_
  rw [hkept]
  exact Announces.of_same ⟨rfl, rfl, rfl, rfl, rfl⟩ rfl rfl

theorem fire_host (w : Watch) (index : Nat) : (w.next (.fire index)).host = w.host := by
  show (w.fire index).host = w.host
  rw [fire]
  split <;> rfl

/-- On a server of its own, a check passes exactly when its side is away and the game goes on. -/
theorem graceExpired_iff (hw : w.Sound) (side : PlayerSide) :
    w.host.session.graceExpired side = true ↔
      (w.presence.get side).isAway = true ∧ ¬ w.host.room.isOver := by
  have hflag : (w.host.session.playerStates.get side).isConnected = !(w.presence.get side).isAway :=
    hw.flags side
  rw [GameSession.graceExpired, hflag, Bool.not_not, hw.phase, Bool.and_eq_true, decide_eq_true_eq]
  rfl

/-- **The first part of a check is always fair**: it ends nothing, and a side that is away is found. -/
theorem fair_fire (hw : w.Sound) (index : Nat) : w.Fair (.fire index) := by
  have hnone := raisedBy_kept hw (fire_host w index)
  refine ⟨fun e he => ?_, fun i check since hcall hcheck haway hopen => ?_, fun _ _ hcall => ?_,
    fun _ _ hcall => ?_⟩
  · rw [hnone] at he
    cases he
  · cases hcall
    have hpasses : w.host.session.graceExpired check.side = true := by
      refine (graceExpired_iff hw check.side).mpr ⟨?_, hopen⟩
      rw [haway]
      rfl
    show check ∈ (w.fire index).ending
    rw [fire, hcheck]
    show check ∈ if w.host.session.graceExpired check.side then w.ending ++ [check] else w.ending
    rw [if_pos hpasses]
    exact List.mem_append_right _ (List.mem_singleton_self check)
  · cases hcall
  · cases hcall

/-! ## The second part of a check -/

/-- Who is found as a winner is not away. -/
theorem firstConnected_some {states : PerSide PlayerSessionState} {winner : PlayerSide}
    (hfirst : firstConnected states = some winner) : (states.get winner).isConnected = true :=
  List.find?_some (p := fun side => (states.get side).isConnected) hfirst

/-- Without a winner both sides are away. -/
theorem firstConnected_none {states : PerSide PlayerSessionState} (hfirst : firstConnected states = none)
    (side : PlayerSide) : (states.get side).isConnected = false := by
  refine Bool.eq_false_iff.mpr (List.find?_eq_none.mp hfirst side ?_)
  cases side <;> simp

/-- With nobody connected, the search for a winner throws. -/
theorem forceGameOver_throws {h : Host} (hopen : ¬ h.room.isOver)
    (hfirst : firstConnected h.session.playerStates = none) :
    succeeds (reliable.forceGameOver .playerDisconnected) h = false := by
  have heq := forceGameOver_eq h
  rw [if_neg (show ¬ h.room.phase = .gameOver from hopen), hfirst] at heq
  exact succeeds_error heq

/-- With somebody connected the game is over, and the first such side has won. -/
theorem forceGameOver_ends {h : Host} (hh : Hosting h) (hopen : ¬ h.room.isOver) {winner : PlayerSide}
    (hfirst : firstConnected h.session.playerStates = some winner) :
    succeeds (reliable.forceGameOver .playerDisconnected) h = true ∧
      (h.next .forceGameOver).room.isOver ∧
      ∃ e, verdicts (h.raisedBy .forceGameOver) = [e] ∧ e.winner = some winner ∧
        e.reason = .playerDisconnected := by
  have heq := forceGameOver_eq h
  rw [if_neg (show ¬ h.room.phase = .gameOver from hopen), hfirst] at heq
  refine ⟨succeeds_ok heq, ?_⟩
  rcases next_does hh.room hh.quiet .forceGameOver with ⟨room, hdone⟩ | hidle
  · have hraised := raisedBy_eq hh.numbered hdone.turn.announces (length_events_le hh.quiet hdone.does)
    have hsaved := hdone.saved
    cases hdone.does with
    | resolve hres => cases hres
    | abandon hphase hwinner =>
      cases hfirst.symm.trans hwinner
      constructor
      · rw [hsaved]
        rfl
      · rw [hraised, events_forced hh.quiet]
        exact ⟨_, rfl, rfl, rfl⟩
  · exact absurd (.abandon hopen hfirst) (hidle.nothing _)

/-- In a game that is over the second part returns and changes nothing. -/
theorem forceGameOver_late {h : Host} (hh : Hosting h) (hover : h.room.isOver) :
    succeeds (reliable.forceGameOver .playerDisconnected) h = true ∧
      (h.next .forceGameOver).room.isOver ∧
      Announces [] h (h.next .forceGameOver) := by
  have heq := forceGameOver_eq h
  rw [if_pos (show h.room.phase = .gameOver from hover)] at heq
  have hidle := (idle_or_joined hh.room hh.quiet hover .forceGameOver).resolve_right fun hlate =>
    hlate.1 trivial
  refine ⟨succeeds_ok heq, ?_, hidle.2.turn.announces⟩
  rw [hidle.2.kept]
  exact hover

theorem force_host {index : Nat} {check : GraceCheck} (hcheck : w.ending[index]? = some check) :
    (w.next (.force index)).host = w.host.next .forceGameOver := by
  show (w.force index).host = _
  rw [force, hcheck]

theorem raisedBy_force {index : Nat} {check : GraceCheck} (hcheck : w.ending[index]? = some check) :
    w.raisedBy (.force index) = w.host.raisedBy .forceGameOver := by
  rw [raisedBy, force_host hcheck]
  rfl

/-- What is left of fairness once a check has the lock. -/
theorem fair_force_parts {index : Nat} {check : GraceCheck} (hcheck : w.ending[index]? = some check)
    (hforced : ∀ e ∈ verdicts (w.host.raisedBy .forceGameOver), e.reason = .playerDisconnected →
      (∃ side since, w.presence.get side = .away since ∧ since + gracePeriod ≤ w.clock) ∧
        ∀ winner, e.winner = some winner → w.presence.get winner = .here)
    (hok : succeeds (reliable.forceGameOver .playerDisconnected) w.host = true)
    (hover : (w.host.next .forceGameOver).room.isOver) : w.Fair (.force index) := by
  refine ⟨?_, fun _ _ _ hcall => ?_, fun _ _ _ _ => ⟨hok, ?_⟩, fun _ _ hcall => ?_⟩
  · rw [raisedBy_force hcheck]
    exact hforced
  · cases hcall
  · rw [force_host hcheck]
    exact hover
  · cases hcall

/-- **The second part of a check**, in a game that goes on, is fair exactly if a side is deserted. -/
theorem fair_force_iff (hw : w.Sound) {index : Nat} {check : GraceCheck}
    (hcheck : w.ending[index]? = some check) (hopen : ¬ w.host.room.isOver) :
    w.Fair (.force index) ↔ w.Deserted .a ∨ w.Deserted .b := by
  have hdeserted : w.Deserted .a ∨ w.Deserted .b ↔ ∃ side, w.Deserted side := by
    constructor
    · rintro (ha | hb)
      · exact ⟨.a, ha⟩
      · exact ⟨.b, hb⟩
    · rintro ⟨side, hside⟩
      cases side with
      | a => exact .inl hside
      | b => exact .inr hside
  rw [hdeserted]
  rcases hfirst : firstConnected w.host.session.playerStates with _ | winner
  · -- both sides are away, and nobody can have been deserted
    refine iff_of_false (fun hfair => ?_) ?_
    · have hok := (hfair.ended index check rfl hcheck).1
      rw [forceGameOver_throws hopen hfirst] at hok
      cases hok
    · rintro ⟨side, -, henemy⟩
      have hflag : w.host.session.connected side.enemy = false := firstConnected_none hfirst side.enemy
      rw [hw.flags, henemy] at hflag
      cases hflag
  obtain ⟨hok, hover, e, hverdict, hwinner, hreason⟩ := forceGameOver_ends hw.hosting hopen hfirst
  have hthere : (w.presence.get winner).isAway = false := by
    have hflag : w.host.session.connected winner = true := firstConnected_some hfirst
    rwa [hw.flags, Bool.not_eq_true'] at hflag
  -- so the side that has stayed away is not the winner
  have hloser : ∀ {side since}, w.presence.get side = .away since → winner = side.enemy := by
    intro side since haway
    refine PlayerSide.ne_iff_eq_enemy.mp fun heq => ?_
    rw [heq, haway] at hthere
    cases hthere
  constructor
  · intro hfair
    obtain ⟨⟨side, since, haway, hlong⟩, hhere⟩ := hfair.forced e
      (by rw [raisedBy_force hcheck, hverdict]; exact List.mem_singleton_self e) hreason
    refine ⟨side, ⟨since, ?_, hlong⟩, ?_⟩
    · rw [haway]
      rfl
    · rw [← hloser haway]
      exact hhere winner hwinner
  · rintro ⟨side, ⟨since, hsince, hlong⟩, henemy⟩
    have haway : w.presence.get side = .away since := by
      rcases hpresence : w.presence.get side with _ | _ | since' <;> rw [hpresence] at hsince <;>
        cases hsince
      rfl
    refine fair_force_parts hcheck (fun e' he' _ => ⟨⟨side, since, haway, hlong⟩, fun t ht => ?_⟩) hok
      hover
    rw [hverdict] at he'
    cases List.mem_singleton.mp he'
    cases hwinner.symm.trans ht
    rw [hloser haway]
    exact henemy

/-! ## One step -/

/-- A step that raises no such end, and neither is nor ends a check. -/
theorem fair_of_quiet {call : WatchCall}
    (hnone : ∀ e ∈ verdicts (w.raisedBy call), e.reason ≠ .playerDisconnected)
    (hfire : ∀ index, call ≠ .fire index)
    (hforce : ∀ index, call = .force index → w.ending[index]? = none)
    (hgiveUp : ∀ index, call = .giveUp index → w.ending[index]? = none) : w.Fair call := by
  refine ⟨fun e he hreason => absurd hreason (hnone e he), fun index _ _ hcall => absurd hcall
    (hfire index),
    fun index check hcall hcheck => ?_, fun index check hcall hcheck => ?_⟩
  · rw [hforce index hcall] at hcheck
    cases hcheck
  · rw [hgiveUp index hcall] at hcheck
    cases hcheck

/-- **One step** is fair exactly if it is timely. -/
theorem fair_iff (hw : w.Sound) {call : WatchCall} (hlegal : w.Legal call) :
    w.Fair call ↔ w.Timely call := by
  have hempty : w.raisedBy call = [] →
    ∀ e ∈ verdicts (w.raisedBy call), e.reason ≠ .playerDisconnected := by
    intro hnone e he
    rw [hnone] at he
    cases he
  cases call with
  | pass delay =>
    exact iff_of_true (fair_of_quiet (hempty (raisedBy_kept hw rfl)) nofun nofun nofun) trivial
  | turn call =>
    refine iff_of_true (fair_of_quiet ?_ nofun nofun nofun) trivial
    have hraised : w.raisedBy (.turn call) = w.host.raisedBy call := by
      rw [raisedBy, show (w.next (.turn call)).host = _ from served_host w call (w.host.next call)]
      rfl
    rw [hraised]
    exact verdicts_of_turn hw.hosting hlegal.2
  | contended call =>
    refine iff_of_true (fair_of_quiet (hempty (raisedBy_quiet hw ?_)) nofun nofun nofun) trivial
    rw [show (w.next (.contended call)).host = _ from served_host w call (w.host.nextContended call)]
    exact (contended_host hw call).2.1
  | fire index => exact iff_of_true (fair_fire hw index) trivial
  | force index =>
    rcases hcheck : w.ending[index]? with _ | check
    · have hkept : (w.next (.force index)).host = w.host := by
        show (w.force index).host = _
        rw [force, hcheck]
      refine iff_of_true (fair_of_quiet (hempty (raisedBy_kept hw hkept)) nofun (fun i hi => ?_) nofun)
        fun check hc => ?_
      · cases hi
        exact hcheck
      · rw [hcheck] at hc
        cases hc
    have htimely : w.Timely (.force index) ↔
        (¬ w.host.room.isOver → w.Deserted .a ∨ w.Deserted .b) := by
      show (∀ _check ∈ w.ending[index]?, _) ↔ _
      rw [hcheck]
      exact ⟨fun h => h check rfl, fun h _ _ => h⟩
    rw [htimely]
    by_cases hover : w.host.room.isOver
    · -- whoever comes too late finds the game over
      refine iff_of_true ?_ fun hopen => absurd hover hopen
      obtain ⟨hok, hstays, hquiet⟩ := forceGameOver_late hw.hosting hover
      refine fair_force_parts hcheck (fun e he => ?_) hok hstays
      rw [raisedBy_eq hw.hosting.numbered hquiet (Nat.zero_le _)] at he
      cases he
    · rw [fair_force_iff hw hcheck hover]
      exact ⟨fun h _ => h, fun h => h hover⟩
  | giveUp index =>
    have hkept : (w.next (.giveUp index)).host = w.host := rfl
    have hnone := hempty (raisedBy_kept hw hkept)
    constructor
    · intro hfair check hcheck
      exact hfair.kept index check rfl hcheck
    · intro htimely
      refine ⟨fun e he hreason => absurd hreason (hnone e he), nofun, nofun, fun i check hi hcheck => ?_⟩
      cases hi
      exact htimely check hcheck

end Watch

/-! ## Every run -/

theorem steps_fair_iff {roomId serverId : String} {hasEventPublisher : Bool} {planningTimeout : Time}
    {w : Watch} (hw : w.Sound) {calls : List WatchCall}
    (hrun : (watches roomId serverId hasEventPublisher planningTimeout).Steps Watch.Legal w calls) :
    (watches roomId serverId hasEventPublisher planningTimeout).Steps Watch.Fair w calls ↔
      (watches roomId serverId hasEventPublisher planningTimeout).Steps Watch.Timely w calls := by
  refine Machine.steps_iff (I := Watch.Sound) ?_ ?_ hw hrun
  · intro w call hw _
    exact hw.next call
  · intro w call hw hlegal
    exact Watch.fair_iff hw hlegal

/-- **Games are ended by force rightly along a run exactly if every check that gets the lock comes in
    time**, and none that waits is refused it. -/
theorem forced_end_iff (roomId serverId : String) (hasEventPublisher : Bool) (planningTimeout : Time)
    (calls : List WatchCall)
    (hrun : (watches roomId serverId hasEventPublisher planningTimeout).Run calls) :
    (watches roomId serverId hasEventPublisher planningTimeout).Steps Watch.Fair
        (watches roomId serverId hasEventPublisher planningTimeout).start calls ↔
      (watches roomId serverId hasEventPublisher planningTimeout).Steps Watch.Timely
        (watches roomId serverId hasEventPublisher planningTimeout).start calls :=
  steps_fair_iff (Watch.sound_initial _ _ _ _) hrun

/-- A server on its own, watched. -/
abbrev watchedAlone : Machine Watch WatchCall := watches "room" "s1" false 30000

instance (w : Watch) (call : WatchCall) : Decidable (watchedAlone.Legal w call) :=
  inferInstanceAs (Decidable (w.Legal call))

/-- Two players join, and both come. -/
def bothHereCalls : List WatchCall :=
  [.turn (.addPlayer ⟨"alice"⟩ 0), .turn (.addPlayer ⟨"bob"⟩ 0), .turn (.onPlayerConnected .a 0),
    .turn (.onPlayerConnected .b 0)]

/-- Then both lose their connection at once. -/
def bothAwayCalls : List WatchCall := bothHereCalls ++
  [.turn (.onPlayerDisconnected .a), .turn (.onPlayerDisconnected .b), .pass 15000, .fire 0, .force 0]

theorem forced_end_iff_bothAway : watchedAlone.Run bothAwayCalls ∧
    (watchedAlone.Steps Watch.Fair watchedAlone.start bothAwayCalls ↔
      watchedAlone.Steps Watch.Timely watchedAlone.start bothAwayCalls) := by
  have hrun : watchedAlone.Run bothAwayCalls := by decide +kernel
  exact ⟨hrun, forced_end_iff "room" "s1" false 30000 bothAwayCalls hrun⟩

/-- A side that left, came back and left again one second ago. -/
def leftAgainCalls : List WatchCall := bothHereCalls ++
  [.turn (.onPlayerDisconnected .a), .pass 5000, .turn (.onPlayerConnected .a 5000), .pass 9000,
    .turn (.onPlayerDisconnected .a), .pass 1000, .fire 0, .force 0]

/-- A side that comes back while its check waits for the lock. -/
def backInTimeCalls : List WatchCall := bothHereCalls ++
  [.turn (.onPlayerDisconnected .b), .pass 15000, .fire 0, .turn (.onPlayerConnected .b 15000), .force 0]

/-- With both players away the check throws and the game goes on; a player who has been away for one
    second loses to a check of an earlier absence; and a player who is back loses to a check that has
    waited for the lock. -/
theorem forced_end_unfair :
    (watchedAlone.Run bothAwayCalls ∧
      ¬ watchedAlone.Steps Watch.Fair watchedAlone.start bothAwayCalls) ∧
    (watchedAlone.Run leftAgainCalls ∧
      ¬ watchedAlone.Steps Watch.Fair watchedAlone.start leftAgainCalls) ∧
    watchedAlone.Run backInTimeCalls ∧
      ¬ watchedAlone.Steps Watch.Fair watchedAlone.start backInTimeCalls := by
  have hstart : watchedAlone.start.Sound := Watch.sound_initial _ _ _ _
  have hboth : watchedAlone.Run bothAwayCalls := by decide +kernel
  have hagain : watchedAlone.Run leftAgainCalls := by decide +kernel
  have hback : watchedAlone.Run backInTimeCalls := by decide +kernel
  refine ⟨⟨hboth, ?_⟩, ⟨hagain, ?_⟩, hback, ?_⟩
  · rw [steps_fair_iff hstart hboth]
    decide +kernel
  · rw [steps_fair_iff hstart hagain]
    decide +kernel
  · rw [steps_fair_iff hstart hback]
    decide +kernel

end HexWar
