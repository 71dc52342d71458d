/-
  When a round is closed before its deadline.

  A server closes the round when both sides count as complete: they have used their units, or have
  none to move, or their flag says so.  The flag is a server's own.  A move of the round writes it, on
  the server that carries the move out, and it is cleared when the round is resolved: on the resolving
  server at once, and on every other one when the RoundResolved message arrives.  Until then it is left
  over from a round that is over, and so it stays if the message is lost.

  `Flagging` is a cluster that also keeps which flags a move of the current round has written.  The
  invariant (`Attentive`) has a part for each of the two kinds of flag.

  1. A flag of the current round says that its side has no units left: a move sets it only then, and
     within a round the units that are left only get fewer (`remaining_left`).
  2. A flag of an earlier round is there only while a RoundResolved of another server still waits for
     its server: whoever resolves a round tells all the others in the same turn.

  `early_resolution_safe` draws the conclusion: a round is never closed early on a side that could still
  move, if no server counts a flag of an earlier round; and none does that has been told of the end of
  the last round.
-/
import HexWar.Session.Servers
import Mathlib.Algebra.Order.BigOperators.Group.List

namespace HexWar

open Lib Lib.Action GameRoom

/-! ## The properties -/

/-- A side can do nothing more in this round: it has used its units, or has none to move. -/
def GameRoom.Spent (room : GameRoom) (side : PlayerSide) : Prop :=
  room.getRemainingUnits side ≤ 0 ∨ ∀ n ∈ room.nodes.values, n.getMobileCount side = 0

instance (room : GameRoom) (side : PlayerSide) : Decidable (room.Spent side) :=
  inferInstanceAs (Decidable (_ ∨ _))

/-- The flag that a side has completed its moves. -/
def GameSession.completed (s : GameSession) (side : PlayerSide) : Bool :=
  (s.playerStates.get side).moveCommandCompleted

namespace Cluster

/-- Has a server still to be told, by another one, that a round is over? -/
def Awaits (c : Cluster) (id : String) : Prop :=
  ∃ d ∈ c.inFlight, d.1 = id ∧ d.2.sourceServerId ≠ id ∧ d.2.event.completedRound.isSome = true

instance (c : Cluster) (id : String) : Decidable (c.Awaits id) :=
  inferInstanceAs (Decidable (∃ d ∈ _, _))

/-- **A round is closed early only when nobody can move any more.** -/
def ClosesSpent (c : Cluster) : ClusterCall → Prop
  | .turn id (.checkAndResolveIfReady now) => ∀ s, c.servers.get? id = some s →
      (∃ room now', Resolves (s.host c.room) (.checkAndResolveIfReady now) room now') →
        ∀ side, c.room.Spent side
  | _ => True

/-- Is a call the check of a server that finds both sides complete?  Then it closes the round early. -/
def closesEarly (c : Cluster) (id : String) : SessionCall → Bool
  | .checkAndResolveIfReady now => c.carriesOut (.turn id (.checkAndResolveIfReady now))
  | _ => false

/-- A server that closes a round early has been told of the end of the last round. -/
def Told (c : Cluster) : ClusterCall → Prop
  | .turn id call => c.closesEarly id call = true → ¬ c.Awaits id
  | .hydrate _ | .deliver _ _ | .connect _ | .disconnect => True

instance (c : Cluster) : DecidablePred c.Told
  | .turn _ _ => inferInstanceAs (Decidable (_ → _))
  | .hydrate _ | .deliver _ _ | .connect _ | .disconnect => .isTrue trivial

end Cluster

/-- The servers of a room, and the flags that a move of the current round has written: each with its
    server and its side. -/
structure Flagging where
  /-- The servers, -/
  cluster : Cluster
  /-- and the flags that this round's moves have set. -/
  written : List (String × PlayerSide)

namespace Flagging

/-- The flags of the current round after a turn that is carried out: a move adds one, and with a
    resolution a new round begins. -/
def writtenBy (f : Flagging) (id : String) : SessionCall → List (String × PlayerSide)
  | .moveUnits side _ => (id, side) :: f.written
  | .checkAndResolveIfReady _ | .planningTimeout _ _ | .backupPlanningTimeout _ _ => []
  | .addPlayer _ _ | .onPlayerConnected _ _ | .onPlayerDisconnected _ | .forceGameOver
  | .encounterDecision _ _ _ | .getGameState _ | .reconnectSync _ _ => f.written

/-- The flags of the current round after a call. -/
def writes (f : Flagging) : ClusterCall → List (String × PlayerSide)
  | .turn id call =>
    if f.cluster.carriesOut (.turn id call) then f.writtenBy id call else f.written
  | .hydrate _ | .deliver _ _ | .connect _ | .disconnect => f.written

/-- A step of the servers, and what it does to the list. -/
def next (planningTimeout : Time) (f : Flagging) (call : ClusterCall) : Flagging :=
  ⟨f.cluster.next planningTimeout call, f.writes call⟩

/-- **No flag of an earlier round is counted**: a server that closes a round early has only flags that a
    move of this round has written. -/
def Fresh (f : Flagging) : ClusterCall → Prop
  | .turn id call => f.cluster.closesEarly id call = true →
      ∀ s ∈ f.cluster.servers.get? id, ∀ side ∈ [PlayerSide.a, .b],
        s.session.completed side = true → (id, side) ∈ f.written
  | .hydrate _ | .deliver _ _ | .connect _ | .disconnect => True

instance (f : Flagging) : DecidablePred f.Fresh
  | .turn _ _ => inferInstanceAs (Decidable (_ → ∀ s ∈ _, _))
  | .hydrate _ | .deliver _ _ | .connect _ | .disconnect => .isTrue trivial

end Flagging

/-- The servers of one room with their flags, under any steps. -/
def flaggings (roomId serverId : String) (planningTimeout : Time) (side : PlayerSide) :
    Machine Flagging ClusterCall :=
  ⟨⟨Cluster.initial roomId serverId planningTimeout side, []⟩, Flagging.next planningTimeout,
    fun _ _ => True⟩

/-! ## The flags

What each part of a turn does to the flag of a side. -/

/-- Writing another field of a side's state, -/
theorem completed_update (s : GameSession) (side : PlayerSide)
    {f : PlayerSessionState → PlayerSessionState}
    (hf : ∀ p, (f p).moveCommandCompleted = p.moveCommandCompleted) :
    (s.updatePlayer side f).completed = s.completed := by
  funext t
  cases side <;> cases t <;> first | rfl | exact hf _

/-- a new round clears them, -/
theorem completed_reset (s : GameSession) (side : PlayerSide) :
    s.resetForNewRound.completed side = false := by
  cases side <;> rfl

/-- starting the timer -/
theorem completed_startPlanningTimer (s : GameSession) (forRound : Int) (deadline : Option Time)
    (now : Time) : (s.startPlanningTimer forRound deadline now).completed = s.completed := by
  rw [GameSession.startPlanningTimer]
  split <;> rfl

/-- in the turn that resolves the last one as well. -/
theorem completed_opened (s : GameSession) (gameOver : Bool) (deadline : Time) (currentRound : Int)
    (now : Time) (side : PlayerSide) :
    (s.opened gameOver deadline currentRound now).completed side = false := by
  rw [GameSession.opened]
  split
  · exact completed_reset s side
  · rw [completed_startPlanningTimer]
    exact completed_reset s side

/-- and a first connection leave the flags alone; -/
theorem completed_timed (h : Host) (now : Time) :
    (h.timed now).session.completed = h.session.completed := by
  rw [Host.timed]
  show GameSession.completed (if _ then _ else _) = _
  split
  · exact completed_startPlanningTimer _ _ _ _
  · rfl

/-- A message leaves a flag set only if it was set, and does not end a round. -/
theorem completed_aligned {s : GameSession} {m : DistributedEventMessage} {now : Time}
    {side : PlayerSide} (hset : (s.aligned m now).completed side = true) :
    s.completed side = true ∧ m.event.completedRound = none := by
  rw [GameSession.aligned] at hset
  -- A RoundResolved and a RoundStarted clear the flags; the other messages do not look at them.
  split at hset
  · rw [completed_startPlanningTimer] at hset
    exact absurd hset (Bool.eq_false_iff.mp (completed_reset _ side))
  · rename_i started hevent
    rw [completed_startPlanningTimer] at hset
    rw [hevent]
    exact ⟨hset, rfl⟩
  · rw [completed_startPlanningTimer] at hset
    exact absurd hset (Bool.eq_false_iff.mp (completed_reset _ side))
  · rename_i e hevent
    rw [hevent]
    exact ⟨hset, rfl⟩
  · rename_i hno _ _ _
    refine ⟨hset, ?_⟩
    rw [DomainEvent.completedRound]
    exact hno

/-! ## What is left of a round

The units that a side may still move are counted in the room, which all servers share. -/

/-- A turn that resolves nothing leaves no side more units. -/
theorem remaining_left {h : Host} {call : SessionCall} {room : GameRoom} {s : GameSession}
    (hleaves : Leaves h call room s) : (∃ ready now, Resolves h call ready now) ∨
      ∀ side, room.getRemainingUnits side ≤ h.room.getRemainingUnits side := by
  cases hleaves with
  | connect | disconnect | refuse _ _ | look _ _ => exact .inr fun side => Int.le_refl _
  | @join playerId now hr =>
    refine .inr fun side => Int.le_of_eq ?_
    have hused : (h.room.joined playerId (now + h.session.planningTimeout)).unitUsedThisRound =
        h.room.unitUsedThisRound := (joined_frame _ _ _).used
    exact congrArg (fun used : PerSide Int => maxUnitsPerPlayer - used.get side) hused
  | @move side command hconn hr =>
    refine .inr fun t => ?_
    have hpos := (moveRefusal_none (moveRefusal_of_session hr).2.2).2.1
    show maxUnitsPerPlayer - (h.room.unitUsedThisRound.update side _).get t ≤
      maxUnitsPerPlayer - h.room.unitUsedThisRound.get t
    rcases em (t = side) with rfl | hne
    · rw [PerSide.get_update_same]
      omega
    · rw [PerSide.get_update_of_ne _ hne]
  | @decide side edgeId decision hconn hr =>
    refine .inr fun t => Int.le_of_eq ?_
    rw [decideEncounter]
    split <;> rfl
  | resolve hres => exact .inl ⟨_, _, hres⟩
  | abandon _ _ => exact .inr fun side => Int.le_refl _

/-- A turn that neither closes the round nor carries out a move of a side leaves its flag alone. -/
def Host.LeavesFlag (h : Host) (call : SessionCall) (side : PlayerSide) : Prop :=
  (∀ ready now, ¬ Resolves h call ready now) ∧
    ∀ command, call = .moveUnits side command → h.raises call = false

/-- **A flag that is set** was set before, and the turn has left it alone; or a move of its side has just
    set it, because nothing is left to the side. -/
theorem completed_left {h : Host} {call : SessionCall} {room : GameRoom} {s : GameSession}
    (hleaves : Leaves h call room s) {side : PlayerSide} (hset : s.completed side = true) :
    (h.session.completed side = true ∧ h.LeavesFlag call side) ∨
      ∃ command, call = .moveUnits side command ∧ h.raises call = true ∧
        room.getRemainingUnits side ≤ 0 := by
  have hquiet : call.mayResolve = false → (∀ command, call ≠ .moveUnits side command) →
      h.LeavesFlag call side := by
    refine fun hmay hmove => ⟨fun ready now hres => ?_, fun command heq => absurd heq (hmove command)⟩
    cases hres <;> cases hmay
  -- a turn that does nothing carries out no move
  have hidle : (∀ room, ¬ Does h call room) → h.LeavesFlag call side := by
    refine fun hno => ⟨fun ready now hres => hno _ (.resolve hres), ?_⟩
    rintro command rfl
    refine Bool.eq_false_iff.mpr fun hraises => ?_
    obtain ⟨hconn, hr⟩ := Bool.and_eq_true_iff.mp hraises
    exact hno _ (.move hconn (Option.isNone_iff_eq_none.mp hr))
  cases hleaves with
  | @connect t now =>
    rw [completed_timed] at hset
    refine .inl ⟨?_, hquiet rfl (by rintro _ ⟨⟩)⟩
    rw [← congrFun (completed_update h.session t (f := fun p => { p with isConnected := true })
      fun _ => rfl) side]
    exact hset
  | @disconnect t =>
    refine .inl ⟨?_, hquiet rfl (by rintro _ ⟨⟩)⟩
    rw [← congrFun (completed_update h.session t (f := fun p => { p with isConnected := false })
      fun _ => rfl) side]
    exact hset
  | refuse hno _ | look hno _ => exact .inl ⟨hset, hidle hno⟩
  | join hr => exact .inl ⟨hset, hquiet rfl (by rintro _ ⟨⟩)⟩
  | @move t command hconn hr =>
    rcases em (side = t) with rfl | hne
    · -- the flag was written because nothing is left
      have hflag : (h.session.afterMove (h.room.reserve side (h.room.adjusted side command))
          side).completed side =
          decide ((h.room.reserve side (h.room.adjusted side command)).getRemainingUnits side ≤ 0) := by
        cases side <;> rfl
      refine .inr ⟨command, rfl, ?_, of_decide_eq_true (hflag.symm.trans hset)⟩
      rw [Host.raises, hconn, hr]
      rfl
    · have hsame : (h.session.afterMove (h.room.reserve t (h.room.adjusted t command)) t).completed
          side = h.session.completed side := by
        rw [GameSession.afterMove, GameSession.completed, GameSession.updatePlayer,
          PerSide.get_update_of_ne _ hne]
        rfl
      refine .inl ⟨hsame.symm.trans hset, hquiet rfl ?_⟩
      rintro _ ⟨⟩
      exact hne rfl
  | @decide t edgeId decision hconn hr =>
    have hsame := congrFun (completed_update h.session t (f := fun p =>
      { p with encounterDecisionsCompleted :=
          ((h.room.decideEncounter edgeId t decision).getUndecidedEncounters t).isEmpty })
      fun _ => rfl) side
    exact .inl ⟨hsame.symm.trans hset, hquiet rfl (by rintro _ ⟨⟩)⟩
  | resolve hres =>
    rw [GameSession.afterRound, completed_opened] at hset
    cases hset
  | abandon _ _ => exact .inl ⟨hset, hquiet rfl (by rintro _ ⟨⟩)⟩

/-! ## The invariant

The list is kept beside the cluster: no server could say which of its flags is of this round. -/

variable {c : Cluster} {f : Flagging}

/-- Without a resolution the flags of the round stay what they were. -/
theorem mem_writes {call : ClusterCall} {e : String × PlayerSide} (he : e ∈ f.written)
    (hno : ∀ id turn, call = .turn id turn → ∀ s, f.cluster.servers.get? id = some s →
      ∀ ready now, ¬ Resolves (s.host f.cluster.room) turn ready now) : e ∈ f.writes call := by
  cases call with
  | hydrate _ | deliver _ _ | connect _ | disconnect => exact he
  | turn id turn =>
    rw [Flagging.writes]
    split
    swap
    · exact he
    rename_i hout
    rcases hget : f.cluster.servers.get? id with _ | s
    · rw [Cluster.carriesOut, hget] at hout
      cases hout
    have hraises := (carriesOut_iff hget turn).mp hout
    have hclosed : turn.mayResolve = true → False := fun hmay => by
      obtain ⟨ready, now, hres⟩ := (raises_iff_resolves hmay).mp hraises
      exact hno id turn rfl s hget ready now hres
    cases turn with
    | moveUnits side command => exact List.mem_cons_of_mem _ he
    | checkAndResolveIfReady _ | planningTimeout _ _ | backupPlanningTimeout _ _ =>
      exact (hclosed rfl).elim
    | addPlayer _ _ | onPlayerConnected _ _ | onPlayerDisconnected _ | forceGameOver
    | encounterDecision _ _ _ | getGameState _ | reconnectSync _ _ => exact he

/-- What is written after a call was written before, and the round still lasts; or the call is a move
    that has written it. -/
theorem of_mem_writes {call : ClusterCall} {e : String × PlayerSide} (he : e ∈ f.writes call) :
    (e ∈ f.written ∧ ∀ id turn, call = .turn id turn → ∀ s, f.cluster.servers.get? id = some s →
        ∀ ready now, ¬ Resolves (s.host f.cluster.room) turn ready now) ∨
      ∃ command, call = .turn e.1 (.moveUnits e.2 command) ∧ f.cluster.carriesOut call = true := by
  cases call with
  | hydrate _ | deliver _ _ | connect _ | disconnect => exact .inl ⟨he, nofun⟩
  | turn id turn =>
    have hquiet : turn.mayResolve = false → ∀ id' turn', ClusterCall.turn id turn = .turn id' turn' →
        ∀ s, f.cluster.servers.get? id' = some s →
          ∀ ready now, ¬ Resolves (s.host f.cluster.room) turn' ready now := by
      rintro hmay _ _ ⟨⟩ s - ready now hres
      cases hres <;> cases hmay
    rw [Flagging.writes] at he
    split at he
    · rename_i hout
      cases turn with
      | moveUnits side command =>
        rcases List.mem_cons.mp he with rfl | hold
        · exact .inr ⟨command, rfl, hout⟩
        · exact .inl ⟨hold, hquiet rfl⟩
      | checkAndResolveIfReady _ | planningTimeout _ _ | backupPlanningTimeout _ _ => cases he
      | addPlayer _ _ | onPlayerConnected _ _ | onPlayerDisconnected _ | forceGameOver
      | encounterDecision _ _ _ | getGameState _ | reconnectSync _ _ => exact .inl ⟨he, hquiet rfl⟩
    · rename_i hout
      refine .inl ⟨he, ?_⟩
      rintro _ _ ⟨⟩ s hget ready now hres
      have hmay : turn.mayResolve = true := by cases hres <;> rfl
      exact hout ((carriesOut_iff hget turn).mpr ((raises_iff_resolves hmay).mpr ⟨_, _, hres⟩))

/-- What the flags say, by the round in which they were written. -/
structure Attentive (f : Flagging) : Prop where
  /-- What holds of every reachable cluster. -/
  consistent : Consistent f.cluster
  /-- Within its round a flag says that nothing is left to its side. -/
  fresh : ∀ id s side, f.cluster.servers.get? id = some s → s.session.completed side = true →
    (id, side) ∈ f.written → f.cluster.room.getRemainingUnits side ≤ 0
  /-- A flag of an earlier round waits for the message that clears it. -/
  leftOver : ∀ id s side, f.cluster.servers.get? id = some s → s.session.completed side = true →
    (id, side) ∉ f.written → f.cluster.Awaits id

variable {planningTimeout : Time}

/-- A server goes on waiting until the message is delivered to it. -/
theorem awaits_next {call : ClusterCall} {id : String} (ha : c.Awaits id)
    (hstay : ∀ index now m, call = .deliver index now → c.inFlight[index]? = some (id, m) →
      m.sourceServerId ≠ id → m.event.completedRound = none) :
    (c.next planningTimeout call).Awaits id := by
  obtain ⟨d, hd, rfl, hother, hround⟩ := ha
  refine ⟨d, inFlight_next hd fun index now hcall hflight => ?_, rfl, hother, hround⟩
  rw [hstay index now d.2 hcall hflight hother] at hround
  cases hround

/-- A turn that resolves a round leaves a message for every other server. -/
theorem awaits_of_resolves (hc : Consistent c) {id k : String} {turn : SessionCall} {s t : Server}
    (hget : c.servers.get? id = some s) (hk : c.servers.get? k = some t) (hne : id ≠ k)
    {ready : GameRoom} {now : Time} (hres : Resolves (s.host c.room) turn ready now) :
    (c.next planningTimeout (.turn id turn)).Awaits k := by
  obtain ⟨m, hm, hsource, hevent⟩ := published_of_resolves (hc.servers id s hget) hc.room hres
  refine ⟨(k, m), inFlight_turn hget turn hm hk, rfl, ?_, ?_⟩
  · rw [hsource]
    exact hne
  · rw [hevent]
    rfl

/-- While the round lasts, the units that are left only get fewer. -/
theorem remaining_next (hc : Consistent c) {call : ClusterCall}
    (hno : ∀ id turn, call = .turn id turn → ∀ s, c.servers.get? id = some s →
      ∀ ready now, ¬ Resolves (s.host c.room) turn ready now) (side : PlayerSide) :
    (c.next planningTimeout call).room.getRemainingUnits side ≤ c.room.getRemainingUnits side := by
  by_cases hother : ∃ id turn, call = .turn id turn
  · obtain ⟨id, turn, rfl⟩ := hother
    rcases hget : c.servers.get? id with _ | s
    · have hsame : c.next planningTimeout (.turn id turn) = c := turn_unknown hget turn
      rw [hsame]
    obtain ⟨room, s', hl⟩ := next_leaves (h := s.host c.room) hc.room turn
    have hsaved : (c.next planningTimeout (.turn id turn)).room = room := by
      show (c.turn id turn).room = room
      rw [turn_eq hget]
      exact hl.room
    rw [hsaved]
    refine (remaining_left hl.leaves).resolve_left ?_ side
    rintro ⟨ready, now, hres⟩
    exact hno id turn rfl s hget ready now hres
  · rw [(c.next_frame planningTimeout fun id turn heq => hother ⟨id, turn, heq⟩).1]

/-- How a flag comes to be set on a server: it was set there before, and a turn of the server has left it
    alone, nor has a message about the end of a round reached it; or a move has set it. -/
theorem completed_next (hc : Consistent c) {call : ClusterCall} {k : String} {t : Server}
    (hk : (c.next planningTimeout call).servers.get? k = some t) {side : PlayerSide}
    (hset : t.session.completed side = true) :
    (∃ s, c.servers.get? k = some s ∧ s.session.completed side = true ∧
        (∀ turn, call = .turn k turn → (s.host c.room).LeavesFlag turn side) ∧
        ∀ index now m, call = .deliver index now → c.inFlight[index]? = some (k, m) →
          m.sourceServerId ≠ k → m.event.completedRound = none) ∨
      ∃ command, call = .turn k (.moveUnits side command) ∧ c.carriesOut call = true ∧
        (c.next planningTimeout call).room.getRemainingUnits side ≤ 0 := by
  have htouched := server_next hc hk
  generalize t.session = session at htouched hset
  cases htouched with
  | @kept _ _ s hget hturn hown =>
    refine .inl ⟨s, hget, hset, fun turn heq => absurd heq (hturn turn), ?_⟩
    intro index now m hcall hflight hother
    exact absurd (hown index now m hcall hflight) hother
  | hydrated hget => cases side <;> cases hset
  | @turned _ turn s hget =>
    obtain ⟨room, s', hl⟩ := next_leaves (h := s.host c.room) hc.room turn
    rw [congr_bare GameSession.completed (fun _ => rfl) hl.session] at hset
    rcases completed_left hl.leaves hset with ⟨hwas, hleft⟩ | ⟨command, rfl, hraises, hnone⟩
    · refine .inl ⟨s, hget, hwas, fun turn' heq => ?_, fun _ _ _ heq => by cases heq⟩
      obtain rfl := (ClusterCall.turn.inj heq).2
      exact hleft
    · refine .inr ⟨command, rfl, (carriesOut_iff hget _).mpr hraises, ?_⟩
      have hsaved : (c.turn k (.moveUnits side command)).room = room := by
        rw [turn_eq hget]
        exact hl.room
      show (c.turn k _).room.getRemainingUnits side ≤ 0
      rw [hsaved]
      exact hnone
  | @delivered index now _ m s hflight hget hother =>
    obtain ⟨hwas, hno⟩ := @completed_aligned s.session m now side hset
    refine .inl ⟨s, hget, hwas, nofun, ?_⟩
    rintro _ _ m' ⟨⟩ hm' -
    rw [hflight] at hm'
    cases hm'
    exact hno

/-- **Every step** keeps the flags accounted for. -/
theorem Attentive.next (ha : Attentive f) (call : ClusterCall) :
    Attentive (f.next planningTimeout call) := by
  have hc := ha.consistent
  refine ⟨hc.next planningTimeout call, fun k t side hk hset hmem => ?_, fun k t side hk hset hmem => ?_⟩
  · rcases completed_next hc hk hset with ⟨s, hget, hwas, hturn, -⟩ | ⟨_, -, -, hnone⟩
    swap
    · exact hnone
    rcases of_mem_writes hmem with ⟨hold, hno⟩ | ⟨command, rfl, hout⟩
    · exact Int.le_trans (remaining_next hc hno side) (ha.fresh k s side hget hwas hold)
    · -- a move that writes the flag does not leave it alone
      have hraises := (carriesOut_iff hget _).mp hout
      rw [(hturn _ rfl).2 command rfl] at hraises
      cases hraises
  · rcases completed_next hc hk hset with ⟨s, hget, hwas, hturn, hstay⟩ | ⟨command, rfl, hout, -⟩
    swap
    · refine absurd ?_ hmem
      show (k, side) ∈ f.writes (.turn k (.moveUnits side command))
      rw [Flagging.writes, if_pos hout]
      exact List.mem_cons_self
    by_cases hres : ∃ id turn s' ready now, call = .turn id turn ∧
        f.cluster.servers.get? id = some s' ∧ Resolves (s'.host f.cluster.room) turn ready now
    · -- another server has closed the round, and this one has still to be told
      obtain ⟨id, turn, s', ready, now, rfl, hget', hres⟩ := hres
      show (f.cluster.next planningTimeout _).Awaits k
      refine awaits_of_resolves hc hget' hget ?_ hres
      rintro rfl
      cases hget.symm.trans hget'
      exact (hturn turn rfl).1 ready now hres
    · refine awaits_next (ha.leftOver k s side hget hwas fun hold => hmem ?_) hstay
      exact mem_writes hold fun id turn heq s' hget' ready now hr =>
        hres ⟨id, turn, s', ready, now, heq, hget', hr⟩

/-- At the start no flag is set. -/
theorem attentive_initial (roomId serverId : String) (planningTimeout : Time) (side : PlayerSide) :
    Attentive (flaggings roomId serverId planningTimeout side).start := by
  have hdown : ∀ id s t, (Cluster.initial roomId serverId planningTimeout side).servers.get? id =
    some s →
      s.session.completed t ≠ true := by
    intro id s t hget
    replace hget : _ = some s := (Dict.get?_set _ _ _ _).symm.trans hget
    split at hget
    · cases hget
      cases t <;> exact Bool.false_ne_true
    · cases hget
  exact ⟨consistent_initial _ _ _ _, fun id s t hget hset => absurd hset (hdown id s t hget),
    fun id s t hget hset => absurd hset (hdown id s t hget)⟩

/-! ## One step -/

/-- A side counts as complete that can do nothing more, or whose flag is set. -/
theorem isMoveCommandCompleted_iff (hs : Sound c.room) (s : GameSession) (side : PlayerSide) :
    s.isMoveCommandCompleted side c.room = true ↔
      s.completed side = true ∨ c.room.Spent side := by
  have hmobile : (c.room.nodes.values.map (·.getMobileCount side)).sum = 0 ↔
      ∀ n ∈ c.room.nodes.values, n.getMobileCount side = 0 := by
    constructor
    · intro hsum n hn
      refine List.all_zero_of_le_zero_le_of_sum_eq_zero (fun x hx => ?_) hsum
        (List.mem_map.mpr ⟨n, hn, rfl⟩)
      obtain ⟨n', hn', rfl⟩ := List.mem_map.mp hx
      obtain ⟨id, hid⟩ := Dict.mem_values.mp hn'
      exact hs.mobile id n' side hid
    · intro hall
      refine List.sum_eq_zero fun x hx => ?_
      obtain ⟨n, hn, rfl⟩ := List.mem_map.mp hx
      exact hall n hn
  rw [GameSession.isMoveCommandCompleted, PlayerSessionState.isMoveCommandCompleted, Bool.or_eq_true,
    Bool.or_eq_true, decide_eq_true_eq, decide_eq_true_eq, hmobile, or_assoc]
  rfl

/-- **One step** that counts no flag of an earlier round closes a round early only when nobody can move
    any more. -/
theorem closesSpent_of_fresh (ha : Attentive f) {call : ClusterCall} (hfresh : f.Fresh call) :
    f.cluster.ClosesSpent call := by
  cases call with
  | hydrate _ | connect _ | disconnect | deliver _ _ => trivial
  | turn id turn =>
    cases turn with
    | checkAndResolveIfReady now =>
      rintro s hget ⟨room, now', hres⟩ side
      have hearly : f.cluster.closesEarly id (.checkAndResolveIfReady now) = true :=
        (carriesOut_iff hget _).mpr ((raises_iff_resolves rfl).mpr ⟨_, _, hres⟩)
      cases hres with
      | ready hready hall =>
        have hside : side ∈ [PlayerSide.a, .b] := by cases side <;> simp
        have hcomplete := (Bool.and_eq_true_iff.mp (List.all_eq_true.mp hall side hside)).1
        rcases (isMoveCommandCompleted_iff ha.consistent.room.sound _ side).mp hcomplete with
          hset | hspent
        · have hwritten := hfresh hearly s (Option.mem_def.mpr hget) side hside hset
          exact .inl (ha.fresh id s side hget hset hwritten)
        · exact hspent
    | addPlayer _ _ | onPlayerConnected _ _ | onPlayerDisconnected _ | forceGameOver | moveUnits _ _
    | encounterDecision _ _ _ | planningTimeout _ _ | backupPlanningTimeout _ _
    | getGameState _ | reconnectSync _ _ => trivial

/-- A server that has been told has no flag of an earlier round. -/
theorem fresh_of_told (ha : Attentive f) {call : ClusterCall} (htold : f.cluster.Told call) :
    f.Fresh call := by
  cases call with
  | hydrate _ | connect _ | disconnect | deliver _ _ => trivial
  | turn id turn =>
    intro hearly s hget side _ hset
    by_contra hold
    exact htold hearly (ha.leftOver id s side (Option.mem_def.mp hget) hset hold)

/-! ## Every run -/

/-- **Early resolution is safe** along every run in which no server counts a flag of an earlier round;
    and none does, if each that closes a round early has been told of the end of the last one. -/
theorem early_resolution_safe (roomId serverId : String) (planningTimeout : Time) (side : PlayerSide)
    (calls : List ClusterCall) :
    ((flaggings roomId serverId planningTimeout side).Steps Flagging.Fresh
        (flaggings roomId serverId planningTimeout side).start calls →
      (clusters roomId serverId planningTimeout side).Steps Cluster.ClosesSpent
        (Cluster.initial roomId serverId planningTimeout side) calls) ∧
    ((clusters roomId serverId planningTimeout side).Steps Cluster.Told
        (Cluster.initial roomId serverId planningTimeout side) calls →
      (flaggings roomId serverId planningTimeout side).Steps Flagging.Fresh
        (flaggings roomId serverId planningTimeout side).start calls) := by
  have hproject : ∀ {C : Cluster → ClusterCall → Prop},
      (flaggings roomId serverId planningTimeout side).Steps (fun f call => C f.cluster call)
          (flaggings roomId serverId planningTimeout side).start calls ↔
        (clusters roomId serverId planningTimeout side).Steps C
          (Cluster.initial roomId serverId planningTimeout side) calls :=
    Machine.steps_project (N := clusters roomId serverId planningTimeout side) (f := Flagging.cluster)
      fun _ _ => rfl
  have hstart := attentive_initial roomId serverId planningTimeout side
  constructor
  · intro hfresh
    refine hproject.mp ?_
    exact Machine.steps_of_invariant (I := Attentive) (fun _ call ha _ => ha.next call)
      (fun _ _ ha hf => closesSpent_of_fresh ha hf) hstart hfresh
  · intro htold
    replace htold := hproject.mpr htold
    exact Machine.steps_of_invariant (I := Attentive) (fun _ call ha _ => ha.next call)
      (fun _ _ ha ht => fresh_of_told ha ht) hstart htold

/-- Both sides make their moves of round 1 on `s2`, which closes the round; and of round 2 on `s1`, once
    it has been told. -/
def toldCalls : List ClusterCall :=
  [.turn "s1" (.addPlayer ⟨"alice"⟩ 0), .turn "s1" (.addPlayer ⟨"bob"⟩ 0), .hydrate "s2",
    .turn "s2" (.moveUnits .a ⟨⟨1⟩, ⟨2⟩, 3⟩),
    .turn "s2" (.moveUnits .b ⟨⟨5⟩, ⟨3⟩, 3⟩),
    .turn "s2" (.checkAndResolveIfReady 20000)] ++ List.replicate 9 (.deliver 0 20010) ++
  [.turn "s1" (.moveUnits .a ⟨⟨2⟩, ⟨1⟩, 3⟩), .turn "s1" (.moveUnits .b ⟨⟨3⟩, ⟨5⟩, 3⟩),
    .turn "s1" (.checkAndResolveIfReady 40000)]

/-- Both rounds are closed early, and rightly. -/
theorem early_resolution_safe_told :
    (pair.after pair.start toldCalls).room.currentRound = 3 ∧
      pair.Steps Cluster.ClosesSpent pair.start toldCalls := by
  have htold : pair.Steps Cluster.Told pair.start toldCalls := by decide +kernel
  obtain ⟨hsafe, hfresh⟩ := early_resolution_safe "room" "s1" 30000 .a toldCalls
  exact ⟨by decide +kernel, hsafe (hfresh htold)⟩

/-- Side A makes its moves of round 1 on `s2`, and the timer of `s1` closes the round.  Before `s2` is
    told, side B makes its moves of round 2 there. -/
def leftOverCalls : List ClusterCall :=
  [.turn "s1" (.addPlayer ⟨"alice"⟩ 0), .turn "s1" (.addPlayer ⟨"bob"⟩ 0), .hydrate "s2",
    .turn "s2" (.moveUnits .a ⟨⟨1⟩, ⟨2⟩, 3⟩), .turn "s1" (.planningTimeout 1 30000),
    .turn "s2" (.moveUnits .b ⟨⟨5⟩, ⟨3⟩, 3⟩)]

/-- Then `s2` closes round 2, in which side A has three units on node 2 and has moved none of them. -/
theorem early_resolution_unsafe :
    let c := pair.after pair.start leftOverCalls
    (c.room.currentRound = 2 ∧ c.room.getRemainingUnits .a = 3 ∧ ¬ c.room.Spent .a ∧
      (c.turn "s2" (.checkAndResolveIfReady 31000)).room.currentRound = 3) ∧
    ¬ pair.Steps Cluster.ClosesSpent pair.start
      (leftOverCalls ++ [.turn "s2" (.checkAndResolveIfReady 31000)]) := by
  intro c
  have hfacts : c.room.currentRound = 2 ∧ c.room.getRemainingUnits .a = 3 ∧ ¬ c.room.Spent .a ∧
      (c.turn "s2" (.checkAndResolveIfReady 31000)).room.currentRound = 3 := by
    decide +kernel
  refine ⟨hfacts, fun hsteps => ?_⟩
  have hlast := (Machine.steps_append.mp hsteps).2.1
  have hready : (c.servers.get? "s2").isSome = true ∧ ∀ s ∈ c.servers.get? "s2",
      c.room.isReadyForResolution = true ∧ s.session.allReady c.room = true := by
    decide +kernel
  obtain ⟨s, hget⟩ := Option.isSome_iff_exists.mp hready.1
  obtain ⟨hroom, hall⟩ := hready.2 s hget
  exact hfacts.2.2.1 (hlast s hget ⟨_, _, .ready hroom hall⟩ .a)

end HexWar
