/-
  When a side counts as complete, and when it can move nothing more.

  The session takes a side for complete when its flag is set, its allowance is used up, or it has no
  mobile units.  On a lone server the flag says no more than that the allowance is used up.  A command
  is refused when the allowance is used up or all mobile units are RESERVED, and reserved units stay
  on their nodes, mobile, until the round is resolved.  So a side whose last free unit was reserved
  before its allowance was used up has nothing more to do and does not count as complete: the check
  leaves the round open until the timer closes it.


  The proof compares three conditions on a side: its flag, its allowance with its units, and whether a
  command of it would be accepted.  On a lone server the first is part of the second (`Prompt`), and
  the last two differ exactly on a stranded side (`Prompt.complete_iff`).
-/
import HexWar.Domain.Mobility
import HexWar.Domain.Ownership
import HexWar.Session.Readiness

namespace HexWar

open Lib Lib.Action GameRoom

/-! ## The property -/

/-- In a planning phase a side counts as complete exactly if no command of it is accepted, and the
    check resolves the round exactly if this is so of both sides and no encounter is undecided. -/
def Host.CompleteIsSpent (h : Host) : Prop :=
  h.room.phase = .planning →
    (∀ side, h.session.isMoveCommandCompleted side h.room = true ↔ h.room.CannotMove side) ∧
    ∀ now, (h.next (.checkAndResolveIfReady now)).room.currentRound = h.room.currentRound + 1 ↔
      ∀ side, h.room.CannotMove side ∧ h.room.getUndecidedEncounters side = []

/-- All mobile units of the side are reserved, and its allowance is not used up. -/
def GameRoom.Stranded (room : GameRoom) (side : PlayerSide) : Prop :=
  0 < room.getRemainingUnits side ∧ room.mobileTotal side ≠ 0 ∧
    room.mobileTotal side = room.unitUsedThisRound.get side

instance (room : GameRoom) (side : PlayerSide) : Decidable (room.Stranded side) :=
  inferInstanceAs (Decidable (_ ∧ _))

/-- A move that is accepted does not reserve the side's last free units before its allowance is used
    up. -/
def Host.LeavesAMove (h : Host) : SessionCall → Prop
  | .moveUnits side command => (h.session.playerStates.get side).isConnected = true →
      h.room.sessionMoveRefusal side command = none →
        let used := h.room.unitUsedThisRound.get side + h.room.granted side
          (h.room.adjusted side command)
        used < maxUnitsPerPlayer → h.room.mobileTotal side ≠ used
  | _ => True

instance (h : Host) : ∀ call, Decidable (h.LeavesAMove call)
  | .moveUnits _ _ => inferInstanceAs (Decidable (_ → _ → _ → _))
  | .addPlayer _ _ | .onPlayerConnected _ _ | .onPlayerDisconnected _ | .forceGameOver
  | .encounterDecision _ _ _ | .checkAndResolveIfReady _ | .planningTimeout _ _
  | .backupPlanningTimeout _ _ | .getGameState _ | .reconnectSync _ _ => .isTrue trivial

/-! ## The flags of a lone server

Without other servers a flag is cleared in the turn that ends its round. -/

/-- A flag is set only when the allowance is used up. -/
structure Prompt (h : Host) : Prop where
  /-- What holds of every reachable host. -/
  hosting : Hosting h
  /-- A flag says that nothing is left to its side. -/
  flags : ∀ side, h.session.completed side = true → h.room.getRemainingUnits side ≤ 0

/-- Every turn keeps it. -/
theorem Prompt.next {h : Host} (hp : Prompt h) (call : SessionCall) : Prompt (h.next call) := by
  refine ⟨hp.hosting.next call, fun side hset => ?_⟩
  obtain ⟨room, s, hl⟩ := next_leaves hp.hosting.room call
  rw [congr_bare GameSession.completed (fun _ => rfl) hl.session] at hset
  rw [hl.room]
  rcases completed_left hl.leaves hset with ⟨hwas, hno, -⟩ | ⟨command, -, -, hnone⟩
  · -- the round lasts, and what is left only gets less
    have hless := (remaining_left hl.leaves).resolve_left fun ⟨ready, now, hres⟩ => hno ready now hres
    exact Int.le_trans (hless side) (hp.flags side hwas)
  · exact hnone

/-- At the start no flag is set. -/
theorem prompt_initial (roomId serverId : String) (hasEventPublisher : Bool)
    (planningTimeout : Time) :
    Prompt (Host.initial roomId serverId hasEventPublisher planningTimeout) := by
  refine ⟨hosting_initial _ _ _ _, fun side hset => ?_⟩
  cases side <;> cases hset

/-! ## One state

In one planning phase, side by side: counts as complete, can move nothing, is stranded. -/

/-- A side counts as complete when its allowance is used up or it has no mobile units. -/
theorem Prompt.completed_iff {h : Host} (hp : Prompt h) (side : PlayerSide) :
    h.session.isMoveCommandCompleted side h.room = true ↔
      h.room.getRemainingUnits side ≤ 0 ∨ h.room.mobileTotal side = 0 := by
  rw [GameSession.isMoveCommandCompleted, PlayerSessionState.isMoveCommandCompleted, Bool.or_eq_true,
    Bool.or_eq_true, decide_eq_true_eq, decide_eq_true_eq, or_assoc]
  exact or_iff_right_of_imp fun hset => .inl (hp.flags side hset)

/-- What a side has used is not negative, and no more than its mobile units. -/
theorem Sound.used_bounds {room : GameRoom} (h : Sound room) (side : PlayerSide) :
    0 ≤ room.unitUsedThisRound.get side ∧
      room.unitUsedThisRound.get side ≤ room.mobileTotal side := by
  have hfree := h.sum_available side
  have hnonneg : 0 ≤ (room.nodes.entries.map fun kv => room.availableAt side kv.2 kv.1).sum := by
    refine List.sum_nonneg fun x hx => ?_
    obtain ⟨kv, hkv, rfl⟩ := List.mem_map.mp hx
    exact h.available_nonneg (Dict.mem_iff_get?.mp hkv) side
  have hused : 0 ≤ room.unitUsedThisRound.get side := by
    rw [(h.moves side).used]
    exact sum_counts_nonneg fun m hm => ((h.moves side).moves m hm).1
  exact ⟨hused, by omega⟩

/-- **A side is rightly taken for complete** unless it is stranded. -/
theorem Prompt.complete_iff {h : Host} (hp : Prompt h) (hphase : h.room.phase = .planning)
    (side : PlayerSide) :
    (h.session.isMoveCommandCompleted side h.room = true ↔ h.room.CannotMove side) ↔
      ¬ h.room.Stranded side := by
  have hs := hp.hosting.room.sound
  obtain ⟨hused, hle⟩ := hs.used_bounds side
  rw [hp.completed_iff, hs.cannotMove_iff hphase, Stranded]
  omega

/-- The check resolves the round exactly if both sides count as complete and have decided. -/
theorem Prompt.closes_iff {h : Host} (hp : Prompt h) (hphase : h.room.phase = .planning) (now : Time) :
    (h.next (.checkAndResolveIfReady now)).room.currentRound = h.room.currentRound + 1 ↔
      ∀ side, h.session.isMoveCommandCompleted side h.room = true ∧
        h.room.getUndecidedEncounters side = [] := by
  have hall : h.session.allReady h.room = true ↔ ∀ side,
      h.session.isMoveCommandCompleted side h.room = true ∧
        h.room.getUndecidedEncounters side = [] := by
    rw [GameSession.allReady, List.all_eq_true]
    simp only [Bool.and_eq_true, List.isEmpty_iff]
    exact ⟨fun hl side => hl side (by cases side <;> simp), fun hl side _ => hl side⟩
  constructor
  · intro hround
    obtain ⟨room, s, hl⟩ := next_leaves hp.hosting.room (.checkAndResolveIfReady now)
    rw [hl.room] at hround
    have hleaves := hl.leaves
    cases hleaves with
    | refuse _ _ | look _ _ => omega
    | resolve hres =>
      cases hres with
      | ready _ hready => exact hall.mp hready
  · intro hsides
    refine currentRound_of_resolves hp.hosting.room (.ready ?_ (hall.mpr hsides))
    -- nothing is undecided, so everything is decided
    rw [isReadyForResolution, if_neg (not_not_intro hphase), List.all_eq_true]
    intro p hpmem
    have hdecided : ∀ side, p.hasDecided side = true := fun side => by
      by_contra hund
      have hmem : p ∈ h.room.getUndecidedEncounters side :=
        List.mem_filter.mpr ⟨hpmem, by simpa using hund⟩
      rw [(hsides side).2] at hmem
      cases hmem
    rw [PendingEncounter.bothDecided, hdecided .a, hdecided .b]
    rfl

/-- **Complete is spent** exactly if no side is stranded. -/
theorem Prompt.completeIsSpent_iff {h : Host} (hp : Prompt h) :
    h.CompleteIsSpent ↔ (h.room.phase = .planning → ∀ side, ¬ h.room.Stranded side) := by
  refine forall_congr' fun hphase => ?_
  constructor
  · rintro ⟨hcomplete, -⟩ side
    exact (hp.complete_iff hphase side).mp (hcomplete side)
  · intro hnone
    have hcomplete := fun side => (hp.complete_iff hphase side).mpr (hnone side)
    refine ⟨hcomplete, fun now => ?_⟩
    rw [hp.closes_iff hphase now]
    exact forall_congr' fun side => and_congr_left fun _ => hcomplete side

/-! ## One turn

Which turns can strand a side: only a reservation of its own. -/

/-- Whether a side is stranded is a matter of the nodes and of what it has used. -/
theorem stranded_congr {room room' : GameRoom} (hnodes : room'.nodes = room.nodes) {side : PlayerSide}
    (hused : room'.unitUsedThisRound.get side = room.unitUsedThisRound.get side) :
    room'.Stranded side ↔ room.Stranded side := by
  rw [Stranded, Stranded, getRemainingUnits, getRemainingUnits, mobileTotal, mobileTotal, hnodes, hused]

/-- A side that has used nothing is not stranded. -/
theorem not_stranded_of_unused {room : GameRoom} {side : PlayerSide}
    (hused : room.unitUsedThisRound.get side = 0) : ¬ room.Stranded side := by
  rintro ⟨-, hsome, hsame⟩
  exact hsome (hsame.trans hused)

/-- Whether a side is stranded has nothing to do with the events. -/
theorem stranded_told {room : GameRoom} {side : PlayerSide} :
    room.told.Stranded side ↔ room.Stranded side := stranded_congr rfl rfl

/-- A round that has just been opened has used nothing. -/
theorem unused_resolved (room : GameRoom) (deadline : Time) (side : PlayerSide) :
    (sourceOrder.resolved room deadline).unitUsedThisRound.get side = 0 := by
  rw [(resolved_frame sourceOrder room deadline).used]
  exact PerSide.get_both ..

/-- A decision strands nobody. -/
theorem stranded_decideEncounter (room : GameRoom) (edgeId : EdgeId) (side t : PlayerSide)
    (decision : EncounterDecision) :
    (room.decideEncounter edgeId side decision).Stranded t ↔ room.Stranded t := by
  refine stranded_congr ?_ ?_
  · rw [decideEncounter]
    split <;> rfl
  · rw [decideEncounter]
    split <;> rfl

/-- A reservation strands its side exactly if it takes the last free units and leaves some of the
    allowance. -/
theorem stranded_reserve_iff {room : GameRoom} (h : Sound room) {side : PlayerSide}
    {command : MoveCommand} (hpos : 0 < room.granted side command) :
    (room.reserve side command).Stranded side ↔
      ¬ (room.unitUsedThisRound.get side + room.granted side command < maxUnitsPerPlayer →
        room.mobileTotal side ≠ room.unitUsedThisRound.get side + room.granted side command) := by
  have hused : (room.reserve side command).unitUsedThisRound.get side =
      room.unitUsedThisRound.get side + room.granted side command :=
    PerSide.get_update_same _ _ _
  have hbefore := (h.used_bounds side).1
  rw [Stranded, getRemainingUnits, hused]
  show (_ ∧ room.mobileTotal side ≠ 0 ∧ room.mobileTotal side = _) ↔ _
  omega

/-- A reservation does not strand the other side. -/
theorem stranded_reserve_other {room : GameRoom} {side t : PlayerSide} (hne : t ≠ side)
    (command : MoveCommand) : (room.reserve side command).Stranded t ↔ room.Stranded t := by
  have hused : (room.reserve side command).unitUsedThisRound.get t = room.unitUsedThisRound.get t :=
    PerSide.get_update_of_ne _ hne _
  have hnodes : (room.reserve side command).nodes = room.nodes := rfl
  exact stranded_congr hnodes hused

/-- **One turn** from a planning phase in which no side is stranded leaves one, exactly if its move
    leaves a move. -/
theorem Prompt.stranded_next {h : Host} (hp : Prompt h)
    (hnone : h.room.phase = .planning → ∀ side, ¬ h.room.Stranded side) (call : SessionCall) :
    ((h.next call).room.phase = .planning → ∀ side, ¬ (h.next call).room.Stranded side) ↔
      h.LeavesAMove call := by
  obtain ⟨room, s, hl⟩ := next_leaves hp.hosting.room call
  have hs := hp.hosting.room.sound
  rw [hl.room]
  have hleaves := hl.leaves
  cases hleaves with
  | connect | disconnect => exact iff_of_true hnone trivial
  | refuse hno _ | look hno _ =>
    refine iff_of_true hnone ?_
    cases call with
    | moveUnits side command => exact fun hconn hr => absurd (.move hconn hr) (hno _)
    | addPlayer _ _ | onPlayerConnected _ _ | onPlayerDisconnected _ | forceGameOver
    | encounterDecision _ _ _ | checkAndResolveIfReady _ | planningTimeout _ _
    | backupPlanningTimeout _ _ | getGameState _ | reconnectSync _ _ => trivial
  | @join playerId now hr =>
    refine iff_of_true (fun _ side => ?_) trivial
    have hused : (h.room.joined playerId (now + h.session.planningTimeout)).unitUsedThisRound =
        h.room.unitUsedThisRound := (joined_frame _ _ _).used
    rw [stranded_told]
    refine not_stranded_of_unused ?_
    rw [hused, (hs.waiting (joinRefusal_none hr)).used, PerSide.get_both]
  | @move side command hconn hr =>
    obtain ⟨hphase, hpos, -⟩ := moveRefusal_none (moveRefusal_of_session hr).2.2
    have hone := stranded_reserve_iff hs hpos
    have hleaves : h.LeavesAMove (.moveUnits side command) ↔
        ¬ (h.room.reserve side (h.room.adjusted side command)).Stranded side := by
      rw [hone, not_not]
      exact ⟨fun hl => hl hconn hr, fun hl _ _ => hl⟩
    rw [hleaves]
    constructor
    · intro hafter hstranded
      exact hafter hphase side (stranded_told.mpr hstranded)
    · intro hside _ t
      rw [stranded_told]
      rcases em (t = side) with rfl | hne
      · exact hside
      · rw [stranded_reserve_other hne]
        exact hnone hphase t
  | @decide side edgeId decision hconn hr =>
    refine iff_of_true (fun hphase t => ?_) trivial
    rw [stranded_told, stranded_decideEncounter]
    exact hnone ((decideEncounter_frame h.room edgeId side decision).phase.symm.trans hphase) t
  | resolve hres =>
    refine iff_of_true (fun _ side => ?_) ?_
    · rw [stranded_told]
      exact not_stranded_of_unused (unused_resolved _ _ side)
    · cases hres <;> trivial
  | abandon _ _ => exact iff_of_true (fun hphase => by cases hphase) trivial

/-! ## Every run -/

/-- **Ready means no move is left.**  On a lone server a side counts as complete in every planning
    phase exactly if it can move nothing more, and the check closes the phase exactly then, along a
    run exactly if each of its moves leaves a move. -/
theorem complete_is_spent_iff (roomId serverId : String) (hasEventPublisher : Bool)
    (planningTimeout : Time) (calls : List SessionCall) :
    (∀ h ∈ (hosts roomId serverId hasEventPublisher planningTimeout).visited
        (Host.initial roomId serverId hasEventPublisher planningTimeout) calls, h.CompleteIsSpent) ↔
      (hosts roomId serverId hasEventPublisher planningTimeout).Steps Host.LeavesAMove
        (Host.initial roomId serverId hasEventPublisher planningTimeout) calls := by
  have hstart := prompt_initial roomId serverId hasEventPublisher planningTimeout
  refine Machine.visited_iff (M := hosts roomId serverId hasEventPublisher planningTimeout)
    (I := Prompt) (fun _ call hp _ => hp.next call) (fun h call hp _ hspent => ?_) hstart ?_
    (Machine.steps_of_forall (fun _ _ => trivial) calls _)
  · exact (hp.next call).completeIsSpent_iff.trans
      (hp.stranded_next (hp.completeIsSpent_iff.mp hspent) call)
  · refine hstart.completeIsSpent_iff.mpr fun _ side => not_stranded_of_unused ?_
    have hused : (Host.initial roomId serverId hasEventPublisher planningTimeout).room.unitUsedThisRound =
        .both 0 := (initialRoom_fields roomId).used
    rw [hused, PerSide.get_both]

/-- In the first round each side sends a unit along a long edge; in the second it moves the other two,
    while the first is still under way. -/
def strandedTurns : List SessionCall :=
  [.addPlayer ⟨"alice"⟩ 0, .addPlayer ⟨"bob"⟩ 0, .onPlayerConnected .a 0, .onPlayerConnected .b 0,
    .moveUnits .a ⟨⟨1⟩, ⟨4⟩, 1⟩, .moveUnits .b ⟨⟨5⟩, ⟨1⟩, 1⟩,
    .planningTimeout 1 30000,
    .moveUnits .a ⟨⟨1⟩, ⟨2⟩, 2⟩, .moveUnits .b ⟨⟨5⟩, ⟨3⟩, 2⟩]

/-- Neither side can move, no encounter is undecided, and the check does not resolve the round. -/
theorem stranded_waits :
    let server := hosts "room" "server" false 30000
    (∀ side, (server.after server.start strandedTurns).room.CannotMove side ∧
      (server.after server.start strandedTurns).room.getUndecidedEncounters side = []) ∧
    ((server.after server.start strandedTurns).next
        (.checkAndResolveIfReady 31000)).room.currentRound =
      (server.after server.start strandedTurns).room.currentRound ∧
    ¬ ∀ h ∈ server.visited server.start strandedTurns, h.CompleteIsSpent := by
  intro server
  have hp : Prompt (server.after server.start strandedTurns) :=
    Machine.after_of_invariant (M := server) (C := fun _ _ => True)
      (fun _ call hp _ => hp.next call) (prompt_initial _ _ _ _)
      (Machine.steps_of_forall (fun _ _ => trivial) _ _)
  have hfacts : (server.after server.start strandedTurns).room.phase = .planning ∧
      (∀ side, (server.after server.start strandedTurns).room.Stranded side) ∧
      (∀ side, (server.after server.start strandedTurns).room.getUndecidedEncounters side = []) ∧
      ((server.after server.start strandedTurns).next
          (.checkAndResolveIfReady 31000)).room.currentRound =
        (server.after server.start strandedTurns).room.currentRound := by
    decide +kernel
  obtain ⟨hphase, hstranded, hundecided, hround⟩ := hfacts
  refine ⟨fun side => ⟨?_, hundecided side⟩, hround, fun hall => ?_⟩
  · exact (hp.hosting.room.sound.cannotMove_iff hphase side).mpr (.inr (hstranded side).2.2)
  · have hspent := hall _ (Machine.after_mem_visited _ _)
    exact hp.completeIsSpent_iff.mp hspent hphase .a (hstranded .a)

end HexWar
