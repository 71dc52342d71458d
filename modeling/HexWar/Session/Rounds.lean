/-
  The round and the owner of a room.

  A turn leaves both as they are, or the round grows: the second player opens round 1, and a resolution
  opens the next one (`round_left`).  What opens a round on the other servers opens the round that the
  turn leaves (`opensRound_of_done`).

  Nothing in a step looks at both at once, so they are followed through the parts of a turn first: the
  default decisions, the resolution, the joining.  `Counted` says that no round is counted before both
  players are there; it is needed because the second player sets the round to 1, whatever it was.

  For a cluster the round of the room is the clock by which messages are judged: `Paced` says that
  nothing on its way opens a round that is still to come.
-/
import HexWar.Session.Servers

namespace HexWar

open Lib Lib.Action GameRoom

/-! ## The owner of the room

The owner is written when the room is made and when a backup timer takes it over, and by nothing
else. -/

/-- Does a turn that opens a round leave the owner as it is? -/
def SessionCall.keepsOwner : SessionCall → Bool
  | .addPlayer _ _ | .checkAndResolveIfReady _ | .planningTimeout _ _ => true
  | .onPlayerConnected _ _ | .onPlayerDisconnected _ | .forceGameOver | .moveUnits _ _
  | .encounterDecision _ _ _ | .backupPlanningTimeout _ _ | .getGameState _
  | .reconnectSync _ _ => false

/-- Default retreats leave the owner. -/
theorem owner_retreated (room : GameRoom) (side : PlayerSide) :
    (room.retreated side).ownerServerId = room.ownerServerId := by
  unfold GameRoom.retreated
  -- by induction over the encounters that are decided for the side
  generalize room.getUndecidedEncounters side = encs
  induction encs generalizing room with
  | nil => rfl
  | cons enc encs ih =>
    rw [List.foldl_cons, ih, decideEncounter]
    split <;> rfl

/-- The default decisions of both sides do. -/
theorem owner_timedOut (room : GameRoom) : room.timedOut.ownerServerId = room.ownerServerId :=
  (owner_retreated _ .b).trans (owner_retreated room .a)

/-- The resolution does. -/
theorem owner_resolved (room : GameRoom) (deadline : Time) :
    (sourceOrder.resolved room deadline).ownerServerId = room.ownerServerId := by
  rw [ProcessingOrder.resolved, opened]
  split <;> rfl

/-- Only the backup timer changes the owner. -/
theorem owner_of_resolves {h : Host} {call : SessionCall} {room : GameRoom} {now : Time}
    (hres : Resolves h call room now) :
    call.keepsOwner = true ∧ room.ownerServerId = h.room.ownerServerId ∨
      call.keepsOwner = false ∧ room.ownerServerId = some h.session.serverId := by
  cases hres with
  | ready _ _ => exact .inl ⟨rfl, rfl⟩
  | timeout _ _ => exact .inl ⟨rfl, owner_timedOut _⟩
  | backup _ _ => exact .inr ⟨rfl, owner_timedOut _⟩

/-- A resolution goes on to the next round. -/
theorem currentRound_resolved (room : GameRoom) (deadline : Time) :
    (sourceOrder.resolved room deadline).currentRound = room.currentRound + 1 :=
  (resolved_frame sourceOrder room deadline).currentRound

/-- Joining leaves it as well. -/
theorem owner_joined (room : GameRoom) (playerId : PlayerId) (deadline : Time) :
    (room.joined playerId deadline).ownerServerId = room.ownerServerId := by
  rw [joined, started]
  split <;> rfl

/-! ## The round

It is counted by ResolveRound, and set to 1 when the game starts. -/

/-- The second player opens round 1. -/
theorem currentRound_joined (room : GameRoom) (playerId : PlayerId) (deadline : Time) :
    (room.joined playerId deadline).currentRound =
      if (room.joined playerId deadline).playerCount < 2 then room.currentRound else 1 := by
  rw [playerCount_joined, joined, started]
  split
  · rename_i playerA playerB ha hb
    have hfull : (room.seated playerId).playerCount ≥ 2 :=
      two_le_playerCount.mpr ⟨by rw [ha]; rfl, by rw [hb]; rfl⟩
    rw [if_neg (Nat.not_lt.mpr hfull)]
  · rename_i hnot
    rw [if_pos]
    · rfl
    · refine Nat.lt_of_not_le fun hfull => ?_
      obtain ⟨ha, hb⟩ := two_le_playerCount.mp hfull
      obtain ⟨playerA, ha⟩ := Option.isSome_iff_exists.mp ha
      obtain ⟨playerB, hb⟩ := Option.isSome_iff_exists.mp hb
      exact hnot playerA playerB ha hb

/-- What holds of the rounds of a room: nobody has counted before both players were there. -/
structure Counted (room : GameRoom) : Prop where
  /-- A new room stands at 0. -/
  nonneg : 0 ≤ room.currentRound
  waiting : room.playerCount < 2 → room.currentRound = 0

/-- Emptying the outbox does not touch the round, -/
theorem currentRound_told (room : GameRoom) : room.told.currentRound = room.currentRound := rfl

/-- nor the owner. -/
theorem owner_told (room : GameRoom) : room.told.ownerServerId = room.ownerServerId := rfl

/-- Emptying the outbox keeps the count. -/
theorem Counted.told {room : GameRoom} (h : Counted room) : Counted room.told :=
  ⟨h.nonneg, h.waiting⟩

/-- A round that a turn resolves was being planned. -/
theorem planning_of_resolves {h : Host} (hroom : InSession h.room) {call : SessionCall}
    {room : GameRoom} {now : Time} (hres : Resolves h call room now) : h.room.phase = .planning := by
  cases hres with
  | ready hready hall => exact (hroom.orderly.ready hroom.sound hready).1
  | timeout hphase _ => exact hphase
  | backup hphase _ => exact hphase

/-- A resolution goes on to a later round. -/
theorem counted_of_resolves {h : Host} (hroom : InSession h.room) (hcounted : Counted h.room)
    {call : SessionCall} {room : GameRoom} {now : Time} (hres : Resolves h call room now)
    (deadline : Time) : Counted (sourceOrder.resolved room deadline) ∧
      h.room.currentRound < (sourceOrder.resolved room deadline).currentRound := by
  obtain ⟨-, hround, -, hplayers⟩ := resolves_round hres
  have hgrown := currentRound_resolved room deadline
  have hcount : (sourceOrder.resolved room deadline).playerCount = h.room.playerCount :=
    (playerCount_resolved _ _ _).trans (playerCount_congr hplayers)
  have hfull := hroom.sound.full (planning_of_resolves hroom hres)
  have hnonneg := hcounted.nonneg
  refine ⟨⟨?_, fun hlt => ?_⟩, ?_⟩
  · omega
  · rw [hcount] at hlt
    exact absurd hlt hfull
  · omega

/-- **A turn leaves round and owner as they are, or the round grows.** -/
theorem round_left {h : Host} (hroom : InSession h.room) (hcounted : Counted h.room)
    {call : SessionCall} {room : GameRoom} {s : GameSession} (hleaves : Leaves h call room s) :
    Counted room ∧ (room.currentRound = h.room.currentRound ∧
        room.ownerServerId = h.room.ownerServerId ∨ h.room.currentRound < room.currentRound) := by
  cases hleaves with
  -- these leave the room as it is
  | connect | disconnect | refuse _ _ | look _ _ => exact ⟨hcounted, .inl ⟨rfl, rfl⟩⟩
  | @join playerId now hr =>
    let joined := h.room.joined playerId (now + h.session.planningTimeout)
    have hzero := hcounted.waiting (joinRefusal_none hr)
    have hround : joined.currentRound = if joined.playerCount < 2 then h.room.currentRound else 1 :=
      currentRound_joined h.room playerId (now + h.session.planningTimeout)
    have howner : joined.ownerServerId = h.room.ownerServerId := owner_joined _ _ _
    -- the first player waits; the second sets the round to 1, from 0
    by_cases hcount : joined.playerCount < 2
    · rw [if_pos hcount] at hround
      exact ⟨⟨by rw [show joined.told.currentRound = _ from hround, hzero],
        fun _ => hround.trans hzero⟩, .inl ⟨hround, howner⟩⟩
    · rw [if_neg hcount] at hround
      refine ⟨⟨?_, fun hlt => absurd hlt hcount⟩, .inr ?_⟩
      · show 0 ≤ joined.currentRound
        omega
      · show h.room.currentRound < joined.currentRound
        omega
  | move hconn hr => exact ⟨⟨hcounted.nonneg, hcounted.waiting⟩, .inl ⟨rfl, rfl⟩⟩
  | @decide side edgeId decision hconn hr =>
    have hframe := decideEncounter_frame h.room edgeId side decision
    have howner : (h.room.decideEncounter edgeId side decision).ownerServerId =
        h.room.ownerServerId := by
      rw [decideEncounter]
      split <;> rfl
    refine ⟨⟨?_, fun hlt => ?_⟩, .inl ⟨hframe.currentRound, howner⟩⟩
    · exact hcounted.nonneg.trans_eq hframe.currentRound.symm
    · have hcount := (playerCount_congr hframe.players).symm.trans_lt hlt
      exact hframe.currentRound.trans (hcounted.waiting hcount)
  | @resolve _ ready now hres =>
    obtain ⟨hcount, hgrown⟩ :=
      counted_of_resolves hroom hcounted hres (now + h.session.planningTimeout)
    rw [currentRound_told]
    exact ⟨hcount.told, .inr hgrown⟩
  | abandon _ _ => exact ⟨⟨hcounted.nonneg, hcounted.waiting⟩, .inl ⟨rfl, rfl⟩⟩

/-! ## What opens a round

GameStarted opens round 1, RoundResolved the round after the one it reports, and RoundStarted the
round it names.  All of them are raised by the turn that leaves the room in that round. -/

/-- What a turn raises opens the round that the turn leaves. -/
theorem opensRound_of_done {h : Host} (hquiet : h.room.domainEvents = []) {call : SessionCall}
    {room : GameRoom} (hdoes : Does h call room) {e : DomainEvent} (he : e ∈ room.domainEvents)
    {r : Int} (hopens : e.opensRound = some r) : r = room.currentRound ∧
      (call.keepsOwner = true ∧ room.ownerServerId = h.room.ownerServerId ∨
        room.ownerServerId = some h.session.serverId) := by
  -- an event about units or encounters opens none
  have hminor : e.isMinor = true → False := by
    intro hminor
    rw [minor_opensRound hminor] at hopens
    cases hopens
  cases hdoes with
  | @join playerId now hr =>
    refine ⟨?_, .inl ⟨rfl, owner_joined _ _ _⟩⟩
    rw [joined, started] at he ⊢
    split at he
    · have hseated : (h.room.seated playerId).domainEvents = [] := hquiet
      replace he : e ∈ (h.room.seated playerId).domainEvents ++ [_] := he
      rw [hseated, List.nil_append, List.mem_singleton] at he
      rw [he] at hopens
      cases hopens
      rfl
    · replace he : e ∈ h.room.domainEvents := he
      rw [hquiet] at he
      cases he
  | move hconn hr =>
    rw [events_reserve hquiet, List.mem_singleton] at he
    rw [he] at hopens
    cases hopens
  | decide hconn hr => exact (hminor ((events_decideEncounter_minor hquiet _ _ _).1 e he)).elim
  | @resolve _ ready now hres =>
    have hround := currentRound_resolved ready (now + h.session.planningTimeout)
    have howner := owner_resolved ready (now + h.session.planningTimeout)
    constructor
    · rw [events_resolved] at he
      rw [hround]
      rcases List.mem_cons.mp he with rfl | hfollowing
      · cases hopens
        rfl
      · rw [List.mem_singleton.mp hfollowing, ProcessingOrder.following] at hopens
        split at hopens
        · cases hopens
        · cases hopens
          rfl
    · rw [howner]
      rcases owner_of_resolves hres with hkeeps | ⟨-, htakes⟩
      · exact .inl hkeeps
      · exact .inr htakes
  | abandon _ _ =>
    rw [events_forced hquiet, List.mem_singleton] at he
    rw [he] at hopens
    cases hopens

/-! ## Steps

The same for a cluster: its room is changed by a turn on some server or not at all. -/

variable {c : Cluster} {planningTimeout : Time}

/-- A room that was just created stands at round 0. -/
theorem counted_initial (roomId serverId : String) (planningTimeout : Time) (side : PlayerSide) :
    Counted (Cluster.initial roomId serverId planningTimeout side).room := by
  have hround : (Cluster.initial roomId serverId planningTimeout side).room.currentRound = 0 :=
    (initialRoom_fields roomId).currentRound
  exact ⟨Int.le_of_eq hround.symm, fun _ => hround⟩

/-- A step leaves round and owner as they are, or the round grows. -/
theorem round_next (hc : Consistent c) (hcounted : Counted c.room) (planningTimeout : Time)
    (call : ClusterCall) :
    Counted (c.next planningTimeout call).room ∧
      ((c.next planningTimeout call).room.currentRound = c.room.currentRound ∧
          (c.next planningTimeout call).room.ownerServerId = c.room.ownerServerId ∨
        c.room.currentRound < (c.next planningTimeout call).room.currentRound) := by
  by_cases hturn : ∃ id turn, call = .turn id turn
  · obtain ⟨id, turn, rfl⟩ := hturn
    show Counted (c.turn id turn).room ∧ _
    rcases hget : c.servers.get? id with _ | s
    · have hsame : c.turn id turn = c := turn_unknown hget turn
      show _ ∧ ((c.turn id turn).room.currentRound = _ ∧ (c.turn id turn).room.ownerServerId = _ ∨
        _ < (c.turn id turn).room.currentRound)
      rw [hsame]
      exact ⟨hcounted, .inl ⟨rfl, rfl⟩⟩
    · obtain ⟨room, session, hleaves, hroom, -⟩ := left_turn hc hget turn
      show _ ∧ ((c.turn id turn).room.currentRound = _ ∧ (c.turn id turn).room.ownerServerId = _ ∨
        _ < (c.turn id turn).room.currentRound)
      rw [hroom]
      exact round_left (h := s.host c.room) hc.room hcounted hleaves
  · have hcall : ∀ id turn, call ≠ .turn id turn := fun id turn heq => hturn ⟨id, turn, heq⟩
    rw [(c.next_frame planningTimeout hcall).1]
    exact ⟨hcounted, .inl ⟨rfl, rfl⟩⟩

/-- What holds of a cluster at any time: nothing on its way opens a round that is still to come. -/
structure Paced (c : Cluster) : Prop where
  consistent : Consistent c
  counted : Counted c.room
  messages : ∀ d ∈ c.inFlight, ∀ r, d.2.event.opensRound = some r → r ≤ c.room.currentRound

/-- At the start nothing is on its way. -/
theorem paced_initial (roomId serverId : String) (planningTimeout : Time) (side : PlayerSide) :
    Paced (Cluster.initial roomId serverId planningTimeout side) := by
  refine ⟨consistent_initial _ _ _ _, counted_initial _ _ _ _, ?_⟩
  intro d hd
  cases hd

/-- **A step keeps the rounds in order.** -/
theorem Paced.next (hp : Paced c) (planningTimeout : Time) (call : ClusterCall) :
    Paced (c.next planningTimeout call) := by
  have hc := hp.consistent
  obtain ⟨hcounted, hgoes⟩ := round_next hc hp.counted planningTimeout call
  refine ⟨hc.next planningTimeout call, hcounted, ?_⟩
  intro d hd r hopens
  rcases mem_inFlight_next hd with hold | ⟨id, turn, s, rfl, hget, hm, -⟩
  · have hle := hp.messages d hold r hopens
    omega
  · obtain ⟨room, hdone, hevent, -⟩ := mem_published (hc.servers id s hget) hc.room hc.quiet hm
    have hroom : (c.next planningTimeout (.turn id turn)).room = room.told := by
      show (c.turn id turn).room = _
      rw [turn_eq hget]
      exact hdone.saved
    rw [hroom, currentRound_told]
    exact Int.le_of_eq (opensRound_of_done hc.quiet hdone.does hevent hopens).1

end HexWar
