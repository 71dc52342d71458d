/-
  The timers find every encounter as they need it.

  When the planning phase runs out, both timers retreat from whatever is undecided, one side after the
  other, and then resolve the round.  `ResolveEncounter` looks an encounter up by its edge and throws on
  a second decision, so the loops get through only because an edge has at most one pending encounter
  and a decided one has left the list (`Orderly`).
-/
import HexWar.Domain.Retreats
import HexWar.Session.Turns

namespace HexWar

open Lib Lib.Action GameRoom

variable {room : GameRoom}

/-- What the pending encounters and the edges of a planning phase look like. -/
structure PendingWellFormed (room : GameRoom) : Prop where
  /-- At most one encounter for each edge. -/
  unique : (room.pendingEncounters.map (·.edgeId)).Nodup
  /-- Each of them still waits for a side. -/
  waiting : ∀ p ∈ room.pendingEncounters, p.bothDecided = false
  /-- The recorded group of a side that has not decided is where the encounter says. -/
  present : ∀ p ∈ room.pendingEncounters, ∃ e, room.edges.get? p.edgeId = some e ∧
    ∀ s, p.hasDecided s = false → (p.groupOf s).side = s ∧ p.groupOf s ∈ e.bucket p.remainingRounds
  /-- Every group has units, heads for an end of its edge, and has no further to go than the edge is
      long. -/
  travelling : ∀ id e, room.edges.get? id = some e → ∀ k, ∀ g ∈ e.bucket k,
    1 ≤ g.unitCount ∧ id.IsEnd g.destination ∧ 1 ≤ k ∧ k ≤ e.distance.roundsRequired

/-- It follows from what holds of the room in a session. -/
theorem InSession.pendingWellFormed (h : InSession room) : PendingWellFormed room where
  unique := h.orderly.unique
  waiting p hp := by
    obtain ⟨e, he⟩ := (h.sound.encounters p hp).edge
    exact (h.orderly.meeting p hp e he).undecided
  present p hp := by
    obtain ⟨e, he⟩ := (h.sound.encounters p hp).edge
    have hmeeting := h.orderly.meeting p hp e he
    refine ⟨e, he, fun s hs => ⟨(h.sound.encounters p hp).side s, ?_⟩⟩
    rw [hmeeting.remaining]
    exact hmeeting.present s hs
  travelling id e he k g hg := by
    have hedge := h.sound.edges id e he
    obtain ⟨hpos, hend⟩ := hedge.groups k g hg
    have hid : e.id = id := h.sound.map.keyed id e he
    exact ⟨hpos, hid ▸ hend, hedge.inTransit.of_mem hg⟩

/-- Both timers return, and their loops leave nothing pending, under whatever owner. -/
structure TimersGoThrough (h : Host) : Prop where
  /-- The owner's timer returns, -/
  planning : ∀ forRound now later, ∃ h', reliable.onPlanningTimeout forRound now later h = .ok () h'
  /-- so does the backup timer of another server, -/
  backup : ∀ forRound now later, ∃ h',
    reliable.onBackupPlanningTimeout forRound now later h = .ok () h'
  /-- and after the two loops nothing is pending. -/
  decided : ∀ owner : Option String, ∃ h₁ h₂ : Host,
    reliable.retreatUndecided .a { h with room := { h.room with ownerServerId := owner } } =
        .ok () h₁ ∧
      reliable.retreatUndecided .b h₁ = .ok () h₂ ∧ h₂.room.phase = .planning ∧
      h₂.room.pendingEncounters = []

/-- The two loops, one after the other. -/
theorem retreats_ok {h : Host} (hroom : InSession h.room) (hphase : h.room.phase = .planning) :
    ∃ h₁ h₂ : Host, reliable.retreatUndecided .a h = .ok () h₁ ∧
      reliable.retreatUndecided .b h₁ = .ok () h₂ ∧ h₂.room.phase = .planning ∧
        h₂.room.pendingEncounters = [] := by
  obtain ⟨hA, hinvA⟩ := retreatUndecided_ok hroom hphase .a
  obtain ⟨hB, hinvB⟩ := retreatUndecided_ok hinvA.inSession hinvA.phase .b
  obtain ⟨-, hin, hready⟩ := resolveTimedOut_ok hroom hphase 0 0
  exact ⟨_, _, hA, hB, hinvB.phase, (hin.orderly.ready hin.sound hready).2⟩

/-- What the timer does under the lock returns. -/
theorem resolveTimedOut_returns {h : Host} (hroom : InSession h.room)
    (hphase : h.room.phase = .planning) (now later : Time) :
    ∃ h', reliable.resolveTimedOut now later h = .ok () h' :=
  ⟨_, (resolveTimedOut_ok hroom hphase now later).1⟩

/-- Both timers go through, whether or not the round is still the one they were armed for. -/
theorem InSession.timersGoThrough {h : Host} (hroom : InSession h.room)
    (hphase : h.room.phase = .planning) : TimersGoThrough h where
  planning forRound now later := by
    obtain ⟨h', hok⟩ := resolveTimedOut_returns (h := h.synced) hroom hphase now later
    by_cases hround : h.room.phase = .planning ∧ h.room.currentRound = forRound
    · refine ⟨h'.synced, executeOnGameRoom_ok (t := h') ?_⟩
      rw [bind_of_ok (get_apply _)]
      exact (congrFun (if_pos hround) _).trans hok
    · refine ⟨h.synced.synced, executeOnGameRoom_ok (t := h.synced) ?_⟩
      rw [bind_of_ok (get_apply _)]
      exact congrFun (if_neg hround) _
  backup forRound now later := by
    let owned : GameRoom := { h.room with ownerServerId := some h.session.serverId }
    obtain ⟨h', hok⟩ := resolveTimedOut_returns (h := { h.synced with room := owned })
      (hroom.relabel _ _) hphase now later
    by_cases hround : h.room.phase = .planning ∧ h.room.currentRound = forRound
    · refine ⟨h'.synced, executeOnGameRoom_ok (t := h') ?_⟩
      rw [bind_of_ok (get_apply _)]
      refine (congrFun (if_pos hround) _).trans ?_
      exact (bind_of_ok (assignOwner_ok h.synced _)).trans hok
    · refine ⟨h.synced.synced, executeOnGameRoom_ok (t := h.synced) ?_⟩
      rw [bind_of_ok (get_apply _)]
      exact congrFun (if_neg hround) _
  decided owner := retreats_ok (h := { h with room := { h.room with ownerServerId := owner } })
    (hroom.relabel owner h.room.domainEvents) hphase

/-- **Pending encounters are well formed, and the timeout never fails**, in every planning phase that a
    session reaches and for every session on the room. -/
theorem pending_well_formed {roomId : String} (hreach : (session roomId).Reachable room)
    (hphase : room.phase = .planning) :
    PendingWellFormed room ∧ ∀ h : Host, TimersGoThrough { h with room := room } := by
  have hin := inSession_of_reachable hreach
  exact ⟨hin.pendingWellFormed, fun h => InSession.timersGoThrough (h := { h with room := room }) hin
    hphase⟩

/-- Two units have met, and nobody has decided. -/
theorem pending_well_formed_meeting : ∃ room, room.pendingEncounters.length = 1 ∧
    PendingWellFormed room ∧ ∀ h : Host, TimersGoThrough { h with room := room } := by
  have hreach : (session "room").Reachable
      ((session "room").after (session "room").start meetingCalls) :=
    ⟨meetingCalls, by decide +kernel, rfl⟩
  exact ⟨_, by decide +kernel, pending_well_formed hreach (by decide +kernel)⟩

end HexWar
