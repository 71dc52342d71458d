/-
  How the life of an encounter is reported.

  A resolution registers the encounters it finds, and the planning phase after it decides them.  Two
  reports belong to that: an `EncounterOccurred` event for each encounter that is registered, and an
  entry in `ResolvedEncounters` of the next `RoundResolved` for each that was decided.

  Neither is made.  `RecordEncounter` is never called, and `ResolveEncounter` takes an encounter off
  the list with the second decision, so that the resolution finds no decided one to report.  `Ledger`
  keeps the encounters decided in the current phase beside the room; the reports of a run are in order
  exactly if nobody meets in it (`encounters_reported_iff`).
-/
import HexWar.Domain.Arrivals
import HexWar.Domain.Detection

namespace HexWar

open Lib Lib.Action GameRoom

variable {room : GameRoom}

/-! ## The ledger -/

/-- The room, with the encounters on which both sides have decided since the last resolution, as they
    were after the second decision. -/
structure Ledger where
  room : GameRoom
  completed : List PendingEncounter

/-- The encounter that a call decides for the second side. -/
def GameRoom.completedBy (room : GameRoom) : Call → List PendingEncounter
  | .resolveEncounter edgeId side decision =>
    if room.accepts (.resolveEncounter edgeId side decision) then
      match room.encounterOn edgeId, room.edges.get? edgeId with
      | some p, some e => [marked e p side decision].filter (·.bothDecided)
      | _, _ => []
    else []
  | _ => []

namespace Ledger

def next (l : Ledger) (call : Call) : Ledger where
  room := l.room.next call
  completed :=
    match call with
    | .resolveRound _ _ => []
    | _ => l.completed ++ l.room.completedBy call

end Ledger

/-- A session's room with its ledger. -/
def ledgers (roomId : String) : Machine Ledger Call :=
  ⟨⟨initialRoom roomId, []⟩, Ledger.next, fun l => l.room.SessionLegal⟩

/-! ## The reports -/

/-- The events that announce an encounter on an edge. -/
def occurrencesOn (edgeId : EdgeId) (events : List DomainEvent) : List EncounterOccurred :=
  events.filterMap fun
    | .encounterOccurred e => if e.edgeId = edgeId then some e else none
    | _ => none

/-- The round summaries among the events. -/
def summariesIn (events : List DomainEvent) : List RoundResolved :=
  events.filterMap fun
    | .roundResolved e => some e
    | _ => none

/-- A resolution announces every encounter it registers, once, and reports the encounters decided in
    the phase before it, each once, with decisions and outcomes, and no others. -/
def Reported (l : Ledger) : Call → Prop
  | .resolveRound deadline now =>
    let room' := l.room.next (.resolveRound deadline now)
    (∀ p ∈ room'.pendingEncounters, p ∉ l.room.pendingEncounters →
      (occurrencesOn p.edgeId room'.domainEvents).length = 1) ∧
    ∀ summary ∈ summariesIn room'.domainEvents,
      summary.resolvedEncounters.Perm (l.completed.map resolvedRecord)
  | _ => True

instance (l : Ledger) : ∀ call, Decidable (Reported l call)
  | .resolveRound _ _ => inferInstanceAs (Decidable (_ ∧ _))
  | .addPlayer _ _ _ | .moveUnits _ _ | .resolveEncounter _ _ _ | .forceGameOver _ _ => .isTrue trivial

/-- With the reserved moves under way, no two sides have groups with the same number of rounds to go,
    two or more. -/
def GameRoom.NobodyMeets (room : GameRoom) : Prop :=
  ∀ e ∈ room.edges.values, ∀ k ∈ e.keys, 2 ≤ k → ¬ BothSides (groupsAt room.reservedMoves e k)

instance (room : GameRoom) : Decidable room.NobodyMeets := List.decidableBAll _ _

/-- The resolutions in which nobody meets, and every other call. -/
def MeetsNobody (room : GameRoom) : Call → Prop
  | .resolveRound _ _ => room.NobodyMeets
  | _ => True

instance (room : GameRoom) : ∀ call, Decidable (MeetsNobody room call)
  | .resolveRound _ _ => inferInstanceAs (Decidable room.NobodyMeets)
  | .addPlayer _ _ _ | .moveUnits _ _ | .resolveEncounter _ _ _ | .forceGameOver _ _ => .isTrue trivial

/-! ## One resolution -/

theorem bothSides_iff {gs : List TravelingGroup} :
    BothSides gs ↔ ∃ gA gB, Edge.firstOf .a gs = some gA ∧ Edge.firstOf .b gs = some gB := by
  have hside : ∀ s, groupsOf s gs ≠ [] ↔ ∃ g, Edge.firstOf s gs = some g := fun s => by
    rw [← Option.isSome_iff_exists, Option.isSome_iff_ne_none]
    exact not_congr Edge.firstOf_eq_none.symm
  constructor
  · intro h
    obtain ⟨gA, hA⟩ := (hside .a).mp (h .a)
    obtain ⟨gB, hB⟩ := (hside .b).mp (h .b)
    exact ⟨gA, gB, hA, hB⟩
  · rintro ⟨gA, gB, hA, hB⟩ s
    cases s with
    | a => exact (hside .a).mpr ⟨gA, hA⟩
    | b => exact (hside .b).mpr ⟨gB, hB⟩

/-- Nobody meets exactly if the round finds no encounter. -/
theorem Sound.encounters_eq_nil_iff (h : Sound room) :
    sourceOrder.encounters room = [] ↔ room.NobodyMeets := by
  rw [List.eq_nil_iff_forall_not_mem]
  constructor
  · intro hnone e he k _ hk hboth
    obtain ⟨id, hid⟩ := Dict.mem_values.mp he
    obtain ⟨gA, gB, hA, hB⟩ := bothSides_iff.mp hboth
    exact hnone ⟨id, gA, gB, k - 1⟩
      ((h.mem_encounters_iff sourceOrder).mpr ⟨id, e, k, gA, gB, hid, hk, hA, hB, rfl⟩)
  · intro hnobody enc henc
    obtain ⟨id, e, k, gA, gB, he, hk, hA, hB, -⟩ := (h.mem_encounters_iff sourceOrder).mp henc
    exact hnobody e (Dict.mem_values.mpr ⟨id, he⟩) k (mem_keys (Edge.firstOf_mem hA).1) hk
      (bothSides_iff.mpr ⟨gA, gB, hA, hB⟩)

/-- **A resolution never announces an encounter.** -/
theorem occurrencesOn_resolved (room : GameRoom) (deadline : Time) (edgeId : EdgeId) :
    occurrencesOn edgeId (sourceOrder.resolved room deadline).domainEvents = [] := by
  rw [events_resolved]
  rcases following_cases sourceOrder room deadline with ⟨e, he⟩ | ⟨e, he⟩
  · rw [he]
    rfl
  · rw [he]
    rfl

theorem summariesIn_resolved (room : GameRoom) (deadline : Time) :
    summariesIn (sourceOrder.resolved room deadline).domainEvents = [sourceOrder.summary room] := by
  rw [events_resolved]
  rcases following_cases sourceOrder room deadline with ⟨e, he⟩ | ⟨e, he⟩
  · rw [he]
    rfl
  · rw [he]
    rfl

/-- **A round of a session never reports a decided encounter**: the list has none. -/
theorem resolvedEncounters_summary (hnone : room.pendingEncounters = []) :
    (sourceOrder.summary room).resolvedEncounters = [] := by
  have hopen : ∀ p ∈ sourceOrder.nextEncounters room, p.bothDecided = false := by
    intro p hp
    rw [ProcessingOrder.nextEncounters, hnone, List.nil_append] at hp
    obtain ⟨enc, -, rfl⟩ := List.mem_map.mp hp
    rfl
  show ((sourceOrder.nextEncounters room).filter (·.bothDecided)).map resolvedRecord = []
  rw [List.filter_eq_nil_iff.mpr fun p hp => by rw [hopen p hp]; decide]
  rfl

/-! ## Every run -/

/-- The ledger of a session in which nobody has met so far. -/
structure Unmet (l : Ledger) : Prop where
  inSession : InSession l.room
  pending : l.room.pendingEncounters = []
  completed : l.completed = []

/-- A refused decision leaves the room as it is, and completes nothing. -/
theorem next_of_decisionRefusal {edgeId : EdgeId} {side : PlayerSide} {decision : EncounterDecision}
    (hr : (room.decisionRefusal edgeId side decision).isSome = true) :
    room.next (.resolveEncounter edgeId side decision) = room ∧
      room.completedBy (.resolveEncounter edgeId side decision) = [] := by
  refine ⟨?_, ?_⟩
  · rw [next_resolveEncounter, if_pos hr]
  · have hrefused : room.accepts (.resolveEncounter edgeId side decision) = false := by
      obtain ⟨e, he⟩ := Option.isSome_iff_exists.mp hr
      rw [accepts_decision, he]
      rfl
    exact if_neg (by rw [hrefused]; exact Bool.false_ne_true)

/-- Without pending encounters no decision is accepted. -/
theorem refused_of_nobody (hnone : room.pendingEncounters = []) (edgeId : EdgeId)
    (side : PlayerSide) (decision : EncounterDecision) :
    room.next (.resolveEncounter edgeId side decision) = room ∧
      room.completedBy (.resolveEncounter edgeId side decision) = [] := by
  have hfirst : room.encounterOn edgeId = none := by
    rw [encounterOn, hnone]
    rfl
  refine next_of_decisionRefusal ?_
  rw [decisionRefusal, hfirst]
  split <;> rfl

theorem Unmet.next {l : Ledger} (h : Unmet l) {call : Call} (hlegal : l.room.SessionLegal call)
    (hnobody : MeetsNobody l.room call) : Unmet (l.next call) := by
  have hs := h.inSession.sound
  refine ⟨h.inSession.next hlegal, ?_, ?_⟩
  · show (l.room.next call).pendingEncounters = []
    cases call with
    | addPlayer playerId deadline now =>
      rw [next_addPlayer hs.map]
      split
      · exact h.pending
      · rw [(joined_frame l.room playerId _).encounters]
        exact h.pending
    | moveUnits side command =>
      rw [next_moveUnits]
      split <;> exact h.pending
    | resolveEncounter edgeId side decision =>
      rw [(refused_of_nobody h.pending edgeId side decision).1]
      exact h.pending
    | resolveRound deadline now =>
      have hphase := (h.inSession.orderly.ready hs hlegal).1
      rw [next_resolveRound hs hphase, pendingEncounters_resolved h.pending,
        hs.encounters_eq_nil_iff.mpr hnobody]
      rfl
    | forceGameOver winner reason => exact h.pending
  · cases call with
    | resolveRound deadline now => rfl
    | resolveEncounter edgeId side decision =>
      show l.completed ++ _ = []
      rw [h.completed, (refused_of_nobody h.pending edgeId side decision).2]
      rfl
    | addPlayer _ _ _ | moveUnits _ _ | forceGameOver _ _ =>
      exact (List.append_nil _).trans h.completed

/-- As long as nobody has met, a call is reported exactly if nobody meets in it. -/
theorem Unmet.reported_iff {l : Ledger} (h : Unmet l) {call : Call}
    (hlegal : l.room.SessionLegal call) : Reported l call ↔ MeetsNobody l.room call := by
  cases call with
  | resolveRound deadline now =>
    have hs := h.inSession.sound
    have hphase := (h.inSession.orderly.ready hs hlegal).1
    show (_ ∧ _) ↔ l.room.NobodyMeets
    rw [next_resolveRound hs hphase, summariesIn_resolved, ← hs.encounters_eq_nil_iff,
      pendingEncounters_resolved h.pending, h.pending, h.completed]
    simp only [occurrencesOn_resolved]
    constructor
    · rintro ⟨hannounced, -⟩
      refine List.eq_nil_iff_forall_not_mem.mpr fun enc henc => ?_
      have hone := hannounced enc.toPending (List.mem_map_of_mem henc) List.not_mem_nil
      cases hone
    · intro hnone
      rw [hnone]
      refine ⟨fun p hp => absurd hp List.not_mem_nil, fun summary hsum => ?_⟩
      rw [List.mem_singleton.mp hsum, resolvedEncounters_summary h.pending]
      exact List.Perm.refl []
  | addPlayer _ _ _ | moveUnits _ _ | resolveEncounter _ _ _ | forceGameOver _ _ => exact Iff.rfl

/-- **Encounter life-cycle reporting.**  A session's run reports every encounter as it should exactly
    if nobody meets in it. -/
theorem encounters_reported_iff {roomId : String} {calls : List Call}
    (hrun : (session roomId).Run calls) :
    (ledgers roomId).Steps Reported (ledgers roomId).start calls ↔
      (session roomId).Steps MeetsNobody (session roomId).start calls := by
  have hproject : ∀ {C : GameRoom → Call → Prop},
      (ledgers roomId).Steps (fun l => C l.room) (ledgers roomId).start calls ↔
        (session roomId).Steps C (session roomId).start calls :=
    Machine.steps_project (f := Ledger.room) fun _ _ => rfl
  have hstart : Unmet (ledgers roomId).start :=
    ⟨inSession_initial roomId, (initialRoom_fields roomId).encounters, rfl⟩
  rw [← hproject]
  exact Machine.steps_iff_of_carried (fun l call h hlegal hC => Unmet.next h hlegal hC)
    (fun l call h hlegal => Unmet.reported_iff h hlegal) hstart (hproject.mpr hrun)

/-- Two units meet and both go on: the meeting is not announced, and the decisions are not reported. -/
def decidedCalls : List Call :=
  [.addPlayer ⟨"p1"⟩ none 0, .addPlayer ⟨"p2"⟩ none 0,
    .moveUnits .a ⟨⟨1⟩, ⟨5⟩, 1⟩, .moveUnits .b ⟨⟨5⟩, ⟨1⟩, 1⟩, .resolveRound none 0,
    .resolveEncounter (EdgeId.of ⟨1⟩ ⟨5⟩) .a .advance,
    .resolveEncounter (EdgeId.of ⟨1⟩ ⟨5⟩) .b .advance, .resolveRound none 0]

theorem encounter_unreported :
    (session "room").Run decidedCalls ∧
      ¬ (ledgers "room").Steps Reported (ledgers "room").start decidedCalls := by
  decide +kernel

/-- A round in which nobody is on the same edge. -/
theorem encounters_reported_quiet :
    (ledgers "room").Steps Reported (ledgers "room").start
      [.addPlayer ⟨"p1"⟩ none 0, .addPlayer ⟨"p2"⟩ none 0, .moveUnits .a ⟨⟨1⟩, ⟨5⟩, 1⟩,
        .resolveRound none 0] :=
  (encounters_reported_iff (by decide +kernel)).mpr (by decide +kernel)

end HexWar
