/-
  What the outcome of a decided encounter is worth.

  With its decision a side gets an `EncounterOutcome`: where its group goes, and in how many rounds it
  is there.  The outcome is only a record.  What happens is what later advances do to the groups on the
  edge, and the detection that follows each of them sees the same groups again.

  `Outlook` keeps beside the room the encounters that both sides have decided, with the number of
  rounds resolved since, until their outcomes are due or somebody enters their edge.  A side that
  advances has one round to go and a side that retreats starts anew with two, so the two outcomes come
  true, unless BOTH retreat: then the groups, which now move apart, have again the same number of rounds
  to go, and meet once more.  The decided encounters of a run are over exactly if that does not happen
  (`decided_over_iff`).


  The invariant of a run (`Clear`) says of every decided encounter where its two groups are, as many
  rounds after the decision as have passed (`Underway`): the group of each outcome in the bucket that
  the rest of its rounds names, and nothing else of its side on the edge with another number of
  rounds.  It is set up by the second decision (`Clear.accepted`), and a round carries it on
  (`Foreseen.later`) unless both have gone back.
-/
import HexWar.Domain.Deliveries
import HexWar.Domain.Reports
import HexWar.Domain.Retreats

namespace HexWar

open Lib Lib.Action GameRoom

/-! ## The outlook -/

/-- An encounter that both sides have decided, and how many rounds have been resolved since. -/
structure DecidedEncounter where
  /-- The encounter as the second decision has left it, -/
  encounter : PendingEncounter
  /-- and the age of the decision. -/
  since : Int
deriving DecidableEq, Repr

namespace DecidedEncounter

/-- One of the outcomes takes longer. -/
def Due (d : DecidedEncounter) : Prop :=
  ¬ ∀ s, ∀ o ∈ d.encounter.outcome.get s, o.remainingRounds ≤ d.since

instance (d : DecidedEncounter) : Decidable d.Due := inferInstanceAs (Decidable (¬ _))

/-- One round later. -/
def later (d : DecidedEncounter) : DecidedEncounter := { d with since := d.since + 1 }

/-- Both sides went back. -/
def BothRetreat (d : DecidedEncounter) : Prop :=
  ∀ s, d.encounter.decision.get s = some .retreat

instance (d : DecidedEncounter) : Decidable d.BothRetreat := inferInstanceAs (Decidable (∀ _, _))

end DecidedEncounter

/-- No reserved move starts on the edge. -/
def GameRoom.NobodyEnters (room : GameRoom) (edgeId : EdgeId) : Prop :=
  loads room.reservedMoves edgeId = []

instance (room : GameRoom) (edgeId : EdgeId) : Decidable (room.NobodyEnters edgeId) :=
  inferInstanceAs (Decidable (_ = _))

/-- The room, with the decided encounters whose outcomes are still due and whose edges nobody has
    entered since. -/
structure Outlook where
  room : GameRoom
  decided : List DecidedEncounter

namespace Outlook

/-- A resolution drops what has been entered or is no longer due, and makes the rest older; a second
    decision adds an encounter. -/
def next (l : Outlook) (call : Call) : Outlook where
  room := l.room.next call
  decided :=
    match call with
    | .resolveRound _ _ =>
      ((l.decided.filter fun d => l.room.NobodyEnters d.encounter.edgeId).map (·.later)).filter (·.Due)
    | _ => l.decided ++ (l.room.completedBy call).map (⟨·, 0⟩)

end Outlook

/-- A session's room with its outlook. -/
def outlooks (roomId : String) : Machine Outlook Call :=
  ⟨⟨initialRoom roomId, []⟩, Outlook.next, fun l => l.room.SessionLegal⟩

/-! ## What the outcomes say -/

/-- The group that an outcome sends on. -/
def EncounterOutcome.group (o : EncounterOutcome) : TravelingGroup :=
  ⟨o.side, o.unitCount, o.destinationNode⟩

/-- An encounter on the same edge between the two groups that the outcomes of the first sent on. -/
def PendingEncounter.MeetsAgain (p p' : PendingEncounter) : Prop :=
  p'.edgeId = p.edgeId ∧ ∀ s, ∀ o ∈ p.outcome.get s, p'.groupOf s = o.group

instance (p p' : PendingEncounter) : Decidable (p.MeetsAgain p') := inferInstanceAs (Decidable (_ ∧ _))

/-- The record of the arrival that an outcome promises. -/
def EncounterOutcome.arrival (o : EncounterOutcome) (edgeId : EdgeId) : ArrivalRecord :=
  ⟨o.destinationNode, o.side, o.unitCount, edgeId⟩

/-- A resolution in which nobody enters the edge of a decided encounter does not register another one
    between its groups, and brings each group to its destination exactly if the rounds of its outcome
    have then passed. -/
def Over (l : Outlook) : Call → Prop
  | .resolveRound deadline now =>
    let room' := l.room.next (.resolveRound deadline now)
    ∀ d ∈ l.decided, l.room.NobodyEnters d.encounter.edgeId →
      (∀ p ∈ room'.pendingEncounters, ¬ d.encounter.MeetsAgain p) ∧
      ∀ s, ∀ o ∈ d.encounter.outcome.get s,
        (o.arrival d.encounter.edgeId ∈ (summariesIn room'.domainEvents).flatMap (·.arrivals) ↔
          d.since + 1 = o.remainingRounds)
  | _ => True

instance (l : Outlook) : ∀ call, Decidable (Over l call)
  | .resolveRound _ _ => List.decidableBAll _ _
  | .addPlayer _ _ _ | .moveUnits _ _ | .resolveEncounter _ _ _ | .forceGameOver _ _ => .isTrue trivial

/-- The resolutions before which no two sides have gone back from each other on an edge that nobody
    enters, and every other call. -/
def NoCommonRetreat (l : Outlook) : Call → Prop
  | .resolveRound _ _ =>
    ∀ d ∈ l.decided, l.room.NobodyEnters d.encounter.edgeId → ¬ d.BothRetreat
  | _ => True

instance (l : Outlook) : ∀ call, Decidable (NoCommonRetreat l call)
  | .resolveRound _ _ => List.decidableBAll _ _
  | .addPlayer _ _ _ | .moveUnits _ _ | .resolveEncounter _ _ _ | .forceGameOver _ _ => .isTrue trivial

/-! ## On the edge

What a decision leaves of the deciding side, and what an advance makes of it. -/

/-- The rounds that a decision leaves a group on an edge of distance 2. -/
def EncounterDecision.rounds : EncounterDecision → Int
  | .advance => 1
  | .retreat => 2

/-- A side `j` rounds after its decision.  The group of its outcome has the rest of the rounds to go;
    the side has no group with another number of rounds, and after a retreat no other group at all. -/
structure Underway (e : Edge) (d : EncounterDecision) (o : EncounterOutcome) (j : Int) : Prop where
  /-- The outcome has the rounds of its decision. -/
  rounds : o.remainingRounds = d.rounds
  /-- The side has nothing with another number of rounds to go; -/
  elsewhere : ∀ k, k ≠ o.remainingRounds - j → groupsOf o.side (e.bucket k) = []
  /-- its group is there until it arrives, -/
  present : j < o.remainingRounds → o.group ∈ groupsOf o.side (e.bucket (o.remainingRounds - j))
  /-- and after a retreat it is the only one. -/
  alone : d = .retreat → j < o.remainingRounds →
    groupsOf o.side (e.bucket (o.remainingRounds - j)) = [o.group]

/-- If the side has decided, its group is on the way. -/
def PendingEncounter.OnCourse (p : PendingEncounter) (e : Edge) (s : PlayerSide) (j : Int) : Prop :=
  ∀ d, p.decision.get s = some d → ∃ o, p.outcome.get s = some o ∧ o.side = s ∧ Underway e d o j

section Edge

variable {e e' : Edge} {d : EncounterDecision} {o : EncounterOutcome} {j : Int}

/-- Only the side's own groups matter. -/
theorem Underway.congr (h : Underway e d o j)
    (hsame : ∀ k, groupsOf o.side (e'.bucket k) = groupsOf o.side (e.bucket k)) :
    Underway e' d o j where
  rounds := h.rounds
  elsewhere k hk := (hsame k).trans (h.elsewhere k hk)
  present hj := (hsame _).symm ▸ h.present hj
  alone hd hj := (hsame _).trans (h.alone hd hj)

/-- An advance brings the group one round closer. -/
theorem Underway.next (h : Underway e d o j)
    (hnext : ∀ k, e'.bucket k = if 1 ≤ k then e.bucket (k + 1) else []) :
    Underway e' d o (j + 1) := by
  have hthere : j + 1 < o.remainingRounds →
      e'.bucket (o.remainingRounds - (j + 1)) = e.bucket (o.remainingRounds - j) := by
    intro hj
    rw [hnext, if_pos (by omega)]
    exact congrArg e.bucket (by omega)
  refine ⟨h.rounds, fun k hk => ?_, fun hj => ?_, fun hd hj => ?_⟩
  · rw [hnext]
    split
    · exact h.elsewhere (k + 1) (by omega)
    · rfl
  · rw [hthere hj]
    exact h.present (by omega)
  · rw [hthere hj]
    exact h.alone hd (by omega)

/-- A decision does not touch the groups of the other side. -/
theorem groupsOf_edgeAfter (e : Edge) (p : PendingEncounter) {s t : PlayerSide} (ht : t ≠ s)
    (d : EncounterDecision) (k : Int) :
    groupsOf t ((edgeAfter e p s d).bucket k) = groupsOf t (e.bucket k) := by
  cases d with
  | advance => rfl
  | retreat => rw [groupsOf_retreat, if_neg ht, if_neg fun h => ht h.2, List.append_nil]

/-- **The outcome of a decision** is right about where the group goes next. -/
theorem Meeting.underway {p : PendingEncounter} {s : PlayerSide} (h : Meeting p e)
    (htransit : e.InTransit) (hund : p.hasDecided s = false) (hside : (p.groupOf s).side = s)
    (d : EncounterDecision) : Underway (edgeAfter e p s d) d (outcomeOf e p s d) 0 := by
  have hdist := h.distance
  cases d with
  | advance =>
    have hrounds : (outcomeOf e p s .advance).remainingRounds = 1 := h.remaining
    -- On an edge of distance 2 a group has one round to go or two, and nobody has just started.
    refine ⟨hrounds, fun k hk => ?_, fun _ => ?_, fun hd => nomatch hd⟩
    · rw [hrounds] at hk
      show groupsOf s (e.bucket k) = []
      rcases em (k = 2) with rfl | hk2
      · exact h.groupsOf_fresh hund
      · refine groupsOf_eq_nil.mpr fun g hg => ?_
        have hkey := htransit.of_mem hg
        omega
    · rw [hrounds]
      have hgroup : (outcomeOf e p s .advance).group = p.groupOf s := by
        have hself : ∀ g : TravelingGroup, g.side = s → ⟨s, g.unitCount, g.destination⟩ = g := by
          rintro g rfl
          rfl
        exact hself _ hside
      rw [hgroup]
      exact mem_groupsOf.mpr ⟨h.present s hund, hside⟩
  | retreat =>
    have hrounds : (outcomeOf e p s .retreat).remainingRounds = 2 := hdist
    have hthere : groupsOf s ((edgeAfter e p s .retreat).bucket 2) =
        [(outcomeOf e p s .retreat).group] := by
      rw [groupsOf_retreat, if_pos rfl, if_pos ⟨hdist.symm, rfl⟩]
      rfl
    refine ⟨hrounds, fun k hk => ?_, fun _ => ?_, fun _ _ => ?_⟩
    · rw [hrounds] at hk
      show groupsOf s _ = []
      rw [groupsOf_retreat, if_pos rfl, if_neg fun h => hk (by omega)]
      rfl
    · rw [hrounds]
      show _ ∈ groupsOf s ((edgeAfter e p s .retreat).bucket 2)
      rw [hthere]
      exact List.mem_singleton_self _
    · rw [hrounds]
      exact hthere

end Edge

/-! ## A decided encounter

It is foreseen as long as nobody enters its edge. -/

variable {room : GameRoom}

/-- What is known of a decided encounter whose edge nobody has entered. -/
structure Foreseen (room : GameRoom) (d : DecidedEncounter) : Prop where
  /-- Both sides have decided, -/
  both : d.encounter.bothDecided = true
  /-- so nothing is pending on its edge, -/
  quiet : ∀ p ∈ room.pendingEncounters, p.edgeId ≠ d.encounter.edgeId
  /-- where both groups are on their way. -/
  course : ∃ e, room.edges.get? d.encounter.edgeId = some e ∧
    ∀ s, d.encounter.OnCourse e s d.since
  begun : 0 ≤ d.since
  /-- After a common retreat the first round has ended it. -/
  apart : 0 < d.since → ¬ d.BothRetreat

/-- It depends on its edge, and on the pending encounters there. -/
theorem Foreseen.congr {room' : GameRoom} {d : DecidedEncounter} (h : Foreseen room d)
    (hedge : room'.edges.get? d.encounter.edgeId = room.edges.get? d.encounter.edgeId)
    (hquiet : ∀ p ∈ room'.pendingEncounters, p.edgeId ≠ d.encounter.edgeId) :
    Foreseen room' d where
  both := h.both
  quiet := hquiet
  course := hedge ▸ h.course
  begun := h.begun
  apart := h.apart

section Round

variable {d : DecidedEncounter} {e : Edge}

/-- Each side has its decision, and the outcome that belongs to it. -/
theorem Foreseen.side (h : Foreseen room d)
    (he : room.edges.get? d.encounter.edgeId = some e) (s : PlayerSide) :
    ∃ dec o, d.encounter.decision.get s = some dec ∧ d.encounter.outcome.get s = some o ∧
      o.side = s ∧ Underway e dec o d.since := by
  obtain ⟨e', he', hcourse⟩ := h.course
  cases he.symm.trans he'
  have hdecided : d.encounter.hasDecided s = true := by
    have hboth := Bool.and_eq_true_iff.mp h.both
    cases s with
    | a => exact hboth.1
    | b => exact hboth.2
  obtain ⟨dec, hdec⟩ := Option.isSome_iff_exists.mp hdecided
  obtain ⟨o, ho, hside, hway⟩ := hcourse s dec hdec
  exact ⟨dec, o, hdec, ho, hside, hway⟩

/-- Nobody starts on the edge, so its groups are those that are on it. -/
theorem groupsAt_of_nobody (h : room.NobodyEnters e.id) (k : Int) :
    groupsAt room.reservedMoves e k = e.bucket k := by
  rw [groupsAt, h, ite_self, List.append_nil]

/-- Both sides have a group with two rounds to go only just after both have gone back. -/
theorem Foreseen.bothRetreat (h : Foreseen room d)
    (he : room.edges.get? d.encounter.edgeId = some e) {k : Int} (hk : 2 ≤ k)
    (hboth : BothSides (e.bucket k)) : d.BothRetreat := by
  intro s
  obtain ⟨dec, o, hdec, -, rfl, hway⟩ := h.side he s
  have hrounds : k = o.remainingRounds - d.since := by
    by_contra hne
    exact hboth o.side (hway.elsewhere k hne)
  have hlong := hway.rounds
  have hbegun := h.begun
  cases dec with
  | advance =>
    have hone : o.remainingRounds = 1 := hlong
    omega
  | retreat => exact hdec

/-- Unless both go back, a round finds no encounter on the edge. -/
theorem Foreseen.unmet (h : Foreseen room d) (hs : Sound room)
    (hnobody : room.NobodyEnters d.encounter.edgeId) (hapart : ¬ d.BothRetreat) :
    ∀ enc ∈ sourceOrder.encounters room, enc.edgeId ≠ d.encounter.edgeId := by
  intro enc henc hid
  obtain ⟨id, e, k, gA, gB, he, hk, hA, hB, rfl⟩ := (hs.mem_encounters_iff sourceOrder).mp henc
  cases hid
  have hsame : groupsAt (sourceOrder.executed room) e k = e.bucket k :=
    groupsAt_of_nobody (hs.map.keyed _ _ he ▸ hnobody) k
  rw [hsame] at hA hB
  exact hapart (h.bothRetreat he hk (bothSides_iff.mpr ⟨gA, gB, hA, hB⟩))

/-- If both go back, the next round finds an encounter of the two groups. -/
theorem Foreseen.met (h : Foreseen room d) (hs : Sound room)
    (hnobody : room.NobodyEnters d.encounter.edgeId) (hback : d.BothRetreat) :
    ∃ enc ∈ sourceOrder.encounters room, d.encounter.MeetsAgain enc.toPending := by
  obtain ⟨e, he, -⟩ := h.course
  have hfirst : ∀ s, ∃ o, d.encounter.outcome.get s = some o ∧ o.side = s ∧
      Edge.firstOf s (groupsAt (sourceOrder.executed room) e 2) = some o.group := by
    intro s
    obtain ⟨dec, o, hdec, ho, rfl, hway⟩ := h.side he s
    cases hdec.symm.trans (hback o.side)
    have hrounds : o.remainingRounds = 2 := hway.rounds
    have hzero : d.since = 0 := by
      have hbegun := h.begun
      have hnot : ¬ 0 < d.since := fun hpos => h.apart hpos hback
      omega
    have halone := hway.alone rfl (by omega)
    rw [hrounds, hzero] at halone
    refine ⟨o, ho, rfl, ?_⟩
    have hsame : groupsAt (sourceOrder.executed room) e 2 = e.bucket 2 :=
      groupsAt_of_nobody (hs.map.keyed _ _ he ▸ hnobody) 2
    rw [hsame, Edge.firstOf_eq_head?]
    exact congrArg List.head? halone
  obtain ⟨oA, hoA, hsA, hA⟩ := hfirst .a
  obtain ⟨oB, hoB, -, hB⟩ := hfirst .b
  refine ⟨_, (hs.mem_encounters_iff sourceOrder).mpr
    ⟨_, e, 2, _, _, he, Int.le_refl 2, hA, hB, rfl⟩, rfl, fun s o ho => ?_⟩
  rw [groupOf_toPending (show oA.group.side = .a from hsA)]
  cases s with
  | a =>
    cases hoA.symm.trans ho
    rfl
  | b =>
    cases hoB.symm.trans ho
    rfl

/-- Unless both go back, a round brings a group to its destination exactly in the last round of its
    outcome. -/
theorem Foreseen.arrives_iff (h : Foreseen room d) (hs : Sound room)
    (hnobody : room.NobodyEnters d.encounter.edgeId) (hapart : ¬ d.BothRetreat) {s : PlayerSide}
    {o : EncounterOutcome} (ho : d.encounter.outcome.get s = some o) :
    o.arrival d.encounter.edgeId ∈ (sourceOrder.summary room).arrivals ↔
      d.since + 1 = o.remainingRounds := by
  obtain ⟨e, he, -⟩ := h.course
  obtain ⟨dec, o', -, ho', rfl, hway⟩ := h.side he s
  cases ho.symm.trans ho'
  have hid : e.id = d.encounter.edgeId := hs.map.keyed _ _ he
  rw [summary_arrivals, hs.deliveries_source, arrivalsAt, List.mem_map]
  constructor
  · rintro ⟨a, ha, hrecord⟩
    obtain ⟨e', he', hg⟩ := List.mem_flatMap.mp ha
    obtain ⟨g, hmem, rfl⟩ := List.mem_map.mp hg
    -- the record names the group and the edge
    have hlook : g.arrivalOn e'.id = o.group.arrivalOn d.encounter.edgeId :=
      arrivalRecord_inj hrecord
    obtain ⟨rfl, hid'⟩ := arrivalOn_inj hlook
    obtain ⟨id', hget⟩ := Dict.mem_values.mp he'
    have hkey : id' = d.encounter.edgeId := (hs.map.keyed _ _ hget).symm.trans hid'
    cases he.symm.trans (hkey ▸ hget)
    have hthere := (List.mem_filter.mp hmem).1
    rw [groupsAt_of_nobody (hid ▸ hnobody)] at hthere
    by_contra hne
    have hnone := hway.elsewhere 1 (by omega)
    exact groupsOf_eq_nil.mp hnone _ hthere rfl
  · intro hlast
    have hthere : o.group ∈ e.bucket 1 := by
      have hpresent := hway.present (by omega)
      rw [show o.remainingRounds - d.since = 1 by omega] at hpresent
      exact (mem_groupsOf.mp hpresent).1
    have hnot : ¬ LooksMet room.reservedMoves e o.group := by
      intro hlook
      obtain ⟨k, gA, gB, hk, hA, hB, -⟩ := looksMet_iff.mp hlook
      rw [groupsAt_of_nobody (hid ▸ hnobody)] at hA hB
      exact hapart (h.bothRetreat he hk (bothSides_iff.mpr ⟨gA, gB, hA, hB⟩))
    refine ⟨o.group.arrivalOn d.encounter.edgeId, List.mem_flatMap.mpr
      ⟨e, Dict.mem_values.mpr ⟨_, he⟩, List.mem_map.mpr ⟨o.group, List.mem_filter.mpr
        ⟨?_, decide_eq_true hnot⟩, by rw [hid]⟩⟩, rfl⟩
    rw [groupsAt_of_nobody (hid ▸ hnobody)]
    exact hthere

/-- **One round later**, unless both go back. -/
theorem Foreseen.later (h : Foreseen room d) (hs : Sound room) (hnone : room.pendingEncounters = [])
    (hnobody : room.NobodyEnters d.encounter.edgeId) (hapart : ¬ d.BothRetreat) (deadline : Time) :
    Foreseen (sourceOrder.resolved room deadline) d.later where
  both := h.both
  quiet p hp := by
    rw [pendingEncounters_resolved hnone] at hp
    obtain ⟨enc, henc, rfl⟩ := List.mem_map.mp hp
    exact h.unmet hs hnobody hapart enc henc
  course := by
    obtain ⟨e, he, hcourse⟩ := h.course
    refine ⟨e.advanceRound.2, ?_, fun s dec hdec => ?_⟩
    -- Nobody starts on the edge, so all that the round does there is the advance.
    · rw [(resolved_frame sourceOrder room deadline).edges]
      show (sourceOrder.advancedEdges room).get? d.encounter.edgeId = _
      have hloads : loads (sourceOrder.executed room) d.encounter.edgeId = [] := hnobody
      rw [get?_advanced sourceOrder hs.map.keyed, he, hloads]
      rfl
    · obtain ⟨o, ho, hside, hway⟩ := hcourse s dec hdec
      exact ⟨o, ho, hside, hway.next (Edge.bucket_advanceRound e)⟩
  begun := by
    have hbegun := h.begun
    show 0 ≤ d.since + 1
    omega
  apart _ := hapart

end Round

/-! ## A decision

The deciding side's group goes where its outcome says; the other side's stays where it was. -/

/-- After a decision of `side`, the group of its outcome is on the way, and the other side's is where
    it was. -/
theorem Meeting.onCourse_marked {p : PendingEncounter} {e : Edge} (h : Meeting p e)
    (htransit : e.InTransit) (hside : ∀ s, (p.groupOf s).side = s) {side : PlayerSide}
    (hund : p.hasDecided side = false) (hcourse : ∀ s, p.OnCourse e s 0)
    (decision : EncounterDecision) (s : PlayerSide) :
    (GameRoom.marked e p side decision).OnCourse (edgeAfter e p side decision) s 0 := by
  intro dec hdec
  have hdecs : (GameRoom.marked e p side decision).decision = p.decision.set side (some decision) := rfl
  have houts : (GameRoom.marked e p side decision).outcome =
      p.outcome.set side (some (outcomeOf e p side decision)) := rfl
  rw [hdecs] at hdec
  rw [houts]
  rcases em (s = side) with rfl | hne
  · rw [PerSide.get_set_same] at hdec
    cases hdec
    refine ⟨_, PerSide.get_set_same _ _ _, ?_, h.underway htransit hund (hside s) decision⟩
    cases decision <;> rfl
  · rw [PerSide.get_set_of_ne _ hne] at hdec ⊢
    obtain ⟨o, ho, rfl, hway⟩ := hcourse s dec hdec
    exact ⟨o, ho, rfl, hway.congr (groupsOf_edgeAfter e p hne decision)⟩

/-- An accepted decision: the room after it, and the encounter that it completes. -/
theorem next_of_accepted (hs : Sound room) {edgeId : EdgeId} {side : PlayerSide}
    {decision : EncounterDecision} (hok : room.decisionRefusal edgeId side decision = none) :
    ∃ p e, room.encounterOn edgeId = some p ∧ p.hasDecided side = false ∧
      room.edges.get? edgeId = some e ∧ e.id = edgeId ∧
      room.next (.resolveEncounter edgeId side decision) = room.decideOn e p edgeId side decision ∧
      room.completedBy (.resolveEncounter edgeId side decision) =
        [marked e p side decision].filter (·.bothDecided) := by
  obtain ⟨p, e, hp, hund, he, hnext⟩ := next_decided hok
  have haccepted : room.accepts (.resolveEncounter edgeId side decision) = true := by
    rw [accepts_decision, hok]
    rfl
  refine ⟨p, e, hp, hund, he, hs.map.keyed _ _ he, hnext, ?_⟩
  rw [completedBy, if_pos haccepted, hp, he]

/-! ## Every run

The outlook adds nothing to what a session may do, so every run of a session has one. -/

/-- The outlook of a session in which every decided encounter has been over so far. -/
structure Clear (l : Outlook) : Prop where
  /-- The room is that of a session; -/
  inSession : InSession l.room
  /-- of a pending encounter the side that has decided is on its way, -/
  pending : ∀ p ∈ l.room.pendingEncounters, ∀ e, l.room.edges.get? p.edgeId = some e →
    ∀ s, p.OnCourse e s 0
  /-- and the decided ones are foreseen. -/
  decided : ∀ d ∈ l.decided, Foreseen l.room d

section Step

variable {l : Outlook}

/-- What leaves the edges and the encounters alone leaves everything foreseen. -/
theorem Clear.kept (h : Clear l) {room' : GameRoom} (hin : InSession room')
    (hedges : room'.edges = l.room.edges)
    (hencs : room'.pendingEncounters = l.room.pendingEncounters) : Clear ⟨room', l.decided⟩ where
  inSession := hin
  pending p hp e he := h.pending p (hencs ▸ hp) e (hedges ▸ he)
  decided d hd := (h.decided d hd).congr (by rw [hedges]) (hencs.symm ▸ (h.decided d hd).quiet)

/-- An accepted decision moves one side on one edge, and may complete the encounter there. -/
theorem Clear.accepted (h : Clear l) {edgeId : EdgeId} {side : PlayerSide}
    {decision : EncounterDecision} (hok : l.room.decisionRefusal edgeId side decision = none)
    (hin : InSession (l.room.next (.resolveEncounter edgeId side decision))) :
    Clear (l.next (.resolveEncounter edgeId side decision)) := by
  have hs := h.inSession.sound
  obtain ⟨p, e, hp, hund, he, hid, hnext, hcompleted⟩ := next_of_accepted hs hok
  obtain ⟨hmem, hpid⟩ := encounterOn_mem hp
  have hget : l.room.edges.get? p.edgeId = some e := hpid.symm ▸ he
  have hcourse := (h.inSession.orderly.meeting p hmem e hget).onCourse_marked
    (hs.edges _ _ he).inTransit (hs.encounters p hmem).side hund (h.pending p hmem e hget) decision
  have hedges : ∀ id, (l.room.decideOn e p edgeId side decision).edges.get? id =
      if edgeId = id then some (edgeAfter e p side decision) else l.room.edges.get? id :=
    get?_edgesAfter decision hid he
  have hleft := fun {q : PendingEncounter} => @mem_decideOn l.room p q e edgeId side decision
    h.inSession.orderly.unique hp
  refine ⟨hin, fun q hq e' he' => ?_, fun d hd => ?_⟩
  · replace hq : q ∈ (l.room.next (.resolveEncounter edgeId side decision)).pendingEncounters := hq
    replace he' : (l.room.next (.resolveEncounter edgeId side decision)).edges.get? q.edgeId =
      some e' := he'
    rw [hnext] at hq he'
    rw [hedges] at he'
    rcases hleft hq with ⟨hold, hne⟩ | ⟨rfl, -⟩
    · rw [if_neg (Ne.symm hne)] at he'
      exact h.pending q hold e' he'
    · have hqid : edgeId = (marked e p side decision).edgeId := hpid.symm
      rw [if_pos hqid] at he'
      cases he'
      exact hcourse
  · show Foreseen (l.room.next (.resolveEncounter edgeId side decision)) d
    rw [hnext]
    rcases List.mem_append.mp hd with hold | hnew
    · -- an encounter that was decided before is on another edge
      have hd' := h.decided d hold
      have hne : edgeId ≠ d.encounter.edgeId := hpid ▸ hd'.quiet p hmem
      refine hd'.congr (by rw [hedges, if_neg hne]) fun q hq => ?_
      rcases hleft hq with ⟨hq, -⟩ | ⟨rfl, -⟩
      · exact hd'.quiet q hq
      · exact hpid.symm ▸ hne
    · rw [hcompleted] at hnew
      obtain ⟨q, hq, rfl⟩ := List.mem_map.mp hnew
      obtain ⟨hq, hboth⟩ := List.mem_filter.mp hq
      cases List.mem_singleton.mp hq
      have hqid : edgeId = (marked e p side decision).edgeId := hpid.symm
      refine ⟨hboth, fun q hq => ?_, ⟨_, by rw [hedges, if_pos hqid], hcourse⟩, Int.le_refl 0,
        fun hpos => absurd hpos (Int.lt_irrefl 0)⟩
      rcases hleft hq with ⟨-, hne⟩ | ⟨rfl, hopen⟩
      · exact hqid ▸ hne
      · rw [hboth] at hopen
        cases hopen

theorem Clear.next (h : Clear l) {call : Call} (hlegal : l.room.SessionLegal call)
    (hretreat : NoCommonRetreat l call) : Clear (l.next call) := by
  have hs := h.inSession.sound
  have hin := h.inSession.next hlegal
  have hnone : ∀ ds : List DecidedEncounter, ds ++ ([] : List PendingEncounter).map (⟨·, 0⟩) = ds :=
    List.append_nil
  cases call with
  | addPlayer playerId deadline now =>
    have hframe : (l.room.next (.addPlayer playerId deadline now)).edges = l.room.edges ∧
        (l.room.next (.addPlayer playerId deadline now)).pendingEncounters =
          l.room.pendingEncounters := by
      rw [next_addPlayer hs.map]
      split
      · exact ⟨rfl, rfl⟩
      · have hjoined := joined_frame l.room playerId (deadline.getD (now + defaultPlanning))
        exact ⟨hjoined.edges, hjoined.encounters⟩
    show Clear ⟨_, l.decided ++ _⟩
    rw [show l.room.completedBy (.addPlayer playerId deadline now) = [] from rfl, hnone]
    exact h.kept hin hframe.1 hframe.2
  | moveUnits side command =>
    show Clear ⟨_, l.decided ++ _⟩
    rw [show l.room.completedBy (.moveUnits side command) = [] from rfl, hnone]
    refine h.kept hin ?_ ?_ <;> rw [next_moveUnits] <;> split <;> rfl
  | resolveEncounter edgeId side decision =>
    rcases hr : l.room.decisionRefusal edgeId side decision with _ | error
    · exact h.accepted hr hin
    · obtain ⟨hsame, hcompleted⟩ := next_of_decisionRefusal (Option.isSome_of_eq_some hr)
      show Clear ⟨_, l.decided ++ _⟩
      rw [hcompleted, hnone]
      exact h.kept hin (by rw [hsame]) (by rw [hsame])
  | resolveRound deadline now =>
    obtain ⟨hphase, hpending⟩ := h.inSession.orderly.ready hs hlegal
    refine ⟨hin, fun p hp e _ s dec hdec => ?_, fun d hd => ?_⟩
    · replace hp : p ∈ (l.room.next (.resolveRound deadline now)).pendingEncounters := hp
      rw [next_resolveRound hs hphase, pendingEncounters_resolved hpending] at hp
      obtain ⟨enc, -, rfl⟩ := List.mem_map.mp hp
      -- nobody has decided a new encounter
      have hopen : enc.toPending.decision.get s = none := PerSide.get_both none s
      rw [hopen] at hdec
      cases hdec
    · obtain ⟨d', hd', rfl⟩ := List.mem_map.mp (List.mem_filter.mp hd).1
      obtain ⟨hmem, hnobody⟩ := List.mem_filter.mp hd'
      replace hnobody := of_decide_eq_true hnobody
      show Foreseen (l.room.next (.resolveRound deadline now)) d'.later
      rw [next_resolveRound hs hphase]
      exact (h.decided d' hmem).later hs hpending hnobody (hretreat d' hmem hnobody) _
  | forceGameOver winner reason =>
    show Clear ⟨_, l.decided ++ _⟩
    rw [show l.room.completedBy (.forceGameOver winner reason) = [] from rfl, hnone]
    exact h.kept hin rfl rfl

/-- As long as every decided encounter has been over, a call leaves them so exactly if no two sides
    have gone back from each other. -/
theorem Clear.over_iff (h : Clear l) {call : Call} (hlegal : l.room.SessionLegal call) :
    Over l call ↔ NoCommonRetreat l call := by
  cases call with
  | resolveRound deadline now =>
    have hs := h.inSession.sound
    obtain ⟨hphase, hpending⟩ := h.inSession.orderly.ready hs hlegal
    refine forall₂_congr fun d hd => forall_congr' fun hnobody => ?_
    have hd' := h.decided d hd
    rw [next_resolveRound hs hphase, pendingEncounters_resolved hpending, summariesIn_resolved,
      List.flatMap_singleton]
    constructor
    · rintro ⟨hnever, -⟩ hback
      obtain ⟨enc, henc, hagain⟩ := hd'.met hs hnobody hback
      exact hnever _ (List.mem_map_of_mem henc) hagain
    · intro hapart
      refine ⟨fun p hp hagain => ?_, fun s o ho => hd'.arrives_iff hs hnobody hapart ho⟩
      obtain ⟨enc, henc, rfl⟩ := List.mem_map.mp hp
      exact hd'.unmet hs hnobody hapart enc henc hagain.1
  | addPlayer _ _ _ | moveUnits _ _ | resolveEncounter _ _ _ | forceGameOver _ _ => exact Iff.rfl

end Step

/-- **A decided encounter is over.**  As long as nobody enters its edge, its groups do not meet again
    and arrive in the rounds of their outcomes, in every run in which no two sides have gone back from
    each other on an edge that nobody enters, and in no other. -/
theorem decided_over_iff {roomId : String} {calls : List Call}
    (hrun : (session roomId).Run calls) :
    (outlooks roomId).Steps Over (outlooks roomId).start calls ↔
      (outlooks roomId).Steps NoCommonRetreat (outlooks roomId).start calls := by
  have hlegal : (outlooks roomId).Steps (fun l => l.room.SessionLegal) (outlooks roomId).start calls :=
    (Machine.steps_project (f := Outlook.room) fun _ _ => rfl).mpr hrun
  have hstart : Clear (outlooks roomId).start := by
    have hnone : (initialRoom roomId).pendingEncounters = [] :=
      (initialRoom_fields roomId).encounters
    refine ⟨inSession_initial roomId, fun p hp => ?_, fun d hd => nomatch hd⟩
    rw [show (outlooks roomId).start.room = initialRoom roomId from rfl, hnone] at hp
    cases hp
  exact Machine.steps_iff_of_carried (fun l call h hlegal hC => Clear.next h hlegal hC)
    (fun l call h hlegal => Clear.over_iff h hlegal) hstart hlegal

/-- One unit of each side meets, both go back, nobody moves, and they meet again on the way back. -/
def bothBackCalls : List Call :=
  [.addPlayer ⟨"p1"⟩ none 0, .addPlayer ⟨"p2"⟩ none 0,
    .moveUnits .a ⟨⟨1⟩, ⟨5⟩, 1⟩, .moveUnits .b ⟨⟨5⟩, ⟨1⟩, 1⟩, .resolveRound none 0,
    .resolveEncounter (EdgeId.of ⟨1⟩ ⟨5⟩) .a .retreat,
    .resolveEncounter (EdgeId.of ⟨1⟩ ⟨5⟩) .b .retreat, .resolveRound none 0,
    .resolveEncounter (EdgeId.of ⟨1⟩ ⟨5⟩) .a .advance,
    .resolveEncounter (EdgeId.of ⟨1⟩ ⟨5⟩) .b .advance, .resolveRound none 0]

theorem met_on_the_way_back :
    (session "room").Run bothBackCalls ∧
      ¬ (outlooks "room").Steps Over (outlooks "room").start bothBackCalls := by
  decide +kernel
/-- Two units meet and both go on. -/
theorem decided_over_advanced :
    (outlooks "room").Steps Over (outlooks "room").start decidedCalls :=
  (decided_over_iff (by decide +kernel)).mpr (by decide +kernel)

end HexWar
