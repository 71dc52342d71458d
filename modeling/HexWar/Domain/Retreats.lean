/-
  What a retreat turns round.

  A side that retreats is taken off its edge, from every bucket, and ONE group of it is put back: as
  many units as the group that the encounter had recorded, headed for the other end.  In a session the
  side has no group on the edge outside the bucket of the encounter (`Meeting`), so what else the
  retreat touches is decided in that bucket: it turns round exactly the units that met if and only if
  the recorded group is the only group of its side there (`retreat_turns_iff`).

  With another group beside it the units of that group are gone, which is what happens after a move
  that was split into two commands.


  The buckets are compared by the groups of each side in them.  After the retreat the side has nothing
  in the bucket of the encounter, and at the start of the edge it has the one group that was put back.
  That this is what met says, in units for each end, that the group's number is that of all its side's
  units there.  Since every group has a unit, it is then alone (`single_of_units`).
-/
import HexWar.Domain.Detection

namespace HexWar

open Lib Lib.Action GameRoom

/-- The units of a side in a bucket that head for a node. -/
def unitsTo (s : PlayerSide) (d : NodeId) (gs : List TravelingGroup) : Int :=
  unitsIn s (gs.filter (·.destination = d))

/-- The units that `s` has in bucket `k` of the edge are turned round, and nothing else on it is
    touched. -/
structure Edge.TurnsRound (e e' : Edge) (s : PlayerSide) (k : Int) : Prop where
  /-- It is the same edge of the map. -/
  map : edgeShape e' = edgeShape e
  /-- Those who headed for `d` now head for the other end, with the whole distance to go. -/
  turned : ∀ d d', e.id.getOppositeNode d = .ok d' →
    unitsTo s d' (e'.bucket e.distance.roundsRequired) =
      unitsTo s d' (e.bucket e.distance.roundsRequired) + unitsTo s d (e.bucket k)
  /-- None of them is left behind. -/
  left : groupsOf s (e'.bucket k) = []
  /-- The groups of `s` in other buckets stay where they are. -/
  joined : (groupsOf s (e.bucket e.distance.roundsRequired)).Sublist
    (groupsOf s (e'.bucket e.distance.roundsRequired))
  /-- In the buckets that neither side of the turn touches nothing of `s` has changed, -/
  others : ∀ j, j ≠ k → j ≠ e.distance.roundsRequired →
    groupsOf s (e'.bucket j) = groupsOf s (e.bucket j)
  /-- and nothing of its enemy anywhere. -/
  enemy : ∀ j, groupsOf s.enemy (e'.bucket j) = groupsOf s.enemy (e.bucket j)

/-- A retreat of `s` from the encounter `p` turns round the units that met, and leaves every other
    edge, every node and every reserved move as it is. -/
structure RetreatTurns (room room' : GameRoom) (p : PendingEncounter) (s : PlayerSide) : Prop where
  /-- On the edge of the encounter the units that met turn round. -/
  edge : ∃ e e', room.edges.get? p.edgeId = some e ∧ room'.edges.get? p.edgeId = some e' ∧
    e.TurnsRound e' s p.remainingRounds
  /-- The other edges, -/
  edges : ∀ id, id ≠ p.edgeId → room'.edges.get? id = room.edges.get? id
  /-- the nodes -/
  nodes : room'.nodes = room.nodes
  /-- and the reserved moves are as before. -/
  moves : room'.pendingMoves = room.pendingMoves

/-! ## One group

The groups of a side in a list, and what it takes to know that there is only one. -/

/-- The groups of a side in two lists, -/
theorem groupsOf_append (s : PlayerSide) (gs gs' : List TravelingGroup) :
    groupsOf s (gs ++ gs') = groupsOf s gs ++ groupsOf s gs' :=
  List.filter_append ..

/-- and when there are none. -/
theorem groupsOf_eq_nil {s : PlayerSide} {gs : List TravelingGroup} :
    groupsOf s gs = [] ↔ ∀ g ∈ gs, g.side ≠ s := by
  simp [groupsOf, List.filter_eq_nil_iff]

/-- Taking a side out of a list leaves nothing of it, and all of the other side. -/
theorem groupsOf_filter_ne (s t : PlayerSide) (gs : List TravelingGroup) :
    groupsOf t (gs.filter (·.side ≠ s)) = if t = s then [] else groupsOf t gs := by
  unfold groupsOf
  rw [List.filter_filter]
  rcases em (t = s) with rfl | hne
  · rw [if_pos rfl, List.filter_eq_nil_iff]
    intro g _
    simp
  · rw [if_neg hne]
    refine List.filter_congr fun g _ => ?_
    rcases em (g.side = t) with rfl | hg
    · simp [hne]
    · simp [hg]

/-- A group that has all the units of its side is alone. -/
theorem single_of_units {gs : List TravelingGroup} (h : AllPositive gs) {g : TravelingGroup}
    (hg : g ∈ gs) (hall : unitsIn g.side gs ≤ g.unitCount) : groupsOf g.side gs = [g] := by
  have hmem : g ∈ groupsOf g.side gs := mem_groupsOf.mpr ⟨hg, rfl⟩
  have hperm := List.perm_cons_erase hmem
  have hrest : (groupsOf g.side gs).erase g = [] := by
    rw [List.eq_nil_iff_forall_not_mem]
    intro x hx
    -- one more group would bring one more unit
    obtain ⟨hx', hxs⟩ := mem_groupsOf.mp (List.mem_of_mem_erase hx)
    have hpos : AllPositive ((groupsOf g.side gs).erase g) := fun y hy =>
      h y (mem_groupsOf.mp (List.mem_of_mem_erase hy)).1
    have hle := le_unitsIn hpos hx
    have hone := h x hx'
    have hsum : unitsIn g.side gs = g.unitCount + unitsIn g.side ((groupsOf g.side gs).erase g) := by
      have hown : unitsIn g.side gs = unitsIn g.side (groupsOf g.side gs) := by
        unfold unitsIn groupsOf
        rw [List.filter_filter]
        simp
      rw [hown, unitsIn_perm _ hperm, unitsIn_cons, if_pos rfl]
    rw [hxs] at hle
    omega
  rw [hrest] at hperm
  exact List.perm_singleton.mp hperm

/-- The units of a side that head for a node, read off the side's own groups. -/
theorem unitsTo_groupsOf (s : PlayerSide) (d : NodeId) (gs : List TravelingGroup) :
    unitsTo s d gs = unitsTo s d (groupsOf s gs) := by
  unfold unitsTo unitsIn groupsOf
  rw [List.filter_filter, List.filter_filter, List.filter_filter]
  have hsame : ∀ g : TravelingGroup, (decide (g.side = s) && decide (g.destination = d)) =
      (decide (g.side = s) && decide (g.destination = d) && decide (g.side = s)) := by
    intro g
    cases decide (g.side = s) <;> simp
  simp only [← hsame]

/-- The units of a list with one group. -/
theorem unitsTo_singleton (d : NodeId) (g : TravelingGroup) :
    unitsTo g.side d [g] = if g.destination = d then g.unitCount else 0 := by
  rw [unitsTo]
  rcases em (g.destination = d) with h | h
  · rw [if_pos h, List.filter_cons_of_pos (by simpa using h), List.filter_nil, unitsIn_cons,
      if_pos rfl, unitsIn_nil, Int.add_zero]
  · rw [if_neg h, List.filter_cons_of_neg (by simpa using h), List.filter_nil, unitsIn_nil]

/-! ## The edge

An edge has two ends, and its opposite is the other one.  The lemmas before the buckets say so for
an edge whose ends differ, as they do on the map. -/

/-- The opposite of an end is not that end, -/
theorem oppositeEnd_ne {e : EdgeId} (h : e.fromNode ≠ e.toNode) (n : NodeId) :
    oppositeEnd e n ≠ n := by
  unfold oppositeEnd
  split
  · next hn => exact fun heq => h (hn.symm.trans heq.symm)
  · next hn => exact fun heq => hn heq.symm

/-- and its opposite is the end again. -/
theorem oppositeEnd_opposite {e : EdgeId} (h : e.fromNode ≠ e.toNode) {n : NodeId}
    (hn : e.IsEnd n) : oppositeEnd e (oppositeEnd e n) = n := by
  rcases hn with rfl | rfl
  · simp [oppositeEnd, h.symm]
  · simp [oppositeEnd, h.symm]

/-- What an end of an edge is to its own opposite. -/
theorem end_cases {e : EdgeId} {n m : NodeId} (hn : e.IsEnd n) (hm : e.IsEnd m) :
    m = n ∨ m = oppositeEnd e n := by
  rcases hn with rfl | rfl
  · rcases hm with rfl | rfl
    · exact Or.inl rfl
    · exact Or.inr (by simp [oppositeEnd])
  · rcases hm with rfl | rfl
    · by_cases h : e.toNode = e.fromNode
      · exact Or.inl h.symm
      · exact Or.inr (by simp [oppositeEnd, h])
    · exact Or.inl rfl

variable {room : GameRoom}

/-- The groups of `t` in a bucket after `s` has retreated. -/
theorem groupsOf_retreat (e : Edge) (p : PendingEncounter) (s t : PlayerSide) (k : Int) :
    groupsOf t ((edgeAfter e p s .retreat).bucket k) =
      (if t = s then [] else groupsOf t (e.bucket k)) ++
        if k = e.distance.roundsRequired ∧ t = s then
          [⟨s, (p.groupOf s).unitCount, oppositeEnd e.id (p.groupOf s).destination⟩] else [] := by
  rw [bucket_retreat, groupsOf_append, groupsOf_filter_ne]
  refine congrArg _ ?_
  rcases em (k = e.distance.roundsRequired) with hk | hk
  · rw [if_pos hk]
    rcases em (t = s) with rfl | ht
    · rw [if_pos ⟨hk, rfl⟩]
      simp [groupsOf]
    · rw [if_neg fun h => ht h.2]
      simp [groupsOf, Ne.symm ht]
  · rw [if_neg hk, if_neg fun h => hk h.1]
    rfl

section Meeting

variable {p : PendingEncounter} {e : Edge} {s : PlayerSide}

/-- Whoever has not decided yet has nothing at the start of the edge. -/
theorem Meeting.groupsOf_fresh (h : Meeting p e) (hund : p.hasDecided s = false) :
    groupsOf s (e.bucket 2) = [] :=
  groupsOf_eq_nil.mpr (h.fresh s hund)

/-- So none of its units is there, whichever end they head for. -/
theorem Meeting.unitsTo_fresh (h : Meeting p e) (hund : p.hasDecided s = false) (d : NodeId) :
    unitsTo s d (e.bucket 2) = 0 := by
  rw [unitsTo_groupsOf, h.groupsOf_fresh hund]
  rfl

/-- The units of `s` on their way to `d` after the retreat are those of the returned group. -/
theorem Meeting.unitsTo_retreat (h : Meeting p e) (d : NodeId) :
    unitsTo s d ((edgeAfter e p s .retreat).bucket 2) =
      if oppositeEnd e.id (p.groupOf s).destination = d then (p.groupOf s).unitCount else 0 := by
  rw [unitsTo_groupsOf, groupsOf_retreat, h.distance, if_pos rfl, if_pos ⟨rfl, rfl⟩, List.nil_append]
  exact unitsTo_singleton d ⟨s, _, _⟩

/-- If the retreat turns round what met, all groups of `s` in the bucket go the way of the recorded one. -/
theorem Meeting.oneWay (h : Meeting p e) (he : EdgeSound e) (hproper : e.id.fromNode ≠ e.id.toNode)
    (hund : p.hasDecided s = false) (hturn : e.TurnsRound (edgeAfter e p s .retreat) s 1) :
    ∀ x ∈ groupsOf s (e.bucket 1), x.destination = (p.groupOf s).destination := by
  have hend := (he.groups 1 _ (h.present s hund)).destination
  have hcoming := hturn.turned _ _
    ((getOppositeNode_eq e.id _).trans (if_pos (isEnd_oppositeEnd e.id (p.groupOf s).destination)))
  rw [h.distance, h.unitsTo_retreat, h.unitsTo_fresh hund, oppositeEnd_opposite hproper hend,
    if_neg (oppositeEnd_ne hproper _)] at hcoming
  intro x hx
  obtain ⟨hx', hxs⟩ := mem_groupsOf.mp hx
  refine (end_cases hend (he.groups 1 x hx').destination).resolve_right fun hback => ?_
  have hmem : x ∈ (e.bucket 1).filter
      (·.destination = oppositeEnd e.id (p.groupOf s).destination) :=
    List.mem_filter.mpr ⟨hx', decide_eq_true hback⟩
  have hle := le_unitsIn
    (fun y hy => (he.groups 1 y (List.mem_of_mem_filter hy)).pos) hmem
  have hone := (he.groups 1 x hx').pos
  rw [hxs] at hle
  change 0 = 0 + unitsIn s _ at hcoming
  omega

/-- Then the recorded group is the only one of its side in the bucket. -/
theorem Meeting.single_of_turnsRound (h : Meeting p e) (he : EdgeSound e)
    (hproper : e.id.fromNode ≠ e.id.toNode) (hund : p.hasDecided s = false)
    (hside : (p.groupOf s).side = s) (hturn : e.TurnsRound (edgeAfter e p s .retreat) s 1) :
    groupsOf s (e.bucket 1) = [p.groupOf s] := by
  have hg := h.present s hund
  have hend := (he.groups 1 _ hg).destination
  have hgoing := hturn.turned _ _
    ((getOppositeNode_eq e.id (p.groupOf s).destination).trans (if_pos hend))
  rw [h.distance, h.unitsTo_retreat, h.unitsTo_fresh hund, if_pos rfl] at hgoing
  have hway := h.oneWay he hproper hund hturn
  -- All of them head for the same end, so the units that are turned round are all that met.
  have hwhole : unitsIn s (e.bucket 1) = unitsTo s (p.groupOf s).destination (e.bucket 1) := by
    rw [unitsTo_groupsOf, unitsTo, List.filter_eq_self.mpr fun x hx => decide_eq_true (hway x hx)]
    unfold unitsIn groupsOf
    rw [List.filter_filter]
    simp
  have hle : unitsIn (p.groupOf s).side (e.bucket 1) ≤ (p.groupOf s).unitCount := by
    rw [hside]
    omega
  have hsingle := single_of_units (fun x hx => (he.groups 1 x hx).pos) hg hle
  rwa [hside] at hsingle

/-- The only group of its side is turned round. -/
theorem Meeting.turnsRound_of_single (h : Meeting p e) (he : EdgeSound e)
    (hproper : e.id.fromNode ≠ e.id.toNode) (hund : p.hasDecided s = false)
    (hside : (p.groupOf s).side = s) (honly : groupsOf s (e.bucket 1) = [p.groupOf s]) :
    e.TurnsRound (edgeAfter e p s .retreat) s 1 := by
  have hdist := h.distance
  have hend := (he.groups 1 _ (h.present s hund)).destination
  refine ⟨rfl, fun d d' hd => ?_, ?_, ?_, fun j hj1 hj2 => ?_, fun j => ?_⟩
  · rw [getOppositeNode_eq] at hd
    split at hd
    · next hdend =>
      cases hd
      have hthere := unitsTo_singleton d (p.groupOf s)
      rw [hside] at hthere
      rw [hdist, h.unitsTo_retreat, h.unitsTo_fresh hund, unitsTo_groupsOf s d (e.bucket 1), honly,
        hthere, Int.zero_add]
      rcases end_cases hend hdend with rfl | rfl
      · rw [if_pos rfl, if_pos rfl]
      · rw [oppositeEnd_opposite hproper hend, if_neg (oppositeEnd_ne hproper _),
          if_neg (oppositeEnd_ne hproper _).symm]
    · cases hd
  · rw [groupsOf_retreat, if_pos rfl, hdist, if_neg (by omega)]
    rfl
  · rw [hdist, h.groupsOf_fresh hund]
    exact List.nil_sublist _
  -- On an edge of distance 2 there are no other buckets.
  · have hempty : e.bucket j = [] := by
      rw [List.eq_nil_iff_forall_not_mem]
      intro x hx
      have hkey := he.inTransit.of_mem hx
      omega
    rw [groupsOf_retreat, if_pos rfl, if_neg fun h => hj2 h.1, hempty]
    rfl
  · have hne : s.enemy ≠ s := s.enemy_ne
    rw [groupsOf_retreat, if_neg hne, if_neg fun h => hne h.2, List.append_nil]

/-- A retreat from a meeting turns round what met if and only if the recorded group is the only one
    of its side in the bucket. -/
theorem Meeting.turnsRound_iff (h : Meeting p e) (he : EdgeSound e)
    (hproper : e.id.fromNode ≠ e.id.toNode) (hund : p.hasDecided s = false)
    (hside : (p.groupOf s).side = s) :
    e.TurnsRound (edgeAfter e p s .retreat) s p.remainingRounds ↔
      groupsOf s (e.bucket p.remainingRounds) = [p.groupOf s] := by
  rw [h.remaining]
  exact ⟨h.single_of_turnsRound he hproper hund hside, h.turnsRound_of_single he hproper hund hside⟩

end Meeting

/-! ## The room

The decision is applied to its own edge; the rest of the room is out of its reach. -/

/-- **A retreat turns round exactly the units that met** if and only if the group that the encounter
    recorded for the side is its only group in that bucket of the edge. -/
theorem retreat_turns_iff {roomId : String} (h : (session roomId).Reachable room)
    {edgeId : EdgeId} {s : PlayerSide} {p : PendingEncounter} {e : Edge}
    (hp : room.encounterOn edgeId = some p) (he : room.edges.get? edgeId = some e)
    (haccepted : room.accepts (.resolveEncounter edgeId s .retreat) = true) :
    RetreatTurns room (room.next (.resolveEncounter edgeId s .retreat)) p s ↔
      groupsOf s (e.bucket p.remainingRounds) = [p.groupOf s] := by
  have hin := inSession_of_reachable h
  obtain ⟨hmem, hpid⟩ := encounterOn_mem hp
  have hok : room.decisionRefusal edgeId s .retreat = none := by
    rw [← Option.isNone_iff_eq_none, ← accepts_decision]
    exact haccepted
  obtain ⟨p', e', hp', hund, he', hnext⟩ := next_decided hok
  cases hp.symm.trans hp'
  cases he.symm.trans he'
  have hid : e.id = edgeId := hin.sound.map.keyed _ _ he
  have hproper : e.id.fromNode ≠ e.id.toNode := by
    rw [hid]
    exact mapEdges_proper _ (Dict.mem_iff_get?.mpr (hin.sound.map.edge_shape he))
  have hmeeting := hin.orderly.meeting p hmem e (hpid ▸ he)
  have hiff := hmeeting.turnsRound_iff (hin.sound.edges _ _ he) hproper hund
    ((hin.sound.encounters p hmem).side s)
  have hedges : ∀ id, (room.decideOn e p edgeId s .retreat).edges.get? id =
      if edgeId = id then some (edgeAfter e p s .retreat) else room.edges.get? id :=
    get?_edgesAfter .retreat hid he
  rw [hnext, ← hiff]
  constructor
  · rintro ⟨⟨e₀, e₁, he₀, he₁, hturn⟩, -, -, -⟩
    rw [hpid] at he₀ he₁
    rw [hedges, if_pos rfl] at he₁
    cases he.symm.trans he₀
    cases he₁
    exact hturn
  · intro hturn
    refine ⟨⟨e, _, hpid ▸ he, by rw [hedges, hpid, if_pos rfl], hturn⟩, fun id hne => ?_, rfl, rfl⟩
    rw [hedges, if_neg fun heq => hne (heq.symm.trans hpid.symm)]

/-- One unit of each side meets on the edge between nodes 1 and 5. -/
def meetingCalls : List Call :=
  [.addPlayer ⟨"p1"⟩ none 0, .addPlayer ⟨"p2"⟩ none 0,
    .moveUnits .a ⟨⟨1⟩, ⟨5⟩, 1⟩, .moveUnits .b ⟨⟨5⟩, ⟨1⟩, 1⟩, .resolveRound none 0]

theorem retreat_turns_meeting :
    ∃ room p e, (session "room").Reachable room ∧
      room.encounterOn (EdgeId.of ⟨1⟩ ⟨5⟩) = some p ∧
        room.edges.get? (EdgeId.of ⟨1⟩ ⟨5⟩) = some e ∧
      RetreatTurns room (room.next (.resolveEncounter (EdgeId.of ⟨1⟩ ⟨5⟩) .a .retreat)) p .a := by
  let room := (session "room").after (session "room").start meetingCalls
  have hread : ((room.encounterOn (EdgeId.of ⟨1⟩ ⟨5⟩)).bind fun p =>
      (room.edges.get? (EdgeId.of ⟨1⟩ ⟨5⟩)).map fun e =>
        decide (groupsOf .a (e.bucket p.remainingRounds) = [p.groupOf .a])) = some true := by
    decide +kernel
  have hreach : (session "room").Reachable room := ⟨meetingCalls, by decide +kernel, rfl⟩
  have haccepted : room.accepts (.resolveEncounter (EdgeId.of ⟨1⟩ ⟨5⟩) .a .retreat) = true := by
    decide +kernel
  obtain ⟨p, hp, hrest⟩ := Option.bind_eq_some_iff.mp hread
  obtain ⟨e, he, honly⟩ := Option.map_eq_some_iff.mp hrest
  exact ⟨room, p, e, hreach, hp, he,
    (retreat_turns_iff hreach hp he haccepted).mpr (of_decide_eq_true honly)⟩

/-- The room in which two groups of side A have met one of side B. -/
def splitRoom : GameRoom := (session "room").after (session "room").start splitCalls

/-- Side A retreats with two units, and one of them is put back. -/
theorem split_retreat_loses :
    (session "room").Reachable splitRoom ∧
      splitRoom.accepts (.resolveEncounter (EdgeId.of ⟨1⟩ ⟨5⟩) .a .retreat) = true ∧
      ∃ p, splitRoom.encounterOn (EdgeId.of ⟨1⟩ ⟨5⟩) = some p ∧
        ¬ RetreatTurns splitRoom
          (splitRoom.next (.resolveEncounter (EdgeId.of ⟨1⟩ ⟨5⟩) .a .retreat)) p .a := by
  have hread : ((splitRoom.encounterOn (EdgeId.of ⟨1⟩ ⟨5⟩)).bind fun p =>
      (splitRoom.edges.get? p.edgeId).bind fun e =>
        ((splitRoom.next (.resolveEncounter (EdgeId.of ⟨1⟩ ⟨5⟩) .a .retreat)).edges.get?
          p.edgeId).map fun e' =>
          decide (e.id = EdgeId.of ⟨1⟩ ⟨5⟩ ∧
            unitsTo .a ⟨1⟩ (e'.bucket e.distance.roundsRequired) ≠
            unitsTo .a ⟨1⟩ (e.bucket e.distance.roundsRequired) +
              unitsTo .a ⟨5⟩ (e.bucket p.remainingRounds))) = some true := by
    decide +kernel
  refine ⟨⟨splitCalls, by decide +kernel, rfl⟩, by decide +kernel, ?_⟩
  obtain ⟨p, hp, hrest⟩ := Option.bind_eq_some_iff.mp hread
  obtain ⟨e, he, hrest⟩ := Option.bind_eq_some_iff.mp hrest
  obtain ⟨e', he', hvalues⟩ := Option.map_eq_some_iff.mp hrest
  obtain ⟨hid, hless⟩ := of_decide_eq_true hvalues
  refine ⟨p, hp, fun hturns => ?_⟩
  obtain ⟨e₀, e₁, he₀, he₁, hturn⟩ := hturns.edge
  cases he.symm.trans he₀
  cases he'.symm.trans he₁
  refine hless (hturn.turned ⟨5⟩ ⟨1⟩ ?_)
  rw [hid]
  rfl

end HexWar
