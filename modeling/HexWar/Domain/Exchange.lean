/-
  The two sides exchanged.

  Once both players are seated, the rules do not know which side is which: every rule that names side
  A has a twin for side B.  One thing does tell them apart, the ORDER in which a resolution executes
  the reserved moves, side A's before side B's.  So a game in which the two sides change places, seats,
  units and all later calls, is the same game with the sides exchanged, provided that the rounds of the
  one execute side A's moves first where the rounds of the other execute side B's
  (`sides_exchangeable`).

  `exchanged` is one function for each kind of data, and each operation of the rules has one lemma that
  says it commutes with them; the round is put together from these.  The events are left out: they
  tell of the sides by name, and no rule reads them.

  The argument goes up in four layers, each of which uses only the one before it.

  1. The rules of a node and of an edge, on one record each.
  2. The loops of a resolution, by `foldl_exchanged`: a loop whose step commutes with the exchange
     commutes with it.
  3. The round.  The source executes side A's moves first (`sourceOrder`), so its counterpart executes
     side B's first (`rivalOrder`); it is here, and only here, that the two sides differ.
  4. A call, and from it a run.  `Mirrors` is the relation between the two rooms; it leaves out the
     name, the owner and the events, so that two rooms of different names can be compared.
-/
import HexWar.Domain.Simultaneity
import HexWar.Lib.Simulation

namespace HexWar

open Lib Lib.Action GameRoom

/-! ## The data of the two sides

What the exchange does to each record.  Where a record names a side it names the other one, and
where it holds something for each side the two change places.  The places `groupA` and `groupB` of
an encounter are exchanged as well, since the first of them is found by looking for side A. -/

/-- The other side of the other side is the side itself. -/
@[simp] theorem PlayerSide.enemy_enemy (s : PlayerSide) : s.enemy.enemy = s := by
  cases s <;> rfl

/-- Two sides are the same exactly if their opponents are. -/
theorem PlayerSide.enemy_inj {s t : PlayerSide} : s.enemy = t.enemy ↔ s = t := by
  cases s <;> cases t <;> decide

/-- The form in which a test on a side changes when the side does. -/
theorem PlayerSide.enemy_eq_iff {s t : PlayerSide} : s.enemy = t ↔ s = t.enemy := by
  cases s <;> cases t <;> decide

namespace PerSide

variable {α β : Type}

/-- What one side had, under `f`, is the other side's. -/
def exchanged (f : α → β) (p : PerSide α) : PerSide β := ⟨f p.b, f p.a⟩

/-- What a side has after the exchange is what the other had. -/
@[simp] theorem get_exchanged (f : α → β) (p : PerSide α) (s : PlayerSide) :
    (p.exchanged f).get s = f (p.get s.enemy) := by
  cases s <;> rfl

/-- Writing for one side becomes writing for the other. -/
theorem set_exchanged (f : α → β) (p : PerSide α) (s : PlayerSide) (x : α) :
    (p.set s x).exchanged f = (p.exchanged f).set s.enemy (f x) := by
  cases s <;> rfl

/-- So does changing what a side has, by functions that agree along `f`. -/
theorem update_exchanged {f : α → β} {g : α → α} {h : β → β} (hfg : ∀ x, f (g x) = h (f x))
    (p : PerSide α) (s : PlayerSide) :
    (p.update s g).exchanged f = (p.exchanged f).update s.enemy h := by
  rw [update, set_exchanged, update, get_exchanged, PlayerSide.enemy_enemy, hfg]

end PerSide

/-- The owner when the sides have changed places. -/
def NodeOwnership.exchanged : NodeOwnership → NodeOwnership
  | .neutral => .neutral
  | .playerA => .playerB
  | .playerB => .playerA
  | .contested => .contested

/-- No two owners become one, so tests on the owner keep their answer. -/
theorem NodeOwnership.exchanged_inj {o o' : NodeOwnership} : o.exchanged = o'.exchanged ↔ o = o' := by
  cases o <;> cases o' <;> decide

/-- The units of a node under the other flag. -/
def UnitGroup.exchanged (g : UnitGroup) : UnitGroup := { g with side := g.side.enemy }

/-- A node: its owner and its units change sides; its type, and so its rules, stay. -/
def Node.exchanged (n : Node) : Node :=
  { n with ownership := n.ownership.exchanged, units := n.units.exchanged UnitGroup.exchanged }

/-- A group under way belongs to the other side, and goes where it went. -/
def TravelingGroup.exchanged (g : TravelingGroup) : TravelingGroup := { g with side := g.side.enemy }

/-- An edge keeps its buckets, and each keeps the order of its groups. -/
def Edge.exchanged (e : Edge) : Edge :=
  { e with travelingUnits := e.travelingUnits.mapValues fun groups => groups.map (·.exchanged) }

/-- An encounter found on an edge: the two groups change places besides changing sides. -/
def EncounterInfo.exchanged (enc : EncounterInfo) : EncounterInfo :=
  ⟨enc.edgeId, enc.groupB.exchanged, enc.groupA.exchanged, enc.remainingRounds⟩

/-- What comes of a decision, for the other side. -/
def EncounterOutcome.exchanged (o : EncounterOutcome) : EncounterOutcome :=
  { o with side := o.side.enemy }

/-- An encounter that waits, with what has been decided in it so far. -/
def PendingEncounter.exchanged (p : PendingEncounter) : PendingEncounter where
  edgeId := p.edgeId
  groupA := p.groupB.exchanged
  groupB := p.groupA.exchanged
  remainingRounds := p.remainingRounds
  decision := p.decision.exchanged id
  outcome := p.outcome.exchanged fun o => o.map (·.exchanged)

/-- An arrival, for the other side. -/
def ArrivalInfo.exchanged (a : ArrivalInfo) : ArrivalInfo := { a with side := a.side.enemy }

/-- The same move, made by the other side. -/
def exchangedMove (m : SideMove) : SideMove := (m.1.enemy, m.2)

/-- The room with its sides exchanged, and without the events it holds. -/
def GameRoom.exchanged (room : GameRoom) : GameRoom :=
  { room with
    nodes := room.nodes.mapValues (·.exchanged)
    edges := room.edges.mapValues (·.exchanged)
    players := room.players.exchanged id
    unitUsedThisRound := room.unitUsedThisRound.exchanged id
    pendingMoves := room.pendingMoves.exchanged id
    pendingEncounters := room.pendingEncounters.map (·.exchanged)
    domainEvents := [] }

/-- The same call, made by the other side.  Nobody makes a resolution or a join for a side. -/
def Call.exchanged : Call → Call
  | .addPlayer playerId deadline now => .addPlayer playerId deadline now
  | .moveUnits side command => .moveUnits side.enemy command
  | .resolveEncounter edgeId side decision => .resolveEncounter edgeId side.enemy decision
  | .resolveRound deadline now => .resolveRound deadline now
  | .forceGameOver winner reason => .forceGameOver (winner.map (·.enemy)) reason

/-! ## The rules of a node

The count of mobile units, the garrison, the supply line and the owner.  The headquarters rule and
the supply line rule ask for the type of the node, which the exchange leaves alone. -/

/-- Whoever has more units owns the node; with equal counts it is contested or neutral for both. -/
theorem ownerByCount_exchanged (countA countB : Int) :
    (ownerByCount countA countB).exchanged = ownerByCount countB countA := by
  unfold ownerByCount
  -- the test for side A comes first in the source, so the three orders of the counts are gone
  -- through
  rcases Int.lt_trichotomy countA countB with hlt | rfl | hgt
  · have hzero : ¬ (countA = 0 ∧ countB = 0) := by omega
    have hzero' : ¬ (countB = 0 ∧ countA = 0) := by omega
    rw [if_neg hzero, if_neg hzero', if_neg (Int.lt_asymm hlt), if_pos hlt, if_pos hlt]
    rfl
  · by_cases hzero : countA = 0 ∧ countA = 0
    · rw [if_pos hzero]
      rfl
    · rw [if_neg hzero, if_neg (Int.lt_irrefl _), if_neg (Int.lt_irrefl _)]
      rfl
  · have hzero : ¬ (countA = 0 ∧ countB = 0) := by omega
    have hzero' : ¬ (countB = 0 ∧ countA = 0) := by omega
    rw [if_neg hzero, if_neg hzero', if_pos hgt, if_neg (Int.lt_asymm hgt), if_pos hgt]
    rfl

namespace Node

/-- The mobile units of a side are those of the other before. -/
theorem getMobileCount_exchanged (n : Node) (s : PlayerSide) :
    n.exchanged.getMobileCount s = n.getMobileCount s.enemy := by
  cases s <;> rfl

/-- Units are added to whoever they belong to. -/
theorem addUnits_exchanged (n : Node) (s : PlayerSide) (delta : Int) :
    (n.addUnits s delta).exchanged = n.exchanged.addUnits s.enemy delta := by
  cases s <;> rfl

/-- A garrison is set for whoever holds the node. -/
theorem setGarrison_exchanged (n : Node) (s : PlayerSide) (count : Int) :
    (n.setGarrison s count).exchanged = n.exchanged.setGarrison s.enemy count := by
  cases s <;> rfl

/-- An owner gets its garrison on a supply line, whoever it is. -/
theorem activateSupplyLineIfNeeded_exchanged (n : Node) :
    n.activateSupplyLineIfNeeded.exchanged = n.exchanged.activateSupplyLineIfNeeded := by
  unfold activateSupplyLineIfNeeded
  by_cases hs : n.isSupplyLine
  · have hs' : n.exchanged.isSupplyLine := hs
    rw [if_neg (not_not_intro hs), if_neg (not_not_intro hs')]
    show _ = if n.ownership.exchanged = .playerA then _ else if n.ownership.exchanged = .playerB then _
      else _
    rcases n.ownership with _ | _ | _ | _
    · rfl
    · exact setGarrison_exchanged n .a 1
    · exact setGarrison_exchanged n .b 1
    · rfl
  · have hs' : ¬ n.exchanged.isSupplyLine := hs
    rw [if_pos hs, if_pos hs']

/-- A side that does not own the node loses its garrison there. -/
theorem dropGarrison_exchanged (n : Node) (s : PlayerSide) :
    (n.dropGarrison s).exchanged = n.exchanged.dropGarrison s.enemy := by
  have howner : n.exchanged.ownership ≠ .fromPlayerSide s.enemy ↔
      n.ownership ≠ .fromPlayerSide s := by
    show n.ownership.exchanged ≠ _ ↔ _
    rcases n.ownership with _ | _ | _ | _ <;> cases s <;> decide
  unfold dropGarrison
  by_cases h : n.ownership ≠ .fromPlayerSide s
  · rw [if_pos h, if_pos (howner.mpr h)]
    exact setGarrison_exchanged n s 0
  · rw [if_neg h, if_neg fun h' => h (howner.mp h')]

/-- It does not matter whose garrison is looked at first. -/
theorem dropGarrison_comm (n : Node) :
    (n.dropGarrison .b).dropGarrison .a = (n.dropGarrison .a).dropGarrison .b := by
  rcases n with ⟨id, name, type, ownership, units, neighbors, departures⟩
  cases ownership <;> rfl

/-- The source drops side A's garrison and then side B's.  After the exchange the order is the other
    one, and `dropGarrison_comm` puts it back. -/
theorem deactivateSupplyLine_exchanged (n : Node) :
    n.deactivateSupplyLine.exchanged = n.exchanged.deactivateSupplyLine := by
  unfold deactivateSupplyLine
  by_cases hs : n.isSupplyLine
  · have hs' : n.exchanged.isSupplyLine := hs
    rw [if_neg (not_not_intro hs), if_neg (not_not_intro hs'), dropGarrison_exchanged,
      dropGarrison_exchanged]
    exact dropGarrison_comm n.exchanged
  · have hs' : ¬ n.exchanged.isSupplyLine := hs
    rw [if_pos hs, if_pos hs']

/-- The owner is recomputed from the counts, and the supply line follows the change of the owner. -/
theorem updateOwnership_exchanged (n : Node) :
    n.updateOwnership.exchanged = n.exchanged.updateOwnership := by
  unfold updateOwnership
  by_cases hq : n.isHeadquarters
  · have hq' : n.exchanged.isHeadquarters := hq
    rw [if_pos hq, if_pos hq']
    rfl
  · have hq' : ¬ n.exchanged.isHeadquarters := hq
    rw [if_neg hq, if_neg hq']
    have hcount : ownerByCount (n.exchanged.getTotalCount .a) (n.exchanged.getTotalCount .b) =
        (ownerByCount (n.getTotalCount .a) (n.getTotalCount .b)).exchanged :=
      (ownerByCount_exchanged _ _).symm
    simp only [hcount]
    -- whether the owner changes is the same question on both sides
    have hchanged : n.exchanged.ownership ≠
        (ownerByCount (n.getTotalCount .a) (n.getTotalCount .b)).exchanged ↔
          n.ownership ≠ ownerByCount (n.getTotalCount .a) (n.getTotalCount .b) :=
      not_congr NodeOwnership.exchanged_inj
    by_cases h : n.ownership ≠ ownerByCount (n.getTotalCount .a) (n.getTotalCount .b)
    · rw [if_pos h, if_pos (hchanged.mpr h), activateSupplyLineIfNeeded_exchanged,
        deactivateSupplyLine_exchanged]
      rfl
    · rw [if_neg h, if_neg fun h' => h (hchanged.mp h')]
      rfl

/-- **Units that arrive count for whoever they belong to.** -/
theorem arrived_exchanged (n : Node) (s : PlayerSide) (count : Int) :
    (n.arrived s count).exchanged = n.exchanged.arrived s.enemy count := by
  rw [arrived, activateSupplyLineIfNeeded_exchanged, updateOwnership_exchanged, addUnits_exchanged]
  rfl

/-- **And so do units that leave.** -/
theorem departed_exchanged (n : Node) (s : PlayerSide) (count : Int) :
    (n.departed s count).exchanged = n.exchanged.departed s.enemy count := by
  rw [departed, updateOwnership_exchanged, departed, ← addUnits_exchanged]
  rfl

end Node

/-! ## The rules of an edge

Departures put a group on the edge, a round's advance brings the groups nearer, a retreat takes the
groups of a side off it, and encounters are looked for in each bucket. -/

/-- The groups of one side, taken out. -/
theorem filter_side_exchanged (s : PlayerSide) (groups : List TravelingGroup) :
    (groups.map (·.exchanged)).filter (·.side ≠ s.enemy) =
      (groups.filter (·.side ≠ s)).map (·.exchanged) := by
  rw [List.filter_map]
  refine congrArg _ (List.filter_congr fun g _ => decide_eq_decide.mpr ?_)
  exact not_congr PlayerSide.enemy_inj

/-- The first group of a side, found. -/
theorem firstOf_exchanged (s : PlayerSide) (groups : List TravelingGroup) :
    Edge.firstOf s (groups.map (·.exchanged)) =
      (Edge.firstOf s.enemy groups).map (·.exchanged) := by
  unfold Edge.firstOf
  rw [List.find?_map]
  refine congrArg _ (congrArg (fun p => List.find? p groups) (funext fun g => ?_))
  exact decide_eq_decide.mpr PlayerSide.enemy_eq_iff

namespace Edge

/-- A departure appends the group to the farthest bucket, which it may have to make. -/
theorem startTravel_exchanged (e : Edge) (s : PlayerSide) (count : Int) (destination : NodeId) :
    (e.startTravel s count destination).exchanged =
      e.exchanged.startTravel s.enemy count destination := by
  have hbucket : (e.exchanged.travelingUnits.get? e.distance.roundsRequired).getD [] =
      ((e.travelingUnits.get? e.distance.roundsRequired).getD []).map (·.exchanged) := by
    show ((e.travelingUnits.mapValues _).get? _).getD [] = _
    rw [SortedList.get?_mapValues]
    cases e.travelingUnits.get? e.distance.roundsRequired <;> rfl
  have hset : e.exchanged.travelingUnits.set e.distance.roundsRequired
      ((e.exchanged.travelingUnits.get? e.distance.roundsRequired).getD [] ++
        [⟨s.enemy, count, destination⟩]) =
      (e.startTravel s count destination).travelingUnits.mapValues fun groups =>
        groups.map (·.exchanged) := by
    rw [startTravel, ← SortedList.set_mapValues, hbucket, List.map_append]
    rfl
  exact congrArg (fun units => ({ e with travelingUnits := units } : Edge)) hset.symm

/-- A retreat takes every group of the side off the edge. -/
theorem removeTravelingGroup_exchanged (e : Edge) (s : PlayerSide) :
    (e.removeTravelingGroup s).exchanged = e.exchanged.removeTravelingGroup s.enemy := by
  have hunits : (e.travelingUnits.mapValues fun groups =>
      (groups.filter (·.side ≠ s)).map (·.exchanged)) = (e.travelingUnits.mapValues fun groups =>
        (groups.map (·.exchanged)).filter (·.side ≠ s.enemy)) := by
    refine congrArg (fun f => e.travelingUnits.mapValues f) (funext fun groups => ?_)
    exact (filter_side_exchanged s groups).symm
  unfold exchanged removeTravelingGroup
  simp only [SortedList.mapValues_mapValues]
  rw [hunits]

/-- The loop of `advanceRound` takes no side. -/
theorem foldl_advanceEntry_exchanged (entries : List (Int × List TravelingGroup)) :
    ∀ acc : List TravelingGroup × SortedList (List TravelingGroup),
      (entries.map fun kvp => (kvp.1, kvp.2.map (·.exchanged))).foldl advanceEntry
          (acc.1.map (·.exchanged), acc.2.mapValues fun groups => groups.map (·.exchanged)) =
        ((entries.foldl advanceEntry acc).1.map (·.exchanged),
          (entries.foldl advanceEntry acc).2.mapValues fun groups => groups.map (·.exchanged)) := by
  -- by induction over the buckets; whether a bucket arrives does not depend on who is in it
  induction entries with
  | nil => exact fun _ => rfl
  | cons kvp rest ih =>
    intro acc
    rw [List.map_cons, List.foldl_cons, List.foldl_cons, ← ih]
    apply congrArg fun acc => List.foldl advanceEntry acc _
    unfold advanceEntry
    by_cases hle : kvp.1 - 1 ≤ 0
    · simp only [if_pos hle, List.map_append]
    · simp only [if_neg hle, SortedList.get?_mapValues]
      rw [← SortedList.set_mapValues]
      cases acc.2.get? (kvp.1 - 1) <;> simp

/-- The groups that arrive, and the edge that is left. -/
theorem advanceRound_exchanged (e : Edge) :
    e.exchanged.advanceRound = (e.advanceRound.1.map (·.exchanged), e.advanceRound.2.exchanged) := by
  have hloop := foldl_advanceEntry_exchanged e.travelingUnits.entries ([], SortedList.empty)
  have hfst := congrArg Prod.fst hloop
  have hsnd := congrArg Prod.snd hloop
  exact Prod.ext hfst (congrArg (fun units => { e with travelingUnits := units }) hsnd)

/-- The groups at a distance are those that were there, under the other flag. -/
theorem bucket_exchanged (e : Edge) (k : Int) :
    e.exchanged.bucket k = (e.bucket k).map (·.exchanged) := by
  show ((e.travelingUnits.mapValues _).get? k).getD [] = _
  rw [SortedList.get?_mapValues, bucket]
  cases e.travelingUnits.get? k <;> rfl

/-- Who is met and who meets change places. -/
theorem encounterAt_exchanged (e : Edge) (k : Int) :
    e.exchanged.encounterAt k = (e.encounterAt k).map (·.exchanged) := by
  -- the two searches change places: what was found for side A is found for side B
  refine Option.ext fun enc => ?_
  rw [encounterAt_eq_some, Option.map_eq_some_iff, bucket_exchanged, firstOf_exchanged,
    firstOf_exchanged]
  constructor
  · rintro ⟨gA, gB, hA, hB, rfl⟩
    obtain ⟨gB', hB', rfl⟩ := Option.map_eq_some_iff.mp hA
    obtain ⟨gA', hA', rfl⟩ := Option.map_eq_some_iff.mp hB
    exact ⟨_, encounterAt_eq_some.mpr ⟨gA', gB', hA', hB', rfl⟩, rfl⟩
  · rintro ⟨enc', henc', rfl⟩
    obtain ⟨gA, gB, hA, hB, rfl⟩ := encounterAt_eq_some.mp henc'
    exact ⟨gB.exchanged, gA.exchanged, Option.map_eq_some_iff.mpr ⟨gB, hB, rfl⟩,
      Option.map_eq_some_iff.mpr ⟨gA, hA, rfl⟩, rfl⟩

/-- The encounters on an edge are found in the order of the buckets, which stays. -/
theorem findAllEncounters_exchanged (e : Edge) :
    e.exchanged.findAllEncounters = e.findAllEncounters.map (·.exchanged) := by
  unfold findAllEncounters
  show (e.travelingUnits.entries.map _).filterMap _ = _
  rw [List.filterMap_map, List.map_filterMap]
  exact List.filterMap_congr fun kvp _ => encounterAt_exchanged e kvp.1

end Edge

/-! ## The loops of a resolution

Each step of a loop reads one node or one edge and writes it back, so it commutes with an exchange
of the whole dictionary. -/

/-- A departure from a node. -/
theorem departNode_exchanged (nodes : Dict NodeId Node) (m : SideMove) :
    departNode (nodes.mapValues (·.exchanged)) (exchangedMove m) =
      (departNode nodes m).mapValues (·.exchanged) := by
  have hget : (nodes.mapValues (·.exchanged)).get? (exchangedMove m).2.fromNode =
      (nodes.get? m.2.fromNode).map (·.exchanged) := Dict.get?_mapValues _ _ _
  unfold departNode
  rw [hget]
  rcases nodes.get? m.2.fromNode with _ | n
  · rfl
  · show (nodes.mapValues _).set m.2.fromNode (n.exchanged.departed m.1.enemy m.2.count) = _
    rw [← Node.departed_exchanged]
    exact Dict.set_mapValues _ _ _ _

/-- The same departure, on the edge. -/
theorem loadEdge_exchanged (edges : Dict EdgeId Edge) (m : SideMove) :
    loadEdge (edges.mapValues (·.exchanged)) (exchangedMove m) =
      (loadEdge edges m).mapValues (·.exchanged) := by
  have hget : (edges.mapValues (·.exchanged)).get? (exchangedMove m).2.edgeId =
      (edges.get? m.2.edgeId).map (·.exchanged) := Dict.get?_mapValues _ _ _
  unfold loadEdge
  rw [hget]
  rcases edges.get? m.2.edgeId with _ | e
  · rfl
  · show (edges.mapValues _).set e.id (e.exchanged.startTravel m.1.enemy m.2.count m.2.toNode) = _
    rw [← Edge.startTravel_exchanged]
    exact Dict.set_mapValues _ _ _ _

/-- An arrival at a node. -/
theorem arriveNode_exchanged (nodes : Dict NodeId Node) (a : ArrivalInfo) :
    arriveNode (nodes.mapValues (·.exchanged)) a.exchanged =
      (arriveNode nodes a).mapValues (·.exchanged) := by
  have hget : (nodes.mapValues (·.exchanged)).get? a.exchanged.destination =
      (nodes.get? a.destination).map (·.exchanged) := Dict.get?_mapValues _ _ _
  unfold arriveNode
  rw [hget]
  rcases nodes.get? a.destination with _ | n
  · rfl
  · show (nodes.mapValues _).set a.destination (n.exchanged.arrived a.side.enemy a.count) = _
    rw [← Node.arrived_exchanged]
    exact Dict.set_mapValues _ _ _ _

/-- A loop whose step commutes with the exchange commutes with it. -/
theorem foldl_exchanged {α β : Type} {step : α → β → α} {f : α → α} {g : β → β}
    (h : ∀ a b, step (f a) (g b) = f (step a b)) (bs : List β) (a : α) :
    (bs.map g).foldl step (f a) = f (bs.foldl step a) := by
  rw [List.foldl_map]
  exact List.foldl_hom f h

/-- What arrives from one edge. -/
theorem edgeArrivals_exchanged (e : Edge) :
    edgeArrivals e.exchanged = (edgeArrivals e).map (·.exchanged) := by
  unfold edgeArrivals
  rw [Edge.advanceRound_exchanged, List.map_map, List.map_map]
  rfl

/-- An arrival is held back in the one game exactly if it is in the other.  The two groups of an
    encounter are both blocked, so it does not matter which of them comes first. -/
theorem exchanged_mem_getBlockedUnits {a : ArrivalInfo} {encounters : List EncounterInfo} :
    a.exchanged ∈ getBlockedUnits (encounters.map (·.exchanged)) ↔ a ∈ getBlockedUnits encounters := by
  have hinj : ∀ b : ArrivalInfo, a.exchanged = b.exchanged ↔ a = b := by
    rintro ⟨d, s, c, v⟩
    rcases a with ⟨d', s', c', v'⟩
    simp [ArrivalInfo.exchanged, PlayerSide.enemy_inj]
  rw [mem_getBlockedUnits, mem_getBlockedUnits]
  constructor
  · rintro ⟨enc, henc, hwho⟩
    obtain ⟨enc', henc', rfl⟩ := List.mem_map.mp henc
    exact ⟨enc', henc', hwho.symm.imp (hinj _).mp (hinj _).mp⟩
  · rintro ⟨enc, henc, hwho⟩
    exact ⟨_, List.mem_map.mpr ⟨enc, henc, rfl⟩, hwho.symm.imp (hinj _).mpr (hinj _).mpr⟩

/-! ## The round

From here on a statement relates the source's resolution of the exchanged room to the rival's
resolution of the room. -/

/-- The order of a resolution that executes side B's moves first. -/
def rivalOrder : ProcessingOrder where
  moves := putFirst fun m => m.1 = .b
  arrivals := id
  moves_perm := putFirst_perm _
  arrivals_perm := fun as => List.Perm.refl as

variable {room room' : GameRoom}

/-- The rival executes what side B has reserved, then what side A has. -/
theorem rivalOrder_executed (room : GameRoom) : rivalOrder.executed room =
    (room.pendingMoves.b.map fun m => (.b, m)) ++ room.pendingMoves.a.map fun m => (.a, m) := by
  show putFirst _ room.reservedMoves = _
  unfold putFirst reservedMoves
  simp [List.filter_append, List.filter_map, Function.comp_def]

/-- The moves of the exchanged room, in the source's order, are those of side B first. -/
theorem executed_exchanged (room : GameRoom) :
    sourceOrder.executed room.exchanged = (rivalOrder.executed room).map exchangedMove := by
  rw [rivalOrder_executed, List.map_append, List.map_map, List.map_map]
  rfl

/-- The nodes after all departures. -/
theorem emptiedNodes_exchanged (room : GameRoom) :
    sourceOrder.emptiedNodes room.exchanged = (rivalOrder.emptiedNodes room).mapValues
      (·.exchanged) := by
  unfold ProcessingOrder.emptiedNodes
  rw [executed_exchanged]
  exact foldl_exchanged departNode_exchanged _ _

/-- The edges after all departures. -/
theorem loadedEdges_exchanged (room : GameRoom) :
    sourceOrder.loadedEdges room.exchanged = (rivalOrder.loadedEdges room).mapValues (·.exchanged) := by
  unfold ProcessingOrder.loadedEdges
  rw [executed_exchanged]
  exact foldl_exchanged loadEdge_exchanged _ _

/-- The edges after the round's advance. -/
theorem advancedEdges_exchanged (room : GameRoom) :
    sourceOrder.advancedEdges room.exchanged =
      (rivalOrder.advancedEdges room).mapValues (·.exchanged) := by
  unfold ProcessingOrder.advancedEdges
  rw [loadedEdges_exchanged, Dict.mapValues_mapValues, Dict.mapValues_mapValues]
  refine congrArg (fun f => (rivalOrder.loadedEdges room).mapValues f) (funext fun e => ?_)
  rw [Edge.advanceRound_exchanged]

/-- The groups that reach a node in the round. -/
theorem arrivingGroups_exchanged (room : GameRoom) :
    sourceOrder.arrivingGroups room.exchanged = (rivalOrder.arrivingGroups room).map (·.exchanged) := by
  unfold ProcessingOrder.arrivingGroups
  rw [loadedEdges_exchanged, Dict.values_mapValues, List.flatMap_map, List.map_flatMap]
  exact List.flatMap_congr fun e _ => edgeArrivals_exchanged e

/-- The encounters of the round. -/
theorem encounters_exchanged (room : GameRoom) :
    sourceOrder.encounters room.exchanged = (rivalOrder.encounters room).map (·.exchanged) := by
  unfold ProcessingOrder.encounters
  rw [advancedEdges_exchanged, Dict.values_mapValues, List.flatMap_map, List.map_flatMap]
  exact List.flatMap_congr fun e _ => Edge.findAllEncounters_exchanged e

/-- The arrivals that no encounter holds back. -/
theorem deliveries_exchanged (room : GameRoom) :
    sourceOrder.deliveries room.exchanged = (rivalOrder.deliveries room).map (·.exchanged) := by
  unfold ProcessingOrder.deliveries
  rw [encounters_exchanged, arrivingGroups_exchanged]
  show List.filter _ ((rivalOrder.arrivingGroups room).map _) =
    (List.filter _ (rivalOrder.arrivingGroups room)).map _
  rw [List.filter_map]
  refine congrArg _ (List.filter_congr fun a _ => decide_eq_decide.mpr ?_)
  exact not_congr exchanged_mem_getBlockedUnits

/-- The nodes after all arrivals. -/
theorem settledNodes_exchanged (room : GameRoom) :
    sourceOrder.settledNodes room.exchanged =
      (rivalOrder.settledNodes room).mapValues (·.exchanged) := by
  unfold ProcessingOrder.settledNodes
  rw [deliveries_exchanged, emptiedNodes_exchanged]
  exact foldl_exchanged arriveNode_exchanged _ _

/-- The nodes once the history of departures is cleared. -/
theorem closedNodes_exchanged (room : GameRoom) :
    (sourceOrder.settledNodes room.exchanged).mapValues Node.clearDepartureHistory =
      ((rivalOrder.settledNodes room).mapValues Node.clearDepartureHistory).mapValues
        (·.exchanged) := by
  rw [settledNodes_exchanged, Dict.mapValues_mapValues, Dict.mapValues_mapValues]
  rfl

/-- The encounters that wait for the next round. -/
theorem nextEncounters_exchanged (room : GameRoom) :
    sourceOrder.nextEncounters room.exchanged =
      (rivalOrder.nextEncounters room).map (·.exchanged) := by
  unfold ProcessingOrder.nextEncounters
  rw [encounters_exchanged, List.map_append, List.map_map, List.map_map]
  rfl

/-- Whether one side holds everything does not depend on which. -/
theorem checkGameOver_exchanged (h : room'.nodes = room.nodes.mapValues (·.exchanged)) :
    room'.checkGameOver = room.checkGameOver := by
  have howner : ∀ (n : Node) (o : NodeOwnership),
      decide (n.exchanged.ownership = o.exchanged) = decide (n.ownership = o) :=
    fun n o => decide_eq_decide.mpr NodeOwnership.exchanged_inj
  unfold checkGameOver
  simp only [h, Dict.values_mapValues, List.filter_map, List.all_map]
  rw [Bool.or_comm]
  refine congrArg₂ _ ?_ ?_
  · exact congrArg (List.all _) (funext fun n => howner n .playerA)
  · exact congrArg (List.all _) (funext fun n => howner n .playerB)

/-! ## Mirrored rooms

The relation that a run keeps.  It is stated field by field, so that each call has to speak only of
the fields it writes. -/

/-- The second room is the first one with its sides exchanged, whatever its name and owner and the
    events it holds. -/
structure Mirrors (room room' : GameRoom) : Prop where
  phase : room'.phase = room.phase
  currentRound : room'.currentRound = room.currentRound
  maxRounds : room'.maxRounds = room.maxRounds
  nodes : room'.nodes = room.nodes.mapValues (·.exchanged)
  edges : room'.edges = room.edges.mapValues (·.exchanged)
  players : room'.players = room.players.exchanged id
  used : room'.unitUsedThisRound = room.unitUsedThisRound.exchanged id
  moves : room'.pendingMoves = room.pendingMoves.exchanged id
  encounters : room'.pendingEncounters = room.pendingEncounters.map (·.exchanged)

/-- The exchanged room is a mirror of the room. -/
theorem mirrors_exchanged (room : GameRoom) : Mirrors room room.exchanged :=
  ⟨rfl, rfl, rfl, rfl, rfl, rfl, rfl, rfl, rfl⟩

/-- A mirror is the exchanged room under another name. -/
theorem Mirrors.exists_eq (h : Mirrors room room') : ∃ roomId owner events,
    room' = { room.exchanged with
      roomId := roomId, ownerServerId := owner, domainEvents := events } := by
  refine ⟨room'.roomId, room'.ownerServerId, room'.domainEvents, ?_⟩
  obtain ⟨hphase, hround, hmax, hnodes, hedges, hplayers, hused, hmoves, hencs⟩ := h
  cases room'
  cases hphase; cases hround; cases hmax; cases hnodes; cases hedges; cases hplayers; cases hused
  cases hmoves; cases hencs
  rfl

/-- As many players are seated. -/
theorem Mirrors.playerCount (h : Mirrors room room') : room'.playerCount = room.playerCount := by
  unfold GameRoom.playerCount
  rw [h.players]
  exact Nat.add_comm _ _

/-- The units that the other side has moved in this round. -/
theorem getUsed_exchanged (h : Mirrors room room') (s : PlayerSide) :
    room'.unitUsedThisRound.get s.enemy = room.unitUsedThisRound.get s := by
  rw [h.used, PerSide.get_exchanged, PlayerSide.enemy_enemy]
  rfl

/-- The moves that the other side has reserved. -/
theorem getMoves_exchanged (h : Mirrors room room') (s : PlayerSide) :
    room'.pendingMoves.get s.enemy = room.pendingMoves.get s := by
  rw [h.moves, PerSide.get_exchanged, PlayerSide.enemy_enemy]
  rfl

namespace PendingEncounter

/-- Who has decided an encounter. -/
theorem hasDecided_exchanged (p : PendingEncounter) (s : PlayerSide) :
    p.exchanged.hasDecided s.enemy = p.hasDecided s := by
  cases s <;> rfl

/-- An encounter is over for both at once. -/
theorem bothDecided_exchanged (p : PendingEncounter) : p.exchanged.bothDecided = p.bothDecided :=
  Bool.and_comm _ _

/-- Groups of the two sides, in either place, are found where the other's were. -/
theorem groupOf_exchanged {p : PendingEncounter} (h : ∀ s, (p.groupOf s).side = s) (s : PlayerSide) :
    p.exchanged.groupOf s.enemy = (p.groupOf s).exchanged := by
  have hA := h .a
  have hB := h .b
  -- `groupOf` looks at the first group's side only, so both places are gone through
  rcases p with ⟨id, ⟨sA, cA, dA⟩, ⟨sB, cB, dB⟩, k, decision, outcome⟩
  cases sA with
  | a =>
    have hsB : sB = .b := hB
    subst hsB
    cases s <;> rfl
  | b =>
    have hsB : sB = .a := hA
    subst hsB
    cases s <;> rfl

end PendingEncounter

/-- A full room's mirror is as sound as the room. -/
theorem Mirrors.sound (h : Mirrors room room') (hs : Sound room) (hfull : 2 ≤ room.playerCount) :
    Sound room' := by
  have hseats := two_le_playerCount.mp (h.playerCount ▸ hfull)
  -- what is in the mirror's dictionaries comes from the room's
  have hnode : ∀ id n, room'.nodes.get? id = some n →
      ∃ n₀, room.nodes.get? id = some n₀ ∧ n₀.exchanged = n := fun id n hn => by
    rw [h.nodes, Dict.get?_mapValues] at hn
    exact Option.map_eq_some_iff.mp hn
  have hedge : ∀ id, (∃ e, room.edges.get? id = some e) → ∃ e, room'.edges.get? id = some e := by
    rintro id ⟨e, he⟩
    rw [h.edges, Dict.get?_mapValues, he]
    exact ⟨_, rfl⟩
  exact {
    map := by
      refine ⟨?_, ?_⟩
      · rw [h.nodes, Dict.mapValues_mapValues]
        exact hs.map.nodes
      · rw [h.edges, Dict.mapValues_mapValues]
        exact hs.map.edges
    edges := fun id e he => by
      rw [h.edges, Dict.get?_mapValues] at he
      obtain ⟨e₀, he₀, rfl⟩ := Option.map_eq_some_iff.mp he
      have hsound := hs.edges id e₀ he₀
      refine ⟨fun kvp hk => ?_, fun k g hg => ?_⟩
      · obtain ⟨kvp₀, hk₀, rfl⟩ := List.mem_map.mp hk
        exact hsound.inTransit kvp₀ hk₀
      · rw [Edge.bucket_exchanged] at hg
        obtain ⟨g₀, hg₀, rfl⟩ := List.mem_map.mp hg
        exact ⟨(hsound.groups k g₀ hg₀).pos, (hsound.groups k g₀ hg₀).destination⟩
    mobile := fun id n s hn => by
      obtain ⟨n₀, hn₀, rfl⟩ := hnode id n hn
      rw [Node.getMobileCount_exchanged]
      exact hs.mobile id n₀ _ hn₀
    encounters := fun p hp => by
      rw [h.encounters] at hp
      obtain ⟨p₀, hp₀, rfl⟩ := List.mem_map.mp hp
      have hsound := hs.encounters p₀ hp₀
      have hgroup : ∀ s, p₀.exchanged.groupOf s = (p₀.groupOf s.enemy).exchanged := fun s => by
        rw [← PendingEncounter.groupOf_exchanged hsound.side, PlayerSide.enemy_enemy]
      refine ⟨hedge _ hsound.edge, fun s => ?_, fun s => ?_⟩
      · rw [hgroup]
        show (p₀.groupOf s.enemy).side.enemy = s
        rw [hsound.side, PlayerSide.enemy_enemy]
      · rw [hgroup]
        exact ⟨(hsound.groups s.enemy).pos, (hsound.groups s.enemy).destination⟩
    moves := fun s => by
      have hsound := hs.moves s.enemy
      have hmoves := getMoves_exchanged h s.enemy
      have hused := getUsed_exchanged h s.enemy
      rw [PlayerSide.enemy_enemy] at hmoves hused
      refine ⟨fun m hm => ?_, fun id n hn => ?_, ?_, ?_⟩
      · rw [hmoves] at hm
        exact ⟨(hsound.moves m hm).1, hedge _ (hsound.moves m hm).2⟩
      · obtain ⟨n₀, hn₀, rfl⟩ := hnode id n hn
        rw [hmoves, Node.getMobileCount_exchanged]
        exact hsound.solvent id n₀ hn₀
      · rw [hmoves, hused]
        exact hsound.used
      · rw [hused]
        exact hsound.bounded
    phase := by
      rw [h.phase]
      exact hs.phase
    seats := fun _ => hseats.1
    waiting := fun hlt => absurd (h.playerCount ▸ hlt) (Nat.not_lt_of_le hfull) }

/-! ## One call

For each call, the refusals are compared first and then what the call does.  A join is always
refused, since the room is full; this is why the theorem starts from there. -/

/-- A move is refused to one side for the reason for which it is refused to the other. -/
theorem Mirrors.moveRefusal (h : Mirrors room room') (s : PlayerSide) (command : MoveCommand) :
    room'.moveRefusal s.enemy command = room.moveRefusal s command ∧
      room'.granted s.enemy command = room.granted s command := by
  have hgranted : room'.granted s.enemy command = room.granted s command := by
    unfold granted
    rw [getUsed_exchanged h]
  have hkeys : room'.edges.containsKey (EdgeId.of command.fromNode command.toNode) =
      room.edges.containsKey (EdgeId.of command.fromNode command.toNode) := by
    rw [h.edges]
    exact Dict.isSome_get?_mapValues _ _ _
  refine ⟨?_, hgranted⟩
  unfold GameRoom.moveRefusal
  rw [h.phase, getUsed_exchanged h, hgranted, hkeys, h.nodes, Dict.get?_mapValues]
  rcases room.nodes.get? command.fromNode with _ | n
  · rfl
  · have havailable : room'.availableAt s.enemy n.exchanged command.fromNode =
        room.availableAt s n command.fromNode := by
      unfold availableAt
      rw [getMoves_exchanged h, Node.getMobileCount_exchanged, PlayerSide.enemy_enemy]
    simp only [Option.map_some, havailable]

/-- A reserved move is the other side's in the mirror. -/
theorem Mirrors.reserve (h : Mirrors room room') (s : PlayerSide) (command : MoveCommand) :
    Mirrors (room.reserve s command) (room'.reserve s.enemy command) := by
  have hgranted := (h.moveRefusal s command).2
  refine ⟨h.phase, h.currentRound, h.maxRounds, h.nodes, h.edges, h.players, ?_, ?_, h.encounters⟩
  · show room'.unitUsedThisRound.update s.enemy (· + room'.granted s.enemy command) = _
    rw [h.used, hgranted]
    exact (PerSide.update_exchanged (f := id) (g := (· + room.granted s command))
      (fun _ => rfl) _ s).symm
  · show room'.pendingMoves.update s.enemy (· ++ [room'.grantedMove s.enemy command]) = _
    rw [h.moves, grantedMove, hgranted]
    exact (PerSide.update_exchanged (f := id) (g := (· ++ [room.grantedMove s command]))
      (fun _ => rfl) _ s).symm

/-- Translating a list before or after its first match is changed. -/
theorem modifyFirst_map {α β : Type} {p : α → Bool} {f : α → Option α} {q : β → Bool}
    {g : β → Option β} {t : α → β} (hp : ∀ x, q (t x) = p x) (hf : ∀ x, g (t x) = (f x).map t)
    (l : List α) : modifyFirst q g (l.map t) = (modifyFirst p f l).map t := by
  induction l with
  | nil => rfl
  | cons x xs ih =>
    rw [List.map_cons, modifyFirst, modifyFirst, hp, hf]
    split
    · rw [List.map_append]
      cases f x <;> rfl
    · rw [ih]
      rfl

/-- The encounter on an edge is found at the same place of the list. -/
theorem Mirrors.encounterOn (h : Mirrors room room') (edgeId : EdgeId) :
    room'.encounterOn edgeId = (room.encounterOn edgeId).map (·.exchanged) := by
  unfold GameRoom.encounterOn
  rw [h.encounters, List.find?_map]
  rfl

/-- A decision is refused to one side for the reason for which it is refused to the other. -/
theorem Mirrors.decisionRefusal (h : Mirrors room room') (hs : Sound room) (edgeId : EdgeId)
    (s : PlayerSide) (decision : EncounterDecision) :
    room'.decisionRefusal edgeId s.enemy decision = room.decisionRefusal edgeId s decision := by
  unfold GameRoom.decisionRefusal
  rw [h.phase, h.encounterOn, h.edges, Dict.get?_mapValues]
  rcases hp : room.encounterOn edgeId with _ | p
  · rfl
  · rw [Option.map_some]
    simp only [PendingEncounter.hasDecided_exchanged]
    rcases room.edges.get? edgeId with _ | e
    · rfl
    · rw [Option.map_some]
      simp only [PendingEncounter.groupOf_exchanged (hs.encounters p (encounterOn_mem hp).1).side]
      cases decision <;> rfl

section Decision

variable {p : PendingEncounter} (hside : ∀ s, (p.groupOf s).side = s) (e : Edge) (s : PlayerSide)
include hside

/-- What comes of a decision for the group that makes it. -/
theorem outcomeOf_exchanged (decision : EncounterDecision) :
    outcomeOf e.exchanged p.exchanged s.enemy decision = (outcomeOf e p s decision).exchanged := by
  cases decision with
  | advance =>
    show (⟨s.enemy, (p.exchanged.groupOf s.enemy).destination, _, _⟩ : EncounterOutcome) = _
    rw [PendingEncounter.groupOf_exchanged hside]
    rfl
  | retreat =>
    show (⟨s.enemy, oppositeEnd _ (p.exchanged.groupOf s.enemy).destination, _, _⟩ :
      EncounterOutcome) = _
    rw [PendingEncounter.groupOf_exchanged hside]
    rfl

/-- The encounter with the decision entered. -/
theorem marked_exchanged (decision : EncounterDecision) :
    marked e.exchanged p.exchanged s.enemy decision = (marked e p s decision).exchanged := by
  unfold marked
  rw [outcomeOf_exchanged hside]
  cases s <;> rfl

/-- The edge after the decision; a retreat turns the group round. -/
theorem edgeAfter_exchanged (decision : EncounterDecision) :
    edgeAfter e.exchanged p.exchanged s.enemy decision = (edgeAfter e p s decision).exchanged := by
  cases decision with
  | advance => rfl
  | retreat =>
    show (e.exchanged.removeTravelingGroup s.enemy).startTravel s.enemy
      (p.exchanged.groupOf s.enemy).unitCount
      (oppositeEnd e.id (p.exchanged.groupOf s.enemy).destination) = _
    rw [PendingEncounter.groupOf_exchanged hside, ← Edge.removeTravelingGroup_exchanged]
    exact (Edge.startTravel_exchanged _ _ _ _).symm

/-- The room after the decision. -/
theorem Mirrors.decideOn (h : Mirrors room room') (edgeId : EdgeId) (decision : EncounterDecision) :
    Mirrors (room.decideOn e p edgeId s decision)
      (room'.decideOn e.exchanged p.exchanged edgeId s.enemy decision) := by
  refine ⟨h.phase, h.currentRound, h.maxRounds, h.nodes, ?_, h.players, h.used, h.moves, ?_⟩
  · show room'.edgesAfter e.exchanged p.exchanged s.enemy decision =
      (room.edgesAfter e p s decision).mapValues _
    cases decision with
    | advance => exact h.edges
    | retreat =>
      show room'.edges.set e.id (edgeAfter e.exchanged p.exchanged s.enemy .retreat) =
        (room.edges.set e.id (edgeAfter e p s .retreat)).mapValues _
      rw [h.edges, edgeAfter_exchanged hside]
      exact Dict.set_mapValues _ _ _ _
  -- an encounter that both have decided leaves the list, in both rooms
  · show modifyFirst _ (fun _ => if (marked e.exchanged p.exchanged s.enemy decision).bothDecided
        then none else some (marked e.exchanged p.exchanged s.enemy decision)) room'.pendingEncounters =
      (modifyFirst _ (fun _ => if (marked e p s decision).bothDecided then none
        else some (marked e p s decision)) room.pendingEncounters).map _
    rw [h.encounters, marked_exchanged hside, PendingEncounter.bothDecided_exchanged]
    refine modifyFirst_map (fun _ => rfl) (fun _ => ?_) _
    split <;> rfl

end Decision

/-- **A resolution in the source's order mirrors one that executes side B's moves first.** -/
theorem Mirrors.resolved (h : Mirrors room room') (deadline : Time) :
    Mirrors (rivalOrder.resolved room deadline) (sourceOrder.resolved room' deadline) := by
  have hframe := resolved_frame rivalOrder room deadline
  have hframe' := resolved_frame sourceOrder room' deadline
  -- the game ends in both rooms or in neither: the same nodes are held, and the rounds are counted
  -- alike
  have hends : (sourceOrder.closedRoom room').endsGame ↔ (rivalOrder.closedRoom room).endsGame := by
    have hnodes : (sourceOrder.closedRoom room').nodes =
        (rivalOrder.closedRoom room).nodes.mapValues (·.exchanged) := by
      obtain ⟨roomId, owner, events, rfl⟩ := h.exists_eq
      exact closedNodes_exchanged room
    have hround :
        (sourceOrder.closedRoom room').currentRound > (sourceOrder.closedRoom room').maxRounds ↔
        (rivalOrder.closedRoom room).currentRound > (rivalOrder.closedRoom room).maxRounds := by
      show room'.currentRound + 1 > room'.maxRounds ↔ _
      rw [h.currentRound, h.maxRounds]
      exact Iff.rfl
    unfold GameRoom.endsGame
    rw [checkGameOver_exchanged hnodes, hround]
  refine ⟨?_, ?_, ?_, ?_, ?_, ?_, ?_, ?_, ?_⟩
  · rw [ProcessingOrder.resolved, ProcessingOrder.resolved, opened_phase, opened_phase]
    exact if_congr hends rfl rfl
  · rw [hframe.currentRound, hframe'.currentRound, h.currentRound]
  · rw [hframe.maxRounds, hframe'.maxRounds, h.maxRounds]
  · rw [hframe.nodes, hframe'.nodes]
    obtain ⟨roomId, owner, events, rfl⟩ := h.exists_eq
    exact closedNodes_exchanged room
  · rw [hframe.edges, hframe'.edges]
    obtain ⟨roomId, owner, events, rfl⟩ := h.exists_eq
    exact advancedEdges_exchanged room
  · rw [hframe.players, hframe'.players, h.players]
  · rw [hframe.used, hframe'.used]
    rfl
  · rw [hframe.moves, hframe'.moves]
    rfl
  · rw [hframe.encounters, hframe'.encounters]
    obtain ⟨roomId, owner, events, rfl⟩ := h.exists_eq
    exact nextEncounters_exchanged room

/-- The next room where a resolution executes side B's moves first. -/
def GameRoom.rivalNext (room : GameRoom) : Call → GameRoom
  | .resolveRound deadline now => after (resolveRoundIn rivalOrder deadline now) room
  | call => room.next call

/-- In the planning phase, a round as the rival resolves it. -/
theorem rivalNext_resolveRound (h : Sound room) (hphase : room.phase = .planning)
    (deadline : Option Time) (now : Time) : room.rivalNext (.resolveRound deadline now) =
      rivalOrder.resolved room (deadline.getD (now + defaultPlanning)) :=
  after_ok (resolveRoundIn_ok (h.resolvable hphase) rivalOrder deadline now)

/-- A round is resolved exactly in the planning phase. -/
theorem accepts_resolveRound (h : Sound room) (deadline : Option Time) (now : Time) :
    room.accepts (.resolveRound deadline now) = decide (room.phase = .planning) := by
  by_cases hphase : room.phase = .planning
  · rw [decide_eq_true hphase]
    exact succeeds_ok (resolveRound_ok (h.resolvable hphase) deadline now)
  · rw [decide_eq_false hphase]
    exact succeeds_error (resolveRound_throws hphase deadline now)

/-- Nobody joins a full room. -/
theorem addPlayer_full (hs : Sound room) (hfull : 2 ≤ room.playerCount) (playerId : PlayerId)
    (deadline : Option Time) (now : Time) :
    room.next (.addPlayer playerId deadline now) = room ∧
      room.accepts (.addPlayer playerId deadline now) = false := by
  have href : room.joinRefusal playerId = some (.domain "Room is full") := if_pos hfull
  obtain ⟨node, hnode⟩ := hs.map.start room.vacantSide
  have hjoin := addPlayer_eq hnode playerId deadline now
  refine ⟨(after_verdict hjoin).trans ?_, (succeeds_verdict hjoin).trans ?_⟩
  · rw [href]
    rfl
  · rw [href]
    rfl

/-- **One call.**  What it does to a full room, the exchanged call does to the mirror, and it is
    answered alike. -/
theorem Mirrors.next (h : Mirrors room room') (hs : Sound room) (hfull : 2 ≤ room.playerCount)
    (call : Call) :
    Mirrors (room.rivalNext call) (room'.next call.exchanged) ∧
      room'.accepts call.exchanged = room.accepts call := by
  have hs' := h.sound hs hfull
  cases call with
  | addPlayer playerId deadline now =>
    obtain ⟨hnext, haccepts⟩ := addPlayer_full hs hfull playerId deadline now
    obtain ⟨hnext', haccepts'⟩ := addPlayer_full hs' (h.playerCount ▸ hfull) playerId deadline now
    refine ⟨?_, haccepts'.trans haccepts.symm⟩
    show Mirrors (room.next (.addPlayer playerId deadline now))
      (room'.next (.addPlayer playerId deadline now))
    rw [hnext, hnext']
    exact h
  | moveUnits s command =>
    have href := (h.moveRefusal s command).1
    refine ⟨?_, ?_⟩
    · show Mirrors (room.next (.moveUnits s command)) (room'.next (.moveUnits s.enemy command))
      rw [next_moveUnits, next_moveUnits, href]
      split
      · exact h
      · exact h.reserve s command
    · show room'.accepts (.moveUnits s.enemy command) = room.accepts (.moveUnits s command)
      rw [accepts_move, accepts_move, href]
  | resolveEncounter edgeId s decision =>
    have href := h.decisionRefusal hs edgeId s decision
    refine ⟨?_, ?_⟩
    · show Mirrors (room.next (.resolveEncounter edgeId s decision))
        (room'.next (.resolveEncounter edgeId s.enemy decision))
      rw [next_resolveEncounter, next_resolveEncounter, href]
      rcases hr : room.decisionRefusal edgeId s decision with _ | error
      -- accepted: the encounter and the edge are those of the room, exchanged
      · obtain ⟨-, p, e, hp, -, he, -⟩ := decisionRefusal_none hr
        have hp' : room'.encounterOn edgeId = some p.exchanged := by
          rw [h.encounterOn, hp]
          rfl
        have he' : room'.edges.get? edgeId = some e.exchanged := by
          rw [h.edges, Dict.get?_mapValues, he]
          rfl
        show Mirrors (room.decideEncounter edgeId s decision)
          (room'.decideEncounter edgeId s.enemy decision)
        rw [decideEncounter_eq hp he, decideEncounter_eq hp' he']
        exact Mirrors.decideOn (hs.encounters p (encounterOn_mem hp).1).side e s h edgeId decision
      · exact h
    · show room'.accepts (.resolveEncounter edgeId s.enemy decision) =
        room.accepts (.resolveEncounter edgeId s decision)
      rw [accepts_decision, accepts_decision, href]
  | resolveRound deadline now =>
    refine ⟨?_, ?_⟩
    · show Mirrors _ (room'.next (.resolveRound deadline now))
      by_cases hphase : room.phase = .planning
      · rw [rivalNext_resolveRound hs hphase, next_resolveRound hs' (h.phase.trans hphase)]
        exact h.resolved _
      · have hrival : room.rivalNext (.resolveRound deadline now) = room :=
          after_error (resolveRoundIn_refused hphase rivalOrder deadline now)
        rw [hrival, next_resolveRound_refused fun hc => hphase (h.phase.symm.trans hc)]
        exact h
    · show room'.accepts (.resolveRound deadline now) = _
      rw [accepts_resolveRound hs', accepts_resolveRound hs, h.phase]
  | forceGameOver winner reason =>
    exact ⟨⟨rfl, h.currentRound, h.maxRounds, h.nodes, h.edges, h.players, h.used, h.moves,
      h.encounters⟩, rfl⟩

/-! ## Every run

The one step lemma that is needed besides `Mirrors.next`: the room stays sound and full, so that the
next call finds what it needs. -/

/-- A call leaves the seats of a full room taken. -/
theorem Sound.full_rivalNext (hs : Sound room) (hfull : 2 ≤ room.playerCount) (call : Call) :
    Sound (room.rivalNext call) ∧ 2 ≤ (room.rivalNext call).playerCount := by
  cases call with
  | addPlayer playerId deadline now =>
    show Sound (room.next (.addPlayer playerId deadline now)) ∧
      2 ≤ (room.next (.addPlayer playerId deadline now)).playerCount
    rw [(addPlayer_full hs hfull playerId deadline now).1]
    exact ⟨hs, hfull⟩
  | moveUnits s command =>
    refine ⟨hs.next (.moveUnits s command), ?_⟩
    show 2 ≤ (room.next (.moveUnits s command)).playerCount
    rw [next_moveUnits]
    split <;> exact hfull
  | resolveEncounter edgeId s decision =>
    refine ⟨hs.next (.resolveEncounter edgeId s decision), ?_⟩
    show 2 ≤ (room.next (.resolveEncounter edgeId s decision)).playerCount
    rw [next_resolveEncounter, decideEncounter]
    split
    · exact hfull
    · split <;> exact hfull
  | resolveRound deadline now =>
    by_cases hphase : room.phase = .planning
    · rw [rivalNext_resolveRound hs hphase]
      exact ⟨hs.resolved rivalOrder hphase _, by rw [playerCount_resolved]; exact hfull⟩
    · have hrival : room.rivalNext (.resolveRound deadline now) = room :=
        after_error (resolveRoundIn_refused hphase rivalOrder deadline now)
      rw [hrival]
      exact ⟨hs, hfull⟩
  | forceGameOver winner reason => exact ⟨hs.next (.forceGameOver winner reason), hfull⟩

/-- The room under any calls, with side B's moves executed first. -/
def rivals (roomId : String) : Machine GameRoom Call :=
  ⟨initialRoom roomId, GameRoom.rivalNext, fun _ _ => True⟩

/-- **The sides can be exchanged.**  Take any room that any calls have led to, once both players are
    there, and its mirror; make any calls in the room, and the exchanged calls in the mirror.  Then the
    mirror stays one, and the next call is accepted in it exactly if it is in the room, if the rounds
    of the room execute side B's moves first: the rules favour a side by that order and by nothing
    else. -/
theorem sides_exchangeable {roomId : String} (hreach : (rooms roomId).Reachable room)
    (hfull : 2 ≤ room.playerCount) (hmirror : Mirrors room room') (calls : List Call) :
    Mirrors ((rivals roomId).after room calls)
        ((rooms roomId).after room' (calls.map Call.exchanged)) ∧
      ∀ call, ((rooms roomId).after room' (calls.map Call.exchanged)).accepts call.exchanged =
        ((rivals roomId).after room calls).accepts call := by
  obtain ⟨hlast, hsound, hstill⟩ := Machine.after_translated (M := rivals roomId) (N := rooms roomId)
    (R := fun r r' => Mirrors r r' ∧ Sound r ∧ 2 ≤ r.playerCount) (C := fun _ _ => True)
    (f := Call.exchanged)
    (fun _ _ call hR _ => ⟨(hR.1.next hR.2.1 hR.2.2 call).1, hR.2.1.full_rivalNext hR.2.2 call⟩)
    ⟨hmirror, sound_of_reachable hreach, hfull⟩ (Machine.steps_of_forall (fun _ _ => trivial) calls room)
  exact ⟨hlast, fun call => (hlast.next hsound hstill call).2⟩

/-- Both sides send a unit to one supply line, and the round is resolved. -/
theorem sides_exchangeable_rivals :
    ∃ room calls, (rooms "room").Reachable room ∧ calls.length = 5 ∧
      Mirrors ((rivals "room").after room calls)
        ((rooms "room").after room.exchanged (calls.map Call.exchanged)) := by
  have hreach : (rooms "room").Reachable
      ((rooms "room").after (rooms "room").start (rivalCalls.take 2)) :=
    ⟨rivalCalls.take 2, Machine.steps_of_forall (fun _ _ => trivial) _ _, rfl⟩
  exact ⟨_, rivalCalls.drop 2 ++ [.resolveRound none 0], hreach, rfl,
    (sides_exchangeable hreach (by decide +kernel) (mirrors_exchanged _) _).1⟩

end HexWar
