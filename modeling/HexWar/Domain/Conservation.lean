/-
  Where the mobile units of a side are, and which steps lose some.

  A side's units stand on nodes or travel on edges; `total` counts both.  Departures move units from
  nodes to edges, travel keeps them on the edges or makes them arrive, deliveries move them to nodes.
  The one leak of a resolution is the filter between the last two: an arrival that LOOKS like a group
  of an encounter (same side, count, destination and edge) is held back, although it has left the
  edge.  The one leak of a decision is a retreat, which takes every group of the side off the edge
  and puts only the recorded one back.

  `KeepsUnits` says of a call, by the room before it, that neither leak occurs.  In a session that is
  exact (`total_next`): a call that keeps the units keeps the totals, and any other call lowers one.

  A round is three loops, and the account follows them one after the other: departures
  (`total_departures`), travel (`total_advance`), deliveries (`total_deliveries`).  Each keeps the sum of
  nodes, edges and arrivals in hand; between the second and the third the filter takes its share, which
  is the whole loss (`total_resolved`).  Whether that share is empty can be read off the room before the
  round (`ArrivalsDistinct`), and whether a retreat is whole off the edge before the decision
  (`RetreatsWhole`).
-/
import HexWar.Domain.Arrivals

namespace HexWar

open Lib Lib.Action GameRoom

variable {room : GameRoom}

/-- The units of a side, on nodes and on edges. -/
def GameRoom.total (room : GameRoom) (s : PlayerSide) : Int :=
  room.nodes.sum (·.getMobileCount s) + room.edges.sum (·.units s)

/-- The units of a side in a list of arrivals. -/
def arriving (s : PlayerSide) (as : List ArrivalInfo) : Int :=
  ((as.filter (·.side = s)).map (·.count)).sum

/-- The first arrival counts for its own side. -/
theorem arriving_cons (s : PlayerSide) (a : ArrivalInfo) (as : List ArrivalInfo) :
    arriving s (a :: as) = (if a.side = s then a.count else 0) + arriving s as := by
  rcases em (a.side = s) with h | h
  · simp [arriving, h]
  · simp [arriving, h]

/-- Two lists of arrivals bring what each of them brings. -/
theorem arriving_append (s : PlayerSide) (as bs : List ArrivalInfo) :
    arriving s (as ++ bs) = arriving s as + arriving s bs := by
  simp [arriving]

/-- The order of the arrivals does not matter. -/
theorem arriving_perm {as bs : List ArrivalInfo} (h : as.Perm bs) (s : PlayerSide) :
    arriving s as = arriving s bs :=
  ((h.filter _).map _).sum_eq

/-- A list of arrivals is what passes a filter and what it holds back. -/
theorem arriving_filter (s : PlayerSide) (p : ArrivalInfo → Bool) (as : List ArrivalInfo) :
    arriving s as = arriving s (as.filter p) + arriving s (as.filter fun a => ¬ p a) := by
  induction as with
  | nil => rfl
  | cons a as ih =>
    rw [arriving_cons, ih]
    rcases em (p a = true) with h | h
    · rw [List.filter_cons_of_pos h, List.filter_cons_of_neg (by simpa using h), arriving_cons]
      omega
    · rw [List.filter_cons_of_neg h, List.filter_cons_of_pos (by simpa using h), arriving_cons]
      omega

/-- Every group has units. -/
theorem arriving_nonneg {as : List ArrivalInfo} (h : ∀ a ∈ as, 1 ≤ a.count) (s : PlayerSide) :
    0 ≤ arriving s as := by
  induction as with
  | nil => exact Int.le_refl 0
  | cons a as ih =>
    have ha := h a List.mem_cons_self
    have hrest := ih fun a' ha' => h a' (List.mem_cons_of_mem _ ha')
    rw [arriving_cons]
    split <;> omega

/-- Arrivals without units are no arrivals. -/
theorem arriving_eq_zero {as : List ArrivalInfo} (h : ∀ a ∈ as, 1 ≤ a.count) :
    (∀ s, arriving s as = 0) ↔ as = [] := by
  constructor
  · intro hzero
    rcases as with _ | ⟨a, as⟩
    · rfl
    · exfalso
      have ha := h a List.mem_cons_self
      have hrest := arriving_nonneg (fun a' ha' => h a' (List.mem_cons_of_mem _ ha')) a.side
      have hsum := hzero a.side
      rw [arriving_cons, if_pos rfl] at hsum
      omega
  · rintro rfl s
    rfl

/-! ## The loops of a resolution

One pass of each loop first, as a change of one entry of a dictionary, then the loop by induction on
its list.  That the entries exist is what `Payable` and `Deliverable` say of the whole list. -/

/-- A departure takes its units from its node, -/
theorem sum_departNode {nodes : Dict NodeId Node} {m : SideMove} {n : Node}
    (hn : nodes.get? m.2.fromNode = some n) (s : PlayerSide) :
    (departNode nodes m).sum (·.getMobileCount s) =
      nodes.sum (·.getMobileCount s) - if m.1 = s then m.2.count else 0 := by
  have hdep := (Node.recount_departed n m.1 m.2.count).mobile s
  rw [departNode, hn]
  show (nodes.set m.2.fromNode (n.departed m.1 m.2.count)).sum _ = _
  rw [Dict.sum_set _ hn, hdep]
  rcases em (m.1 = s) with h | h
  · rw [if_pos h, if_pos h.symm]; omega
  · rw [if_neg h, if_neg fun h' => h h'.symm]; omega

/-- and puts them on its edge. -/
theorem sum_loadEdge {edges : Dict EdgeId Edge} (hk : Keyed edges) {m : SideMove} {e : Edge}
    (he : edges.get? m.2.edgeId = some e) (s : PlayerSide) :
    (loadEdge edges m).sum (·.units s) =
      edges.sum (·.units s) + if m.1 = s then m.2.count else 0 := by
  have hid : edges.get? e.id = some e := by
    rw [hk _ _ he]
    exact he
  rw [loadEdge, he]
  show (edges.set e.id (e.startTravel m.1 m.2.count m.2.toNode)).sum _ = _
  rw [Dict.sum_set _ hid, Edge.units_startTravel]
  rcases em (m.1 = s) with h | h
  · rw [if_pos h, if_pos h.symm]; omega
  · rw [if_neg h, if_neg fun h' => h h'.symm]; omega

/-- The departure loop moves units from nodes to edges, and loses none. -/
theorem total_departures {moves : List SideMove} (s : PlayerSide) :
    ∀ {nodes : Dict NodeId Node} {edges : Dict EdgeId Edge}, Payable nodes edges moves →
      Keyed edges →
      (moves.foldl departNode nodes).sum (·.getMobileCount s) +
        (moves.foldl loadEdge edges).sum (·.units s) =
      nodes.sum (·.getMobileCount s) + edges.sum (·.units s) := by
  -- the nodes and the edges change together, so the induction is over both
  induction moves with
  | nil => exact fun _ _ => rfl
  | cons m ms ih =>
    intro nodes edges hpay hk
    obtain ⟨n, hn⟩ := hpay.source m List.mem_cons_self
    obtain ⟨e, he⟩ := hpay.path m List.mem_cons_self
    have hrest := ih (hpay.tail hk) (hk.loadEdge m)
    rw [sum_departNode hn, sum_loadEdge hk he] at hrest
    rw [List.foldl_cons, List.foldl_cons, hrest]
    omega

/-- What arrives from an edge are the groups that have no round left. -/
theorem arriving_edgeArrivals (e : Edge) (s : PlayerSide) :
    arriving s (edgeArrivals e) = unitsIn s e.advanceRound.1 := by
  rw [edgeArrivals, arriving, unitsIn, List.filter_map, List.map_map]
  rfl

/-- Travel keeps units on their edge or makes them arrive. -/
theorem total_advance (edges : Dict EdgeId Edge) (s : PlayerSide) :
    (edges.mapValues (·.advanceRound.2)).sum (·.units s) +
      arriving s (edges.values.flatMap edgeArrivals) = edges.sum (·.units s) := by
  rw [Dict.sum_mapValues, Dict.sum, Dict.sum, Dict.values]
  generalize edges.entries = entries
  induction entries with
  | nil => rfl
  | cons kv rest ih =>
    have hedge := Edge.units_advanceRound kv.2 s
    rw [List.map_cons, List.flatMap_cons, arriving_append, arriving_edgeArrivals, sumBy_cons,
      sumBy_cons]
    omega

/-- An arrival brings its units to its destination. -/
theorem sum_arriveNode {nodes : Dict NodeId Node} {a : ArrivalInfo} {n : Node}
    (hn : nodes.get? a.destination = some n) (s : PlayerSide) :
    (arriveNode nodes a).sum (·.getMobileCount s) =
      nodes.sum (·.getMobileCount s) + if a.side = s then a.count else 0 := by
  have harr := (Node.recount_arrived n a.side a.count).mobile s
  rw [arriveNode, hn]
  show (nodes.set a.destination (n.arrived a.side a.count)).sum _ = _
  rw [Dict.sum_set _ hn, harr]
  rcases em (a.side = s) with h | h
  · rw [if_pos h, if_pos h.symm]; omega
  · rw [if_neg h, if_neg fun h' => h h'.symm]; omega

/-- The arrival loop brings every unit it delivers. -/
theorem total_deliveries {as : List ArrivalInfo} (s : PlayerSide) :
    ∀ {nodes : Dict NodeId Node}, Deliverable nodes as →
      (as.foldl arriveNode nodes).sum (·.getMobileCount s) =
        nodes.sum (·.getMobileCount s) + arriving s as := by
  induction as with
  | nil => exact fun _ => (Int.add_zero _).symm
  | cons a as ih =>
    intro nodes h
    obtain ⟨-, n, hn⟩ := h a List.mem_cons_self
    rw [List.foldl_cons, ih h.tail, sum_arriveNode hn, arriving_cons]
    omega

variable (o : ProcessingOrder)

/-- **What a resolution loses** is what the encounters hold back. -/
theorem total_resolved (h : Resolvable room) (deadline : Time) (s : PlayerSide) :
    (o.resolved room deadline).total s + arriving s (o.heldBack room) = room.total s := by
  have hframe := resolved_frame o room deadline
  have hdep := total_departures s (h.payable_in o) h.keyed
  have hadv := total_advance (o.loadedEdges room) s
  have hdel := total_deliveries s (h.deliverable o)
  -- the leak: what the filter does not let through is in no node and on no edge any more
  have hsplit := arriving_filter s (fun a => decide (a ∉ getBlockedUnits (o.encounters room)))
    (o.arrivals (o.arrivingGroups room))
  have hperm := arriving_perm (o.arrivals_perm (o.arrivingGroups room)) s
  have hheld : (o.arrivals (o.arrivingGroups room)).filter (fun a =>
      ¬ (decide (a ∉ getBlockedUnits (o.encounters room)) = true)) = o.heldBack room := by
    refine List.filter_congr fun a _ => ?_
    simp
  rw [hheld] at hsplit
  -- what remains of the round touches no mobile unit
  have hclear : ((o.settledNodes room).mapValues (·.clearDepartureHistory)).sum
      (·.getMobileCount s) = (o.settledNodes room).sum (·.getMobileCount s) :=
    Dict.sum_mapValues _ _ _
  rw [total, total, hframe.nodes, hframe.edges, hclear]
  change (o.settledNodes room).sum (·.getMobileCount s) = _ + arriving s (o.deliveries room) at hdel
  change arriving s (o.arrivals (o.arrivingGroups room)) = arriving s (o.deliveries room) + _ at hsplit
  change (o.advancedEdges room).sum (·.units s) + arriving s (o.arrivingGroups room) = _ at hadv
  change (o.emptiedNodes room).sum _ + (o.loadedEdges room).sum _ = _ at hdep
  omega

/-! ## The calls that keep the units

Of the five calls only two can lose units: a retreat, which clears the side's groups off the edge,
and the resolution of a round.  The conditions speak of the room before the call. -/

/-- No group that arrives this round looks like one that meets an enemy on its edge. -/
def ArrivalsDistinct (room : GameRoom) : Prop :=
  ∀ id e, room.edges.get? id = some e → ∀ g ∈ groupsAt room.reservedMoves e 1,
    ¬ LooksMet room.reservedMoves e g

/-- The group that is recorded for a side is all that the side has on the edge. -/
def RetreatsWhole (room : GameRoom) (edgeId : EdgeId) (side : PlayerSide) : Prop :=
  ∀ p e, room.encounterOn edgeId = some p → room.edges.get? edgeId = some e →
    p.hasDecided side = false → e.units side = (p.groupOf side).unitCount

/-- The calls that take no unit off the board, by the room in which they are made. -/
def KeepsUnits (room : GameRoom) : Call → Prop
  | .resolveEncounter edgeId side .retreat => room.phase = .planning → RetreatsWhole room edgeId side
  | .resolveRound _ _ => ArrivalsDistinct room
  | _ => True

/-- Nothing is held back exactly if no arrival looks like a group of an encounter. -/
theorem heldBack_eq_nil (h : Sound room) :
    sourceOrder.heldBack room = [] ↔ ArrivalsDistinct room := by
  rw [List.eq_nil_iff_forall_not_mem]
  constructor
  · intro hnone id e he g hg hlook
    exact hnone (g.arrivalOn id) ((h.mem_heldBack sourceOrder).mpr ⟨id, e, g, he, hg, hlook, rfl⟩)
  · intro hdist a ha
    obtain ⟨id, e, g, he, hg, hlook, -⟩ := (h.mem_heldBack sourceOrder).mp ha
    exact hdist id e he g hg hlook

/-- A decision loses what the side has on the edge beyond its recorded group. -/
theorem total_decideOn (hk : Keyed room.edges) {edgeId : EdgeId} {p : PendingEncounter} {e : Edge}
    (he : room.edges.get? edgeId = some e) (side : PlayerSide) (s : PlayerSide) :
    (room.decideOn e p edgeId side .retreat).total s =
      room.total s - if s = side then e.units side - (p.groupOf side).unitCount else 0 := by
  have hid : room.edges.get? e.id = some e := by
    rw [hk _ _ he]
    exact he
  have hunits : (edgeAfter e p side .retreat).units s =
      (if s = side then 0 else e.units s) + if s = side then (p.groupOf side).unitCount else 0 := by
    show ((e.removeTravelingGroup side).startTravel side _ _).units s = _
    rw [Edge.units_startTravel, Edge.units_removeTravelingGroup]
  show room.nodes.sum _ + (room.edges.set e.id (edgeAfter e p side .retreat)).sum _ = _
  rw [Dict.sum_set _ hid, hunits, total]
  rcases em (s = side) with rfl | hs
  · rw [if_pos rfl, if_pos rfl, if_pos rfl]
    omega
  · rw [if_neg hs, if_neg hs, if_neg hs]
    omega

/-- A reservation is neither on a node nor on an edge. -/
theorem total_reserve (room : GameRoom) (side : PlayerSide) (command : MoveCommand)
    (s : PlayerSide) : (room.reserve side command).total s = room.total s := rfl

/-- A full room's totals change exactly when a call does not keep the units. -/
theorem InSession.total_next (h : InSession room) {call : Call} (hlegal : room.SessionLegal call)
    (hfull : room.playerCount ≥ 2) :
    (∀ s, (room.next call).total s = room.total s) ↔ KeepsUnits room call := by
  have hs := h.sound
  cases call with
  | addPlayer playerId deadline now =>
    have href : room.joinRefusal playerId = some (.domain "Room is full") := if_pos hfull
    rw [next_addPlayer hs.map, href]
    exact ⟨fun _ => trivial, fun _ _ => rfl⟩
  | moveUnits side command =>
    rw [next_moveUnits]
    -- a move is reserved only: its units stay where they stand until the round is resolved
    refine ⟨fun _ => trivial, fun _ s => ?_⟩
    split
    · rfl
    · exact total_reserve room side command s
  | resolveEncounter edgeId side decision =>
    rw [next_resolveEncounter]
    cases decision with
    | advance =>
      refine ⟨fun _ => trivial, fun _ s => ?_⟩
      split
      · rfl
      · rw [decideEncounter]
        split <;> rfl
    | retreat =>
      rcases hr : room.decisionRefusal edgeId side .retreat with _ | err
      · obtain ⟨hphase, p, e, hp, hund, he, -⟩ := decisionRefusal_none hr
        rw [if_neg (by decide), decideEncounter_eq hp he]
        constructor
        · intro hsame _ p' e' hp' he' _
          cases hp.symm.trans hp'
          cases he.symm.trans he'
          have hside := hsame side
          rw [total_decideOn hs.map.keyed he, if_pos rfl] at hside
          omega
        · intro hkeeps s
          have hwhole := hkeeps hphase p e hp he hund
          rw [total_decideOn hs.map.keyed he, hwhole]
          split <;> omega
      · -- a refused retreat changes nothing, so it must be one that `KeepsUnits` lets pass
        rw [Option.isSome_some, if_pos rfl]
        refine ⟨fun _ hphase p e hp he hund => ?_, fun _ _ => rfl⟩
        exfalso
        have hps := hs.encounters p (encounterOn_mem hp).1
        have hend : e.id.IsEnd (p.groupOf side).destination := by
          rw [hs.map.keyed _ _ he, ← (encounterOn_mem hp).2]
          exact (hps.groups side).destination
        have hnone : room.decisionRefusal edgeId side .retreat = none := by
          rw [decisionRefusal, if_neg (not_not_intro hphase), hp, he]
          simp only [hund, retreatRefusal, getOppositeNode_eq, if_pos hend]
          rfl
        rw [hnone] at hr
        cases hr
  | resolveRound deadline now =>
    have hphase := (h.orderly.ready hs hlegal).1
    have hres := hs.resolvable hphase
    rw [next_resolveRound hs hphase]
    show _ ↔ ArrivalsDistinct room
    rw [← heldBack_eq_nil hs]
    have hpos : ∀ a ∈ sourceOrder.heldBack room, 1 ≤ a.count := by
      intro a ha
      obtain ⟨id, e, g, he, hg, -, rfl⟩ := (hs.mem_heldBack sourceOrder).mp ha
      exact (hs.groupSound sourceOrder he hg).pos
    rw [← arriving_eq_zero hpos]
    refine forall_congr' fun s => ?_
    have htot := total_resolved sourceOrder hres (deadline.getD (now + defaultPlanning)) s
    omega
  | forceGameOver winner reason => exact ⟨fun _ => trivial, fun _ _ => rfl⟩

/-- No other call than joining changes the players. -/
theorem players_next (h : Sound room) (call : Call) :
    (room.next call).players = room.players ∨
      ∃ playerId deadline now, call = .addPlayer playerId deadline now ∧
        room.joinRefusal playerId = none := by
  cases call with
  | addPlayer playerId deadline now =>
    rw [next_addPlayer h.map]
    rcases hr : room.joinRefusal playerId with _ | e
    · exact Or.inr ⟨playerId, deadline, now, rfl, hr⟩
    · exact Or.inl rfl
  | moveUnits side command =>
    rw [next_moveUnits]
    refine Or.inl ?_
    split <;> rfl
  | resolveEncounter edgeId side decision =>
    rw [next_resolveEncounter, decideEncounter]
    refine Or.inl ?_
    split
    · rfl
    · split <;> rfl
  | resolveRound deadline now =>
    refine Or.inl ?_
    rcases em (room.phase = .planning) with hphase | hphase
    · rw [next_resolveRound h hphase]
      exact (resolved_frame sourceOrder room _).players
    · rw [next_resolveRound_refused hphase]
  | forceGameOver winner reason => exact Or.inl rfl

/-- When the second player has joined, both sides have their three units. -/
theorem Sound.total_joined (h : Sound room) {playerId : PlayerId}
    (hjoin : room.joinRefusal playerId = none) {deadline : Time}
    (hfull : (room.joined playerId deadline).playerCount ≥ 2) (s : PlayerSide) :
    (room.joined playerId deadline).total s = 3 := by
  have hframe := joined_frame room playerId deadline
  have hw := h.waiting (joinRefusal_none hjoin)
  have hclosed : ∀ s ∈ [PlayerSide.a, .b],
      (seatNodes (seatNodes initialNodes .a) .b).sum (·.getMobileCount s) +
        initialEdges.sum (·.units s) = 3 := by
    decide +kernel
  rcases seats_cases h.seats (joinRefusal_none hjoin) with ⟨hp, hv⟩ | ⟨p, hp, hv⟩
  · exfalso
    rw [playerCount_joined] at hfull
    have hB := (two_le_playerCount.mp hfull).2
    change (room.players.set room.vacantSide (some playerId)).b.isSome at hB
    rw [hp, hv] at hB
    cases hB
  · have hn : (room.joined playerId deadline).nodes = seatNodes (seatNodes initialNodes .a) .b := by
      rw [hframe.nodes, hw.nodes, hp, hv]
      rfl
    have he : (room.joined playerId deadline).edges = initialEdges := hframe.edges.trans hw.edges
    rw [total, hn, he]
    exact hclosed s (by cases s <;> decide)

/-- Both players have joined, and each has its three units. -/
def AllThere (room : GameRoom) : Prop := room.playerCount ≥ 2 → ∀ s, room.total s = 3

/-- One step of a session: all units are still there exactly if the call keeps them. -/
theorem InSession.allThere_next (h : InSession room) {call : Call}
    (hlegal : room.SessionLegal call) (hthere : AllThere room) :
    AllThere (room.next call) ↔ KeepsUnits room call := by
  rcases Nat.lt_or_ge room.playerCount 2 with hcount | hfull
  · -- before the game there is nothing to lose, and the second player brings the last units
    have hw := h.sound.waiting hcount
    have hkeeps : KeepsUnits room call := by
      cases call with
      | resolveEncounter edgeId side decision =>
        cases decision with
        | advance => trivial
        | retreat => exact fun hphase => absurd hphase hw.phase
      | resolveRound deadline now => exact absurd (h.orderly.ready h.sound hlegal).1 hw.phase
      | addPlayer playerId deadline now => trivial
      | moveUnits side command => trivial
      | forceGameOver winner reason => trivial
    refine ⟨fun _ => hkeeps, fun _ hfull' => ?_⟩
    rcases players_next h.sound call with hsame | ⟨playerId, deadline, now, rfl, hjoin⟩
    · rw [playerCount_congr hsame] at hfull'
      omega
    · rw [next_addPlayer h.sound.map, hjoin] at hfull' ⊢
      exact h.sound.total_joined hjoin hfull'
  · have hfull' : (room.next call).playerCount ≥ 2 := by
      rcases players_next h.sound call with hsame | ⟨playerId, deadline, now, rfl, hjoin⟩
      · rw [playerCount_congr hsame]
        exact hfull
      · have := joinRefusal_none hjoin
        omega
    rw [← h.total_next hlegal hfull]
    constructor
    · intro hnext s
      rw [hnext hfull' s, hthere hfull s]
    · intro hsame _ s
      rw [hsame s, hthere hfull s]

/-- Before anybody has joined there is nothing to be there. -/
theorem allThere_initial (roomId : String) : AllThere (initialRoom roomId) := by
  intro hfull
  have hA := (two_le_playerCount.mp hfull).1
  rw [(initialRoom_fields roomId).players] at hA
  cases hA

/-- **Unit conservation, exactly.**  Along a run of a session, every state in which both players have
    joined has three units for each side if and only if every step of the run keeps the units. -/
theorem units_conserved_iff {roomId : String} {calls : List Call} (hrun : (session roomId).Run calls) :
    (∀ t ∈ (session roomId).visited (session roomId).start calls,
        t.playerCount ≥ 2 → ∀ s, t.total s = 3) ↔
      (session roomId).Steps KeepsUnits (session roomId).start calls :=
  Machine.visited_iff (I := InSession) (P := AllThere) (fun _ _ h hlegal => h.next hlegal)
    (fun _ _ h hlegal hthere => h.allThere_next hlegal hthere) (inSession_initial roomId)
    (allThere_initial roomId) hrun

/-- Side A sends one unit from node 1 to node 5, and a round later another one, while side B sends
    one the other way: the second group of A meets B, and the first one arrives and looks like it. -/
def lookAlikeCalls : List Call :=
  [.addPlayer ⟨"p1"⟩ none 0, .addPlayer ⟨"p2"⟩ none 0,
    .moveUnits .a ⟨⟨1⟩, ⟨5⟩, 1⟩, .resolveRound none 0,
    .moveUnits .a ⟨⟨1⟩, ⟨5⟩, 1⟩, .moveUnits .b ⟨⟨5⟩, ⟨1⟩, 1⟩, .resolveRound none 0]

/-- Side A is left with two of its three units. -/
theorem units_lost :
    (session "room").Run lookAlikeCalls ∧
      ((session "room").after (session "room").start lookAlikeCalls).playerCount = 2 ∧
      ((session "room").after (session "room").start lookAlikeCalls).total .a = 2 := by
  decide +kernel

theorem units_conserved_opening :
    (session "room").Run (lookAlikeCalls.take 6) ∧
      ((∀ t ∈ (session "room").visited (session "room").start (lookAlikeCalls.take 6),
          t.playerCount ≥ 2 → ∀ s, t.total s = 3) ↔
        (session "room").Steps KeepsUnits (session "room").start (lookAlikeCalls.take 6)) := by
  have hrun : (session "room").Run (lookAlikeCalls.take 6) := by decide +kernel
  exact ⟨hrun, units_conserved_iff hrun⟩

end HexWar
