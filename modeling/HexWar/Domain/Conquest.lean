/-
  Nobody ever owns the whole map.

  The game is meant to end early when one side owns every node but the headquarters.  A side that
  owns an ordinary node has a unit on it, and a side has three units at most (`total_le`), so it owns
  at most three ordinary nodes; with the one supply line, where the garrison may stand alone, that is
  four of five.  Hence `checkGameOver` is false in every state of a session, the conquest reason is
  never given, and the game ends by the number of its rounds only.

  The runs here are those of a session in which nobody calls `forceGameOver`.

  The argument in steps:

  1. `threeAtMost_of_reachable`: no side has more than three units, on nodes and edges together.  Only
     joining brings units, and it brings three.
  2. `NodeSound.owned_le`: owning an ordinary node takes a unit on it; owning the supply line may take
     none.  Summed over the map, `nodesOwned_le`.
  3. `nonHeadquarters_eq`: five nodes count for a conquest, so four are too few.
  4. `Unconquered`: with that, the game's end and its event are followed through the run.
-/
import HexWar.Domain.Conservation
import HexWar.Domain.Ownership

namespace HexWar

open Lib Lib.Action GameRoom

variable {room : GameRoom}

/-! ## No side gains units

A join brings a side its three units; a move only reserves; a retreat takes a group off its edge and
puts it on again; a resolution delivers what it takes off, or loses it. -/

/-- A recorded group that has still to be decided on is on its edge. -/
theorem Meeting.count_le {p : PendingEncounter} {e : Edge} (h : Meeting p e) (he : EdgeSound e)
    {s : PlayerSide} (hside : (p.groupOf s).side = s) (hund : p.hasDecided s = false) :
    (p.groupOf s).unitCount ≤ e.units s := by
  have hpos : ∀ k, AllPositive (e.bucket k) := fun k g hg => (he.groups k g hg).pos
  have hone := le_unitsIn (hpos 1) (h.present s hund)
  rw [hside] at hone
  exact Int.le_trans hone (Edge.bucket_le_units hpos s 1)

/-- No side has more than three units. -/
def ThreeAtMost (room : GameRoom) : Prop := ∀ s, room.total s ≤ 3

/-- Nobody has units before they join. -/
theorem threeAtMost_initial (roomId : String) : ThreeAtMost (initialRoom roomId) := by
  have hclosed : ∀ s, initialNodes.sum (·.getMobileCount s) + initialEdges.sum (·.units s) ≤ 3 := by
    decide +kernel
  intro s
  rw [total, initialRoom_nodes, initialRoom_edges]
  exact hclosed s

/-- **No call gives a side more units.** -/
theorem ThreeAtMost.next (ht : ThreeAtMost room) (h : InSession room) {call : Call}
    (hlegal : room.SessionLegal call) : ThreeAtMost (room.next call) := by
  have hs := h.sound
  cases call with
  | addPlayer playerId deadline now =>
    rw [next_addPlayer hs.map]
    rcases hr : room.joinRefusal playerId with _ | e
    -- the nodes are then the start nodes of one side or of both, and these are counted
    · have hclosed : ∀ s, (seatNodes initialNodes .a).sum (·.getMobileCount s) +
            initialEdges.sum (·.units s) ≤ 3 ∧
          (seatNodes (seatNodes initialNodes .a) .b).sum (·.getMobileCount s) +
            initialEdges.sum (·.units s) ≤ 3 := by
        decide +kernel
      have hedges : (room.joined playerId (deadline.getD (now + defaultPlanning))).edges =
          initialEdges :=
        (joined_frame _ _ _).edges.trans (hs.waiting (joinRefusal_none hr)).edges
      intro s
      show (room.joined playerId _).total s ≤ 3
      rw [total, hedges]
      rcases hs.nodes_joined hr (deadline.getD (now + defaultPlanning)) with hnodes | hnodes
      · rw [hnodes]
        exact (hclosed s).1
      · rw [hnodes]
        exact (hclosed s).2
    · exact ht
  | moveUnits side command =>
    rw [next_moveUnits]
    split
    · exact ht
    · exact ht
  | resolveEncounter edgeId side decision =>
    rw [next_resolveEncounter]
    rcases hr : room.decisionRefusal edgeId side decision with _ | e
    · obtain ⟨-, p, e, hp, hund, he, -⟩ := decisionRefusal_none hr
      obtain ⟨hmem, hpid⟩ := encounterOn_mem hp
      -- the group that is put on again has just been taken off
      have hle := (h.orderly.meeting p hmem e (hpid ▸ he)).count_le (hs.edges _ _ he)
        ((hs.encounters p hmem).side side) hund
      show ThreeAtMost (room.decideEncounter edgeId side decision)
      rw [decideEncounter_eq hp he]
      intro s
      cases decision with
      | advance => exact ht s
      | retreat =>
        have hs3 := ht s
        rw [total_decideOn hs.map.keyed he]
        split <;> omega
    · exact ht
  | resolveRound deadline now =>
    have hphase := (h.orderly.ready hs hlegal).1
    have hres := hs.resolvable hphase
    rw [next_resolveRound hs hphase]
    intro s
    have htot := total_resolved sourceOrder hres (deadline.getD (now + defaultPlanning)) s
    -- what is held back and lost is not negative
    have hheld : 0 ≤ arriving s (sourceOrder.heldBack room) := by
      refine arriving_nonneg (fun a ha => ?_) s
      obtain ⟨id, e, g, he, hg, -, rfl⟩ := (hs.mem_heldBack sourceOrder).mp ha
      exact (hs.groupSound sourceOrder he hg).pos
    have hs3 := ht s
    omega
  | forceGameOver winner reason => exact ht

/-- No side ever has more than three units. -/
theorem threeAtMost_of_reachable {roomId : String} (h : (session roomId).Reachable room) :
    ThreeAtMost room := by
  have hall : InSession room ∧ ThreeAtMost room := by
    refine h.invariant (I := fun r => InSession r ∧ ThreeAtMost r) ?_ ?_
    · exact ⟨inSession_initial roomId, threeAtMost_initial roomId⟩
    · intro r call hs hlegal
      exact ⟨hs.1.next hlegal, hs.2.next hs.1 hlegal⟩
  exact hall.2

/-! ## What a side owns

The nodes owned are compared with the units on them, node by node, and then summed.  The nodes of
the map are counted by their types, which no call changes. -/

/-- A number of nodes as a sum over the nodes. -/
theorem countP_eq_sum (d : Dict NodeId Node) (p : Node → Bool) :
    (d.values.countP p : Int) = d.sum fun n => if p n then 1 else 0 := by
  rw [Dict.values, Dict.sum]
  -- by induction over the entries; counting adds one exactly where the summand is one
  generalize d.entries = l
  induction l with
  | nil => rfl
  | cons e l ih =>
    rw [List.map_cons, List.countP_cons, sumBy_cons, ← ih]
    split <;> omega

/-- The nodes of a kind, in a room with the shape of the map. -/
theorem OnMap.sum_type (h : OnMap room) (f : NodeType → Int) :
    room.nodes.sum (fun n => f n.type) = mapNodes.sum fun shape => f shape.2 := by
  rw [← h.nodes, Dict.sum_mapValues]
  rfl

/-- An owner of an ordinary node has a unit on it. -/
theorem NodeSound.owned_le {n : Node} (h : NodeSound n) (hpos : ∀ s, 0 ≤ n.getMobileCount s)
    (s : PlayerSide) :
    (if n.ownership = .fromPlayerSide s then (1 : Int) else 0) ≤
      n.getMobileCount s + if n.type = .supplyLine then 1 else 0 := by
  have hs := hpos s
  have ha := hpos .a
  have hb := hpos .b
  have hown := h.owned
  -- whoever owns a node by the count has more units there than the other, and so at least one
  have hcount : n.ownership = ownerByCount (n.getMobileCount .a) (n.getMobileCount .b) →
      n.ownership = .fromPlayerSide s → 1 ≤ n.getMobileCount s := by
    intro hown' hown''
    rw [hown', ownerByCount] at hown''
    split at hown''
    · cases s <;> cases hown''
    · split at hown''
      · cases s with
        | a => omega
        | b => cases hown''
      · split at hown''
        · cases s with
          | a => cases hown''
          | b => omega
        · cases s <;> cases hown''
  rw [Node.Owned] at hown
  rcases ht : n.type with _ | _ | _ | _
  · rw [ht] at hown
    rw [if_neg (show ¬ NodeType.outPost = .supplyLine by decide)]
    split
    · next ho =>
      have := hcount hown ho
      omega
    · omega
  · rw [ht] at hown
    rw [if_neg (show ¬ NodeType.chokepoint = .supplyLine by decide)]
    split
    · next ho =>
      have := hcount hown ho
      omega
    · omega
  -- the supply line is allowed for in the bound
  · rw [if_pos rfl]
    split <;> omega
  · rw [ht] at hown
    have hne : ¬ n.ownership = .fromPlayerSide s := by
      rw [hown]
      cases s <;> decide
    rw [if_neg hne, if_neg (by decide)]
    omega

/-- **A side owns at most four nodes.** -/
theorem nodesOwned_le (h : Sound room) (hn : NodesSound room) (ht : ThreeAtMost room)
    (s : PlayerSide) : room.nodesOwned (.fromPlayerSide s) ≤ 4 := by
  have hnode : ∀ n ∈ room.nodes.values,
      (if decide (n.ownership = .fromPlayerSide s) then (1 : Int) else 0) ≤
        n.getMobileCount s + if n.type = .supplyLine then 1 else 0 := by
    intro n hmem
    obtain ⟨id, hget⟩ := Dict.mem_values.mp hmem
    simp only [decide_eq_true_eq]
    exact (hn id n hget).owned_le (fun t => h.mobile id n t hget) s
  have hsum := Dict.sum_le_sum hnode
  have hsplit : room.nodes.sum (fun n => n.getMobileCount s +
      if n.type = .supplyLine then 1 else 0) = room.nodes.sum (·.getMobileCount s) +
        room.nodes.sum fun n => if n.type = .supplyLine then 1 else 0 :=
    Dict.sum_add _ _ _
  -- the map has one supply line
  have hone : room.nodes.sum (fun n => if n.type = .supplyLine then (1 : Int) else 0) = 1 := by
    rw [h.map.sum_type fun t => if t = .supplyLine then 1 else 0]
    decide +kernel
  -- units on edges own nothing, so they only make the bound smaller
  have hedges : 0 ≤ room.edges.sum (·.units s) := by
    refine Dict.sum_nonneg fun e he => ?_
    obtain ⟨id, hget⟩ := Dict.mem_values.mp he
    exact Edge.sum_nonneg_of_pos (fun k g hg => ((h.edges id e hget).groups k g hg).pos) s
  have htotal : room.nodes.sum (·.getMobileCount s) + room.edges.sum (·.units s) ≤ 3 := ht s
  rw [nodesOwned, countP_eq_sum]
  omega

/-- The nodes that count for a conquest are five. -/
theorem nonHeadquarters_eq (h : OnMap room) :
    (room.nodes.values.countP fun n => ¬ n.isHeadquarters : Int) = 5 := by
  rw [countP_eq_sum]
  have hsame : room.nodes.sum (fun n => if decide (¬ n.isHeadquarters = true) then (1 : Int) else 0) =
      room.nodes.sum fun n => if n.type = .headquarters then 0 else 1 := by
    refine Dict.sum_congr fun n _ => ?_
    rw [Node.isHeadquarters]
    rcases em (n.type = .headquarters) with ht | ht
    · simp [ht]
    · simp [ht]
  rw [hsame, h.sum_type fun t => if t = .headquarters then 0 else 1]
  decide +kernel

/-- **Nobody has conquered the map.** -/
theorem checkGameOver_eq_false (h : Sound room) (hn : NodesSound room) (ht : ThreeAtMost room) :
    room.checkGameOver = false := by
  have hfew : ∀ s, ((room.nodes.values.filter fun n => ¬ n.isHeadquarters).all
      fun n => n.ownership = .fromPlayerSide s) = false := by
    intro s
    refine Bool.eq_false_iff.mpr fun hall => ?_
    have hle : (room.nodes.values.countP fun n => ¬ n.isHeadquarters) ≤
        room.nodes.values.countP fun n => n.ownership = .fromPlayerSide s := by
      refine List.countP_mono_left fun n hmem hnon => ?_
      exact List.all_eq_true.mp hall n (List.mem_filter.mpr ⟨hmem, hnon⟩)
    have hfive := nonHeadquarters_eq h.map
    have hfour := nodesOwned_le h hn ht s
    rw [nodesOwned] at hfour
    omega
  rw [checkGameOver]
  exact Bool.or_eq_false_iff.mpr ⟨hfew .a, hfew .b⟩

/-! ## How a game ends

Two things end a game without being forced to: the conquest, which the first part has excluded, and
the number of rounds. -/

/-- The call is no forced end of the game. -/
def Call.Unforced : Call → Prop
  | .forceGameOver _ _ => False
  | _ => True

instance : ∀ call : Call, Decidable call.Unforced
  | .forceGameOver _ _ => .isFalse id
  | .addPlayer _ _ _ | .moveUnits _ _ | .resolveEncounter _ _ _ | .resolveRound _ _ => .isTrue trivial

/-- The room under a session in which the end of the game is never forced. -/
def unforced (roomId : String) : Machine GameRoom Call :=
  ⟨initialRoom roomId, GameRoom.next, fun room call => room.SessionLegal call ∧ call.Unforced⟩

instance (roomId : String) : ∀ room call, Decidable ((unforced roomId).Legal room call) :=
  fun room call => inferInstanceAs (Decidable (room.SessionLegal call ∧ call.Unforced))

/-- No event tells of a conquest. -/
def NoConquestTold (room : GameRoom) : Prop :=
  ∀ e, .gameOver e ∈ room.domainEvents → e.reason ≠ .allNodesCaptured

/-- The round of an open planning phase is one of the game's. -/
def RoundInGame (room : GameRoom) : Prop :=
  room.maxRounds = 20 ∧ (room.phase = .planning → room.currentRound ≤ room.maxRounds)

/-- What holds in every state of an unforced session. -/
structure Unconquered (room : GameRoom) : Prop where
  inSession : InSession room
  nodes : NodesSound room
  units : ThreeAtMost room
  /-- No event that waits reports a conquest. -/
  untold : NoConquestTold room
  /-- The rounds are counted up to the last one. -/
  round : RoundInGame room

/-- At the start nothing has been told and no round is planned. -/
theorem unconquered_initial (roomId : String) : Unconquered (initialRoom roomId) := by
  obtain ⟨hphase, -, -, -, -, -, hmax, hevents⟩ := initialRoom_fields roomId
  refine ⟨inSession_initial roomId, nodesSound_initial roomId, threeAtMost_initial roomId,
    fun e he => ?_, hmax, fun hplan => ?_⟩
  · rw [hevents] at he
    cases he
  · rw [hphase] at hplan
    cases hplan

/-- Events that are no end of the game tell of no conquest. -/
theorem NoConquestTold.append {room' : GameRoom} {es : List DomainEvent} (h : NoConquestTold room)
    (hevents : room'.domainEvents = room.domainEvents ++ es)
    (hes : ∀ e, .gameOver e ∉ es) : NoConquestTold room' := by
  intro e he
  rw [hevents] at he
  rcases List.mem_append.mp he with hold | hnew
  · exact h e hold
  · exact absurd hnew (hes e)

/-- Whether the map is conquered is read off the nodes. -/
theorem checkGameOver_congr {room room' : GameRoom} (h : room'.nodes = room.nodes) :
    room'.checkGameOver = room.checkGameOver := by
  rw [checkGameOver, checkGameOver, h]

/-- After a round of an unconquered game, the next one is opened unless the rounds are over. -/
theorem Unconquered.endsGame_iff (h : Unconquered room) {deadline : Option Time} {now : Time}
    (hlegal : room.SessionLegal (.resolveRound deadline now)) :
    (sourceOrder.closedRoom room).endsGame ↔ room.currentRound + 1 > room.maxRounds := by
  have hphase := (h.inSession.orderly.ready h.inSession.sound hlegal).1
  have hs' := h.inSession.sound.next (.resolveRound deadline now)
  have hn' := h.nodes.next h.inSession.sound (.resolveRound deadline now)
  have ht' := h.units.next h.inSession hlegal
  rw [next_resolveRound h.inSession.sound hphase] at hs' hn' ht'
  have hfalse := checkGameOver_eq_false hs' hn' ht'
  have hsame : (sourceOrder.resolved room (deadline.getD (now + defaultPlanning))).checkGameOver =
      (sourceOrder.closedRoom room).checkGameOver :=
    checkGameOver_congr (resolved_frame sourceOrder room _).nodes
  rw [GameRoom.endsGame, ← hsame]
  show (_ = true ∨ room.currentRound + 1 > room.maxRounds) ↔ _
  rw [hfalse]
  simp

/-- No step reports a conquest: only the resolution ends the game, and it does so for the rounds. -/
theorem Unconquered.untold_next (h : Unconquered room) {call : Call}
    (hlegal : room.SessionLegal call) (hcall : call.Unforced) : NoConquestTold (room.next call) := by
  have hs := h.inSession.sound
  cases call with
  | addPlayer playerId deadline now =>
    rw [next_addPlayer hs.map]
    split
    · exact h.untold
    · rw [GameRoom.joined, started]
      split
      · exact h.untold.append rfl fun e he => by cases List.mem_singleton.mp he
      · exact h.untold
  | moveUnits side command =>
    rw [next_moveUnits]
    split
    · exact h.untold
    · exact h.untold.append rfl fun e he => by cases List.mem_singleton.mp he
  | resolveEncounter edgeId side decision =>
    rw [next_resolveEncounter, decideEncounter]
    split
    · exact h.untold
    · split
      · refine h.untold.append (List.append_assoc _ _ _) fun e he => ?_
        rcases List.mem_append.mp he with he | he
        · rcases List.mem_pair.mp he with he | he
          · cases decision <;> cases he
          · cases he
        · rw [resolvedEvent] at he
          split at he
          · cases List.mem_singleton.mp he
          · cases he
      · exact h.untold
  | resolveRound deadline now =>
    have hphase := (h.inSession.orderly.ready hs hlegal).1
    have hends := h.endsGame_iff hlegal
    rw [next_resolveRound hs hphase, ProcessingOrder.resolved, opened]
    split
    · next hend =>
      intro e he
      rcases List.mem_append.mp he with he | he
      · cases List.mem_singleton.mp he
      · have hover : (sourceOrder.closedRoom room).currentRound >
            (sourceOrder.closedRoom room).maxRounds := hends.mp hend
        rw [if_pos hover] at he
        cases List.mem_singleton.mp he
        show GameOverReason.maxRoundsReached ≠ .allNodesCaptured
        decide
    · intro e he
      rcases List.mem_append.mp he with he | he
      · cases List.mem_singleton.mp he
      · cases List.mem_singleton.mp he
  | forceGameOver winner reason => exact hcall.elim

/-- The round that is planned stays among the rounds of the game. -/
theorem Unconquered.round_next (h : Unconquered room) {call : Call}
    (hlegal : room.SessionLegal call) (hcall : call.Unforced) : RoundInGame (room.next call) := by
  have hs := h.inSession.sound
  cases call with
  | addPlayer playerId deadline now =>
    rw [next_addPlayer hs.map]
    split
    · exact h.round
    · have hmax : (room.joined playerId (deadline.getD (now + defaultPlanning))).maxRounds = 20 :=
        (joined_frame _ _ _).maxRounds.trans h.round.1
      refine ⟨hmax, fun hplan => ?_⟩
      rw [hmax]
      rw [GameRoom.joined, started] at hplan ⊢
      split
      · show (1 : Int) ≤ 20
        decide
      · next hne =>
        split at hplan
        · next hA hB => exact absurd hB (hne _ _ hA)
        · exact Int.le_trans (h.round.2 hplan) (Int.le_of_eq h.round.1)
  | moveUnits side command =>
    rw [next_moveUnits]
    split
    · exact h.round
    · exact h.round
  | resolveEncounter edgeId side decision =>
    rw [next_resolveEncounter, decideEncounter]
    split
    · exact h.round
    · split
      · exact h.round
      · exact h.round
  | resolveRound deadline now =>
    have hphase := (h.inSession.orderly.ready hs hlegal).1
    have hends := h.endsGame_iff hlegal
    have hframe := resolved_frame sourceOrder room (deadline.getD (now + defaultPlanning))
    rw [next_resolveRound hs hphase, RoundInGame, hframe.currentRound, hframe.maxRounds,
      ProcessingOrder.resolved, opened_phase]
    refine ⟨h.round.1, fun hplan => ?_⟩
    split at hplan
    · cases hplan
    · next hend =>
      have hopen := mt hends.mpr hend
      show room.currentRound + 1 ≤ room.maxRounds
      omega
  | forceGameOver winner reason => exact hcall.elim

/-- **Every call of an unforced session keeps the map unconquered.** -/
theorem Unconquered.next (h : Unconquered room) {call : Call} (hlegal : room.SessionLegal call)
    (hcall : call.Unforced) : Unconquered (room.next call) where
  inSession := h.inSession.next hlegal
  nodes := h.nodes.next h.inSession.sound call
  units := h.units.next h.inSession hlegal
  untold := h.untold_next hlegal hcall
  round := h.round_next hlegal hcall

/-- No state of an unforced session is a conquered one. -/
theorem unconquered_of_reachable {roomId : String} (h : (unforced roomId).Reachable room) :
    Unconquered room :=
  h.invariant (unconquered_initial roomId) fun _ _ hs hlegal => hs.next hlegal.1 hlegal.2

/-- A call ends the game exactly when it resolves the last round. -/
theorem Unconquered.gameOver_iff (h : Unconquered room) {call : Call}
    (hlegal : room.SessionLegal call) (hcall : call.Unforced) :
    (room.phase ≠ .gameOver ∧ (room.next call).phase = .gameOver) ↔
      (∃ deadline now, call = .resolveRound deadline now) ∧ room.currentRound = room.maxRounds := by
  have hs := h.inSession.sound
  cases call with
  | addPlayer playerId deadline now =>
    constructor
    swap
    · rintro ⟨⟨_, _, hc⟩, -⟩
      cases hc
    rintro ⟨hbefore, hafter⟩
    apply absurd hafter
    rw [next_addPlayer hs.map]
    split
    · exact hbefore
    · rw [GameRoom.joined, started_phase]
      split
      · decide
      · exact hbefore
  | moveUnits side command =>
    constructor
    swap
    · rintro ⟨⟨_, _, hc⟩, -⟩
      cases hc
    rintro ⟨hbefore, hafter⟩
    apply absurd hafter
    rw [next_moveUnits]
    split
    · exact hbefore
    · exact hbefore
  | resolveEncounter edgeId side decision =>
    constructor
    swap
    · rintro ⟨⟨_, _, hc⟩, -⟩
      cases hc
    rintro ⟨hbefore, hafter⟩
    apply absurd hafter
    rw [next_resolveEncounter, decideEncounter]
    split
    · exact hbefore
    · split
      · exact hbefore
      · exact hbefore
  | resolveRound deadline now =>
    have hphase := (h.inSession.orderly.ready hs hlegal).1
    have hends := h.endsGame_iff hlegal
    have hle := h.round.2 hphase
    rw [next_resolveRound hs hphase, ProcessingOrder.resolved, opened_phase]
    constructor
    -- the game is over after the call, so its last round was the one resolved
    · rintro ⟨-, hover⟩
      split at hover
      · next hend =>
        have := hends.mp hend
        exact ⟨⟨deadline, now, rfl⟩, by omega⟩
      · cases hover
    · rintro ⟨-, hlast⟩
      refine ⟨by rw [hphase]; decide, if_pos (hends.mpr (by omega))⟩
  | forceGameOver winner reason => exact hcall.elim

/-- **Nobody ever owns the whole map.**  In every state of an unforced session the headquarters are
    nobody's, each side owns at most four nodes, the conquest is not reached and was never told; and
    the only step that ends the game is the resolution of its last round. -/
theorem conquest_unreachable {roomId : String} (h : (unforced roomId).Reachable room) :
    (∀ id n, room.nodes.get? id = some n → n.type = .headquarters → n.ownership = .neutral) ∧
      (∀ s, room.nodesOwned (.fromPlayerSide s) ≤ 4) ∧
      room.checkGameOver = false ∧
      (∀ e, .gameOver e ∈ room.domainEvents → e.reason ≠ .allNodesCaptured) ∧
      ∀ call, (unforced roomId).Legal room call →
        ((room.phase ≠ .gameOver ∧ (room.next call).phase = .gameOver) ↔
          (∃ deadline now, call = .resolveRound deadline now) ∧
            room.currentRound = room.maxRounds) := by
  have hu := unconquered_of_reachable h
  have hs := hu.inSession.sound
  refine ⟨fun id n hn ht => ?_, nodesOwned_le hs hu.nodes hu.units,
    checkGameOver_eq_false hs hu.nodes hu.units, hu.untold,
    fun call hlegal => hu.gameOver_iff hlegal.1 hlegal.2⟩
  have hown := (hu.nodes id n hn).owned
  rw [Node.Owned, ht] at hown
  exact hown

/-- Such a state: a few rounds into a game that both sides leave to the timeouts. -/
theorem conquest_unreachable_abandoned :
    ∃ room, (unforced "room").Reachable room ∧ room.phase = .planning ∧ room.currentRound = 4 ∧
      room.checkGameOver = false ∧ ∀ s, room.nodesOwned (.fromPlayerSide s) ≤ 4 := by
  have hreach : (unforced "room").Reachable
      ((unforced "room").after (unforced "room").start abandonedCalls) :=
    ⟨abandonedCalls, by decide +kernel, rfl⟩
  have hnone := conquest_unreachable hreach
  exact ⟨_, hreach, by decide +kernel, by decide +kernel, hnone.2.2.1, hnone.2.1⟩

end HexWar
