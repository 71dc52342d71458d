/-
  Every call keeps the room sound.

  One lemma for each kind of call.  The resolution is the long one: the departures leave every node
  with the units that were not reserved, the arrivals only add to that, the advanced edges hold groups
  of the loaded ones, and every encounter is made of two such groups.  `sound_of_reachable` threads
  the five through a run.

  1. `sound_initial`: the room as it is made holds nothing, so every part is about an empty list.
  2. `Sound.joined`: a player sits down.  The only nodes that change are start nodes, and they gain.
  3. `Sound.reserve`: a move is reserved.  The refusal has compared the grant with what is left on
     the node, which is all that solvency needs.
  4. `Sound.decided`: an encounter is decided.  A retreat takes a group off its edge and puts it on
     again at full distance; the edge stays where it was in the dictionary.
  5. `Sound.resolved`: a round is resolved, in whatever order of the moves (`ProcessingOrder`), which
     is why the claims about every order can use it as it stands.

  The lemmas that say what a call does to one node or to one edge (`get?_resolved`, `get?_advanced`,
  `next_decided`) are stated here because soundness is the first to need them; most later modules
  start from them.
-/
import HexWar.Domain.Calls

namespace HexWar

open Lib Lib.Action GameRoom

variable {room : GameRoom}

/-! ## The start

The room that the constructor makes.  Nobody is seated, no unit stands anywhere but the neutral
garrisons, and nothing is under way. -/

/-- An edge without entries is sound. -/
theorem edgeSound_of_empty {e : Edge} (h : e.travelingUnits.entries = []) : EdgeSound e := by
  refine ⟨fun kvp hk => ?_, fun k g hg => ?_⟩
  · rw [h] at hk
    cases hk
  · obtain ⟨gs, hmem, -⟩ := Edge.mem_bucket.mp hg
    rw [h] at hmem
    cases hmem

/-- Without reserved moves there is nothing to pay. -/
theorem movesSound_of_nil {s : PlayerSide} (hmoves : room.pendingMoves.get s = [])
    (hused : room.unitUsedThisRound.get s = 0)
    (hmobile : ∀ id n, room.nodes.get? id = some n → 0 ≤ n.getMobileCount s) :
    MovesSound room s where
  moves m hm := by
    rw [hmoves] at hm
    cases hm
  solvent id n hn := by
    rw [hmoves]
    exact hmobile id n hn
  used := by
    rw [hmoves, hused]
    rfl
  bounded := by
    rw [hused]
    decide

/-- **The room that is made is sound.**  It is waiting for both its players, and says so in full: no
    moves, no encounters, empty edges, and the nodes as the map has them. -/
theorem sound_initial (roomId : String) : Sound (initialRoom roomId) := by
  obtain ⟨hphase, hplayers, hmoves, hused, hencs, -, -, -⟩ := initialRoom_fields roomId
  have hnodes := initialRoom_nodes roomId
  have hedges := initialRoom_edges roomId
  have hmobile : ∀ id n s, (initialRoom roomId).nodes.get? id = some n →
      0 ≤ n.getMobileCount s := fun id n s hn => by
    rw [hnodes] at hn
    exact Int.le_of_eq (initialNodes_mobile hn s).symm
  exact {
    map := ⟨by rw [hnodes]; rfl, by rw [hedges]; rfl⟩
    edges := fun id e he => edgeSound_of_empty (initialEdges_bucket (hedges ▸ he))
    mobile := hmobile
    encounters := fun p hp => by rw [hencs] at hp; cases hp
    moves := fun s => movesSound_of_nil (by rw [hmoves, PerSide.get_both])
      (by rw [hused, PerSide.get_both]) fun id n hn => hmobile id n s hn
    phase := by rw [hphase]; decide
    seats := fun h => by rw [hplayers] at h; cases h
    waiting := fun _ => ⟨by rw [hphase]; decide, hmoves, hused, hencs, hedges,
      by rw [hplayers, hnodes]; rfl⟩ }

/-! ## A player joins

Seating a player writes one start node, and with the second player opens the planning phase.  The
seats fill from side A, so before the call they are empty or hold side A alone (`seats_cases`). -/

/-- Seating a side leaves every node's identifier and type as they are. -/
theorem seatNodes_shape (nodes : Dict NodeId Node) (s : PlayerSide) :
    (seatNodes nodes s).mapValues nodeShape = nodes.mapValues nodeShape := by
  rw [seatNodes]
  cases h : nodes.get? (startNode s) with
  | none => rfl
  | some n => exact Dict.mapValues_set h rfl

/-- Seating a side puts three units on its start node, and moves nothing else. -/
theorem get?_seatNodes (nodes : Dict NodeId Node) (s : PlayerSide) (id : NodeId) :
    (seatNodes nodes s).get? id =
      if startNode s = id then (nodes.get? id).map (garrisonStart · s) else nodes.get? id := by
  rw [seatNodes]
  rcases h : nodes.get? (startNode s) with _ | n
  · show nodes.get? id = _
    rcases em (startNode s = id) with heq | hne
    · rw [if_pos heq, ← heq, h]
      rfl
    · rw [if_neg hne]
  · show (nodes.set (startNode s) (garrisonStart n s)).get? id = _
    rw [Dict.get?_set]
    split
    · next heq => rw [← heq, h]; rfl
    · rfl

/-- The three units a side starts with count for that side only. -/
theorem garrisonStart_mobile (n : Node) (s t : PlayerSide) :
    (garrisonStart n s).getMobileCount t = n.getMobileCount t + if t = s then 3 else 0 := by
  rcases em (t = s) with rfl | h
  · rw [if_pos rfl, Node.getMobileCount, garrisonStart, PerSide.get_update_same]
    rfl
  · rw [if_neg h, Node.getMobileCount, garrisonStart, PerSide.get_update_of_ne _ h, Int.add_zero]
    rfl

/-- What a player who joins changes of the room: the seat, its node, and no other part of these. -/
structure JoinedTo (room : GameRoom) (playerId : PlayerId) (room' : GameRoom) : Prop where
  /-- The start node of the seat that is taken gets its three units. -/
  nodes : room'.nodes = seatNodes room.nodes room.vacantSide
  edges : room'.edges = room.edges
  /-- The seat, which the opening of the phase leaves alone. -/
  players : room'.players = room.players.set room.vacantSide (some playerId)
  moves : room'.pendingMoves = room.pendingMoves
  used : room'.unitUsedThisRound = room.unitUsedThisRound
  encounters : room'.pendingEncounters = room.pendingEncounters
  maxRounds : room'.maxRounds = room.maxRounds

/-- What joining changes is the same whether the second player opens the phase or not. -/
theorem joined_frame (room : GameRoom) (playerId : PlayerId) (deadline : Time) :
    JoinedTo room playerId (room.joined playerId deadline) := by
  rw [GameRoom.joined, started]
  split <;> exact ⟨rfl, rfl, rfl, rfl, rfl, rfl, rfl⟩

/-- The phase is opened exactly when both sides are taken. -/
theorem started_phase (room : GameRoom) (deadline : Time) :
    (room.started deadline).phase = if room.playerCount ≥ 2 then .planning else room.phase := by
  rw [started]
  split
  · next hA hB =>
    rw [if_pos (two_le_playerCount.mpr ⟨by rw [hA]; rfl, by rw [hB]; rfl⟩)]
  · next hne =>
    rw [if_neg]
    intro hfull
    obtain ⟨hA, hB⟩ := two_le_playerCount.mp hfull
    obtain ⟨pA, hpA⟩ := Option.isSome_iff_exists.mp hA
    obtain ⟨pB, hpB⟩ := Option.isSome_iff_exists.mp hB
    exact hne pA pB hpA hpB

/-- A join that is not refused finds a free seat. -/
theorem joinRefusal_none {playerId : PlayerId} (h : room.joinRefusal playerId = none) :
    room.playerCount < 2 := by
  rw [joinRefusal] at h
  by_contra hfull
  rw [if_pos (Nat.le_of_not_lt hfull)] at h
  cases h

/-- Before both sides are taken, the seats are empty or side A has its own. -/
theorem seats_cases (hseats : room.players.b.isSome → room.players.a.isSome)
    (hcount : room.playerCount < 2) :
    (room.players = .both none ∧ room.vacantSide = .a) ∨
      ∃ p, room.players = ⟨some p, none⟩ ∧ room.vacantSide = .b := by
  rcases hp : room.players with ⟨a, b⟩
  rw [playerCount, hp] at hcount
  rw [hp] at hseats
  rw [vacantSide, playerCount, hp]
  rcases a with _ | a <;> rcases b with _ | b
  -- both seats free, A first
  · exact Or.inl ⟨rfl, rfl⟩
  -- B without A, which the invariant excludes
  · cases hseats rfl
  · exact Or.inr ⟨a, rfl, rfl⟩
  -- both taken, against the count
  · exact absurd hcount (by simp)

/-- A join, as an equation: the room is unchanged or is the joined one. -/
theorem next_addPlayer (h : OnMap room) (playerId : PlayerId) (deadline : Option Time) (now : Time) :
    room.next (.addPlayer playerId deadline now) =
      if (room.joinRefusal playerId).isSome then room
      else room.joined playerId (deadline.getD (now + defaultPlanning)) := by
  obtain ⟨node, hnode⟩ := h.start room.vacantSide
  exact after_verdict (addPlayer_eq hnode playerId deadline now)

/-- Whoever joins takes a seat that was free. -/
theorem players_joined_ne (hs : Sound room) {playerId : PlayerId}
    (hr : room.joinRefusal playerId = none) (deadline : Time) :
    (room.joined playerId deadline).players ≠ room.players := by
  rw [(joined_frame room playerId deadline).players]
  rcases seats_cases hs.seats (joinRefusal_none hr) with ⟨hp, hv⟩ | ⟨p, hp, hv⟩
  · rw [hp, hv]
    intro heq
    cases congrArg PerSide.a heq
  · rw [hp, hv]
    intro heq
    cases congrArg PerSide.b heq

/-- The opening of the phase does not touch the seats, so the count is that of the seated room. -/
theorem playerCount_joined (room : GameRoom) (playerId : PlayerId) (deadline : Time) :
    (room.joined playerId deadline).playerCount = (room.seated playerId).playerCount :=
  playerCount_congr (joined_frame room playerId deadline).players

/-- Whoever joins brings units, and takes none away. -/
theorem Sound.mobile_joined (h : Sound room) {playerId : PlayerId} {deadline : Time} {id : NodeId}
    {n : Node} (hn : (room.joined playerId deadline).nodes.get? id = some n) (s : PlayerSide) :
    0 ≤ n.getMobileCount s := by
  rw [(joined_frame room playerId deadline).nodes] at hn
  have hget := (get?_seatNodes room.nodes room.vacantSide id).symm.trans hn
  split at hget
  · obtain ⟨n₀, hn₀, rfl⟩ := Option.map_eq_some_iff.mp hget
    have hpos := h.mobile id n₀ s hn₀
    rw [garrisonStart_mobile]
    split <;> omega
  · exact h.mobile id n s hget

/-- **Joining keeps the room sound.**  Until then the room was waiting, so it has no moves and no
    encounters to keep; what is left to show is the nodes and, where one seat stays free, that the
    room is still waiting. -/
theorem Sound.joined (h : Sound room) {playerId : PlayerId}
    (hjoin : room.joinRefusal playerId = none) (deadline : Time) :
    Sound (room.joined playerId deadline) := by
  have hcount := joinRefusal_none hjoin
  have hw := h.waiting hcount
  have hframe := joined_frame room playerId deadline
  have hphase := started_phase (room.seated playerId) deadline
  exact {
    map := by
      refine ⟨?_, ?_⟩
      · rw [hframe.nodes]
        exact (seatNodes_shape _ _).trans h.map.nodes
      · rw [hframe.edges]
        exact h.map.edges
    edges := fun id e he => h.edges id e (by rw [hframe.edges] at he; exact he)
    mobile := fun _ _ s hn => h.mobile_joined hn s
    encounters := fun p hp => by
      rw [hframe.encounters, hw.encounters] at hp
      cases hp
    moves := fun s => movesSound_of_nil
      (by rw [hframe.moves]; exact (congrArg (·.get s) hw.moves).trans (PerSide.get_both _ s))
      (by rw [hframe.used]; exact (congrArg (·.get s) hw.used).trans (PerSide.get_both _ s))
      fun _ _ hn => h.mobile_joined hn s
    phase := by
      rw [GameRoom.joined, hphase]
      split
      · decide
      · exact h.phase
    seats := by
      rw [hframe.players]
      show (room.players.set room.vacantSide (some playerId)).b.isSome → _
      rcases seats_cases h.seats hcount with ⟨hp, hv⟩ | ⟨p, hp, hv⟩
      · rw [hp, hv]
        intro hb
        cases hb
      · intro _
        show (room.players.set room.vacantSide (some playerId)).a.isSome
        rw [hp, hv]
        rfl
    waiting := by
      rw [playerCount_joined]
      intro hlt
      rcases seats_cases h.seats hcount with ⟨hp, hv⟩ | ⟨p, hp, hv⟩
      · refine ⟨?_, ?_, ?_, ?_, ?_, ?_⟩
        -- the first player: the room waits on, with A's start node taken
        · rw [GameRoom.joined, hphase, if_neg (Nat.not_le_of_lt hlt)]
          exact hw.phase
        · rw [hframe.moves]; exact hw.moves
        · rw [hframe.used]; exact hw.used
        · rw [hframe.encounters]; exact hw.encounters
        · rw [hframe.edges]; exact hw.edges
        · rw [hframe.nodes, hframe.players]
          show seatNodes room.nodes room.vacantSide =
            if (room.players.set room.vacantSide (some playerId)).a.isSome then _ else _
          rw [hw.nodes, hp, hv]
          rfl
      -- the second player: nobody is missing any more
      · exfalso
        have hfull : (room.seated playerId).playerCount ≥ 2 := by
          refine two_le_playerCount.mpr ⟨?_, ?_⟩
          · show (room.players.set room.vacantSide (some playerId)).a.isSome
            rw [hp, hv]; rfl
          · show (room.players.set room.vacantSide (some playerId)).b.isSome
            rw [hp, hv]; rfl
        omega }

/-! ## A move is reserved

A reservation appends one move to the side's list and adds its units to the side's account.  The
nodes stay as they are until the round is resolved, so what has to be kept is that all the reserved
moves together can be paid (`MovesSound.solvent`). -/

/-- What a granted move has passed. -/
theorem moveRefusal_none {side : PlayerSide} {command : MoveCommand}
    (h : room.moveRefusal side command = none) :
    room.phase = .planning ∧ 0 < room.granted side command ∧
      (∃ e, room.edges.get? (room.grantedMove side command).edgeId = some e) ∧
      ∃ n, room.nodes.get? command.fromNode = some n ∧
        room.granted side command ≤ room.availableAt side n command.fromNode := by
  -- the refusals in the order in which MoveUnits makes them: phase, player, count, path, units
  unfold moveRefusal at h
  split at h
  · cases h
  next hphase =>
  split at h
  · cases h
  split at h
  · cases h
  next hpos =>
  split at h
  · cases h
  next hpath =>
  refine ⟨not_not.mp hphase, Int.not_le.mp hpos, Option.isSome_iff_exists.mp (not_not.mp hpath), ?_⟩
  rcases hn : room.nodes.get? command.fromNode with _ | n
  · rw [hn] at h
    cases h
  · rw [hn] at h
    refine ⟨n, rfl, ?_⟩
    by_contra hlt
    have hlt' : room.availableAt side n command.fromNode < room.granted side command :=
      Int.not_le.mp hlt
    simp only [if_pos hlt'] at h
    cases h

/-- One more reserved move commits its own units, at the node it leaves from. -/
theorem committedFrom_append (ms : List PendingMove) (m : PendingMove) (id : NodeId) :
    committedFrom (ms ++ [m]) id = committedFrom ms id + if m.fromNode = id then m.count else 0 := by
  rcases em (m.fromNode = id) with h | h
  · simp [committedFrom, h]
  · simp [committedFrom, h]

/-- In the planning phase both players are there. -/
theorem Sound.full (h : Sound room) (hphase : room.phase = .planning) : ¬ room.playerCount < 2 :=
  fun hlt => (h.waiting hlt).phase hphase

/-- **Reserving a granted move keeps the room sound.**  For the other side nothing changes; for the
    moving side the new total at the node is the old one plus the grant, which was at most what was
    left. -/
theorem Sound.reserve (h : Sound room) {side : PlayerSide} {command : MoveCommand}
    (hgrant : room.moveRefusal side command = none) : Sound (room.reserve side command) := by
  obtain ⟨hphase, hpos, hpath, n, hn, havail⟩ := moveRefusal_none hgrant
  have hmoves : ∀ s, MovesSound (room.reserve side command) s := by
    intro s
    rcases em (s = side) with rfl | hs
    · have hold := h.moves s
      have hpend : (room.reserve s command).pendingMoves.get s =
          room.pendingMoves.get s ++ [room.grantedMove s command] := PerSide.get_update_same _ _ _
      have hused : (room.reserve s command).unitUsedThisRound.get s =
          room.unitUsedThisRound.get s + room.granted s command := PerSide.get_update_same _ _ _
      refine ⟨fun m hm => ?_, fun id n' hn' => ?_, ?_, ?_⟩
      · rw [hpend] at hm
        rcases List.mem_append.mp hm with hm | hm
        · exact hold.moves m hm
        · rw [List.mem_singleton.mp hm]
          exact ⟨hpos, hpath⟩
      · rw [hpend, committedFrom_append]
        have hsol := hold.solvent id n' hn'
        -- only at the node the move leaves from does the committed total grow
        rcases em ((room.grantedMove s command).fromNode = id) with hid | hid
        · have hn'' : room.nodes.get? command.fromNode = some n' := by
            rw [show command.fromNode = id from hid]
            exact hn'
          cases hn.symm.trans hn''
          rw [if_pos hid]
          rw [availableAt, show command.fromNode = id from hid] at havail
          show _ + room.granted s command ≤ _
          omega
        · rw [if_neg hid]
          omega
      · rw [hpend, hused, hold.used, List.map_append, List.sum_append]
        show _ = _ + (room.granted s command + 0)
        rw [Int.add_zero]
      · rw [hused]
        -- the grant is cut to what the round still allows, so the account stays bounded
        have hle : room.granted s command ≤ maxUnitsPerPlayer - room.unitUsedThisRound.get s :=
          Int.min_le_right _ _
        omega
    · have hold := h.moves s
      have hpend : (room.reserve side command).pendingMoves.get s = room.pendingMoves.get s :=
        PerSide.get_update_of_ne _ hs _
      have hused : (room.reserve side command).unitUsedThisRound.get s =
          room.unitUsedThisRound.get s := PerSide.get_update_of_ne _ hs _
      exact ⟨fun m hm => hold.moves m (hpend ▸ hm), fun id n' hn' => hpend ▸ hold.solvent id n' hn',
        by rw [hpend, hused]; exact hold.used, by rw [hused]; exact hold.bounded⟩
  exact ⟨⟨h.map.nodes, h.map.edges⟩, h.edges, h.mobile,
    fun p hp => ⟨(h.encounters p hp).edge, (h.encounters p hp).side, (h.encounters p hp).groups⟩,
    hmoves, h.phase, h.seats, fun hlt => absurd hlt (h.full hphase)⟩

/-! ## An encounter is decided

An advance marks the encounter and touches no edge.  A retreat also turns the recorded group round
on its edge.  Either way the encounter leaves the list once both sides have decided. -/

/-- What a decision has passed. -/
theorem decisionRefusal_none {edgeId : EdgeId} {side : PlayerSide} {decision : EncounterDecision}
    (h : room.decisionRefusal edgeId side decision = none) :
    room.phase = .planning ∧ ∃ pending edge, room.encounterOn edgeId = some pending ∧
      pending.hasDecided side = false ∧ room.edges.get? edgeId = some edge ∧
      retreatRefusal edge (pending.groupOf side) decision = none := by
  -- the refusals in their order: phase, encounter, decided already, edge, group still there
  unfold decisionRefusal at h
  split at h
  · cases h
  next hphase =>
  rcases hp : room.encounterOn edgeId with _ | pending
  · rw [hp] at h
    cases h
  · rw [hp] at h
    simp only at h
    split at h
    · cases h
    next hund =>
    rcases he : room.edges.get? edgeId with _ | edge
    · rw [he] at h
      cases h
    · rw [he] at h
      exact ⟨not_not.mp hphase, pending, edge, rfl, Bool.eq_false_iff.mpr hund, rfl, h⟩

/-- The encounter a call finds is one of the pending ones, on the edge it asks for. -/
theorem encounterOn_mem {edgeId : EdgeId} {p : PendingEncounter}
    (h : room.encounterOn edgeId = some p) : p ∈ room.pendingEncounters ∧ p.edgeId = edgeId :=
  ⟨List.mem_of_find?_eq_some h, by simpa using List.find?_some h⟩

/-- With the encounter and its edge at hand, the decision is `decideOn`. -/
theorem decideEncounter_eq {edgeId : EdgeId} {p : PendingEncounter} {e : Edge}
    (hp : room.encounterOn edgeId = some p) (he : room.edges.get? edgeId = some e)
    (side : PlayerSide) (decision : EncounterDecision) :
    room.decideEncounter edgeId side decision = room.decideOn e p edgeId side decision := by
  rw [decideEncounter, hp, he]

/-- An accepted decision, and the room after it. -/
theorem next_decided {edgeId : EdgeId} {side : PlayerSide} {decision : EncounterDecision}
    (hok : room.decisionRefusal edgeId side decision = none) :
    ∃ p e, room.encounterOn edgeId = some p ∧ p.hasDecided side = false ∧
      room.edges.get? edgeId = some e ∧
      room.next (.resolveEncounter edgeId side decision) =
        room.decideOn e p edgeId side decision := by
  obtain ⟨-, p, e, hp, hund, he, -⟩ := decisionRefusal_none hok
  refine ⟨p, e, hp, hund, he, ?_⟩
  rw [next_resolveEncounter, hok, decideEncounter_eq hp he]
  rfl

/-- What is in a list whose first match was changed or dropped was there before, or is the change. -/
theorem mem_modifyFirst {α : Type} {p : α → Bool} {f : α → Option α} {l : List α} {x : α}
    (h : x ∈ modifyFirst p f l) : x ∈ l ∨ ∃ y ∈ l, p y ∧ f y = some x := by
  induction l with
  | nil => cases h
  | cons y ys ih =>
    rw [modifyFirst] at h
    split at h
    · next hy =>
      rcases List.mem_append.mp h with hf | hys
      · exact Or.inr ⟨y, List.mem_cons_self, hy, Option.mem_toList.mp hf⟩
      · exact Or.inl (List.mem_cons_of_mem _ hys)
    · rcases List.mem_cons.mp h with rfl | hys
      · exact Or.inl List.mem_cons_self
      · rcases ih hys with hold | ⟨y', hy', hnew⟩
        · exact Or.inl (List.mem_cons_of_mem _ hold)
        · exact Or.inr ⟨y', List.mem_cons_of_mem _ hy', hnew⟩

/-- The opposite of an end is an end. -/
theorem isEnd_oppositeEnd (e : EdgeId) (n : NodeId) : e.IsEnd (oppositeEnd e n) := by
  rw [oppositeEnd]
  split
  · exact Or.inr rfl
  · exact Or.inl rfl

/-- The edge after a decision is sound. -/
theorem edgeSound_after {e : Edge} {p : PendingEncounter} (he : EdgeSound e)
    (hd : 1 ≤ e.distance.roundsRequired) {side : PlayerSide}
    (hg : 1 ≤ (p.groupOf side).unitCount) : EdgeSound (edgeAfter e p side .retreat) where
  inTransit := (he.inTransit.removeTravelingGroup side).startTravel hd _ _ _
  groups k g hmem := by
    have hb : (edgeAfter e p side .retreat).bucket k = _ := Edge.bucket_startTravel _ _ _ _ k
    rw [hb, Edge.bucket_removeTravelingGroup] at hmem
    rcases List.mem_append.mp hmem with hold | hnew
    · exact he.groups k g (List.mem_of_mem_filter hold)
    · split at hnew
      · rw [List.mem_singleton.mp hnew]
        exact ⟨hg, isEnd_oppositeEnd _ _⟩
      · cases hnew

/-- The edges after a decision: the one it is about is replaced, when the side retreats. -/
theorem get?_edgesAfter {e : Edge} {p : PendingEncounter} {side : PlayerSide}
    (decision : EncounterDecision) {edgeId : EdgeId} (hid : e.id = edgeId)
    (he : room.edges.get? edgeId = some e) (k : EdgeId) :
    (room.edgesAfter e p side decision).get? k =
      if edgeId = k then some (edgeAfter e p side decision) else room.edges.get? k := by
  cases decision with
  | advance =>
    show room.edges.get? k = _
    split
    · next h => rw [← h, he]; rfl
    · rfl
  | retreat =>
    show (room.edges.set e.id _).get? k = _
    rw [Dict.get?_set, hid]

/-- A decision leaves every edge's identifier, ends and distance as they are. -/
theorem edgesAfter_shape (h : OnMap room) {e : Edge} {p : PendingEncounter} {side : PlayerSide}
    (decision : EncounterDecision) {edgeId : EdgeId} (he : room.edges.get? edgeId = some e) :
    (room.edgesAfter e p side decision).mapValues edgeShape = mapEdges := by
  cases decision with
  | advance => exact h.edges
  | retreat =>
    have hid : room.edges.get? e.id = some e := by
      rw [h.keyed _ _ he]
      exact he
    have hsame : edgeShape (edgeAfter e p side .retreat) = edgeShape e := rfl
    exact (Dict.mapValues_set hid hsame).trans h.edges

/-- **Deciding an encounter keeps the room sound.**  The one edge that may change is sound again,
    and stays in the dictionary (`hstays`), so the other encounters and the reserved moves keep
    theirs. -/
theorem Sound.decided (h : Sound room) {edgeId : EdgeId} {side : PlayerSide}
    {decision : EncounterDecision} (hok : room.decisionRefusal edgeId side decision = none) :
    Sound (room.decideEncounter edgeId side decision) := by
  obtain ⟨hphase, p, e, hp, -, he, -⟩ := decisionRefusal_none hok
  obtain ⟨hmem, hpid⟩ := encounterOn_mem hp
  rw [decideEncounter_eq hp he]
  have hid : e.id = edgeId := h.map.keyed _ _ he
  have hps := h.encounters p hmem
  have hedges : ∀ k, ((room.decideOn e p edgeId side decision).edges).get? k =
      if edgeId = k then some (edgeAfter e p side decision) else room.edges.get? k :=
    get?_edgesAfter decision hid he
  have hstays : ∀ k, (∃ e', room.edges.get? k = some e') →
      ∃ e', (room.decideOn e p edgeId side decision).edges.get? k = some e' := by
    rintro k ⟨e', he'⟩
    rw [hedges]
    split
    · exact ⟨_, rfl⟩
    · exact ⟨e', he'⟩
  exact {
    map := ⟨h.map.nodes, edgesAfter_shape h.map decision he⟩
    edges := fun k e' he' => by
      rw [hedges] at he'
      split at he'
      · cases he'
        cases decision with
        -- an advance leaves the edge as it is
        | advance => exact h.edges _ _ he
        | retreat =>
          exact edgeSound_after (h.edges _ _ he) (h.map.distance he).1 (hps.groups side).pos
      · exact h.edges k e' he'
    mobile := h.mobile
    encounters := fun q hq => by
      rcases mem_modifyFirst hq with hold | ⟨y, hy, -, hnew⟩
      · have hqs := h.encounters q hold
        exact ⟨hstays _ hqs.edge, hqs.side, hqs.groups⟩
      · split at hnew
        · cases hnew
        · cases hnew
          exact ⟨hstays _ hps.edge, hps.side, hps.groups⟩
    moves := fun s => ⟨fun m hm => ⟨((h.moves s).moves m hm).1, hstays _ ((h.moves s).moves m hm).2⟩,
      (h.moves s).solvent, (h.moves s).used, (h.moves s).bounded⟩
    phase := h.phase
    seats := h.seats
    waiting := fun hlt => absurd hlt (h.full hphase) }

/-! ## A round is resolved

The reserved moves of both sides are paid out, the groups on the edges advance, those that arrive
are delivered, and those that now stand opposite each other become pending encounters.  First, that
the resolution goes through at all (`Sound.resolvable`); then what it makes of one node and one
edge; then that the parts are sound. -/

/-- The moves the resolution works off are those of both sides, each with its side. -/
theorem mem_reservedMoves {m : SideMove} :
    m ∈ room.reservedMoves ↔ m.2 ∈ room.pendingMoves.get m.1 := by
  obtain ⟨s, m⟩ := m
  rw [reservedMoves, List.mem_append, List.mem_map, List.mem_map]
  cases s with
  | a => simp [PerSide.get]
  | b => simp [PerSide.get]

/-- The units committed from a node, by the first of the moves. -/
theorem committedFrom_cons (m : PendingMove) (ms : List PendingMove) (id : NodeId) :
    committedFrom (m :: ms) id = (if m.fromNode = id then m.count else 0) + committedFrom ms id := by
  by_cases h : m.fromNode = id
  · simp [committedFrom, h]
  · simp [committedFrom, h]

/-- The moves of one side take units of that side only. -/
theorem outgoing_side (t s : PlayerSide) (ms : List PendingMove) (id : NodeId) :
    outgoing (ms.map fun m => (t, m)) s id = if t = s then committedFrom ms id else 0 := by
  induction ms with
  | nil => split <;> rfl
  | cons m ms ih =>
    -- by induction over the moves; one of the other side adds nothing
    rw [List.map_cons, outgoing_cons, ih]
    rcases em (t = s) with h | h
    · rw [if_pos h, if_pos h, committedFrom_cons]
      simp only [h, true_and]
    · rw [if_neg h, if_neg h, if_neg fun hc => h hc.1]
      rfl

/-- The units that the reserved moves of a side take from a node. -/
theorem outgoing_reservedMoves (room : GameRoom) (s : PlayerSide) (id : NodeId) :
    outgoing room.reservedMoves s id = committedFrom (room.pendingMoves.get s) id := by
  rw [reservedMoves, outgoing_append, outgoing_side, outgoing_side]
  cases s with
  | a => rw [if_pos rfl, if_neg (by decide)]; exact Int.add_zero _
  | b => rw [if_pos rfl, if_neg (by decide)]; exact Int.zero_add _

/-- The reserved moves of a sound room can all be paid, whatever order they are worked off in. -/
theorem Sound.payable (h : Sound room) : Payable room.nodes room.edges room.reservedMoves where
  pos m hm := ((h.moves m.1).moves m.2 (mem_reservedMoves.mp hm)).1
  source m hm := by
    obtain ⟨-, e, he⟩ := (h.moves m.1).moves m.2 (mem_reservedMoves.mp hm)
    exact h.map.node_of_end he (EdgeId.isEnd_of _ _).1
  path m hm := ((h.moves m.1).moves m.2 (mem_reservedMoves.mp hm)).2
  solvent id n s hn := by
    rw [outgoing_reservedMoves]
    exact (h.moves s).solvent id n hn

/-- **A sound room in the planning phase can be resolved.** -/
theorem Sound.resolvable (h : Sound room) (hphase : room.phase = .planning) : Resolvable room where
  planning := hphase
  payable := h.payable
  keyed := h.map.keyed
  moving m hm := by
    obtain ⟨hpos, e, he⟩ := (h.moves m.1).moves m.2 (mem_reservedMoves.mp hm)
    exact ⟨hpos, h.map.node_of_end he (EdgeId.isEnd_of _ _).2⟩
  travelling id e k he g hg := by
    have hg' := (h.edges id e he).groups k g hg
    have hid : e.id = id := h.map.keyed _ _ he
    exact ⟨hg'.pos, h.map.node_of_end he (hid ▸ hg'.destination)⟩

/-- A departure leaves every node's identifier and type as they are. -/
theorem departNode_shape (nodes : Dict NodeId Node) (m : SideMove) :
    (departNode nodes m).mapValues nodeShape = nodes.mapValues nodeShape := by
  rw [departNode]
  rcases hn : nodes.get? m.2.fromNode with _ | n
  · rfl
  · have hr := Node.recount_departed n m.1 m.2.count
    have hsame : nodeShape (n.departed m.1 m.2.count) = nodeShape n :=
      Prod.ext_iff.mpr ⟨hr.id, hr.type⟩
    exact Dict.mapValues_set hn hsame

/-- So does an arrival. -/
theorem arriveNode_shape (nodes : Dict NodeId Node) (a : ArrivalInfo) :
    (arriveNode nodes a).mapValues nodeShape = nodes.mapValues nodeShape := by
  rw [arriveNode]
  rcases hn : nodes.get? a.destination with _ | n
  · rfl
  · have hr := Node.recount_arrived n a.side a.count
    have hsame : nodeShape (n.arrived a.side a.count) = nodeShape n :=
      Prod.ext_iff.mpr ⟨hr.id, hr.type⟩
    exact Dict.mapValues_set hn hsame

/-- A departure puts its group on an edge, whose identifier, ends and distance stay. -/
theorem loadEdge_shape {edges : Dict EdgeId Edge} (hk : Keyed edges) (m : SideMove) :
    (loadEdge edges m).mapValues edgeShape = edges.mapValues edgeShape := by
  rw [loadEdge]
  rcases he : edges.get? m.2.edgeId with _ | e
  · rfl
  · have hid : edges.get? e.id = some e := by
      rw [hk _ _ he]
      exact he
    have hsame : edgeShape (e.startTravel m.1 m.2.count m.2.toNode) = edgeShape e := rfl
    exact Dict.mapValues_set hid hsame

/-- A fold of steps that keep the image of a dictionary keeps it. -/
theorem foldl_image {α β γ : Type} {step : α → β → α} (image : α → γ)
    (h : ∀ a b, image (step a b) = image a) (bs : List β) :
    ∀ a, image (bs.foldl step a) = image a := by
  induction bs with
  | nil => exact fun _ => rfl
  | cons b bs ih => exact fun a => (ih (step a b)).trans (h a b)

variable (o : ProcessingOrder)

/-- All departures and all arrivals of a round leave the map of nodes as it is. -/
theorem settledNodes_shape (room : GameRoom) :
    (o.settledNodes room).mapValues nodeShape = room.nodes.mapValues nodeShape := by
  have harr : (o.settledNodes room).mapValues nodeShape =
      (o.emptiedNodes room).mapValues nodeShape :=
    foldl_image (fun d : Dict NodeId Node => d.mapValues nodeShape) arriveNode_shape _ _
  have hdep : (o.emptiedNodes room).mapValues nodeShape = room.nodes.mapValues nodeShape :=
    foldl_image (fun d : Dict NodeId Node => d.mapValues nodeShape) departNode_shape _ _
  exact harr.trans hdep

/-- All departures of a round leave the map of edges as it is.  The keys are needed at every step,
    for an edge is written back under its own identifier. -/
theorem loaded_shape (moves : List SideMove) :
    ∀ {edges : Dict EdgeId Edge}, Keyed edges →
      (moves.foldl loadEdge edges).mapValues edgeShape = edges.mapValues edgeShape := by
  induction moves with
  | nil => exact fun _ => rfl
  | cons m ms ih => exact fun hk => (ih (hk.loadEdge m)).trans (loadEdge_shape hk m)

/-- The advance of the round leaves it as it is as well. -/
theorem advancedEdges_shape (hk : Keyed room.edges) :
    (o.advancedEdges room).mapValues edgeShape = room.edges.mapValues edgeShape := by
  rw [ProcessingOrder.advancedEdges, Dict.mapValues_mapValues]
  exact loaded_shape _ hk

/-- What the resolution does to one edge. -/
theorem get?_advanced (hk : Keyed room.edges) (id : EdgeId) :
    (o.advancedEdges room).get? id = (room.edges.get? id).map fun e =>
      (e.loadAll (loads (o.executed room) id)).advanceRound.2 := by
  rw [ProcessingOrder.advancedEdges, Dict.get?_mapValues, ProcessingOrder.loadedEdges,
    get?_loaded _ _ hk, Option.map_map]
  rfl

/-- What the resolution does to one node. -/
theorem get?_settled (room : GameRoom) (id : NodeId) :
    (o.settledNodes room).get? id = (room.nodes.get? id).map fun n =>
      (n.departAll (leaving (o.executed room) id)).arriveAll (reaching (o.deliveries room) id) := by
  rw [ProcessingOrder.settledNodes, get?_arrivals, ProcessingOrder.emptiedNodes, get?_departures,
    Option.map_map]
  rfl

/-- What a resolution makes of the room, in whatever phase it leaves it. -/
structure ResolvedTo (o : ProcessingOrder) (room room' : GameRoom) : Prop where
  /-- Departures, then arrivals, then the history of the round is cleared. -/
  nodes : room'.nodes = (o.settledNodes room).mapValues Node.clearDepartureHistory
  edges : room'.edges = o.advancedEdges room
  players : room'.players = room.players
  moves : room'.pendingMoves = .both []
  used : room'.unitUsedThisRound = .both 0
  /-- Those still undecided, and the new ones. -/
  encounters : room'.pendingEncounters = o.nextEncounters room
  currentRound : room'.currentRound = room.currentRound + 1
  maxRounds : room'.maxRounds = room.maxRounds

/-- The end of the game changes the phase and the winner, and none of these. -/
theorem resolved_frame (room : GameRoom) (deadline : Time) :
    ResolvedTo o room (o.resolved room deadline) := by
  rw [ProcessingOrder.resolved, opened]
  split <;> exact ⟨rfl, rfl, rfl, rfl, rfl, rfl, rfl, rfl⟩

/-- The pending encounters after a resolution that started with none. -/
theorem pendingEncounters_resolved {o : ProcessingOrder} (hnone : room.pendingEncounters = [])
    (deadline : Time) : (o.resolved room deadline).pendingEncounters =
      (o.encounters room).map EncounterInfo.toPending := by
  rw [(resolved_frame o room deadline).encounters, ProcessingOrder.nextEncounters, hnone,
    List.nil_append]

/-- What a whole round does to one node. -/
theorem get?_resolved (room : GameRoom) (deadline : Time) (id : NodeId) :
    (o.resolved room deadline).nodes.get? id = (room.nodes.get? id).map fun n =>
      ((n.departAll (leaving (o.executed room) id)).arriveAll
        (reaching (o.deliveries room) id)).clearDepartureHistory := by
  rw [(resolved_frame o room deadline).nodes, Dict.get?_mapValues, get?_settled, Option.map_map]
  rfl

/-- After a round the room plans the next one, unless the game has been won or has run out of
    rounds. -/
theorem opened_phase (room : GameRoom) (completedRound : Int) (deadline : Time) :
    (room.opened completedRound deadline).phase =
      if room.endsGame then .gameOver else .planning := by
  rw [opened]
  split <;> rfl

/-- A group on an edge loaded with sound groups is sound. -/
theorem edgeSound_loadAll {e : Edge} (he : EdgeSound e) (hd : 1 ≤ e.distance.roundsRequired)
    {gs : List TravelingGroup} (hgs : ∀ g ∈ gs, GroupSound e.id g) : EdgeSound (e.loadAll gs) where
  inTransit := he.inTransit.loadAll hd gs
  groups k g hg := by
    rw [(Edge.loadAll_frame gs e).1]
    rw [Edge.bucket_loadAll, List.mem_append] at hg
    rcases hg with hold | hnew
    · exact he.groups k g hold
    · split at hnew
      · exact hgs g hnew
      · cases hnew

/-- A round's advance keeps an edge sound: what stays on it comes one bucket nearer. -/
theorem edgeSound_advanceRound {e : Edge} (he : EdgeSound e) : EdgeSound e.advanceRound.2 where
  inTransit := he.inTransit.advanceRound
  groups k g hg := by
    rw [Edge.bucket_advanceRound] at hg
    split at hg
    · exact he.groups (k + 1) g hg
    · cases hg

/-- The groups that a batch of reserved moves puts on an edge are sound. -/
theorem Sound.loads (h : Sound room) {id : EdgeId} {g : TravelingGroup}
    (hg : g ∈ loads (o.executed room) id) : GroupSound id g := by
  obtain ⟨m, hm, hid, rfl⟩ := mem_loads.mp hg
  have hmem : m ∈ room.reservedMoves := (o.moves_perm _).mem_iff.mp hm
  obtain ⟨hpos, -⟩ := (h.moves m.1).moves m.2 (mem_reservedMoves.mp hmem)
  exact ⟨hpos, hid ▸ (EdgeId.isEnd_of _ _).2⟩

/-- The advanced edges are sound. -/
theorem Sound.advanced (h : Sound room) {id : EdgeId} {e : Edge}
    (he : (o.advancedEdges room).get? id = some e) : EdgeSound e ∧ e.id = id := by
  rw [get?_advanced o h.map.keyed] at he
  obtain ⟨e₀, he₀, rfl⟩ := Option.map_eq_some_iff.mp he
  have hid : e₀.id = id := h.map.keyed _ _ he₀
  have hload : EdgeSound (e₀.loadAll (HexWar.loads (o.executed room) id)) :=
    edgeSound_loadAll (h.edges _ _ he₀) (h.map.distance he₀).1 fun g hg => hid ▸ h.loads o hg
  exact ⟨edgeSound_advanceRound hload, (Edge.loadAll_frame _ _).1.trans hid⟩

/-- An encounter of the advanced edges, with the bucket it was found in. -/
theorem mem_encounters {enc : EncounterInfo} :
    enc ∈ o.encounters room ↔ ∃ id e k gA gB, (o.advancedEdges room).get? id = some e ∧
      Edge.firstOf .a (e.bucket k) = some gA ∧ Edge.firstOf .b (e.bucket k) = some gB ∧
      enc = ⟨e.id, gA, gB, k⟩ := by
  rw [ProcessingOrder.encounters, List.mem_flatMap]
  constructor
  · rintro ⟨e, he, hfound⟩
    obtain ⟨id, hid⟩ := Dict.mem_values.mp he
    obtain ⟨k, gA, gB, hA, hB, rfl⟩ := Edge.mem_findAllEncounters.mp hfound
    exact ⟨id, e, k, gA, gB, hid, hA, hB, rfl⟩
  · rintro ⟨id, e, k, gA, gB, hid, hA, hB, rfl⟩
    exact ⟨e, Dict.mem_values.mpr ⟨id, hid⟩, Edge.mem_findAllEncounters.mpr ⟨k, gA, gB, hA, hB,
      rfl⟩⟩

/-- The groups of a new pending encounter are the groups that met. -/
theorem groupOf_toPending {enc : EncounterInfo} (hA : enc.groupA.side = .a)
    (s : PlayerSide) : enc.toPending.groupOf s = match s with | .a => enc.groupA | .b => enc.groupB := by
  show (if enc.groupA.side = s then enc.groupA else enc.groupB) = _
  rw [hA]
  cases s <;> rfl

/-- A round seats nobody. -/
theorem playerCount_resolved (room : GameRoom) (deadline : Time) :
    (o.resolved room deadline).playerCount = room.playerCount :=
  playerCount_congr (resolved_frame o room deadline).players

/-- No more units leave a node than are there. -/
theorem Sound.mobile_resolved (h : Sound room) (hphase : room.phase = .planning) {deadline : Time}
    {id : NodeId} {n : Node} (hn : (o.resolved room deadline).nodes.get? id = some n)
    (s : PlayerSide) : 0 ≤ n.getMobileCount s := by
  rw [get?_resolved] at hn
  obtain ⟨n₀, hn₀, rfl⟩ := Option.map_eq_some_iff.mp hn
  -- the balance of the node: what was there, less what left, and what came
  have hleft := (Node.departAll_base (leaving (o.executed room) id) n₀).2.2 s
  have hcame := (Node.arriveAll_base (reaching (o.deliveries room) id)
    (n₀.departAll (leaving (o.executed room) id))).2.2 s
  have hsol := ((h.resolvable hphase).payable_in o).solvent id n₀ s hn₀
  rw [outgoing_eq] at hsol
  -- arrivals are counts of groups, which are positive
  have hpos : 0 ≤ passing s (reaching (o.deliveries room) id) := by
    refine passing_nonneg (fun p hp => ?_) s
    obtain ⟨a, ha, rfl⟩ := List.mem_map.mp hp
    exact ((h.resolvable hphase).deliverable o a (List.mem_of_mem_filter ha)).1
  show 0 ≤ ((n₀.departAll _).arriveAll _).getMobileCount s
  omega

/-- A new encounter is between sound groups on an edge of the room. -/
theorem Sound.encounter_resolved (h : Sound room) {enc : EncounterInfo}
    (henc : enc ∈ o.encounters room) (deadline : Time) :
    EncounterSound (o.resolved room deadline) enc.toPending := by
  obtain ⟨id, e, k, gA, gB, he, hA, hB, rfl⟩ := (mem_encounters o).mp henc
  -- both groups stand in one bucket of an advanced edge, and all groups there are sound
  obtain ⟨hsound, rfl⟩ := h.advanced o he
  obtain ⟨hmA, hsA⟩ := Edge.firstOf_mem hA
  obtain ⟨hmB, hsB⟩ := Edge.firstOf_mem hB
  refine ⟨⟨e, ?_⟩, fun s => ?_, fun s => ?_⟩
  · rw [(resolved_frame o room deadline).edges]
    exact he
  · rw [groupOf_toPending hsA]
    cases s with
    | a => exact hsA
    | b => exact hsB
  · rw [groupOf_toPending hsA]
    cases s with
    | a => exact hsound.groups k gA hmA
    | b => exact hsound.groups k gB hmB

/-- **Resolving a round keeps the room sound**, in every order of the moves.  The moves and the
    account start anew, so they are sound as in a fresh room; the encounters are the old ones on
    edges that are still there, and the new ones. -/
theorem Sound.resolved (h : Sound room) (hphase : room.phase = .planning) (deadline : Time) :
    Sound (o.resolved room deadline) := by
  have hframe := resolved_frame o room deadline
  have hedge : ∀ id, (∃ e, room.edges.get? id = some e) →
      ∃ e, (o.resolved room deadline).edges.get? id = some e := by
    rintro id ⟨e, he⟩
    rw [hframe.edges, get?_advanced o h.map.keyed, he]
    exact ⟨_, rfl⟩
  exact {
    map := by
      refine ⟨?_, ?_⟩
      · rw [hframe.nodes, Dict.mapValues_mapValues]
        exact (settledNodes_shape o room).trans h.map.nodes
      · rw [hframe.edges]
        exact (advancedEdges_shape o h.map.keyed).trans h.map.edges
    edges := fun id e he => by
      rw [hframe.edges] at he
      exact (h.advanced o he).1
    mobile := fun _ _ s hn => h.mobile_resolved o hphase hn s
    encounters := fun p hp => by
      rw [hframe.encounters] at hp
      rcases List.mem_append.mp hp with hold | hnew
      · have hps := h.encounters p hold
        exact ⟨hedge _ hps.edge, hps.side, hps.groups⟩
      · obtain ⟨enc, henc, rfl⟩ := List.mem_map.mp hnew
        exact h.encounter_resolved o henc deadline
    moves := fun s => movesSound_of_nil
      (by rw [hframe.moves]; exact PerSide.get_both _ s)
      (by rw [hframe.used]; exact PerSide.get_both _ s)
      fun _ _ hn => h.mobile_resolved o hphase hn s
    phase := by
      rw [ProcessingOrder.resolved, opened_phase]
      split <;> decide
    seats := by
      rw [hframe.players]
      exact h.seats
    waiting := fun hlt => absurd (playerCount_resolved o room deadline ▸ hlt) (h.full hphase) }

/-! ## Every run

The five step lemmas, one for each call, and the induction over runs. -/

/-- A round resolved in the planning phase is `resolved` in the source's own order of the moves. -/
theorem next_resolveRound (h : Sound room) (hphase : room.phase = .planning)
    (deadline : Option Time) (now : Time) :
    room.next (.resolveRound deadline now) =
      sourceOrder.resolved room (deadline.getD (now + defaultPlanning)) :=
  after_ok (resolveRound_ok (h.resolvable hphase) deadline now)

/-- Outside of the planning phase the call throws and the room is unchanged. -/
theorem next_resolveRound_refused (hphase : room.phase ≠ .planning) (deadline : Option Time)
    (now : Time) : room.next (.resolveRound deadline now) = room :=
  after_error (resolveRound_throws hphase deadline now)

/-- **Soundness is kept by every call**, with any arguments. -/
theorem Sound.next (h : Sound room) (call : Call) : Sound (room.next call) := by
  cases call with
  | addPlayer playerId deadline now =>
    rw [next_addPlayer h.map]
    rcases hr : room.joinRefusal playerId with _ | e
    · exact h.joined hr _
    · exact h
  | moveUnits side command =>
    rw [next_moveUnits]
    rcases hr : room.moveRefusal side command with _ | e
    · exact h.reserve hr
    · exact h
  | resolveEncounter edgeId side decision =>
    rw [next_resolveEncounter]
    rcases hr : room.decisionRefusal edgeId side decision with _ | e
    · exact h.decided hr
    · exact h
  | resolveRound deadline now =>
    rcases em (room.phase = .planning) with hphase | hphase
    · rw [next_resolveRound h hphase]
      exact h.resolved sourceOrder hphase _
    · rw [next_resolveRound_refused hphase]
      exact h
  | forceGameOver winner reason =>
    rw [next_forceGameOver]
    exact ⟨⟨h.map.nodes, h.map.edges⟩, h.edges, h.mobile,
      fun p hp => ⟨(h.encounters p hp).edge, (h.encounters p hp).side, (h.encounters p hp).groups⟩,
      fun s => ⟨(h.moves s).moves, (h.moves s).solvent, (h.moves s).used, (h.moves s).bounded⟩,
      by show GamePhase.gameOver ≠ .resolution; decide, h.seats,
      fun hlt => ⟨by show GamePhase.gameOver ≠ .planning; decide, (h.waiting hlt).moves,
        (h.waiting hlt).used, (h.waiting hlt).encounters, (h.waiting hlt).edges,
        (h.waiting hlt).nodes⟩⟩

/-- Every state of any run is sound. -/
theorem sound_of_reachable {roomId : String} (h : (rooms roomId).Reachable room) : Sound room :=
  h.invariant (sound_initial roomId) fun _ call hs _ => hs.next call

/-- A session's runs are runs. -/
theorem reachable_of_session {roomId : String} (h : (session roomId).Reachable room) :
    (rooms roomId).Reachable room :=
  h.weaken fun _ _ _ => trivial

end HexWar
