/-
  `RoundResolved` as a description of the round.

  The event tells the round twice: step by step, as moves, arrivals and changes of owner, and by its
  result, as a snapshot of every node.  A client that starts from the nodes before the round and
  applies the steps should end at the snapshots.

  The mobile units always do (`mobile_replay`).  The owners do as long as only arrivals change them:
  the arrivals are compared with the owner just before each, but the departures recount the owner as
  well, and nothing records what they change.  So the replay is right exactly if every node, once its
  reserved units have left, has the owner it had (`round_replayed_iff`).


  The proof for the owners goes backwards.  The changes lead to the owners after the deliveries exactly
  if they start from the owners before them (`followed_iff`), and they start from the owners before
  the DEPARTURES; so the two have to be the same.  What the departures leave is computed from the
  numbers of units alone (`Node.ownerOnceLeft`): side A's moves come first and move the scale of a
  supply line one way, side B's the other way, so each side's moves count as one.
-/
import HexWar.Domain.Deliveries
import HexWar.Domain.Ownership
import HexWar.Domain.Reports

namespace HexWar

open Lib Lib.Action GameRoom

variable {room : GameRoom}

/-! ## The replay

A client that has the board of the round before, and the summary. -/

/-- What a replay keeps track of: the mobile units and the owner of every node. -/
structure Board where
  /-- The mobile units, by the number of the node, -/
  mobile : Int → PlayerSide → Int
  /-- and its owner, as it is written in the event. -/
  owner : Int → String

namespace Board

/-- Take the units of a move off its node. -/
def depart (b : Board) (m : MoveExecutionRecord) : Board :=
  { b with mobile := fun i s =>
      b.mobile i s - if m.side = s ∧ m.fromNode = ⟨i⟩ then m.unitCount else 0 }

/-- Add the units of an arrival to its node. -/
def arrive (b : Board) (a : ArrivalRecord) : Board :=
  { b with mobile := fun i s =>
      b.mobile i s + if a.side = s ∧ a.destinationNodeId = ⟨i⟩ then a.unitCount else 0 }

/-- Give a node its new owner. -/
def turn (b : Board) (c : OwnershipChangeRecord) : Board :=
  { b with owner := fun i => if c.nodeId = i then c.newOwner else b.owner i }

/-- The board when the moves and the arrivals of a round have been applied. -/
def moved (b : Board) (summary : RoundResolved) : Board :=
  summary.arrivals.foldl arrive (summary.moveExecutions.foldl depart b)

/-- The board when the changes of owner have been applied as well. -/
def replay (b : Board) (summary : RoundResolved) : Board :=
  summary.ownershipChanges.foldl turn (b.moved summary)

/-- Each change of owner starts from the owner that the changes before it have left. -/
def Followed : Board → List OwnershipChangeRecord → Prop
  | _, [] => True
  | b, c :: cs => c.previousOwner = b.owner c.nodeId ∧ Followed (b.turn c) cs

instance decidableFollowed : ∀ (b : Board) (cs : List OwnershipChangeRecord),
    Decidable (b.Followed cs)
  | _, [] => .isTrue trivial
  | b, c :: cs => @instDecidableAnd _ _ _ (decidableFollowed (b.turn c) cs)

/-- The snapshot of a node says what the board says. -/
def Shows (b : Board) (shots : List (Int × NodeStateSnapshot)) (i : Int) : Prop :=
  (lookup i shots).map (fun shot => (shot.playerAMobile, shot.playerBMobile, shot.ownership)) =
    some (b.mobile i .a, b.mobile i .b, b.owner i)

instance (b : Board) (shots : List (Int × NodeStateSnapshot)) (i : Int) :
    Decidable (b.Shows shots i) := inferInstanceAs (Decidable (_ = _))

end Board

/-- The board of a room. -/
def GameRoom.board (room : GameRoom) : Board where
  mobile i s := ((room.nodes.get? ⟨i⟩).map (·.getMobileCount s)).getD 0
  owner i := ((room.nodes.get? ⟨i⟩).map fun n => toString n.ownership).getD ""

/-- The summary of a round replays it from the room before the round: every node ends as its snapshot
    says, and every change of owner starts from the owner of that moment. -/
def Replays (room : GameRoom) (summary : RoundResolved) : Prop :=
  (∀ kv ∈ room.nodes.entries,
    (room.board.replay summary).Shows summary.nodeSnapshots kv.1.value) ∧
  (room.board.moved summary).Followed summary.ownershipChanges

instance (room : GameRoom) (summary : RoundResolved) : Decidable (Replays room summary) :=
  inferInstanceAs (Decidable (_ ∧ _))

/-- A resolution raises one summary, and it replays the round. -/
def Replayed (room : GameRoom) : Call → Prop
  | .resolveRound deadline now =>
    (summariesIn (room.next (.resolveRound deadline now)).domainEvents).length = 1 ∧
    ∀ summary ∈ summariesIn (room.next (.resolveRound deadline now)).domainEvents,
      Replays room summary
  | _ => True

instance (room : GameRoom) : ∀ call, Decidable (Replayed room call)
  | .resolveRound _ _ => inferInstanceAs (Decidable (_ ∧ _))
  | .addPlayer _ _ _ | .moveUnits _ _ | .resolveEncounter _ _ _ | .forceGameOver _ _ => .isTrue trivial

/-! ## When the departures change no owner

The condition can be read off the board and the plans, without resolving anything. -/

/-- The owner of a node once `outA` and `outB` mobile units have left it, side A's first. -/
def Node.ownerOnceLeft (n : Node) (outA outB : Int) : NodeOwnership :=
  let countA := n.getMobileCount .a - outA
  let countB := n.getMobileCount .b - outB
  match n.type with
  | .headquarters => .neutral
  | .supplyLine => heldOwner ((n.scale.move (-outA)).move outB).holder countA countB
  | .outPost | .chokepoint => ownerByCount countA countB

/-- Every node, once its reserved units have left, has the owner it had. -/
def GameRoom.KeepsOwnersLeaving (room : GameRoom) : Prop :=
  ∀ kv ∈ room.nodes.entries,
    kv.2.ownerOnceLeft (outgoing room.reservedMoves .a kv.1) (outgoing room.reservedMoves .b kv.1) =
      kv.2.ownership

instance (room : GameRoom) : Decidable room.KeepsOwnersLeaving := List.decidableBAll _ _

/-- The resolutions in which no departure changes an owner, and every other call. -/
def LeavesOwners (room : GameRoom) : Call → Prop
  | .resolveRound _ _ => room.KeepsOwnersLeaving
  | _ => True

instance (room : GameRoom) : ∀ call, Decidable (LeavesOwners room call)
  | .resolveRound _ _ => inferInstanceAs (Decidable room.KeepsOwnersLeaving)
  | .addPlayer _ _ _ | .moveUnits _ _ | .resolveEncounter _ _ _ | .forceGameOver _ _ => .isTrue trivial

/-! ## The mobile units

A fold over the records subtracts what leaves and adds what arrives, and so do the two loops. -/

/-- A node has lost what has left it, -/
theorem Board.moved_moves (i : Int) (s : PlayerSide) (ms : List SideMove) : ∀ b : Board,
    ((ms.map moveRecord).foldl depart b).mobile i s = b.mobile i s - outgoing ms s ⟨i⟩ := by
  induction ms with
  | nil => exact fun b => (Int.sub_zero _).symm
  | cons m ms ih =>
    intro b
    rw [List.map_cons, List.foldl_cons, ih, outgoing_cons]
    show b.mobile i s - (if m.1 = s ∧ m.2.fromNode = ⟨i⟩ then m.2.count else 0) - _ = _
    omega

/-- what comes being counted arrival by arrival, -/
theorem incoming_cons (a : ArrivalInfo) (as : List ArrivalInfo) (s : PlayerSide) (id : NodeId) :
    incoming (a :: as) s id =
      (if a.side = s ∧ a.destination = id then a.count else 0) + incoming as s id := by
  by_cases h : a.side = s ∧ a.destination = id
  · simp [incoming, h]
  · simp [incoming, h]

/-- and gained what has come to it. -/
theorem Board.moved_arrivals (i : Int) (s : PlayerSide) (as : List ArrivalInfo) : ∀ b : Board,
    ((as.map arrivalRecord).foldl arrive b).mobile i s = b.mobile i s + incoming as s ⟨i⟩ := by
  induction as with
  | nil => exact fun b => (Int.add_zero _).symm
  | cons a as ih =>
    intro b
    rw [List.map_cons, List.foldl_cons, ih, incoming_cons]
    show b.mobile i s + (if a.side = s ∧ a.destination = ⟨i⟩ then a.count else 0) + _ = _
    omega

/-! The moves and the arrivals leave the owners alone, and the changes of owner the units. -/

/-- So the owners are those from before the round when the first change is applied, -/
theorem Board.owner_moved (b : Board) (summary : RoundResolved) :
    (b.moved summary).owner = b.owner := by
  have hmoves : ∀ (ms : List MoveExecutionRecord) (b : Board), (ms.foldl depart b).owner = b.owner := by
    intro ms
    induction ms with
    | nil => exact fun _ => rfl
    | cons m ms ih => exact fun b => ih (b.depart m)
  have harrivals : ∀ (as : List ArrivalRecord) (b : Board), (as.foldl arrive b).owner = b.owner := by
    intro as
    induction as with
    | nil => exact fun _ => rfl
    | cons a as ih => exact fun b => ih (b.arrive a)
  exact (harrivals _ _).trans (hmoves _ _)

/-- and the changes leave the units right. -/
theorem Board.mobile_turned (cs : List OwnershipChangeRecord) :
    ∀ b : Board, (cs.foldl turn b).mobile = b.mobile := by
  induction cs with
  | nil => exact fun _ => rfl
  | cons c cs ih => exact fun b => ih (b.turn c)

/-- **The replay has the mobile units right.** -/
theorem mobile_replay {id : NodeId} {n n' : Node} (hn : room.nodes.get? id = some n)
    (hn' : (sourceOrder.settledNodes room).get? id = some n') (s : PlayerSide) :
    (room.board.replay (sourceOrder.summary room)).mobile id.value s = n'.getMobileCount s := by
  have hbefore : room.board.mobile id.value s = n.getMobileCount s := by
    show ((room.nodes.get? id).map _).getD 0 = _
    rw [hn]
    rfl
  have hafter : n'.getMobileCount s = n.getMobileCount s - outgoing room.reservedMoves s id +
      incoming (sourceOrder.deliveries room) s id := by
    rw [get?_settled, hn] at hn'
    cases hn'
    rw [(Node.arriveAll_base _ _).2.2, (Node.departAll_base _ _).2.2, outgoing_eq, incoming_eq]
    rfl
  rw [Board.replay, Board.mobile_turned, Board.moved, summary_arrivals, Board.moved_arrivals]
  show (((room.reservedMoves.map moveRecord).foldl Board.depart room.board).mobile _ s) + _ = _
  rw [Board.moved_moves, hbefore, hafter]

/-! ## The owners

A change names the owner before and after; it is followed if the client has the former. -/

/-- The changes of owner that a list of deliveries records. -/
def changesIn (nodes : Dict NodeId Node) (as : List ArrivalInfo) : List OwnershipChangeRecord :=
  (outputs arriveNode deliveryRecord nodes as).filterMap (·.2)

/-- The board has the owners of the nodes. -/
def Board.Tracks (b : Board) (nodes : Dict NodeId Node) : Prop :=
  ∀ id n, nodes.get? id = some n → b.owner id.value = toString n.ownership

/-- A delivery records no change of owner, or the one it makes. -/
theorem change_cases (nodes : Dict NodeId Node) (a : ArrivalInfo) :
    ((deliveryRecord nodes a).2 = none ∧ ∀ n, nodes.get? a.destination = some n →
      (n.arrived a.side a.count).ownership = n.ownership) ∨
    ∃ n c, nodes.get? a.destination = some n ∧ (deliveryRecord nodes a).2 = some c ∧
      c.nodeId = a.destination.value ∧ c.previousOwner = toString n.ownership ∧
      c.newOwner = toString (n.arrived a.side a.count).ownership := by
  rcases hn : nodes.get? a.destination with _ | n
  -- An arrival at no node records nothing.
  · refine .inl ⟨?_, fun n hn' => by cases hn'⟩
    rw [deliveryRecord, hn]
  · rcases em ((n.arrived a.side a.count).ownership = n.ownership) with hsame | hother
    · refine .inl ⟨?_, fun n' hn' => ?_⟩
      · rw [deliveryRecord, hn]
        exact if_neg (not_not_intro hsame)
      · cases hn'
        exact hsame
    · refine .inr ⟨n, ⟨a.destination.value, toString n.ownership,
        toString (n.arrived a.side a.count).ownership, (n.arrived a.side a.count).isSupplyLine⟩,
        rfl, ?_, rfl, rfl, rfl⟩
      rw [deliveryRecord, hn]
      exact if_pos hother

/-- A delivery that changes no owner. -/
theorem Board.tracks_quiet {b : Board} {nodes : Dict NodeId Node} {a : ArrivalInfo}
    (h : ∀ n, nodes.get? a.destination = some n →
      (n.arrived a.side a.count).ownership = n.ownership) :
    b.Tracks (arriveNode nodes a) ↔ b.Tracks nodes := by
  refine forall_congr' fun id => ?_
  rw [get?_arriveNode]
  rcases em (a.destination = id) with rfl | hid
  · rw [if_pos rfl]
    rcases hn : nodes.get? a.destination with _ | n
    · exact Iff.rfl
    · simp only [Option.map_some, Option.some.injEq, forall_eq', h n hn]
  · rw [if_neg hid]

/-- A delivery that changes an owner, and the record of it. -/
theorem Board.tracks_turn {b : Board} {nodes : Dict NodeId Node} {a : ArrivalInfo} {n : Node}
    {c : OwnershipChangeRecord} (hn : nodes.get? a.destination = some n)
    (hid : c.nodeId = a.destination.value) (hold : c.previousOwner = toString n.ownership)
    (hnew : c.newOwner = toString (n.arrived a.side a.count).ownership) :
    (c.previousOwner = b.owner c.nodeId ∧ (b.turn c).Tracks (arriveNode nodes a)) ↔
      b.Tracks nodes := by
  -- The change is about the destination only.
  have hother : ∀ id, a.destination ≠ id → (b.turn c).owner id.value = b.owner id.value := by
    intro id hne
    refine if_neg fun hc => hne ?_
    rw [hid] at hc
    cases a with | mk d _ _ _ => cases d; cases id; cases hc; rfl
  constructor
  · rintro ⟨hprev, htracks⟩ id n' hn'
    rcases em (a.destination = id) with rfl | hne
    · cases hn.symm.trans hn'
      rw [← hold, hprev, hid]
    · rw [← hother id hne]
      refine htracks id n' ?_
      rw [get?_arriveNode, if_neg hne]
      exact hn'
  · intro htracks
    refine ⟨by rw [hold, hid, htracks _ _ hn], fun id n' hn' => ?_⟩
    rw [get?_arriveNode] at hn'
    rcases em (a.destination = id) with rfl | hne
    · rw [if_pos rfl, hn] at hn'
      cases hn'
      exact (if_pos hid).trans hnew
    · rw [if_neg hne] at hn'
      rw [hother id hne]
      exact htracks id n' hn'

/-- **The changes of owner lead from the right owners to the right owners**, and from no others: they
    are followed, and end at the owners after the deliveries, exactly if they start from the owners
    before them. -/
theorem followed_iff (as : List ArrivalInfo) : ∀ (b : Board) (nodes : Dict NodeId Node),
    (((changesIn nodes as).foldl Board.turn b).Tracks (as.foldl arriveNode nodes) ∧
      b.Followed (changesIn nodes as)) ↔ b.Tracks nodes := by
  induction as with
  | nil => exact fun b nodes => and_iff_left trivial
  | cons a as ih =>
    intro b nodes
    rcases change_cases nodes a with ⟨hnone, hquiet⟩ | ⟨n, c, hn, hsome, hid, hold, hnew⟩
    · have hchanges : changesIn nodes (a :: as) = changesIn (arriveNode nodes a) as := by
        rw [changesIn, outputs, List.filterMap_cons, hnone]
        rfl
      rw [hchanges, List.foldl_cons, ih, Board.tracks_quiet hquiet]
    · have hchanges : changesIn nodes (a :: as) = c :: changesIn (arriveNode nodes a) as := by
        rw [changesIn, outputs, List.filterMap_cons, hsome]
        rfl
      rw [hchanges, List.foldl_cons, List.foldl_cons, ← Board.tracks_turn hn hid hold hnew,
        ← ih (b.turn c)]
      show (_ ∧ _ ∧ _) ↔ _
      exact and_left_comm

/-! ## The departures

The owner of a node that units leave is recounted after each move; what counts in the end is the
last recount. -/

/-- The moves of one side move a scale once, by all their units. -/
theorem moves_leaving {x : Scale} (hx : x.Coherent) (s : PlayerSide) {ms : List PendingMove}
    (hpos : ∀ m ∈ ms, 1 ≤ m.count) (id : NodeId) :
    x.moves ((leaving (ms.map fun m => (s, m)) id).map fun p => -signed p) =
      x.move (-signed (s, outgoing (ms.map fun m => (s, m)) s id)) := by
  have hone : ∀ p ∈ leaving (ms.map fun m => (s, m)) id, p.1 = s ∧ 1 ≤ p.2 := by
    intro p hp
    obtain ⟨q, hq, rfl⟩ := List.mem_map.mp hp
    obtain ⟨m, hm, rfl⟩ := List.mem_map.mp (List.mem_of_mem_filter hq)
    exact ⟨rfl, hpos m hm⟩
  -- Moves in one direction add up, as long as they all have units.
  have hsum : ((leaving (ms.map fun m => (s, m)) id).map fun p => -signed p).sum =
      -signed (s, outgoing (ms.map fun m => (s, m)) s id) := by
    rw [outgoing_eq]
    generalize leaving (ms.map fun m => (s, m)) id = ps at hone
    induction ps with
    | nil => cases s <;> rfl
    | cons p ps ih =>
      have hrest := ih fun q hq => hone q (List.mem_cons_of_mem _ hq)
      obtain ⟨hside, -⟩ := hone p List.mem_cons_self
      obtain ⟨t, c⟩ := p
      obtain rfl : t = s := hside
      rw [List.map_cons, List.sum_cons, hrest, passing_cons, if_pos rfl]
      cases t <;> simp only [signed] <;> omega
  rw [← hsum]
  cases s with
  | a =>
    refine Scale.moves_of_nonpos (fun δ hδ => ?_) hx
    obtain ⟨⟨t, c⟩, hp, rfl⟩ := List.mem_map.mp hδ
    obtain ⟨rfl, hc⟩ := hone _ hp
    show -c ≤ 0
    dsimp only at hc
    omega
  | b =>
    refine Scale.moves_of_nonneg (fun δ hδ => ?_) hx
    obtain ⟨⟨t, c⟩, hp, rfl⟩ := List.mem_map.mp hδ
    obtain ⟨rfl, hc⟩ := hone _ hp
    show 0 ≤ - -c
    dsimp only at hc
    omega

/-- **The owner that the departures of a round leave.** -/
theorem Sound.ownership_departAll (h : Sound room) (hn : NodesSound room) {id : NodeId} {n : Node}
    (hget : room.nodes.get? id = some n) :
    (n.departAll (leaving room.reservedMoves id)).ownership =
      n.ownerOnceLeft (outgoing room.reservedMoves .a id) (outgoing room.reservedMoves .b id) := by
  have hgone : ∀ p ∈ leaving room.reservedMoves id, 1 ≤ p.2 := fun p hp => by
    obtain ⟨m, hm, rfl⟩ := List.mem_map.mp hp
    exact h.payable.pos m (List.mem_of_mem_filter hm)
  have hcost : ∀ s, passing s (leaving room.reservedMoves id) ≤ n.getMobileCount s := fun s => by
    rw [← outgoing_eq]
    exact h.payable.solvent id n s hget
  have hs := hn id n hget
  obtain ⟨hsound, hscale⟩ := Node.sound_departAll hgone hs hcost
  obtain ⟨-, htype, hmobile⟩ := Node.departAll_base (leaving room.reservedMoves id) n
  have hown := hsound.owned
  have hleft : ∀ s, (n.departAll (leaving room.reservedMoves id)).getMobileCount s =
      n.getMobileCount s - outgoing room.reservedMoves s id := fun s => by rw [hmobile, outgoing_eq]
  rw [Node.Owned, htype] at hown
  rw [Node.ownerOnceLeft]
  -- An outpost and a chokepoint go by the counts, and the headquarters belongs to nobody; only a
  -- supply line remembers.
  rcases ht : n.type with _ | _ | _ | _
  · rw [ht] at hown
    rw [hown, hleft, hleft]
  · rw [ht] at hown
    rw [hown, hleft, hleft]
  · rw [ht] at hown
    have hcoh := hs.coherent ht
    have hposA : ∀ m ∈ room.pendingMoves.a, 1 ≤ m.count := fun m hm =>
      h.payable.pos (.a, m) (List.mem_append_left _ (List.mem_map_of_mem hm))
    have hposB : ∀ m ∈ room.pendingMoves.b, 1 ≤ m.count := fun m hm =>
      h.payable.pos (.b, m) (List.mem_append_right _ (List.mem_map_of_mem hm))
    have hsplit : ∀ s, outgoing room.reservedMoves s id =
        outgoing (room.pendingMoves.a.map fun m => (.a, m)) s id +
          outgoing (room.pendingMoves.b.map fun m => (.b, m)) s id :=
      fun s => outgoing_append _ _ s id
    have houtA : outgoing room.reservedMoves .a id =
        outgoing (room.pendingMoves.a.map fun m => (.a, m)) .a id := by
      rw [hsplit, outgoing_side .b .a, if_neg (by decide), Int.add_zero]
    have houtB : outgoing room.reservedMoves .b id =
        outgoing (room.pendingMoves.b.map fun m => (.b, m)) .b id := by
      rw [hsplit, outgoing_side .a .b, if_neg (by decide), Int.zero_add]
    have hmoves : (n.departAll (leaving room.reservedMoves id)).scale =
        (n.scale.move (-outgoing room.reservedMoves .a id)).move
          (outgoing room.reservedMoves .b id) := by
      rw [hscale ht, houtA, houtB]
      show n.scale.moves ((leaving (_ ++ _) id).map _) = _
      rw [leaving, List.filter_append, List.map_append, List.map_append, Scale.moves_append]
      refine (congrArg (Scale.moves · _) (moves_leaving hcoh .a hposA id)).trans ?_
      refine (moves_leaving (hcoh.move _) .b hposB id).trans ?_
      show Scale.move _ (- -_) = _
      rw [Int.neg_neg]
      rfl
    rw [hown.1, hmoves, hleft, hleft]
  · rw [ht] at hown
    exact hown

/-! ## One resolution

The snapshots are taken at the end, from the nodes themselves. -/

/-- On the map every node has its own id. -/
theorem mapNodes_named : ∀ kv ∈ mapNodes.entries, kv.2.1 = kv.1 := by decide +kernel

/-- The snapshot that a round takes of a node. -/
theorem Sound.snapshot_settled (h : Sound room) (id : NodeId) :
    lookup id.value (sourceOrder.summary room).nodeSnapshots =
      ((sourceOrder.settledNodes room).get? id).map snapshot := by
  have hnamed : ∀ kv ∈ (sourceOrder.settledNodes room).entries, kv.2.id = kv.1 := by
    intro kv hkv
    have hshape : mapNodes.get? kv.1 = some (nodeShape kv.2) := by
      rw [← h.map.nodes, ← settledNodes_shape sourceOrder room, Dict.get?_mapValues,
        Dict.mem_iff_get?.mp hkv]
      rfl
    exact mapNodes_named _ (Dict.mem_iff_get?.mpr hshape)
  have hshots : (sourceOrder.summary room).nodeSnapshots =
      (sourceOrder.settledNodes room).entries.map fun kv => (kv.1.value, snapshot kv.2) := by
    show ((sourceOrder.settledNodes room).entries.map Prod.snd).map _ = _
    rw [List.map_map]
    refine List.map_congr_left fun kv hkv => ?_
    show (kv.2.id.value, _) = _
    rw [hnamed kv hkv]
  have hinj : Function.Injective NodeId.value := by
    rintro ⟨i⟩ ⟨j⟩ hij
    exact congrArg NodeId.mk hij
  rw [hshots]
  exact lookup_rename hinj (fun kv => snapshot kv.2) id _

/-- An owner can be told from its name. -/
theorem toString_ownership_injective {o o' : NodeOwnership} (h : toString o = toString o') :
    o = o' := by
  cases o <;> cases o' <;> first | rfl | exact absurd h (by decide +kernel)

/-- **A round is replayed by its summary** exactly if no departure changes an owner. -/
theorem Sound.replays_iff (h : Sound room) (hn : NodesSound room) :
    Replays room (sourceOrder.summary room) ↔ room.KeepsOwnersLeaving := by
  have hshown : (∀ kv ∈ room.nodes.entries, (room.board.replay (sourceOrder.summary room)).Shows
      (sourceOrder.summary room).nodeSnapshots kv.1.value) ↔
      (room.board.replay (sourceOrder.summary room)).Tracks (sourceOrder.settledNodes room) := by
    constructor
    · intro hall id n' hn'
      obtain ⟨n, hget, -⟩ := Option.map_eq_some_iff.mp ((get?_settled _ room id).symm.trans hn')
      have hshows := hall (id, n) (Dict.mem_iff_get?.mpr hget)
      rw [Board.Shows, h.snapshot_settled, hn'] at hshows
      simp only [Option.map_some, Option.some.injEq, Prod.mk.injEq] at hshows
      exact hshows.2.2.symm
    · intro htracks kv hkv
      have hget := Dict.mem_iff_get?.mp hkv
      have hn' := get?_settled sourceOrder room kv.1
      rw [hget, Option.map_some] at hn'
      rw [Board.Shows, h.snapshot_settled, hn', mobile_replay hget hn', mobile_replay hget hn',
        htracks _ _ hn']
      rfl
  have hstart : (room.board.moved (sourceOrder.summary room)).Tracks (sourceOrder.emptiedNodes room) ↔
      room.KeepsOwnersLeaving := by
    have hempty : ∀ id, (sourceOrder.emptiedNodes room).get? id =
        (room.nodes.get? id).map (·.departAll (leaving room.reservedMoves id)) := fun id =>
      get?_departures room.reservedMoves id room.nodes
    have howner : ∀ id n, room.nodes.get? id = some n →
        (room.board.moved (sourceOrder.summary room)).owner id.value = toString n.ownership := by
      intro id n hget
      rw [Board.owner_moved]
      show ((room.nodes.get? id).map _).getD "" = _
      rw [hget]
      rfl
    constructor
    · intro htracks kv hkv
      have hget := Dict.mem_iff_get?.mp hkv
      have hsame := htracks kv.1 _ ((hempty kv.1).trans (by rw [hget]; rfl))
      rw [howner _ _ hget] at hsame
      rw [← h.ownership_departAll hn hget]
      exact (toString_ownership_injective hsame).symm
    · intro hkeeps id n' hn'
      obtain ⟨n, hget, rfl⟩ := Option.map_eq_some_iff.mp ((hempty id).symm.trans hn')
      rw [howner _ _ hget, h.ownership_departAll hn hget,
        hkeeps (id, n) (Dict.mem_iff_get?.mpr hget)]
  rw [Replays, hshown, ← hstart]
  exact followed_iff _ _ _

/-! ## Every run -/

theorem InSession.replayed_iff (h : InSession room) (hn : NodesSound room) {call : Call}
    (hlegal : room.SessionLegal call) : Replayed room call ↔ LeavesOwners room call := by
  cases call with
  | resolveRound deadline now =>
    have hphase := (h.orderly.ready h.sound hlegal).1
    show (_ ∧ _) ↔ room.KeepsOwnersLeaving
    rw [next_resolveRound h.sound hphase, summariesIn_resolved, ← h.sound.replays_iff hn]
    constructor
    · rintro ⟨-, hall⟩
      exact hall _ (List.mem_singleton_self _)
    · intro hreplays
      refine ⟨rfl, fun summary hsum => ?_⟩
      rw [List.mem_singleton.mp hsum]
      exact hreplays
  | addPlayer _ _ _ | moveUnits _ _ | resolveEncounter _ _ _ | forceGameOver _ _ => exact Iff.rfl

/-- **Replaying the rounds.**  In a session's run every `RoundResolved` replays its round exactly if
    no departure of the run changes an owner. -/
theorem round_replayed_iff {roomId : String} {calls : List Call}
    (hrun : (session roomId).Run calls) :
    (session roomId).Steps Replayed (session roomId).start calls ↔
      (session roomId).Steps LeavesOwners (session roomId).start calls :=
  Machine.steps_iff (I := fun r => InSession r ∧ NodesSound r)
    (fun _ c h hlegal => ⟨h.1.next hlegal, h.2.next h.1.sound c⟩)
    (fun _ _ h hlegal => h.1.replayed_iff h.2 hlegal)
    ⟨inSession_initial roomId, nodesSound_initial roomId⟩ hrun

/-- Side A leaves the node it started on. -/
def leavingCalls (count : Int) : List Call :=
  [.addPlayer ⟨"p1"⟩ none 0, .addPlayer ⟨"p2"⟩ none 0, .moveUnits .a ⟨⟨1⟩, ⟨2⟩, count⟩,
    .resolveRound none 0]

/-- With its last unit the node loses its owner, and no change of owner is recorded. -/
theorem owner_lost_unrecorded :
    (session "room").Run (leavingCalls 3) ∧
      ¬ (session "room").Steps Replayed (session "room").start (leavingCalls 3) := by
  decide +kernel

/-- A node that keeps a unit keeps its owner. -/
theorem round_replayed_staying :
    (session "room").Steps Replayed (session "room").start (leavingCalls 1) :=
  (round_replayed_iff (by decide +kernel)).mpr (by decide +kernel)

end HexWar
