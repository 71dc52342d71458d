/-
  Whether the owner of a node reflects the units on it.

  Every node of every reachable room satisfies `NodeSound` (`nodesSound_of_reachable`).  On an
  ordinary node this already says that the owner is the one the units give it.  On a supply line it
  does not: the recount compares the totals WITH the garrison and then takes the garrison away from
  whoever is not the new owner, so a tie against a garrison leaves the node contested although one
  side is alone on it.  In terms of the scale: the balance is not even, and nobody holds it.

  `KeepsOwners` says of a call, by the room before it, that no supply line ends in such a tie.  It is
  exact along the runs of a session (`owners_reflect_iff`).

  1. A round takes one node through its departures and its arrivals (`Sound.node_resolved`), which keeps
     `NodeSound` and moves the scale of a supply line.
  2. For a sound node, reflecting the units is having no lone scale (`NodeSound.reflects_iff`).
  3. Whether the scale is lone after a round depends on the last of its moves only (`lone_after_iff`);
     every earlier tie is weighed again by what comes after it.
-/
import HexWar.Domain.Arrivals
import HexWar.Domain.SupplyLine

namespace HexWar

open Lib Lib.Action GameRoom

variable {room : GameRoom}

/-! ## Deciding the invariant of a node -/

instance (x : Scale) : Decidable x.Coherent :=
  decidable_of_iff ((-1 ≤ x.holder ∧ x.holder ≤ 1) ∧ (1 ≤ x.balance → 0 ≤ x.holder) ∧
      (2 ≤ x.balance → x.holder = 1) ∧ (x.balance ≤ -1 → x.holder ≤ 0) ∧
      (x.balance ≤ -2 → x.holder = -1))
    ⟨fun h => ⟨h.1, h.2.1, h.2.2.1, h.2.2.2.1, h.2.2.2.2⟩,
      fun h => ⟨h.range, h.ahead, h.farAhead, h.behind, h.farBehind⟩⟩

instance (n : Node) : Decidable n.Garrisoned := inferInstanceAs (Decidable (∀ _, _))

instance (n : Node) : Decidable n.Owned :=
  match h : n.type with
  | .headquarters => decidable_of_iff (n.ownership = .neutral) (by rw [Node.Owned, h])
  | .supplyLine =>
    decidable_of_iff
      (n.ownership = heldOwner n.scale.holder (n.getMobileCount .a) (n.getMobileCount .b) ∧
        n.scale.Coherent) (by rw [Node.Owned, h])
  | .outPost =>
    decidable_of_iff (n.ownership = ownerByCount (n.getMobileCount .a) (n.getMobileCount .b))
      (by rw [Node.Owned, h])
  | .chokepoint =>
    decidable_of_iff (n.ownership = ownerByCount (n.getMobileCount .a) (n.getMobileCount .b))
      (by rw [Node.Owned, h])

instance (n : Node) : Decidable (NodeSound n) :=
  decidable_of_iff (n.Garrisoned ∧ n.Owned)
    ⟨fun h => ⟨h.1, h.2⟩, fun h => ⟨h.garrisoned, h.owned⟩⟩

/-- The scale of a supply line is coherent. -/
theorem NodeSound.coherent {n : Node} (h : NodeSound n) (ht : n.type = .supplyLine) :
    n.scale.Coherent := by
  have hown := h.owned
  unfold Node.Owned at hown
  rw [ht] at hown
  exact hown.2

/-! ## Every node stays sound

Joining seats units on the map's nodes, which is checked by evaluation; the round is
`node_resolved`; no other call touches a node. -/

/-- All nodes of the room are sound. -/
def NodesSound (room : GameRoom) : Prop := ∀ id n, room.nodes.get? id = some n → NodeSound n

/-! Clearing the departures that a node remembers changes nothing that the owner depends on. -/

@[simp] theorem Node.type_clear (n : Node) : n.clearDepartureHistory.type = n.type := rfl

@[simp] theorem Node.scale_clear (n : Node) : n.clearDepartureHistory.scale = n.scale := rfl

/-- Clearing the history keeps a node sound. -/
theorem NodeSound.clear {n : Node} (hs : NodeSound n) : NodeSound n.clearDepartureHistory :=
  ⟨hs.garrisoned, hs.owned⟩

/-- The node after the round, for an order of its batches. -/
def nodeAfter (o : ProcessingOrder) (room : GameRoom) (id : NodeId) (n : Node) : Node :=
  (n.departAll (leaving (o.executed room) id)).arriveAll (reaching (o.deliveries room) id)

/-- **What a round does to one node.** -/
theorem Sound.node_resolved (h : Sound room) (hphase : room.phase = .planning)
    (o : ProcessingOrder) (deadline : Time) {id : NodeId} {n : Node}
    (hn : room.nodes.get? id = some n) (hs : NodeSound n) :
    (o.resolved room deadline).nodes.get? id = some (nodeAfter o room id n).clearDepartureHistory ∧
      NodeSound (nodeAfter o room id n) ∧ (nodeAfter o room id n).type = n.type ∧
      (∀ s, (nodeAfter o room id n).getMobileCount s = n.getMobileCount s -
        passing s (leaving (o.executed room) id) + passing s (reaching (o.deliveries room) id)) ∧
      (n.type = .supplyLine → (nodeAfter o room id n).scale =
        (n.scale.moves ((leaving (o.executed room) id).map fun p => -signed p)).moves
          ((reaching (o.deliveries room) id).map signed)) := by
  have hres := h.resolvable hphase
  have hpay := hres.payable_in o
  have hgone : ∀ p ∈ leaving (o.executed room) id, 1 ≤ p.2 := fun p hp => by
    obtain ⟨m, hm, rfl⟩ := List.mem_map.mp hp
    exact hpay.pos m (List.mem_of_mem_filter hm)
  have hcome : ∀ p ∈ reaching (o.deliveries room) id, 1 ≤ p.2 := fun p hp => by
    obtain ⟨a, ha, rfl⟩ := List.mem_map.mp hp
    exact (hres.deliverable o a (List.mem_of_mem_filter ha)).1
  have hcost : ∀ s, passing s (leaving (o.executed room) id) ≤ n.getMobileCount s := fun s => by
    rw [← outgoing_eq]
    exact hpay.solvent id n s hn
  obtain ⟨-, htype, hleft⟩ := Node.departAll_base (leaving (o.executed room) id) n
  obtain ⟨-, htype', hcame⟩ := Node.arriveAll_base (reaching (o.deliveries room) id)
    (n.departAll (leaving (o.executed room) id))
  obtain ⟨hs₁, hscale₁⟩ := Node.sound_departAll hgone hs hcost
  have hpos : ∀ s, 0 ≤ (n.departAll (leaving (o.executed room) id)).getMobileCount s := fun s => by
    have := hcost s
    rw [hleft]
    omega
  obtain ⟨hs₂, hscale₂⟩ := Node.sound_arriveAll hcome hs₁ hpos
  refine ⟨?_, hs₂, htype'.trans htype, fun s => ?_, fun ht => ?_⟩
  · rw [get?_resolved, hn]
    rfl
  · rw [← hleft s]
    exact hcame s
  · rw [← hscale₁ ht]
    exact hscale₂ (htype.trans ht)

/-- The nodes of the map are sound while players are still joining. -/
theorem start_nodesSound :
    (∀ kv ∈ initialNodes.entries, NodeSound kv.2) ∧
      (∀ kv ∈ (seatNodes initialNodes .a).entries, NodeSound kv.2) ∧
      ∀ kv ∈ (seatNodes (seatNodes initialNodes .a) .b).entries, NodeSound kv.2 := by
  decide +kernel

/-- At first nobody is on the map. -/
theorem nodesSound_initial (roomId : String) : NodesSound (initialRoom roomId) := by
  intro id n hn
  rw [initialRoom_nodes] at hn
  exact start_nodesSound.1 (id, n) (Dict.mem_iff_get?.mpr hn)

/-- The nodes once a player has joined. -/
theorem Sound.nodes_joined (h : Sound room) {playerId : PlayerId}
    (hjoin : room.joinRefusal playerId = none) (deadline : Time) :
    (room.joined playerId deadline).nodes = seatNodes initialNodes .a ∨
      (room.joined playerId deadline).nodes = seatNodes (seatNodes initialNodes .a) .b := by
  have hw := h.waiting (joinRefusal_none hjoin)
  rw [(joined_frame room playerId deadline).nodes]
  rcases seats_cases h.seats (joinRefusal_none hjoin) with ⟨hp, hv⟩ | ⟨p, hp, hv⟩
  · rw [hw.nodes, hp, hv]
    exact Or.inl rfl
  · rw [hw.nodes, hp, hv]
    exact Or.inr rfl

/-- What holds of the nodes of the map as the players take their seats holds of every node once a
    player has joined. -/
theorem Sound.forall_joined (h : Sound room) {playerId : PlayerId}
    (hjoin : room.joinRefusal playerId = none) (deadline : Time) {p : Node → Prop}
    (ha : ∀ kv ∈ (seatNodes initialNodes .a).entries, p kv.2)
    (hb : ∀ kv ∈ (seatNodes (seatNodes initialNodes .a) .b).entries, p kv.2) {id : NodeId} {n : Node}
    (hget : (room.joined playerId deadline).nodes.get? id = some n) : p n := by
  rcases h.nodes_joined hjoin deadline with hnodes | hnodes
  · rw [hnodes] at hget
    exact ha (id, n) (Dict.mem_iff_get?.mpr hget)
  · rw [hnodes] at hget
    exact hb (id, n) (Dict.mem_iff_get?.mpr hget)

/-- **Every call keeps the nodes sound.** -/
theorem NodesSound.next (hn : NodesSound room) (h : Sound room) (call : Call) :
    NodesSound (room.next call) := by
  cases call with
  | addPlayer playerId deadline now =>
    rw [next_addPlayer h.map]
    rcases hr : room.joinRefusal playerId with _ | e
    · intro id n hget
      exact h.forall_joined hr _ start_nodesSound.2.1 start_nodesSound.2.2 hget
    · exact hn
  | moveUnits side command =>
    rw [next_moveUnits]
    split
    · exact hn
    · exact hn
  | resolveEncounter edgeId side decision =>
    rw [next_resolveEncounter, decideEncounter]
    split
    · exact hn
    · split
      · exact hn
      · exact hn
  | resolveRound deadline now =>
    rcases em (room.phase = .planning) with hphase | hphase
    · rw [next_resolveRound h hphase]
      intro id n hget
      have hbefore := hget
      rw [get?_resolved] at hbefore
      obtain ⟨n₀, hn₀, -⟩ := Option.map_eq_some_iff.mp hbefore
      obtain ⟨hres, hs, -⟩ := h.node_resolved hphase sourceOrder
        (deadline.getD (now + defaultPlanning)) hn₀ (hn id n₀ hn₀)
      cases hres.symm.trans hget
      exact hs.clear
    · rw [next_resolveRound_refused hphase]
      exact hn
  | forceGameOver winner reason =>
    rw [next_forceGameOver]
    exact hn

/-- Every node of every reachable room is sound. -/
theorem nodesSound_of_reachable {roomId : String} (h : (rooms roomId).Reachable room) :
    NodesSound room :=
  (h.invariant (I := fun r => Sound r ∧ NodesSound r)
    ⟨sound_initial roomId, nodesSound_initial roomId⟩
    fun _ call hs _ => ⟨hs.1.next call, hs.2.next hs.1 call⟩).2

/-! ## The owner and the units

`Reflects` is said with the totals, as a reader of the map would say it, and not with the recount;
that the two agree is the last lemma here. -/

/-- The owner is the side with more units, garrison included; nobody on an empty node; and the node
    is contested on a tie. -/
structure Reflects (n : Node) : Prop where
  /-- More units of A, -/
  playerA : n.ownership = .playerA ↔ n.getTotalCount .a > n.getTotalCount .b
  /-- or of B; -/
  playerB : n.ownership = .playerB ↔ n.getTotalCount .a < n.getTotalCount .b
  /-- nobody; -/
  neutral : n.ownership = .neutral ↔ n.getTotalCount .a = 0 ∧ n.getTotalCount .b = 0
  /-- or as many of both. -/
  contested : n.ownership = .contested ↔
    n.getTotalCount .a = n.getTotalCount .b ∧ 0 < n.getTotalCount .a

/-- All four say one thing: the owner is the one that the totals give. -/
theorem reflects_iff {n : Node} (hpos : ∀ s, 0 ≤ n.getTotalCount s) :
    Reflects n ↔ n.ownership = ownerByCount (n.getTotalCount .a) (n.getTotalCount .b) := by
  have ha := hpos .a
  have hb := hpos .b
  rw [ownerByCount]
  constructor
  · intro h
    split
    · next hz => exact h.neutral.mpr hz
    · split
      · next hlt => exact h.playerA.mpr hlt
      · split
        · next hlt => exact h.playerB.mpr hlt
        · exact h.contested.mpr (by omega)
  · intro h
    split at h
    · constructor <;> rw [h] <;> simp <;> omega
    · split at h
      · constructor <;> rw [h] <;> simp <;> omega
      · split at h
        · constructor <;> rw [h] <;> simp <;> omega
        · constructor <;> rw [h] <;> simp <;> omega

/-- The units of a side on a sound node. -/
theorem NodeSound.total {n : Node} (h : NodeSound n) (s : PlayerSide) :
    n.getTotalCount s = n.getMobileCount s +
      if n.type = .supplyLine then garrisonOf n.ownership s else 0 := by
  rw [← h.garrisoned s]
  rfl

/-- The garrison is not negative. -/
theorem NodeSound.total_nonneg {n : Node} (h : NodeSound n) {s : PlayerSide}
    (hpos : 0 ≤ n.getMobileCount s) : 0 ≤ n.getTotalCount s := by
  rw [h.total]
  split
  · rw [garrisonOf]
    split <;> omega
  · omega

/-- An ordinary node's owner reflects its units; a supply line's does unless nobody holds it though
    its balance is not even. -/
theorem NodeSound.reflects_iff {n : Node} (h : NodeSound n) (hpos : ∀ s, 0 ≤ n.getMobileCount s)
    (hhq : n.type ≠ .headquarters) :
    Reflects n ↔ (n.type = .supplyLine → ¬ n.scale.Lone) := by
  rw [HexWar.reflects_iff fun s => h.total_nonneg (hpos s)]
  have hA := h.total .a
  have hB := h.total .b
  have ha := hpos .a
  have hb := hpos .b
  have hown := h.owned
  rw [Node.Owned] at hown
  rcases ht : n.type with _ | _ | _ | _
  · rw [ht] at hown hA hB
    rw [hA, hB, if_neg (by decide), if_neg (by decide), Int.add_zero, Int.add_zero]
    exact ⟨fun _ hc => (nomatch hc), fun _ => hown⟩
  · rw [ht] at hown hA hB
    rw [hA, hB, if_neg (by decide), if_neg (by decide), Int.add_zero, Int.add_zero]
    exact ⟨fun _ hc => (nomatch hc), fun _ => hown⟩
  · rw [ht] at hown hA hB
    obtain ⟨howner, hcoh⟩ := hown
    rw [if_pos rfl] at hA hB
    have hholder := Node.garrison_scale ht h.garrisoned
    have hbalance : n.scale.balance = n.getMobileCount .a - n.getMobileCount .b := rfl
    obtain ⟨hrange, hahead, hfar, hbehind, hfarb⟩ := hcoh
    rw [hA, hB, Scale.Lone, ownerByCount]
    rw [heldOwner] at howner
    -- on a supply line, by its owner: with a garrison it is that side, without one the balance
    -- decides
    rcases ho : n.ownership with _ | _ | _ | _
    · rw [ho] at howner hholder
      have hv : n.scale.holder = 0 := hholder
      rw [hv, if_neg (by decide), if_neg (by decide)] at howner
      split at howner
      · next hz =>
        refine ⟨fun _ _ hlone => hlone.1 (by omega), fun _ => ?_⟩
        rw [hz.1, hz.2]
        rfl
      · cases howner
    · rw [ho] at hholder
      have hv : n.scale.holder = 1 := hholder
      refine ⟨fun _ _ hlone => ?_, fun _ => ?_⟩
      · have := hlone.2
        omega
      · have hg : garrisonOf .playerA .a = 1 ∧ garrisonOf .playerA .b = 0 := by decide
        rw [hg.1, hg.2, if_neg (by omega), if_pos (by omega)]
    · rw [ho] at hholder
      have hv : n.scale.holder = -1 := hholder
      refine ⟨fun _ _ hlone => ?_, fun _ => ?_⟩
      · have := hlone.2
        omega
      · have hg : garrisonOf .playerB .a = 0 ∧ garrisonOf .playerB .b = 1 := by decide
        rw [hg.1, hg.2, if_neg (by omega), if_neg (by omega), if_pos (by omega)]
    · rw [ho] at howner hholder
      have hv : n.scale.holder = 0 := hholder
      rw [hv, if_neg (by decide), if_neg (by decide)] at howner
      split at howner
      · cases howner
      · next hz =>
        have hg : garrisonOf .contested .a = 0 ∧ garrisonOf .contested .b = 0 := by decide
        rw [hg.1, hg.2, Int.add_zero, Int.add_zero, if_neg hz]
        constructor
        · intro howner' _ hlone
          split at howner'
          · cases howner'
          · split at howner'
            · cases howner'
            · exact hlone.1 (by omega)
        · intro heven
          have hzero : n.scale.balance = 0 := by
            by_contra hne
            exact heven rfl ⟨hne, hv⟩
          rw [if_neg (by omega), if_neg (by omega)]
  · exact absurd ht hhq

/-- Recounting once more changes nothing exactly when the owner reflects the units. -/
theorem NodeSound.reflects_iff_updateOwnership {n : Node} (h : NodeSound n)
    (hpos : ∀ s, 0 ≤ n.getMobileCount s) (hhq : n.type ≠ .headquarters) :
    Reflects n ↔ n.updateOwnership = n := by
  rw [HexWar.reflects_iff fun s => h.total_nonneg (hpos s)]
  have hh : ¬ n.isHeadquarters = true := fun hc => hhq (of_decide_eq_true hc)
  constructor
  · intro hown
    rw [Node.updateOwnership, if_neg hh]
    dsimp only
    rw [if_neg (not_not_intro hown), ← hown]
  · intro hsame
    have hown : n.updateOwnership.ownership =
        ownerByCount (n.getTotalCount .a) (n.getTotalCount .b) := by
      rcases em (n.type = .supplyLine) with ht | ht
      · exact (Node.updateOwnership_supply ht h.garrisoned).1
      · rw [Node.updateOwnership_ordinary ht hhq]
    rw [hsame] at hown
    exact hown

/-! ## The calls that keep the owners

What tips a scale even at the end of a round is its last passage; whatever tips it even before that
is followed by another passage, which tips it again. -/

/-- The changes that a round makes to the balance of a node, in the order in which it makes them. -/
def swings (room : GameRoom) (id : NodeId) : List Int :=
  (leaving room.reservedMoves id).map (fun p => -signed p) ++
    (reaching (arrivalsAt room.reservedMoves room) id).map signed

/-- The calls after which no supply line is tied by its garrison: the last change of a round does not
    leave the side without the garrison one unit ahead of the side that has it. -/
def KeepsOwners (room : GameRoom) : Call → Prop
  | .resolveRound _ _ => ∀ id n, room.nodes.get? id = some n → n.type = .supplyLine →
      ¬ n.scale.LastTipsEven (swings room id)
  | _ => True

/-- The owners of all nodes but the headquarters reflect the units. -/
def OwnersReflect (room : GameRoom) : Prop :=
  ∀ id n, room.nodes.get? id = some n → n.type ≠ .headquarters → Reflects n

/-- A passage has units. -/
theorem signed_eq_zero {p : Passage} (h : 1 ≤ p.2) : signed p ≠ 0 := by
  rcases p with ⟨_ | _, c⟩
  · have hc : 1 ≤ c := h
    show c ≠ 0
    omega
  · have hc : 1 ≤ c := h
    show -c ≠ 0
    omega

/-- The changes of a round are changes. -/
theorem Sound.swings_ne_zero (h : Sound room) (hphase : room.phase = .planning) {id : NodeId}
    {δ : Int} (hδ : δ ∈ swings room id) : δ ≠ 0 := by
  have hres := h.resolvable hphase
  rcases List.mem_append.mp hδ with hout | hin
  · obtain ⟨p, hp, rfl⟩ := List.mem_map.mp hout
    obtain ⟨m, hm, rfl⟩ := List.mem_map.mp hp
    exact Int.neg_ne_zero.mpr
      (signed_eq_zero (p := (m.1, m.2.count)) (hres.payable.pos m (List.mem_of_mem_filter hm)))
  · obtain ⟨p, hp, rfl⟩ := List.mem_map.mp hin
    obtain ⟨a, ha, rfl⟩ := List.mem_map.mp hp
    rw [← h.deliveries_source] at ha
    exact signed_eq_zero (p := (a.side, a.count))
      (hres.deliverable sourceOrder a (List.mem_of_mem_filter ha)).1

/-- The scale of a supply line after a round, in the order of the source. -/
theorem Sound.scale_after (h : Sound room) (hphase : room.phase = .planning) {id : NodeId} {n : Node}
    (hn : room.nodes.get? id = some n) (hs : NodeSound n) (ht : n.type = .supplyLine) :
    (nodeAfter sourceOrder room id n).scale = n.scale.moves (swings room id) := by
  obtain ⟨-, -, -, -, hscale⟩ := h.node_resolved hphase sourceOrder 0 hn hs
  rw [hscale ht, h.deliveries_source, swings, Scale.moves_append]
  rfl

/-- A round leaves the owner of a supply line in accordance with its units exactly if its last change
    does not tip the scale even. -/
theorem lone_after_iff (h : Sound room) (hphase : room.phase = .planning) {id : NodeId} {n : Node}
    (hn : room.nodes.get? id = some n) (hs : NodeSound n) (ht : n.type = .supplyLine)
    (hbefore : ¬ n.scale.Lone) :
    (nodeAfter sourceOrder room id n).scale.Lone ↔ n.scale.LastTipsEven (swings room id) := by
  rw [h.scale_after hphase hn hs ht]
  rcases hsw : swings room id with _ | ⟨δ, δs⟩
  · exact ⟨fun hl => absurd hl hbefore, fun hf => hf.elim⟩
  · refine Scale.lone_moves_iff (List.cons_ne_nil _ _) (fun ε hε => ?_) _
    exact h.swings_ne_zero hphase (hsw ▸ hε)

/-- The owners at the start, and while players are joining. -/
theorem start_notLone :
    (∀ kv ∈ initialNodes.entries, kv.2.type = .supplyLine → ¬ kv.2.scale.Lone) ∧
      (∀ kv ∈ (seatNodes initialNodes .a).entries,
        kv.2.type = .supplyLine → ¬ kv.2.scale.Lone) ∧
      ∀ kv ∈ (seatNodes (seatNodes initialNodes .a) .b).entries,
        kv.2.type = .supplyLine → ¬ kv.2.scale.Lone := by
  decide +kernel

/-- Without a lone supply line all owners reflect the units, -/
theorem ownersReflect_of_notLone (h : Sound room) (hn : NodesSound room)
    (hl : ∀ id n, room.nodes.get? id = some n → n.type = .supplyLine → ¬ n.scale.Lone) :
    OwnersReflect room := fun id n hget hhq =>
  ((hn id n hget).reflects_iff (fun s => h.mobile id n s hget) hhq).mpr (hl id n hget)

/-- and the other way round. -/
theorem notLone_of_ownersReflect (h : Sound room) (hn : NodesSound room) (ho : OwnersReflect room)
    {id : NodeId} {n : Node} (hget : room.nodes.get? id = some n) (ht : n.type = .supplyLine) :
    ¬ n.scale.Lone := by
  have hhq : n.type ≠ .headquarters := by
    rw [ht]
    decide
  exact ((hn id n hget).reflects_iff (fun s => h.mobile id n s hget) hhq).mp (ho id n hget hhq) ht

/-- At first nobody owns anything. -/
theorem ownersReflect_initial (roomId : String) : OwnersReflect (initialRoom roomId) :=
  ownersReflect_of_notLone (sound_initial roomId) (nodesSound_initial roomId) fun id n hn ht => by
    rw [initialRoom_nodes] at hn
    exact start_notLone.1 (id, n) (Dict.mem_iff_get?.mpr hn) ht

/-- One step: the owners reflect the units afterwards exactly if the call keeps the owners. -/
theorem ownersReflect_next (h : InSession room) (hn : NodesSound room) {call : Call}
    (hlegal : room.SessionLegal call) (ho : OwnersReflect room) :
    OwnersReflect (room.next call) ↔ KeepsOwners room call := by
  have hs := h.sound
  cases call with
  | addPlayer playerId deadline now =>
    refine ⟨fun _ => trivial, fun _ => ?_⟩
    have hs' := hs.next (.addPlayer playerId deadline now)
    have hn' := hn.next hs (.addPlayer playerId deadline now)
    rw [next_addPlayer hs.map] at hs' hn' ⊢
    rcases hr : room.joinRefusal playerId with _ | e
    · rw [hr] at hs' hn'
      refine ownersReflect_of_notLone hs' hn' fun id n hget ht => ?_
      exact hs.forall_joined (p := fun n => n.type = .supplyLine → ¬ n.scale.Lone) hr _
        start_notLone.2.1 start_notLone.2.2 hget ht
    · exact ho
  | moveUnits side command =>
    refine ⟨fun _ => trivial, fun _ => ?_⟩
    rw [next_moveUnits]
    split
    · exact ho
    · exact ho
  | resolveEncounter edgeId side decision =>
    refine ⟨fun _ => trivial, fun _ => ?_⟩
    rw [next_resolveEncounter, decideEncounter]
    split
    · exact ho
    · split
      · exact ho
      · exact ho
  | resolveRound deadline now =>
    -- the one call that touches the units of a node once the game has started
    have hphase := (h.orderly.ready hs hlegal).1
    have hs' := hs.next (.resolveRound deadline now)
    have hn' := hn.next hs (.resolveRound deadline now)
    rw [next_resolveRound hs hphase] at hs' hn' ⊢
    have hafter := fun id n hget => hs.node_resolved hphase sourceOrder
      (deadline.getD (now + defaultPlanning)) hget (hn id n hget)
    constructor
    · intro ho' id n hget ht hlast
      obtain ⟨hget', -, htype, -, -⟩ := hafter id n hget
      have hlone := (lone_after_iff hs hphase hget (hn id n hget) ht
        (notLone_of_ownersReflect hs hn ho hget ht)).mpr hlast
      rw [← Node.type_clear] at htype
      rw [← Node.scale_clear] at hlone
      exact notLone_of_ownersReflect hs' hn' ho' hget' (htype.trans ht) hlone
    · intro hkeeps
      refine ownersReflect_of_notLone hs' hn' fun id n' hget' ht' hlone => ?_
      rcases hget : room.nodes.get? id with _ | n
      · rw [get?_resolved, hget] at hget'
        cases hget'
      · obtain ⟨hres, -, htype, -, -⟩ := hafter id n hget
        cases hres.symm.trans hget'
        rw [Node.type_clear] at ht'
        rw [Node.scale_clear] at hlone
        have ht : n.type = .supplyLine := htype.symm.trans ht'
        exact hkeeps id n hget ht ((lone_after_iff hs hphase hget (hn id n hget) ht
          (notLone_of_ownersReflect hs hn ho hget ht)).mp hlone)
  | forceGameOver winner reason => exact ⟨fun _ => trivial, fun _ => ho⟩

/-- **When the owners reflect the units.**  Along a run of a session, the owner of every node but the
    headquarters reflects its units in every state if and only if every step keeps the owners; and in
    every state a node's owner reflects its units exactly if a recount would not change the node. -/
theorem owners_reflect_iff {roomId : String} {calls : List Call}
    (hrun : (session roomId).Run calls) :
    ((∀ t ∈ (session roomId).visited (session roomId).start calls, ∀ id n,
        t.nodes.get? id = some n → n.type ≠ .headquarters → Reflects n) ↔
      (session roomId).Steps KeepsOwners (session roomId).start calls) ∧
    ∀ t ∈ (session roomId).visited (session roomId).start calls, ∀ id n,
      t.nodes.get? id = some n → n.type ≠ .headquarters → (Reflects n ↔ n.updateOwnership = n) := by
  have hinv : ∀ r c, InSession r ∧ NodesSound r → r.SessionLegal c →
      InSession (r.next c) ∧ NodesSound (r.next c) :=
    fun r c h hlegal => ⟨h.1.next hlegal, h.2.next h.1.sound c⟩
  have hstart : InSession (initialRoom roomId) ∧ NodesSound (initialRoom roomId) :=
    ⟨inSession_initial roomId, nodesSound_initial roomId⟩
  refine ⟨Machine.visited_iff (I := fun r => InSession r ∧ NodesSound r) (P := OwnersReflect) hinv
    (fun r c h hlegal ho => ownersReflect_next h.1 h.2 hlegal ho) hstart
    (ownersReflect_initial roomId) hrun, fun t ht id n hget hhq => ?_⟩
  have hI := Machine.visited_of_invariant (I := fun r => InSession r ∧ NodesSound r) hinv hstart
    hrun t ht
  exact (hI.2 id n hget).reflects_iff_updateOwnership (fun s => hI.1.sound.mobile id n s hget) hhq

/-- Side A takes the supply line by way of the headquarters and leaves it again in the round in which
    one unit of side B arrives. -/
def abandonedCalls : List Call :=
  [.addPlayer ⟨"p1"⟩ none 0, .addPlayer ⟨"p2"⟩ none 0,
    .moveUnits .a ⟨⟨1⟩, ⟨6⟩, 1⟩, .resolveRound none 0,
    .moveUnits .a ⟨⟨6⟩, ⟨3⟩, 1⟩, .resolveRound none 0,
    .moveUnits .a ⟨⟨3⟩, ⟨6⟩, 1⟩, .moveUnits .b ⟨⟨5⟩, ⟨3⟩, 1⟩, .resolveRound none 0]

/-- Side B is alone on the supply line, and the node is contested. -/
theorem owner_contested_alone :
    (session "room").Run abandonedCalls ∧
      (((session "room").after (session "room").start abandonedCalls).nodes.get? ⟨3⟩).map
        (fun n => (n.ownership, n.getTotalCount .a, n.getTotalCount .b)) = some (.contested, 0, 1) := by
  decide +kernel

theorem owners_reflect_opening :
    (session "room").Run (abandonedCalls.take 8) ∧
      ((∀ t ∈ (session "room").visited (session "room").start (abandonedCalls.take 8), ∀ id n,
          t.nodes.get? id = some n → n.type ≠ .headquarters → Reflects n) ↔
        (session "room").Steps KeepsOwners (session "room").start (abandonedCalls.take 8)) := by
  have hrun : (session "room").Run (abandonedCalls.take 8) := by decide +kernel
  exact ⟨hrun, (owners_reflect_iff hrun).1⟩

end HexWar
