/-
  Games in which it does not matter which side one is.

  The order in which a resolution executes the moves reaches the rest of the game in two ways only: a
  supply line may fall to another holder, and on an edge the groups of one side stand before those of
  the other.  The second makes no difference to any rule, because an encounter is made of the first
  group of EACH side and a group keeps its place among those of its own side (`Alike`).  The first makes
  none in a round whose supply lines are settled (`SettledLines`).

  So along a run whose rounds are all settled the source's order and its rival lead to rooms that are
  alike (`alike_rivals`), and with `sides_exchangeable` the game in which the two players have changed
  sides is the same game (`settled_impartial`).

  What has to be shown about a round, in the order of the sections:

  1. Two lists that have the groups of each side in the same order have the same first group of each
     side, and are permutations of each other.  This is all that any rule asks of a bucket.
  2. `Alike` is kept by the calls of the planning phase, which touch one side's groups at a time.
  3. In a round, the edges come out alike whatever order the two sides' moves are executed in, and so the
     same groups arrive and the same groups meet.
  4. The nodes come out alike if the supply lines are settled; the other kinds of node always do, since
     their owner is a function of the counts.

  The source's order in one room is compared with the rival's in the other, because that is how the two
  games of `Exchange` differ.
-/
import HexWar.Domain.Exchange

namespace HexWar

open Lib Lib.Action GameRoom

variable {room room' : GameRoom}

/-! ## Lists of groups, side by side -/

/-- The groups of a side, in their order. -/
def ofSide (s : PlayerSide) (groups : List TravelingGroup) : List TravelingGroup :=
  groups.filter fun g => g.side = s

/-- Filing is done part by part. -/
theorem ofSide_append (s : PlayerSide) (gs gs' : List TravelingGroup) :
    ofSide s (gs ++ gs') = ofSide s gs ++ ofSide s gs' := List.filter_append _ _

/-- The first group of a side is the first of those filed under it. -/
theorem firstOf_eq_head? (s : PlayerSide) (groups : List TravelingGroup) :
    Edge.firstOf s groups = (ofSide s groups).head? := List.head?_filter.symm

/-- Lists with the same groups of each side are the same but for the order. -/
theorem perm_of_ofSide {gs gs' : List TravelingGroup} (h : ∀ s, ofSide s gs' = ofSide s gs) :
    gs'.Perm gs := by
  -- a list is a permutation of its two files one after the other
  have hsplit : ∀ gs : List TravelingGroup, (ofSide .a gs ++ ofSide .b gs).Perm gs := by
    intro gs
    have hb : ofSide .b gs = gs.filter fun g => !decide (g.side = .a) := by
      refine List.filter_congr fun g _ => ?_
      rw [Bool.eq_iff_iff, decide_eq_true_iff, Bool.not_eq_true', decide_eq_false_iff_not]
      exact side_b_iff g.side
    rw [hb]
    exact List.filter_append_perm _ _
  have hparts := hsplit gs'
  rw [h, h] at hparts
  exact hparts.symm.trans (hsplit gs)

/-- Taking one side off leaves the other's file as it is. -/
theorem ofSide_filter_ne (s t : PlayerSide) (groups : List TravelingGroup) :
    ofSide t (groups.filter (·.side ≠ s)) = if t = s then [] else ofSide t groups := by
  unfold ofSide
  rw [List.filter_filter]
  split
  · next hts =>
    refine List.filter_eq_nil_iff.mpr fun g _ => ?_
    simp [hts]
  · next hts =>
    refine List.filter_congr fun g _ => ?_
    by_cases hg : g.side = t
    · simp [hg, hts]
    · simp [hg]

/-! ## Rooms that are alike -/

/-- An edge, as far as it can be seen by looking at one side at a time. -/
def Edge.filed (e : Edge) :
    (EdgeId × NodeId × NodeId × Distance) × (Int → PlayerSide → List TravelingGroup) :=
  (edgeShape e, fun k s => ofSide s (e.bucket k))

/-- Two edges are filed alike exactly if they are the same edge, and so are all their files. -/
theorem filed_eq_iff {e e' : Edge} : e'.filed = e.filed ↔
    edgeShape e' = edgeShape e ∧ ∀ k s, ofSide s (e'.bucket k) = ofSide s (e.bucket k) := by
  unfold Edge.filed
  rw [Prod.mk.injEq]
  refine and_congr_right fun _ => ⟨fun h k s => congrFun (congrFun h k) s, fun h => ?_⟩
  funext k s
  exact h k s

/-- Nothing tells the rooms apart but the order of groups of different sides, what a node remembers
    of the round, and the events. -/
structure Alike (room room' : GameRoom) : Prop where
  phase : room'.phase = room.phase
  currentRound : room'.currentRound = room.currentRound
  maxRounds : room'.maxRounds = room.maxRounds
  /-- Owner and units of each node; the history of departures is left out. -/
  nodes : room'.nodes.mapValues Node.standing = room.nodes.mapValues Node.standing
  /-- The groups of each side in each bucket, in their order. -/
  edges : room'.edges.mapValues Edge.filed = room.edges.mapValues Edge.filed
  players : room'.players = room.players
  used : room'.unitUsedThisRound = room.unitUsedThisRound
  moves : room'.pendingMoves = room.pendingMoves
  encounters : room'.pendingEncounters = room.pendingEncounters

namespace Alike

/-- A room is like itself. -/
theorem refl (room : GameRoom) : Alike room room := ⟨rfl, rfl, rfl, rfl, rfl, rfl, rfl, rfl, rfl⟩

/-- Likeness goes on from room to room. -/
theorem trans {room'' : GameRoom} (h : Alike room room') (h' : Alike room' room'') :
    Alike room room'' where
  phase := h'.phase.trans h.phase
  currentRound := h'.currentRound.trans h.currentRound
  maxRounds := h'.maxRounds.trans h.maxRounds
  nodes := h'.nodes.trans h.nodes
  edges := h'.edges.trans h.edges
  players := h'.players.trans h.players
  used := h'.used.trans h.used
  moves := h'.moves.trans h.moves
  encounters := h'.encounters.trans h.encounters

/-- The node of the other room. -/
theorem node (h : Alike room room') {id : NodeId} {n : Node} (hn : room.nodes.get? id = some n) :
    ∃ n', room'.nodes.get? id = some n' ∧ n'.standing = n.standing := by
  have hget := congrArg (fun d => d.get? id) h.nodes
  rw [Dict.get?_mapValues, Dict.get?_mapValues, hn] at hget
  exact Option.map_eq_some_iff.mp hget

/-- A node that is missing is missing in both. -/
theorem node_none (h : Alike room room') {id : NodeId} (hn : room.nodes.get? id = none) :
    room'.nodes.get? id = none := by
  have hget := congrArg (fun d => d.get? id) h.nodes
  rw [Dict.get?_mapValues, Dict.get?_mapValues, hn] at hget
  exact Option.map_eq_none_iff.mp hget

/-- The edge of the other room. -/
theorem edge (h : Alike room room') {id : EdgeId} {e : Edge} (he : room.edges.get? id = some e) :
    ∃ e', room'.edges.get? id = some e' ∧ e'.filed = e.filed := by
  have hget := congrArg (fun d => d.get? id) h.edges
  rw [Dict.get?_mapValues, Dict.get?_mapValues, he] at hget
  exact Option.map_eq_some_iff.mp hget

/-- So is an edge. -/
theorem edge_none (h : Alike room room') {id : EdgeId} (he : room.edges.get? id = none) :
    room'.edges.get? id = none := by
  have hget := congrArg (fun d => d.get? id) h.edges
  rw [Dict.get?_mapValues, Dict.get?_mapValues, he] at hget
  exact Option.map_eq_none_iff.mp hget

end Alike

/-! ## A call of the planning phase

A refusal reads the phase, the side's own reservations, the mobile units and the encounter, none of
which the two rooms differ in. -/

/-- A move is refused in both rooms for one reason, or granted in both. -/
theorem Alike.moveRefusal (h : Alike room room') (s : PlayerSide) (command : MoveCommand) :
    room'.moveRefusal s command = room.moveRefusal s command ∧
      room'.granted s command = room.granted s command := by
  have hgranted : room'.granted s command = room.granted s command := by
    unfold granted
    rw [h.used]
  have hkeys : room'.edges.containsKey (EdgeId.of command.fromNode command.toNode) =
      room.edges.containsKey (EdgeId.of command.fromNode command.toNode) := by
    unfold Dict.containsKey
    rw [← Dict.isSome_get?_mapValues Edge.filed, h.edges, Dict.isSome_get?_mapValues]
  refine ⟨?_, hgranted⟩
  unfold GameRoom.moveRefusal
  rw [h.phase, h.used, hgranted, hkeys]
  rcases hn : room.nodes.get? command.fromNode with _ | n
  · rw [h.node_none hn]
  · obtain ⟨n', hn', hstanding⟩ := h.node hn
    have havailable : room'.availableAt s n' command.fromNode =
        room.availableAt s n command.fromNode := by
      unfold availableAt
      rw [h.moves, (standing_inj hstanding).1]
    rw [hn']
    simp only [havailable]

/-- A reserved move keeps rooms alike. -/
theorem Alike.reserve (h : Alike room room') (s : PlayerSide) (command : MoveCommand) :
    Alike (room.reserve s command) (room'.reserve s command) := by
  have hgranted := (h.moveRefusal s command).2
  refine ⟨h.phase, h.currentRound, h.maxRounds, h.nodes, h.edges, h.players, ?_, ?_, h.encounters⟩
  · show room'.unitUsedThisRound.update s (· + room'.granted s command) = _
    rw [h.used, hgranted]
    rfl
  · show room'.pendingMoves.update s (· ++ [room'.grantedMove s command]) = _
    rw [h.moves, grantedMove, hgranted]
    rfl

/-- A decision is refused in both rooms for one reason, or accepted in both. -/
theorem Alike.decisionRefusal (h : Alike room room') (edgeId : EdgeId) (s : PlayerSide)
    (decision : EncounterDecision) :
    room'.decisionRefusal edgeId s decision = room.decisionRefusal edgeId s decision := by
  unfold GameRoom.decisionRefusal GameRoom.encounterOn
  rw [h.phase, h.encounters]
  rcases he : room.edges.get? edgeId with _ | e
  · rw [h.edge_none he]
  · obtain ⟨e', he', hfiled⟩ := h.edge he
    have hid : e'.id = e.id := congrArg Prod.fst (filed_eq_iff.mp hfiled).1
    rw [he']
    unfold retreatRefusal
    simp only [hid]

/-- A retreat takes one side off the edge, and files it anew. -/
theorem filed_edgeAfter {e e' : Edge} (h : e'.filed = e.filed) (p : PendingEncounter)
    (s : PlayerSide) (decision : EncounterDecision) :
    (edgeAfter e' p s decision).filed = (edgeAfter e p s decision).filed := by
  obtain ⟨hshape, hgroups⟩ := filed_eq_iff.mp h
  have hid : e'.id = e.id := congrArg Prod.fst hshape
  have hdist : e'.distance = e.distance := congrArg (fun x => x.2.2.2) hshape
  cases decision with
  | advance => exact h
  | retreat =>
    refine filed_eq_iff.mpr ⟨hshape, fun k t => ?_⟩
    -- the retreating side's file is emptied and gets one group; the other side's stays
    rw [bucket_retreat, bucket_retreat, ofSide_append, ofSide_append, ofSide_filter_ne,
      ofSide_filter_ne, hgroups, hid, hdist]

/-- The mark does not depend on how the groups stand. -/
theorem marked_filed {e e' : Edge} (h : e'.filed = e.filed) (p : PendingEncounter) (s : PlayerSide)
    (decision : EncounterDecision) : marked e' p s decision = marked e p s decision := by
  have hshape := (filed_eq_iff.mp h).1
  have hid : e'.id = e.id := congrArg Prod.fst hshape
  have hdist : e'.distance = e.distance := congrArg (fun x => x.2.2.2) hshape
  unfold marked
  cases decision with
  | advance => rfl
  | retreat =>
    unfold outcomeOf
    rw [hid, hdist]

/-- A decision keeps rooms alike. -/
theorem Alike.decideOn (h : Alike room room') {e e' : Edge} (hfiled : e'.filed = e.filed)
    (p : PendingEncounter) (edgeId : EdgeId) (s : PlayerSide) (decision : EncounterDecision) :
    Alike (room.decideOn e p edgeId s decision) (room'.decideOn e' p edgeId s decision) := by
  refine ⟨h.phase, h.currentRound, h.maxRounds, h.nodes, ?_, h.players, h.used, h.moves, ?_⟩
  · cases decision with
    | advance => exact h.edges
    | retreat =>
      have hid : e'.id = e.id := congrArg Prod.fst (filed_eq_iff.mp hfiled).1
      show (room'.edges.set e'.id (edgeAfter e' p s .retreat)).mapValues Edge.filed =
        (room.edges.set e.id (edgeAfter e p s .retreat)).mapValues Edge.filed
      rw [← Dict.set_mapValues, ← Dict.set_mapValues, h.edges, filed_edgeAfter hfiled, hid]
  · show modifyFirst _ (fun _ => if (marked e' p s decision).bothDecided then none
        else some (marked e' p s decision)) room'.pendingEncounters = _
    rw [h.encounters, marked_filed hfiled]
    rfl

/-! ## A round

Departures, advance, encounters, arrivals, and last the nodes.  The two resolutions execute the same
moves of each side (`SideBySide`), which is all that is used of the two orders until the nodes are
reached. -/

/-- The moves of each side, in their order, are the same. -/
def SideBySide (ms ms' : List SideMove) : Prop :=
  ∀ s, (ms'.filter fun m => m.1 = s) = ms.filter fun m => m.1 = s

/-- The rival order executes the same moves of each side in the same order. -/
theorem Alike.executed (h : Alike room room') :
    SideBySide room.reservedMoves (rivalOrder.executed room') := by
  intro s
  rw [rivalOrder_executed, reservedMoves, h.moves]
  cases s <;> simp [List.filter_append, List.filter_map, Function.comp_def]

/-- The groups that a side's moves put on an edge, in the order of the moves. -/
theorem ofSide_loads (s : PlayerSide) (ms : List SideMove) (id : EdgeId) :
    ofSide s (loads ms id) = loads (ms.filter fun m => m.1 = s) id := by
  unfold ofSide loads
  rw [List.filter_map, List.filter_filter, List.filter_filter]
  refine congrArg _ (List.filter_congr fun m _ => ?_)
  exact Bool.and_comm _ _

section Round

variable {ms ms' : List SideMove} (hms : SideBySide ms ms')
include hms

/-- So they do not depend on where the other side's moves stand. -/
theorem ofSide_loads_eq (s : PlayerSide) (id : EdgeId) :
    ofSide s (loads ms' id) = ofSide s (loads ms id) := by
  rw [ofSide_loads, ofSide_loads, hms]

/-- After all departures, the file of a side in a bucket is the same. -/
theorem ofSide_groupsAt {e e' : Edge} (h : e'.filed = e.filed) (k : Int) (s : PlayerSide) :
    ofSide s (groupsAt ms' e' k) = ofSide s (groupsAt ms e k) := by
  obtain ⟨hshape, hgroups⟩ := filed_eq_iff.mp h
  have hid : e'.id = e.id := congrArg Prod.fst hshape
  have hdist : e'.distance = e.distance := congrArg (fun x => x.2.2.2) hshape
  unfold groupsAt
  rw [ofSide_append, ofSide_append, hgroups, hdist, hid]
  split
  · rw [ofSide_loads_eq hms]
  · rfl

/-- Whether a group looks like one that meets an enemy can be seen by looking at one side at a time. -/
theorem looksMet_filed {e e' : Edge} (h : e'.filed = e.filed) (g : TravelingGroup) :
    LooksMet ms' e' g ↔ LooksMet ms e g := by
  -- a meeting is made of two first groups
  have hfirst : ∀ s k, Edge.firstOf s (groupsAt ms' e' k) = Edge.firstOf s (groupsAt ms e k) := by
    intro s k
    rw [firstOf_eq_head?, firstOf_eq_head?, ofSide_groupsAt hms h]
  rw [looksMet_iff, looksMet_iff]
  simp only [hfirst]

/-- The edges after the round are filed alike. -/
theorem filed_advanced {e e' : Edge} (h : e'.filed = e.filed) :
    (e'.loadAll (loads ms' e'.id)).advanceRound.2.filed =
      (e.loadAll (loads ms e.id)).advanceRound.2.filed := by
  obtain ⟨hshape, -⟩ := filed_eq_iff.mp h
  have hframe : ∀ (e : Edge) (gs : List TravelingGroup),
      edgeShape (e.loadAll gs).advanceRound.2 = edgeShape e := by
    intro e gs
    obtain ⟨hid, hfrom, hto, hdist⟩ := Edge.loadAll_frame gs e
    show ((e.loadAll gs).id, (e.loadAll gs).fromNode, (e.loadAll gs).toNode, _) = _
    rw [hid, hfrom, hto]
    exact congrArg (fun d => (e.id, e.fromNode, e.toNode, d)) hdist
  refine filed_eq_iff.mpr ⟨by rw [hframe, hframe, hshape], fun k s => ?_⟩
  rw [Edge.bucket_advanceRound, Edge.bucket_advanceRound]
  split
  · rw [Edge.bucket_loadAll, Edge.bucket_loadAll]
    exact ofSide_groupsAt hms h (k + 1) s
  · rfl

end Round

/-- What is built from aligned lists part by part is related if the parts are. -/
theorem flatMap_aligned {α β γ : Type} {P : List β → List β → Prop} (hnil : P [] [])
    (happend : ∀ a b c d, P a b → P c d → P (a ++ c) (b ++ d)) {f : α → γ} {F G : α → List β} :
    ∀ {l l' : List α}, l'.map f = l.map f →
      (∀ a ∈ l, ∀ b ∈ l', f b = f a → P (G b) (F a)) → P (l'.flatMap G) (l.flatMap F)
  | [], [], _, _ => hnil
  | a :: l, b :: l', hmap, h => by
    rw [List.map_cons, List.map_cons, List.cons.injEq] at hmap
    have hhead := h a List.mem_cons_self b List.mem_cons_self hmap.1
    have htail : P (l'.flatMap G) (l.flatMap F) := flatMap_aligned hnil happend hmap.2
      fun a' ha' b' hb' => h a' (List.mem_cons_of_mem _ ha') b' (List.mem_cons_of_mem _ hb')
    exact happend _ _ _ _ hhead htail

/-- The same arrivals are delivered, in another order. -/
theorem Alike.arrivalsAt (h : Alike room room') {ms ms' : List SideMove} (hms : SideBySide ms ms') :
    (arrivalsAt ms' room').Perm (HexWar.arrivalsAt ms room) := by
  have hedges : room'.edges.values.map Edge.filed = room.edges.values.map Edge.filed := by
    rw [← Dict.values_mapValues, h.edges, Dict.values_mapValues]
  refine flatMap_aligned (List.Perm.refl []) (fun _ _ _ _ => List.Perm.append) hedges ?_
  intro e _ e' _ hfiled
  have hid : e'.id = e.id := congrArg Prod.fst (filed_eq_iff.mp hfiled).1
  -- the same groups are held back, so the same ones are delivered
  have hfilter : (groupsAt ms' e' 1).filter (fun g => ¬ LooksMet ms' e' g) =
      (groupsAt ms' e' 1).filter fun g => ¬ LooksMet ms e g :=
    List.filter_congr fun g _ => decide_eq_decide.mpr (not_congr (looksMet_filed hms hfiled g))
  rw [hfilter, hid]
  exact ((perm_of_ofSide fun s => ofSide_groupsAt hms hfiled 1 s).filter _).map _

/-- The edges after the round are filed alike, one by one. -/
theorem Alike.advanced (h : Alike room room') (hs : Sound room) (hs' : Sound room') :
    (rivalOrder.advancedEdges room').mapValues Edge.filed =
      (sourceOrder.advancedEdges room).mapValues Edge.filed := by
  have hkeys : ∀ {r : GameRoom} (o : ProcessingOrder), Sound r →
      ((o.advancedEdges r).mapValues Edge.filed).entries.map Prod.fst =
        mapEdges.entries.map Prod.fst := by
    intro r o hr
    rw [Dict.keys_mapValues, ← hr.map.edges, ← advancedEdges_shape o hr.map.keyed,
      Dict.keys_mapValues]
  refine Dict.eq_of_keys ((hkeys _ hs').trans (hkeys _ hs).symm) fun id => ?_
  rw [Dict.get?_mapValues, Dict.get?_mapValues, get?_advanced _ hs.map.keyed,
    get?_advanced _ hs'.map.keyed]
  rcases he : room.edges.get? id with _ | e
  · rw [h.edge_none he]
    rfl
  · obtain ⟨e', he', hfiled⟩ := h.edge he
    have hfiled' := filed_advanced h.executed hfiled
    rw [hs.map.keyed _ _ he, hs'.map.keyed _ _ he'] at hfiled'
    rw [he']
    exact congrArg some hfiled'

/-- Lists of one element at most with the same elements are the same. -/
theorem eq_of_mem_iff {α : Type} {l l' : List α} (hl : l.length ≤ 1) (hl' : l'.length ≤ 1)
    (h : ∀ x, x ∈ l' ↔ x ∈ l) : l' = l := by
  rcases l with _ | ⟨x, _ | ⟨_, _⟩⟩
  · exact List.eq_nil_iff_forall_not_mem.mpr fun x hx => nomatch (h x).mp hx
  · rcases l' with _ | ⟨x', _ | ⟨_, _⟩⟩
    · exact nomatch (h x).mpr List.mem_cons_self
    · rw [List.mem_singleton.mp ((h x').mp List.mem_cons_self)]
    · simp at hl'
  · simp at hl

/-- The same groups meet. -/
theorem Alike.encounters_eq (h : Alike room room') (hs : Sound room) (hs' : Sound room') :
    rivalOrder.encounters room' = sourceOrder.encounters room := by
  have hedges : (rivalOrder.advancedEdges room').values.map Edge.filed =
      (sourceOrder.advancedEdges room).values.map Edge.filed := by
    rw [← Dict.values_mapValues, h.advanced hs hs', Dict.values_mapValues]
  -- on an edge there is one encounter at most, so it is enough to compare what it is made of
  refine flatMap_aligned (P := Eq) rfl (fun _ _ _ _ => congrArg₂ _) hedges ?_
  intro e he e' he' hfiled
  obtain ⟨id, hget⟩ := Dict.mem_values.mp he
  obtain ⟨id', hget'⟩ := Dict.mem_values.mp he'
  obtain ⟨e₁, rfl, hsound, hd, -⟩ := hs.advanced_of sourceOrder hget
  obtain ⟨e₁', rfl, hsound', hd', -⟩ := hs'.advanced_of rivalOrder hget'
  obtain ⟨hshape, hgroups⟩ := filed_eq_iff.mp hfiled
  refine eq_of_mem_iff (length_findAllEncounters_le hsound.inTransit hd)
    (length_findAllEncounters_le hsound'.inTransit hd') fun enc => ?_
  have hid : e₁'.advanceRound.2.id = e₁.advanceRound.2.id := congrArg Prod.fst hshape
  rw [Edge.mem_findAllEncounters, Edge.mem_findAllEncounters]
  simp only [firstOf_eq_head?, hgroups, hid]

/-- No supply line falls to another holder when the moves and the arrivals of the round are taken in
    another order. -/
def SettledLines (room : GameRoom) : Prop :=
  ∀ id n, room.nodes.get? id = some n → n.type = .supplyLine →
    n.scale.Settled (fallsOf room.reservedMoves id)
      (gainsOf (HexWar.arrivalsAt room.reservedMoves room) id)

instance (room : GameRoom) : Decidable (SettledLines room) :=
  decidable_of_iff (∀ kv ∈ room.nodes.entries, kv.2.type = .supplyLine →
      kv.2.scale.Settled (fallsOf room.reservedMoves kv.1)
        (gainsOf (HexWar.arrivalsAt room.reservedMoves room) kv.1))
    ⟨fun h id n hn => h (id, n) (Dict.mem_iff_get?.mpr hn),
      fun h kv hkv => h kv.1 kv.2 (Dict.mem_iff_get?.mp hkv)⟩

/-- Nodes of one standing have one scale. -/
theorem scale_of_standing {n n' : Node} (h : n'.standing = n.standing) : n'.scale = n.scale := by
  obtain ⟨hmobile, hholder⟩ := standing_inj h
  refine congrArg₂ Scale.mk ?_ hholder
  rw [hmobile, hmobile]

/-- The kinds of the nodes are those of the map. -/
theorem type_of_map (hs : OnMap room) (hs' : OnMap room') {id : NodeId} {n n' : Node}
    (hn : room.nodes.get? id = some n) (hn' : room'.nodes.get? id = some n') : n'.type = n.type := by
  have hget := congrArg (fun d => d.get? id) (hs'.nodes.trans hs.nodes.symm)
  rw [Dict.get?_mapValues, Dict.get?_mapValues, hn, hn'] at hget
  exact congrArg Prod.snd (Option.some.inj hget)

/-- **A settled round leaves every node the same standing**, in the source's order and in the
    rival's. -/
theorem Alike.node_resolved (h : Alike room room') (hs : Sound room) (hs' : Sound room')
    (hn : NodesSound room) (hn' : NodesSound room') (hphase : room.phase = .planning)
    (hsettled : SettledLines room) {id : NodeId} {n n' : Node} (hget : room.nodes.get? id = some n)
    (hget' : room'.nodes.get? id = some n') :
    (nodeAfter rivalOrder room' id n').standing = (nodeAfter sourceOrder room id n).standing := by
  have hstanding : n'.standing = n.standing := by
    obtain ⟨m, hm, hsame⟩ := h.node hget
    cases hm.symm.trans hget'
    exact hsame
  have htype := type_of_map hs.map hs'.map hget hget'
  have hmobile := (standing_inj hstanding).1
  obtain ⟨-, hsound, htype₁, hmobile₁, hscale₁⟩ :=
    hs.node_resolved hphase sourceOrder 0 hget (hn id n hget)
  obtain ⟨-, hsound', htype₁', hmobile₁', hscale₁'⟩ :=
    hs'.node_resolved (h.phase.trans hphase) rivalOrder 0 hget' (hn' id n' hget')
  have hmoves : (rivalOrder.executed room').Perm room.reservedMoves := by
    have hperm : (rivalOrder.executed room').Perm room'.reservedMoves := rivalOrder.moves_perm _
    rwa [reservedMoves, h.moves] at hperm
  -- what leaves the node and what reaches it are the same up to their order
  have hleave : (leaving (rivalOrder.executed room') id).Perm (leaving room.reservedMoves id) :=
    leaving_perm hmoves id
  have hreach : (reaching (rivalOrder.deliveries room') id).Perm
      (reaching (HexWar.arrivalsAt room.reservedMoves room) id) :=
    reaching_perm ((hs'.deliveries_perm rivalOrder).trans (h.arrivalsAt h.executed)) id
  have hsource := hs.deliveries_source
  -- the units are counted, which no order changes; the holder of a supply line is settled by
  -- hypothesis
  refine hsound.standing_eq hsound' (htype₁'.trans (htype.trans htype₁.symm)) (fun s => ?_) fun ht => ?_
  · rw [hmobile₁, hmobile₁', hsource, hmobile, passing_perm hleave, passing_perm hreach]
    rfl
  · have hsupply : n.type = .supplyLine := htype₁.symm.trans ht
    have hline := (hsettled id n hget hsupply).moves_eq ((hn id n hget).coherent hsupply)
      (hleave.map _) (hreach.map _)
    rw [hscale₁ hsupply, hscale₁' (htype.trans hsupply), hsource, scale_of_standing hstanding]
    exact congrArg Scale.holder hline

/-- The nodes of a sound room are the nodes of the map. -/
theorem Sound.node_keys (hs : Sound room) :
    room.nodes.entries.map Prod.fst = mapNodes.entries.map Prod.fst := by
  rw [← hs.map.nodes, Dict.keys_mapValues]

/-- All nodes of the map come out with the same standing. -/
theorem Alike.nodes_resolved (h : Alike room room') (hs : Sound room) (hs' : Sound room')
    (hn : NodesSound room) (hn' : NodesSound room') (hphase : room.phase = .planning)
    (hsettled : SettledLines room) (deadline : Time) :
    (rivalOrder.resolved room' deadline).nodes.mapValues Node.standing =
      (sourceOrder.resolved room deadline).nodes.mapValues Node.standing := by
  have hphase' := h.phase.trans hphase
  refine Dict.eq_of_keys ?_ fun id => ?_
  · rw [Dict.keys_mapValues, Dict.keys_mapValues, (hs.resolved sourceOrder hphase deadline).node_keys,
      (hs'.resolved rivalOrder hphase' deadline).node_keys]
  · rw [Dict.get?_mapValues, Dict.get?_mapValues]
    rcases hget : room.nodes.get? id with _ | n
    · rw [get?_resolved, get?_resolved, hget, h.node_none hget]
      rfl
    · obtain ⟨n', hget', -⟩ := h.node hget
      rw [(hs.node_resolved hphase sourceOrder deadline hget (hn id n hget)).1,
        (hs'.node_resolved hphase' rivalOrder deadline hget' (hn' id n' hget')).1]
      exact congrArg some (h.node_resolved hs hs' hn hn' hphase hsettled hget hget')

/-- On the map, the standings say whether the game is over. -/
theorem checkGameOver_alike (hs : OnMap room) (hs' : OnMap room')
    (h : room'.nodes.mapValues Node.standing = room.nodes.mapValues Node.standing) :
    room'.checkGameOver = room.checkGameOver := by
  have hseen : room'.nodes.mapValues (fun n => (n.type, n.ownership)) =
      room.nodes.mapValues fun n => (n.type, n.ownership) := by
    refine Dict.eq_of_keys ?_ fun id => ?_
    · rw [Dict.keys_mapValues, Dict.keys_mapValues, ← Dict.keys_mapValues Node.standing, h,
        Dict.keys_mapValues]
    · have hget := congrArg (fun d => d.get? id) h
      rw [Dict.get?_mapValues, Dict.get?_mapValues] at hget ⊢
      rcases hn : room.nodes.get? id with _ | n
      · rw [hn] at hget
        rw [Option.map_eq_none_iff.mp hget]
      · rw [hn] at hget
        obtain ⟨n', hn', hsame⟩ := Option.map_eq_some_iff.mp hget
        rw [hn', Option.map_some, Option.map_some, type_of_map hs hs' hn hn',
          show n'.ownership = n.ownership from congrArg Prod.fst hsame]
  have hread : ∀ room : GameRoom, room.checkGameOver =
      (((room.nodes.mapValues fun n => (n.type, n.ownership)).values.filter
          fun x => ¬ decide (x.1 = .headquarters) = true).all (fun x => x.2 = .playerA) ||
        ((room.nodes.mapValues fun n => (n.type, n.ownership)).values.filter
          fun x => ¬ decide (x.1 = .headquarters) = true).all fun x => x.2 = .playerB) := by
    intro room
    unfold checkGameOver
    simp only [Dict.values_mapValues, List.filter_map, List.all_map]
    rfl
  rw [hread, hread, hseen]

/-- **A settled round** keeps alike rooms alike, whichever side's moves are executed first. -/
theorem Alike.resolved (h : Alike room room') (hs : Sound room) (hs' : Sound room')
    (hn : NodesSound room) (hn' : NodesSound room') (hphase : room.phase = .planning)
    (hsettled : SettledLines room) (deadline : Time) :
    Alike (sourceOrder.resolved room deadline) (rivalOrder.resolved room' deadline) := by
  have hframe := resolved_frame sourceOrder room deadline
  have hframe' := resolved_frame rivalOrder room' deadline
  have hnodes := h.nodes_resolved hs hs' hn hn' hphase hsettled deadline
  -- the game ends in both rooms or in neither
  have hends : (rivalOrder.closedRoom room').endsGame ↔ (sourceOrder.closedRoom room).endsGame := by
    have hover := checkGameOver_alike (hs.resolved sourceOrder hphase deadline).map
      (hs'.resolved rivalOrder (h.phase.trans hphase) deadline).map hnodes
    have hclosed : (sourceOrder.closedRoom room).checkGameOver =
        (sourceOrder.resolved room deadline).checkGameOver := checkGameOver_congr hframe.nodes.symm
    have hclosed' : (rivalOrder.closedRoom room').checkGameOver =
        (rivalOrder.resolved room' deadline).checkGameOver := checkGameOver_congr hframe'.nodes.symm
    unfold GameRoom.endsGame
    rw [hclosed, hclosed', hover]
    show _ ∨ room'.currentRound + 1 > room'.maxRounds ↔ _ ∨ room.currentRound + 1 > room.maxRounds
    rw [h.currentRound, h.maxRounds]
  refine ⟨?_, ?_, ?_, hnodes, ?_, ?_, ?_, ?_, ?_⟩
  · rw [ProcessingOrder.resolved, ProcessingOrder.resolved, opened_phase, opened_phase]
    exact if_congr hends rfl rfl
  · rw [hframe.currentRound, hframe'.currentRound, h.currentRound]
  · rw [hframe.maxRounds, hframe'.maxRounds, h.maxRounds]
  · rw [hframe.edges, hframe'.edges]
    exact h.advanced hs hs'
  · rw [hframe.players, hframe'.players, h.players]
  · rw [hframe.used, hframe'.used]
  · rw [hframe.moves, hframe'.moves]
  · rw [hframe.encounters, hframe'.encounters]
    unfold ProcessingOrder.nextEncounters
    rw [h.encounters, h.encounters_eq hs hs']

/-! ## Every run

A run of settled rounds is one in which every resolution finds the supply lines settled.  The other
calls are free. -/

/-- A session's call, made when no supply line makes a difference. -/
def GameRoom.SettledLegal (room : GameRoom) : Call → Prop
  | .resolveRound _ _ => room.isReadyForResolution = true ∧ SettledLines room
  | _ => True

instance (room : GameRoom) : ∀ call, Decidable (room.SettledLegal call)
  | .resolveRound _ _ => inferInstanceAs (Decidable (_ ∧ _))
  | .addPlayer _ _ _ | .moveUnits _ _ | .resolveEncounter _ _ _ | .forceGameOver _ _ => .isTrue trivial

/-- A round can be resolved when it is being planned and every encounter has been decided by
    both. -/
theorem isReadyForResolution_iff : room.isReadyForResolution = true ↔
    room.phase = .planning ∧ ∀ p ∈ room.pendingEncounters, p.bothDecided = true := by
  unfold isReadyForResolution
  by_cases hphase : room.phase = .planning
  · rw [if_neg (not_not_intro hphase), List.all_eq_true]
    exact ⟨fun h => ⟨hphase, h⟩, fun h => h.2⟩
  · rw [if_pos hphase]
    exact ⟨fun h => (nomatch h), fun h => absurd h.1 hphase⟩

/-- What every room that calls have led to has, once both players are there. -/
structure FullRoom (room : GameRoom) : Prop where
  sound : Sound room
  nodes : NodesSound room
  full : 2 ≤ room.playerCount

/-- The rival's calls keep a full room full and sound. -/
theorem FullRoom.rivalNext (h : FullRoom room) (call : Call) : FullRoom (room.rivalNext call) := by
  obtain ⟨hsound, hfull⟩ := h.sound.full_rivalNext h.full call
  refine ⟨hsound, ?_, hfull⟩
  cases call with
  | resolveRound deadline now =>
    by_cases hphase : room.phase = .planning
    · rw [rivalNext_resolveRound h.sound hphase]
      intro id n hget
      have hbefore := hget
      rw [get?_resolved] at hbefore
      obtain ⟨n₀, hn₀, -⟩ := Option.map_eq_some_iff.mp hbefore
      obtain ⟨hres, hs, -⟩ := h.sound.node_resolved hphase rivalOrder
        (deadline.getD (now + defaultPlanning)) hn₀ (h.nodes id n₀ hn₀)
      cases hres.symm.trans hget
      exact hs.clear
    · have hrival : room.rivalNext (.resolveRound deadline now) = room :=
        after_error (resolveRoundIn_refused hphase rivalOrder deadline now)
      rw [hrival]
      exact h.nodes
  | addPlayer playerId deadline now => exact h.nodes.next h.sound (.addPlayer playerId deadline now)
  | moveUnits s command => exact h.nodes.next h.sound (.moveUnits s command)
  | resolveEncounter edgeId s decision =>
    exact h.nodes.next h.sound (.resolveEncounter edgeId s decision)
  | forceGameOver winner reason => exact h.nodes.next h.sound (.forceGameOver winner reason)

/-- **One call** keeps rooms alike, if its round is settled. -/
theorem Alike.next (h : Alike room room') (hr : FullRoom room) (hr' : FullRoom room') {call : Call}
    (hlegal : room.SettledLegal call) : Alike (room.next call) (room'.rivalNext call) := by
  cases call with
  | addPlayer playerId deadline now =>
    show Alike (room.next (.addPlayer playerId deadline now))
      (room'.next (.addPlayer playerId deadline now))
    rw [(addPlayer_full hr.sound hr.full playerId deadline now).1,
      (addPlayer_full hr'.sound hr'.full playerId deadline now).1]
    exact h
  | moveUnits s command =>
    show Alike (room.next (.moveUnits s command)) (room'.next (.moveUnits s command))
    rw [next_moveUnits, next_moveUnits, (h.moveRefusal s command).1]
    split
    · exact h
    · exact h.reserve s command
  | resolveEncounter edgeId s decision =>
    show Alike (room.next (.resolveEncounter edgeId s decision))
      (room'.next (.resolveEncounter edgeId s decision))
    rw [next_resolveEncounter, next_resolveEncounter, h.decisionRefusal]
    rcases hok : room.decisionRefusal edgeId s decision with _ | error
    · obtain ⟨-, p, e, hp, -, he, -⟩ := decisionRefusal_none hok
      obtain ⟨e', he', hfiled⟩ := h.edge he
      have hp' : room'.encounterOn edgeId = some p := by
        unfold GameRoom.encounterOn
        rw [h.encounters]
        exact hp
      show Alike (room.decideEncounter edgeId s decision) (room'.decideEncounter edgeId s decision)
      rw [decideEncounter_eq hp he, decideEncounter_eq hp' he']
      exact h.decideOn hfiled p edgeId s decision
    · exact h
  | resolveRound deadline now =>
    have hphase := (isReadyForResolution_iff.mp hlegal.1).1
    rw [next_resolveRound hr.sound hphase, rivalNext_resolveRound hr'.sound (h.phase.trans hphase)]
    exact h.resolved hr.sound hr'.sound hr.nodes hr'.nodes hphase hlegal.2 _
  | forceGameOver winner reason =>
    exact ⟨rfl, h.currentRound, h.maxRounds, h.nodes, h.edges, h.players, h.used, h.moves,
      h.encounters⟩

/-- So do the source's. -/
theorem FullRoom.next (h : FullRoom room) (call : Call) : FullRoom (room.next call) := by
  refine ⟨h.sound.next call, h.nodes.next h.sound call, ?_⟩
  cases call with
  | resolveRound deadline now =>
    by_cases hphase : room.phase = .planning
    · rw [next_resolveRound h.sound hphase, playerCount_resolved]
      exact h.full
    · rw [next_resolveRound_refused hphase]
      exact h.full
  | addPlayer playerId deadline now =>
    exact (h.sound.full_rivalNext h.full (.addPlayer playerId deadline now)).2
  | moveUnits s command => exact (h.sound.full_rivalNext h.full (.moveUnits s command)).2
  | resolveEncounter edgeId s decision =>
    exact (h.sound.full_rivalNext h.full (.resolveEncounter edgeId s decision)).2
  | forceGameOver winner reason =>
    exact (h.sound.full_rivalNext h.full (.forceGameOver winner reason)).2

/-! ## Changing the sides back

Exchanging twice gives back each record, so a mirror that is exchanged is the room again, up to its
name and its events. -/

/-- A node changed twice is the node. -/
theorem Node.exchanged_exchanged (n : Node) : n.exchanged.exchanged = n := by
  rcases n with ⟨id, name, type, ownership, ⟨⟨sA, mA, gA⟩, ⟨sB, mB, gB⟩⟩, neighbors,
    departures⟩
  cases ownership <;> cases sA <;> cases sB <;> rfl

/-- A group changed twice is the group. -/
theorem TravelingGroup.exchanged_exchanged (g : TravelingGroup) : g.exchanged.exchanged = g := by
  rcases g with ⟨s, count, destination⟩
  cases s <;> rfl

/-- An edge changed twice is the edge. -/
theorem Edge.exchanged_exchanged (e : Edge) : e.exchanged.exchanged = e := by
  have hgroups : ∀ groups : List TravelingGroup,
      (groups.map (·.exchanged)).map (·.exchanged) = groups := by
    intro groups
    rw [List.map_map]
    exact (List.map_congr_left fun g _ => g.exchanged_exchanged).trans (List.map_id _)
  have hunits : e.exchanged.exchanged.travelingUnits = e.travelingUnits := by
    show (e.travelingUnits.mapValues _).mapValues _ = _
    rw [SortedList.mapValues_mapValues]
    refine SortedList.ext ((List.map_congr_left fun kvp _ => ?_).trans (List.map_id _))
    exact congrArg (Prod.mk kvp.1) (hgroups kvp.2)
  exact congrArg (fun units => ({ e with travelingUnits := units } : Edge)) hunits

/-- An encounter changed twice is the encounter, its two groups in their old places. -/
theorem PendingEncounter.exchanged_exchanged (p : PendingEncounter) : p.exchanged.exchanged = p := by
  have houtcome : ∀ o : Option EncounterOutcome, (o.map (·.exchanged)).map (·.exchanged) = o := by
    rintro (_ | ⟨s, destination, count, k⟩)
    · rfl
    · cases s <;> rfl
  rcases p with ⟨edgeId, gA, gB, k, ⟨dA, dB⟩, ⟨oA, oB⟩⟩
  unfold exchanged PerSide.exchanged
  simp only [TravelingGroup.exchanged_exchanged, houtcome, id]

/-- Changing the sides of the mirror gives back a room alike. -/
theorem Mirrors.alike_exchanged (h : Mirrors room room') : Alike room room'.exchanged := by
  refine ⟨h.phase, h.currentRound, h.maxRounds, ?_, ?_, ?_, ?_, ?_, ?_⟩
  · show (room'.nodes.mapValues _).mapValues _ = _
    rw [h.nodes, Dict.mapValues_mapValues, Dict.mapValues_mapValues]
    simp only [Node.exchanged_exchanged]
  · show (room'.edges.mapValues _).mapValues _ = _
    rw [h.edges, Dict.mapValues_mapValues, Dict.mapValues_mapValues]
    simp only [Edge.exchanged_exchanged]
  · show room'.players.exchanged id = _
    rw [h.players]
    rfl
  · show room'.unitUsedThisRound.exchanged id = _
    rw [h.used]
    rfl
  · show room'.pendingMoves.exchanged id = _
    rw [h.moves]
    rfl
  · show room'.pendingEncounters.map _ = _
    rw [h.encounters, List.map_map]
    exact (List.map_congr_left fun p _ => p.exchanged_exchanged).trans (List.map_id _)

/-! ## Who wins

The winner at the end of the rounds is the side that owns more nodes. -/

/-- Rooms that are alike count alike. -/
theorem Alike.nodesOwned (h : Alike room room') (owner : NodeOwnership) :
    room'.nodesOwned owner = room.nodesOwned owner := by
  have hread : ∀ room : GameRoom, room.nodesOwned owner =
      ((room.nodes.mapValues Node.standing).values.countP fun x => x.1 = owner) := by
    intro room
    unfold GameRoom.nodesOwned
    rw [Dict.values_mapValues, List.countP_map]
    rfl
  rw [hread, hread, h.nodes]

/-- In the mirror the counts change places. -/
theorem Mirrors.nodesOwned (h : Mirrors room room') (owner : NodeOwnership) :
    room'.nodesOwned owner.exchanged = room.nodesOwned owner := by
  unfold GameRoom.nodesOwned
  rw [h.nodes, Dict.values_mapValues, List.countP_map]
  refine congrArg Nat.cast (List.countP_congr fun n _ => ?_)
  show decide (n.ownership.exchanged = owner.exchanged) = true ↔ _
  rw [decide_eq_true_iff, decide_eq_true_iff]
  exact NodeOwnership.exchanged_inj

/-- So whoever would win the one game would lose the other, and a draw is one in both. -/
theorem getWinner_exchanged {room'' : GameRoom} (h : Alike room room') (h' : Mirrors room' room'') :
    room''.getWinner = room.getWinner.map (·.enemy) := by
  have hA : room''.nodesOwned .playerB = room.nodesOwned .playerA :=
    (h'.nodesOwned .playerA).trans (h.nodesOwned .playerA)
  have hB : room''.nodesOwned .playerA = room.nodesOwned .playerB :=
    (h'.nodesOwned .playerB).trans (h.nodesOwned .playerB)
  unfold getWinner
  rw [hA, hB]
  rcases Int.lt_trichotomy (room.nodesOwned .playerA) (room.nodesOwned .playerB) with hlt | heq | hgt
  · rw [if_pos hlt, if_neg (Int.lt_asymm hlt), if_pos hlt]
    rfl
  · rw [heq, if_neg (Int.lt_irrefl _), if_neg (Int.lt_irrefl _)]
    rfl
  · rw [if_neg (Int.lt_asymm hgt), if_pos hgt, if_pos hgt]
    rfl

/-- **A game of settled rounds is impartial.**  Take a room that a session has led to, once both
    players are there, and its mirror.  Along any further run of the session whose rounds are all
    settled, the exchanged calls are a run of the session from the mirror; the rooms in which the two
    runs end are alike when the sides are changed back; and who would win the one game would lose the
    other. -/
theorem settled_impartial {roomId : String} (hreach : (session roomId).Reachable room)
    (hfull : 2 ≤ room.playerCount) (hmirror : Mirrors room room') {calls : List Call}
    (hrun : (session roomId).Steps GameRoom.SettledLegal room calls) :
    (session roomId).Steps GameRoom.SessionLegal room' (calls.map Call.exchanged) ∧
      Alike ((session roomId).after room calls)
        ((session roomId).after room' (calls.map Call.exchanged)).exchanged ∧
      ((session roomId).after room' (calls.map Call.exchanged)).getWinner =
        ((session roomId).after room calls).getWinner.map (·.enemy) := by
  have hgood : FullRoom room := ⟨sound_of_reachable (reachable_of_session hreach),
    nodesSound_of_reachable (reachable_of_session hreach), hfull⟩
  have hstart : ∃ x, Alike room x ∧ FullRoom room ∧ FullRoom x ∧ Mirrors x room' :=
    ⟨room, Alike.refl room, hgood, hgood, hmirror⟩
  -- between the two games stands the first one, with side B's moves executed first
  have hstep : ∀ r t call, (∃ x, Alike r x ∧ FullRoom r ∧ FullRoom x ∧ Mirrors x t) →
      r.SettledLegal call →
      ∃ x, Alike (r.next call) x ∧ FullRoom (r.next call) ∧ FullRoom x ∧
        Mirrors x (t.next call.exchanged) := by
    rintro r t call ⟨x, halike, hr, hx, hmirror⟩ hlegal
    exact ⟨x.rivalNext call, halike.next hr hx hlegal, hr.next call, hx.rivalNext call,
      (hmirror.next hx.sound hx.full call).1⟩
  have hlegal : ∀ r t call, (∃ x, Alike r x ∧ FullRoom r ∧ FullRoom x ∧ Mirrors x t) →
      r.SettledLegal call → t.SessionLegal call.exchanged := by
    rintro r t call ⟨x, halike, -, -, hmirror⟩ hsettled
    cases call with
    | addPlayer | moveUnits | resolveEncounter | forceGameOver => trivial
    | resolveRound deadline now =>
      obtain ⟨hphase, hdecided⟩ := isReadyForResolution_iff.mp hsettled.1
      refine isReadyForResolution_iff.mpr ⟨hmirror.phase.trans (halike.phase.trans hphase), ?_⟩
      rw [hmirror.encounters, halike.encounters]
      intro p hp
      obtain ⟨p₀, hp₀, rfl⟩ := List.mem_map.mp hp
      rw [PendingEncounter.bothDecided_exchanged]
      exact hdecided p₀ hp₀
  obtain ⟨x, halike, -, -, hlast⟩ := Machine.after_translated (M := session roomId)
    (N := session roomId) hstep hstart hrun
  exact ⟨Machine.steps_translated (M := session roomId) (N := session roomId) hstep hlegal hstart hrun,
    halike.trans hlast.alike_exchanged, getWinner_exchanged halike hlast⟩

/-- A unit of side A goes round by round to the supply line, and takes it. -/
def captureCalls : List Call :=
  [.moveUnits .a ⟨⟨1⟩, ⟨6⟩, 1⟩, .resolveRound none 0, .moveUnits .a ⟨⟨6⟩, ⟨3⟩, 1⟩,
    .resolveRound none 0]

/-- Side A wins by the supply line; in the mirror it is side B that takes it and wins. -/
theorem settled_impartial_capture :
    ∃ room, (session "room").Reachable room ∧ 2 ≤ room.playerCount ∧
      (session "room").Steps GameRoom.SettledLegal room captureCalls ∧
      ((session "room").after room captureCalls).getWinner = some .a ∧
      ((session "room").after room.exchanged (captureCalls.map Call.exchanged)).getWinner = some .b := by
  have hreach : (session "room").Reachable
      ((session "room").after (session "room").start (rivalCalls.take 2)) :=
    ⟨rivalCalls.take 2, by decide +kernel, rfl⟩
  have hrun : (session "room").Steps GameRoom.SettledLegal
      ((session "room").after (session "room").start (rivalCalls.take 2)) captureCalls := by
    decide +kernel
  have hwinner : ((session "room").after ((session "room").after (session "room").start
      (rivalCalls.take 2)) captureCalls).getWinner = some .a := by
    decide +kernel
  have hfull : 2 ≤ ((session "room").after (session "room").start (rivalCalls.take 2)).playerCount := by
    decide +kernel
  obtain ⟨-, -, hexchanged⟩ := settled_impartial hreach hfull (mirrors_exchanged _) hrun
  refine ⟨_, hreach, hfull, hrun, hwinner, ?_⟩
  rw [hexchanged, hwinner]
  rfl

end HexWar
