/-
  The room as a machine driven by calls, and what is true of it whatever is called.

  A `Call` is one public operation with its arguments.  `rooms roomId` is the machine that starts
  from a new room with its map and makes any call in any state; `session roomId` is the same machine
  under the driver that resolves a round only when the room is ready for it.

  `Sound` is the invariant of BOTH: it survives every call, in any order and with any arguments.  It
  says that the map keeps its shape, that every travelling group can arrive, that every pending
  encounter can be decided, and that the reserved moves are paid for by the units on the nodes.  From
  it follows that a resolution in the planning phase goes through (`Sound.resolvable`).
-/
import HexWar.Domain.Commands
import HexWar.Domain.Round
import HexWar.Lib.Runs

namespace HexWar

open Lib Lib.Action

/-! ## Calls -/

/-- One public operation of the room, with its arguments. -/
inductive Call where
  | addPlayer (playerId : PlayerId) (deadline : Option Time) (now : Time)
  | moveUnits (side : PlayerSide) (command : MoveCommand)
  | resolveEncounter (edgeId : EdgeId) (side : PlayerSide) (decision : EncounterDecision)
  | resolveRound (deadline : Option Time) (now : Time)
  | forceGameOver (winner : Option PlayerSide) (reason : GameOverReason)

namespace GameRoom

/-- The room a call leaves, whether it returned or threw. -/
def next (room : GameRoom) : Call → GameRoom
  | .addPlayer playerId deadline now => after (HexWar.addPlayer playerId deadline now) room
  | .moveUnits side command => after (HexWar.moveUnits side command) room
  | .resolveEncounter edgeId side decision =>
    after (HexWar.resolveEncounter edgeId side decision) room
  | .resolveRound deadline now => after (HexWar.resolveRound deadline now) room
  | .forceGameOver winner reason => after (HexWar.forceGameOver winner reason) room

/-- Did the call return? -/
def accepts (room : GameRoom) : Call → Bool
  | .addPlayer playerId deadline now => succeeds (HexWar.addPlayer playerId deadline now) room
  | .moveUnits side command => succeeds (HexWar.moveUnits side command) room
  | .resolveEncounter edgeId side decision =>
    succeeds (HexWar.resolveEncounter edgeId side decision) room
  | .resolveRound deadline now => succeeds (HexWar.resolveRound deadline now) room
  | .forceGameOver winner reason => succeeds (HexWar.forceGameOver winner reason) room

/-- A round is resolved only when the room is ready for it; every other call is free. -/
def SessionLegal (room : GameRoom) : Call → Prop
  | .resolveRound _ _ => room.isReadyForResolution = true
  | _ => True

instance (room : GameRoom) : ∀ call, Decidable (room.SessionLegal call)
  | .resolveRound _ _ => inferInstanceAs (Decidable (_ = true))
  | .addPlayer _ _ _ | .moveUnits _ _ | .resolveEncounter _ _ _ | .forceGameOver _ _ => .isTrue trivial

end GameRoom

/-- A new room with its map. -/
def initialRoom (roomId : String) : GameRoom := after initializeMap (GameRoom.new roomId)

/-! ### The map does not depend on the room's name -/

/-- An action that neither reads nor writes the room's name. -/
def Nameless {α : Type} (x : Game α) : Prop := ∀ (roomId : String) (room : GameRoom),
  x { room with roomId := roomId } = match x room with
    | .ok a room' => .ok a { room' with roomId := roomId }
    | .error e room' => .error e { room' with roomId := roomId }

theorem Nameless.bind {α β : Type} {x : Game α} {f : α → Game β} (hx : Nameless x)
    (hf : ∀ a, Nameless (f a)) : Nameless (x >>= f) := by
  intro roomId room
  have hxr := hx roomId room
  rcases h : x room with ⟨a, room'⟩ | ⟨e, room'⟩
  · rw [h] at hxr
    rw [bind_of_ok hxr, bind_of_ok h]
    exact hf a roomId room'
  · rw [h] at hxr
    rw [bind_of_error hxr, bind_of_error h]

theorem nameless_createNode (id : NodeId) (name : String) (type : NodeType) :
    Nameless (createNode id name type) := by
  intro roomId room
  rw [createNode, bind_of_ok (get_apply room), bind_of_ok (get_apply _), throwIf_bind, throwIf_bind]
  split <;> rfl

theorem nameless_addNeighbor (id neighbor : NodeId) : Nameless (addNeighbor id neighbor) := by
  intro roomId room
  have hsame : { room with roomId := roomId }.nodes.get? id = room.nodes.get? id := rfl
  rcases h : room.nodes.get? id with _ | n
  · rw [addNeighbor, bind_of_error (getNode_absent h), bind_of_error (getNode_absent (hsame.trans h))]
  · rw [addNeighbor, bind_of_ok (getNode_ok h), bind_of_ok (getNode_ok (hsame.trans h))]
    rfl

theorem nameless_createEdge (fromNode toNode : NodeId) (distance : Distance) :
    Nameless (createEdge fromNode toNode distance) := by
  refine Nameless.bind (fun _ _ => rfl) fun _ => ?_
  exact (nameless_addNeighbor fromNode toNode).bind fun _ => nameless_addNeighbor toNode fromNode

theorem nameless_initializeMap : Nameless initializeMap := by
  unfold initializeMap
  iterate 6 refine (nameless_createNode _ _ _).bind fun _ => ?_
  iterate 11 refine (nameless_createEdge _ _ _).bind fun _ => ?_
  exact nameless_createEdge _ _ _

theorem Nameless.after {α : Type} {x : Game α} (h : Nameless x) (roomId : String)
    (room : GameRoom) :
    Action.after x { room with roomId := roomId } =
      { Action.after x room with roomId := roomId } := by
  rw [Action.after, Action.after, h]
  cases x room <;> rfl

/-- The nodes before anyone has joined. -/
def initialNodes : Dict NodeId Node := (initialRoom "").nodes

/-- The edges before anyone has joined. -/
def initialEdges : Dict EdgeId Edge := (initialRoom "").edges

/-- A new room is the new room of the empty name, under its own name. -/
theorem initialRoom_eq (roomId : String) :
    initialRoom roomId = { initialRoom "" with roomId := roomId } :=
  nameless_initializeMap.after roomId (GameRoom.new "")

/-- A room that nobody has joined. -/
structure NewRoom (room : GameRoom) : Prop where
  phase : room.phase = .watingForPlayers
  players : room.players = .both none
  moves : room.pendingMoves = .both []
  used : room.unitUsedThisRound = .both 0
  encounters : room.pendingEncounters = []
  currentRound : room.currentRound = 0
  maxRounds : room.maxRounds = 20
  events : room.domainEvents = []

theorem initialRoom_fields (roomId : String) : NewRoom (initialRoom roomId) := by
  have hunnamed : (initialRoom "").phase = .watingForPlayers ∧ (initialRoom "").players = .both none ∧
      (initialRoom "").pendingMoves = .both [] ∧ (initialRoom "").unitUsedThisRound = .both 0 ∧
      (initialRoom "").pendingEncounters = [] ∧ (initialRoom "").currentRound = 0 ∧
      (initialRoom "").maxRounds = 20 ∧ (initialRoom "").domainEvents = [] := by
    decide
  obtain ⟨hphase, hplayers, hmoves, hused, hencs, hround, hmax, hevents⟩ := hunnamed
  rw [initialRoom_eq]
  exact ⟨hphase, hplayers, hmoves, hused, hencs, hround, hmax, hevents⟩

theorem initialRoom_nodes (roomId : String) : (initialRoom roomId).nodes = initialNodes := by
  rw [initialRoom_eq, initialNodes]

theorem initialRoom_edges (roomId : String) : (initialRoom roomId).edges = initialEdges := by
  rw [initialRoom_eq, initialEdges]

theorem initialNodes_mobile {id : NodeId} {n : Node} (hn : initialNodes.get? id = some n)
    (s : PlayerSide) : n.getMobileCount s = 0 := by
  have hzero : ∀ kv ∈ initialNodes.entries, ∀ s ∈ [PlayerSide.a, .b],
    kv.2.getMobileCount s = 0 := by decide
  exact hzero (id, n) (Dict.mem_iff_get?.mpr hn) s (by cases s <;> decide)

theorem initialEdges_bucket {id : EdgeId} {e : Edge} (he : initialEdges.get? id = some e) :
    e.travelingUnits.entries = [] := by
  have hempty : ∀ kv ∈ initialEdges.entries, kv.2.travelingUnits.entries = [] := by decide
  exact hempty (id, e) (Dict.mem_iff_get?.mpr he)

/-- The room under any calls. -/
def rooms (roomId : String) : Machine GameRoom Call :=
  ⟨initialRoom roomId, GameRoom.next, fun _ _ => True⟩

/-- The room under a driver that waits until a round is ready. -/
def session (roomId : String) : Machine GameRoom Call :=
  ⟨initialRoom roomId, GameRoom.next, GameRoom.SessionLegal⟩

instance (roomId : String) : ∀ room call, Decidable ((session roomId).Legal room call) :=
  fun room call => inferInstanceAs (Decidable (room.SessionLegal call))

/-- The error, or the value and the new state, as the next state. -/
theorem after_verdict {α : Type} {x : Game α} {room room' : GameRoom} {refusal : Option GameError}
    {value : α} (h : x room = verdict refusal value room room') :
    after x room = if refusal.isSome then room else room' := by
  cases refusal with
  | none => exact after_ok h
  | some e => exact after_error h

theorem succeeds_verdict {α : Type} {x : Game α} {room room' : GameRoom}
    {refusal : Option GameError} {value : α} (h : x room = verdict refusal value room room') :
    succeeds x room = refusal.isNone := by
  cases refusal with
  | none => exact succeeds_ok h
  | some e => exact succeeds_error h

theorem next_moveUnits (room : GameRoom) (side : PlayerSide) (command : MoveCommand) :
    room.next (.moveUnits side command) =
      if (room.moveRefusal side command).isSome then room else room.reserve side command :=
  after_verdict (moveUnits_eq room side command)

theorem next_resolveEncounter (room : GameRoom) (edgeId : EdgeId) (side : PlayerSide)
    (decision : EncounterDecision) :
    room.next (.resolveEncounter edgeId side decision) =
      if (room.decisionRefusal edgeId side decision).isSome then room
      else room.decideEncounter edgeId side decision :=
  after_verdict (resolveEncounter_eq room edgeId side decision)

theorem accepts_move (room : GameRoom) (side : PlayerSide) (command : MoveCommand) :
    room.accepts (.moveUnits side command) = (room.moveRefusal side command).isNone :=
  succeeds_verdict (moveUnits_eq room side command)

theorem accepts_decision (room : GameRoom) (edgeId : EdgeId) (side : PlayerSide)
    (decision : EncounterDecision) :
    room.accepts (.resolveEncounter edgeId side decision) =
      (room.decisionRefusal edgeId side decision).isNone :=
  succeeds_verdict (resolveEncounter_eq room edgeId side decision)

/-- The room after a forced end. -/
def GameRoom.forced (room : GameRoom) (winner : Option PlayerSide) (reason : GameOverReason) :
    GameRoom :=
  { room with
    phase := .gameOver
    domainEvents := room.domainEvents ++
      [.gameOver ⟨room.roomId, winner, reason, room.currentRound, room.scores⟩] }

theorem next_forceGameOver (room : GameRoom) (winner : Option PlayerSide)
    (reason : GameOverReason) :
    room.next (.forceGameOver winner reason) = room.forced winner reason := rfl

/-! ## The map -/

/-- What never changes of a node. -/
def nodeShape (n : Node) : NodeId × NodeType := (n.id, n.type)

/-- What never changes of an edge. -/
def edgeShape (e : Edge) : EdgeId × NodeId × NodeId × Distance :=
  (e.id, e.fromNode, e.toNode, e.distance)

/-- The nodes of the map. -/
def mapNodes : Dict NodeId (NodeId × NodeType) := initialNodes.mapValues nodeShape

/-- The edges of the map. -/
def mapEdges : Dict EdgeId (EdgeId × NodeId × NodeId × Distance) :=
  initialEdges.mapValues edgeShape

/-- On the map every edge has its own id, joins two nodes of the map, and takes one round or two. -/
theorem mapEdges_ok : ∀ e ∈ mapEdges.entries,
    e.2.1 = e.1 ∧ mapNodes.containsKey e.1.fromNode ∧ mapNodes.containsKey e.1.toNode ∧
      1 ≤ e.2.2.2.2.roundsRequired ∧ e.2.2.2.2.roundsRequired ≤ 2 := by decide

/-- On the map an edge joins two different nodes. -/
theorem mapEdges_proper : ∀ e ∈ mapEdges.entries, e.1.fromNode ≠ e.1.toNode := by decide

/-- The nodes and the edges of the room are those of the map. -/
structure OnMap (room : GameRoom) : Prop where
  nodes : room.nodes.mapValues nodeShape = mapNodes
  edges : room.edges.mapValues edgeShape = mapEdges

namespace OnMap

variable {room : GameRoom}

theorem edge_shape (h : OnMap room) {id : EdgeId} {e : Edge} (he : room.edges.get? id = some e) :
    mapEdges.get? id = some (edgeShape e) := by
  rw [← h.edges, Dict.get?_mapValues, he]
  rfl

theorem keyed (h : OnMap room) : Keyed room.edges := fun _ _ he =>
  (mapEdges_ok _ (Dict.mem_iff_get?.mpr (h.edge_shape he))).1

theorem distance (h : OnMap room) {id : EdgeId} {e : Edge} (he : room.edges.get? id = some e) :
    1 ≤ e.distance.roundsRequired ∧ e.distance.roundsRequired ≤ 2 :=
  (mapEdges_ok _ (Dict.mem_iff_get?.mpr (h.edge_shape he))).2.2.2

/-- A key of the map is a node of the room. -/
theorem node_of_key (h : OnMap room) {id : NodeId} (hid : mapNodes.containsKey id = true) :
    ∃ n, room.nodes.get? id = some n := by
  refine Option.isSome_iff_exists.mp ?_
  rw [← Dict.isSome_get?_mapValues nodeShape, h.nodes]
  exact hid

/-- An end of an edge is a node of the room. -/
theorem node_of_end (h : OnMap room) {id : EdgeId} {e : Edge} (he : room.edges.get? id = some e)
    {n : NodeId} (hn : id.IsEnd n) : ∃ node, room.nodes.get? n = some node := by
  obtain ⟨-, hfrom, hto, -⟩ := mapEdges_ok _ (Dict.mem_iff_get?.mpr (h.edge_shape he))
  rcases hn with rfl | rfl
  · exact h.node_of_key hfrom
  · exact h.node_of_key hto

theorem start (h : OnMap room) (s : PlayerSide) : ∃ n, room.nodes.get? (startNode s) = some n := by
  refine h.node_of_key ?_
  cases s <;> decide

end OnMap

-- the map is built by running a program; from here on it is known by the facts above only
attribute [irreducible] initialRoom

/-! ## The invariant -/

/-- A group that can go on: it has units, and heads for an end of its edge. -/
structure GroupSound (id : EdgeId) (g : TravelingGroup) : Prop where
  pos : 1 ≤ g.unitCount
  destination : id.IsEnd g.destination

/-- An edge whose groups can all go on. -/
structure EdgeSound (e : Edge) : Prop where
  inTransit : e.InTransit
  groups : ∀ k, ∀ g ∈ e.bucket k, GroupSound e.id g

/-- A pending encounter that can be decided. -/
structure EncounterSound (room : GameRoom) (p : PendingEncounter) : Prop where
  edge : ∃ e, room.edges.get? p.edgeId = some e
  side : ∀ s, (p.groupOf s).side = s
  groups : ∀ s, GroupSound p.edgeId (p.groupOf s)

/-- The reserved moves of a side are real and paid for, and they are what the side has used. -/
structure MovesSound (room : GameRoom) (s : PlayerSide) : Prop where
  moves : ∀ m ∈ room.pendingMoves.get s, 1 ≤ m.count ∧ ∃ e, room.edges.get? m.edgeId = some e
  solvent : ∀ id n, room.nodes.get? id = some n →
    committedFrom (room.pendingMoves.get s) id ≤ n.getMobileCount s
  used : room.unitUsedThisRound.get s = ((room.pendingMoves.get s).map (·.count)).sum
  bounded : room.unitUsedThisRound.get s ≤ maxUnitsPerPlayer

/-- Nothing is planned or decided before both players are there. -/
structure Waiting (room : GameRoom) : Prop where
  phase : room.phase ≠ .planning
  moves : room.pendingMoves = .both []
  used : room.unitUsedThisRound = .both 0
  encounters : room.pendingEncounters = []
  edges : room.edges = initialEdges
  nodes : room.nodes = if room.players.a.isSome then
    GameRoom.seatNodes initialNodes .a else initialNodes

/-- What holds of the room whatever has been called. -/
structure Sound (room : GameRoom) : Prop where
  map : OnMap room
  edges : ∀ id e, room.edges.get? id = some e → EdgeSound e
  mobile : ∀ id n s, room.nodes.get? id = some n → 0 ≤ n.getMobileCount s
  encounters : ∀ p ∈ room.pendingEncounters, EncounterSound room p
  moves : ∀ s, MovesSound room s
  phase : room.phase ≠ .resolution
  seats : room.players.b.isSome → room.players.a.isSome
  waiting : room.playerCount < 2 → Waiting room

end HexWar
