/-
  What the commands of the planning phase do, as functions of the room.

  Each of `addPlayer`, `moveUnits` and `resolveEncounter` checks the request and then either throws
  with the room as it was, or changes it.  Here the checks are collected in one function that gives
  the error, if there is one (`joinRefusal`, `moveRefusal`, `decisionRefusal`), and the change in
  another (`joined`, `reserve`, `decideEncounter`).  The three `_eq` theorems say that the action is those
  two; "a refused command changes nothing" is part of what they say.
-/
import HexWar.Domain.GameRoom

namespace HexWar

open Lib Lib.Action

/-- What an action with checks comes to: the refusal with the state as it was, or the value and the
    new state. -/
def verdict {σ α : Type} (refusal : Option GameError) (value : α) (s s' : σ) :
    EStateM.Result GameError σ α :=
  match refusal with
  | some e => .error e s
  | none => .ok value s'

namespace GameRoom

/-! ## Joining

A player is seated, its start node is manned, and with both sides taken the first round opens. -/

/-- A room is full when both sides are taken. -/
theorem two_le_playerCount {room : GameRoom} :
    room.playerCount ≥ 2 ↔ room.players.a.isSome ∧ room.players.b.isSome := by
  unfold playerCount
  cases room.players.a <;> cases room.players.b <;> simp

/-- The number of players depends on the seats only. -/
theorem playerCount_congr {room room' : GameRoom} (h : room'.players = room.players) :
    room'.playerCount = room.playerCount := by
  rw [playerCount, playerCount, h]

/-- The side the next player gets. -/
def vacantSide (room : GameRoom) : PlayerSide := if room.playerCount = 0 then .a else .b

/-- Why a player cannot join, if it cannot. -/
def joinRefusal (room : GameRoom) (playerId : PlayerId) : Option GameError :=
  if room.playerCount ≥ 2 then some (.domain "Room is full")
  else if room.players.a = some playerId ∨ room.players.b = some playerId then
    some (.domain "Player already in room")
  else none

/-- A start node with three more units of its side. -/
def garrisonStart (node : Node) (side : PlayerSide) : Node :=
  { node with
    units := node.units.update side fun g => { g with mobileCount := g.mobileCount + 3 }
    ownership := .fromPlayerSide side }

/-- The nodes with the start node of a side manned. -/
def seatNodes (nodes : Dict NodeId Node) (side : PlayerSide) : Dict NodeId Node :=
  match nodes.get? (startNode side) with
  | some node => nodes.set (startNode side) (garrisonStart node side)
  | none => nodes

/-- The room with a player seated and its units placed. -/
def seated (room : GameRoom) (playerId : PlayerId) : GameRoom :=
  { room with
    players := room.players.set room.vacantSide (some playerId)
    nodes := seatNodes room.nodes room.vacantSide }

/-- The room with its first planning phase open. -/
def started (room : GameRoom) (deadline : Time) : GameRoom :=
  match room.players.a, room.players.b with
  | some playerA, some playerB =>
    { room with
      phase := .planning
      currentRound := 1
      domainEvents := room.domainEvents ++
        [.gameStarted ⟨room.roomId, playerA, playerB, 1, deadline⟩] }
  | _, _ => room

/-- The room after a player has joined. -/
def joined (room : GameRoom) (playerId : PlayerId) (deadline : Time) : GameRoom :=
  (room.seated playerId).started deadline

/-! ## Moving

What a command asks for is cut down first, and checked afterwards. -/

/-- The units a command is granted: what it asks for, cut down to what is left this round. -/
def granted (room : GameRoom) (side : PlayerSide) (command : MoveCommand) : Int :=
  min command.unitCount (maxUnitsPerPlayer - room.unitUsedThisRound.get side)

/-- The units of a side on a node that are not yet reserved. -/
def availableAt (room : GameRoom) (side : PlayerSide) (node : Node) (id : NodeId) : Int :=
  node.getMobileCount side - committedFrom (room.pendingMoves.get side) id

/-- Why a move is refused, in the order of the checks. -/
def moveRefusal (room : GameRoom) (side : PlayerSide) (command : MoveCommand) : Option GameError :=
  if room.phase ≠ .planning then some (.domain s!"Cannot move in {room.phase} phase")
  else if room.unitUsedThisRound.get side ≥ maxUnitsPerPlayer then
    some (.domain "All units already moved this round")
  else if room.granted side command ≤ 0 then some (.domain "No units available to commit")
  else if ¬ room.edges.containsKey (EdgeId.of command.fromNode command.toNode) then
    some (.domain s!"No path between {command.fromNode} and {command.toNode}")
  else match room.nodes.get? command.fromNode with
    | none => some (.keyNotFound (toString command.fromNode))
    | some node =>
      let available := room.availableAt side node command.fromNode
      let requested := room.granted side command
      if available < requested then some (.domain
        s!"Not enough units at {command.fromNode}. Available: {available}, Requested: {requested}")
      else none

/-- The move that a command reserves. -/
def grantedMove (room : GameRoom) (side : PlayerSide) (command : MoveCommand) : PendingMove :=
  ⟨command.fromNode, command.toNode, room.granted side command⟩

/-- The room with a command's move reserved. -/
def reserve (room : GameRoom) (side : PlayerSide) (command : MoveCommand) : GameRoom :=
  { room with
    pendingMoves := room.pendingMoves.update side (· ++ [room.grantedMove side command])
    unitUsedThisRound := room.unitUsedThisRound.update side (· + room.granted side command)
    domainEvents := room.domainEvents ++ [.unitsDeparted
      ⟨room.roomId, side, command.fromNode, room.granted side command, room.currentRound⟩] }

/-! ## Deciding an encounter

The first pending encounter of the edge is decided on; the edge must be there for either
decision. -/

/-- The pending encounter that a decision on an edge is about. -/
def encounterOn (room : GameRoom) (edgeId : EdgeId) : Option PendingEncounter :=
  room.pendingEncounters.find? (·.edgeId = edgeId)

/-- The error of a retreat: the group's destination is not an end of the edge. -/
def retreatRefusal (edge : Edge) (group : TravelingGroup) :
    EncounterDecision → Option GameError
  | .advance => none
  | .retreat =>
    match edge.id.getOppositeNode group.destination with
    | .ok _ => none
    | .error e => some e

/-- Why a decision is refused, in the order of the checks. -/
def decisionRefusal (room : GameRoom) (edgeId : EdgeId) (side : PlayerSide)
    (decision : EncounterDecision) : Option GameError :=
  if room.phase ≠ .planning then
    some (.domain "Encounter decisions must be made during Planning phase")
  else match room.encounterOn edgeId with
    | none => some (.domain s!"No pending encounter on edge {edgeId}")
    | some pending =>
      if pending.hasDecided side then
        some (.domain "Decision already made for this encounter and cannot be changed")
      else match room.edges.get? edgeId with
        | none => some (.keyNotFound (toString edgeId))
        | some edge => retreatRefusal edge (pending.groupOf side) decision

/-- The other end of an edge, for an end of it. -/
def oppositeEnd (e : EdgeId) (n : NodeId) : NodeId := if n = e.fromNode then e.toNode else e.fromNode

/-- Where a decision sends the group of the side that takes it. -/
def outcomeOf (edge : Edge) (pending : PendingEncounter) (side : PlayerSide) :
    EncounterDecision → EncounterOutcome
  | .retreat => ⟨side, oppositeEnd edge.id (pending.groupOf side).destination,
      (pending.groupOf side).unitCount, edge.distance.roundsRequired⟩
  | .advance => ⟨side, (pending.groupOf side).destination, (pending.groupOf side).unitCount,
      pending.remainingRounds⟩

/-- The edge after a decision. -/
def edgeAfter (edge : Edge) (pending : PendingEncounter) (side : PlayerSide) :
    EncounterDecision → Edge
  | .retreat => (edge.removeTravelingGroup side).startTravel side (pending.groupOf side).unitCount
      (oppositeEnd edge.id (pending.groupOf side).destination)
  | .advance => edge

/-- The edges after a decision.  A side that advances writes no edge. -/
def edgesAfter (room : GameRoom) (edge : Edge) (pending : PendingEncounter) (side : PlayerSide) :
    EncounterDecision → Dict EdgeId Edge
  | .retreat => room.edges.set edge.id (edgeAfter edge pending side .retreat)
  | .advance => room.edges

/-- What a side's own decision raises. -/
def decisionEvent (room : GameRoom) (pending : PendingEncounter) (side : PlayerSide) :
    EncounterDecision → DomainEvent
  | .retreat => .unitsRetreated ⟨room.roomId, side, pending.edgeId,
      (pending.groupOf side).unitCount, room.currentRound⟩
  | .advance => .unitsAdvanced ⟨room.roomId, side, pending.edgeId,
      (pending.groupOf side).unitCount, room.currentRound⟩

/-- The pending encounter with a decision marked on it. -/
def marked (edge : Edge) (pending : PendingEncounter) (side : PlayerSide)
    (decision : EncounterDecision) : PendingEncounter :=
  pending.markDecided side decision (outcomeOf edge pending side decision)

/-- The room after a decision on the encounter `pending` of `edge`. -/
def decideOn (room : GameRoom) (edge : Edge) (pending : PendingEncounter) (edgeId : EdgeId)
    (side : PlayerSide) (decision : EncounterDecision) : GameRoom :=
  let decided := marked edge pending side decision
  { room with
    edges := room.edgesAfter edge pending side decision
    pendingEncounters := modifyFirst (·.edgeId = edgeId)
      (fun _ => if decided.bothDecided then none else some decided) room.pendingEncounters
    domainEvents := room.domainEvents ++ [room.decisionEvent pending side decision,
      .encounterDecisionMade ⟨room.roomId, side, edgeId, decision,
        (pending.groupOf side).unitCount, room.currentRound⟩] ++
      (resolvedEvent room decided).toList }

/-- The room after a decision. -/
def decideEncounter (room : GameRoom) (edgeId : EdgeId) (side : PlayerSide)
    (decision : EncounterDecision) :
    GameRoom :=
  match room.encounterOn edgeId, room.edges.get? edgeId with
  | some pending, some edge => room.decideOn edge pending edgeId side decision
  | _, _ => room

end GameRoom

open GameRoom

/-! ## The actions are their checks and their change

Each proof follows the action down its checks: at a check that throws the refusal is the same, and
behind the last one the state is the change. -/

/-- A move is refused, or it is reserved. -/
theorem moveUnits_eq (room : GameRoom) (side : PlayerSide) (command : MoveCommand) :
    moveUnits side command room =
      verdict (room.moveRefusal side command)
        ⟨room.granted side command, command.fromNode, command.toNode⟩
        room (room.reserve side command) := by
  unfold moveUnits moveRefusal
  rw [bind_of_ok (get_apply room), throwIf_bind]
  split
  · rfl
  rw [throwIf_bind]
  split
  · rfl
  show (throwIf (room.granted side command ≤ 0) _ >>= _) room = _
  rw [throwIf_bind]
  split
  · rfl
  -- The path is checked by an action of its own.
  have hpath : validatePath command.fromNode command.toNode room =
      if ¬ room.edges.containsKey (EdgeId.of command.fromNode command.toNode) then
        .error (.domain s!"No path between {command.fromNode} and {command.toNode}") room
      else .ok () room := by
    rw [validatePath, bind_of_ok (get_apply room)]
    split
    · next h => exact throwIf_pos h room
    · next h => exact throwIf_neg h room
  split
  · next h => rw [if_pos h] at hpath; rw [bind_of_error hpath]; rfl
  next h =>
  rw [if_neg h] at hpath
  rw [bind_of_ok hpath]
  cases hn : room.nodes.get? command.fromNode with
  | none =>
    rw [bind_of_error (getNode_absent hn)]
    rfl
  | some node =>
    rw [bind_of_ok (getNode_ok hn)]
    show (throwIf (room.availableAt side node command.fromNode < room.granted side command) _
      >>= _) room = _
    rw [throwIf_bind]
    simp only
    split
    · rfl
    · rfl

/-- The end of `addPlayer`: open the first planning phase if both sides are taken. -/
def startWhenFull (roomId : String) (side : PlayerSide) (deadline : Time) : Game PlayerSide := do
  if (← get).playerCount ≥ 2 then
    modify fun room => { room with phase := .planning, currentRound := 1 }
    let playerA ← getPlayer .a
    let playerB ← getPlayer .b
    raiseEvent (.gameStarted ⟨roomId, playerA, playerB, 1, deadline⟩)
  return side

/-- It opens the phase exactly when both sides are taken. -/
theorem startWhenFull_ok (room : GameRoom) (side : PlayerSide) (deadline : Time) :
    startWhenFull room.roomId side deadline room = .ok side (room.started deadline) := by
  rw [startWhenFull, bind_of_ok (get_apply room), started]
  let room₁ : GameRoom := { room with phase := .planning, currentRound := 1 }
  rcases ha : room.players.a with _ | playerA
  · have hcount : ¬ room.playerCount ≥ 2 := fun h => by simpa [ha] using (two_le_playerCount.mp h).1
    rw [if_neg hcount]
    rfl
  · rcases hb : room.players.b with _ | playerB
    · have hcount : ¬ room.playerCount ≥ 2 := fun h => by simpa [hb] using (two_le_playerCount.mp h).2
      rw [if_neg hcount]
      rfl
    · have hcount : room.playerCount ≥ 2 := two_le_playerCount.mpr ⟨by rw [ha]; rfl, by rw [hb]; rfl⟩
      have hA : getPlayer .a room₁ = .ok playerA room₁ := getPlayer_ok ha
      have hB : getPlayer .b room₁ = .ok playerB room₁ := getPlayer_ok hb
      rw [if_pos hcount]
      show (getPlayer .a >>= _) room₁ = _
      rw [bind_of_ok hA, bind_of_ok hB]
      rfl

/-- A player joins, when the start node of the vacant side is there. -/
theorem addPlayer_eq {room : GameRoom} {node : Node}
    (hnode : room.nodes.get? (startNode room.vacantSide) = some node) (playerId : PlayerId)
    (deadline : Option Time) (now : Time) :
    addPlayer playerId deadline now room =
      verdict (room.joinRefusal playerId) room.vacantSide room
        (room.joined playerId (deadline.getD (now + defaultPlanning))) := by
  unfold addPlayer joinRefusal
  rw [bind_of_ok (get_apply room), throwIf_bind]
  split
  · rfl
  rw [throwIf_bind]
  split
  · rfl
  next hfull _ =>
  have hcount : room.playerCount < 2 := Nat.lt_of_not_le hfull
  let room₁ : GameRoom :=
    { room with players := room.players.set room.vacantSide (some playerId) }
  have hget : getNode (startNode room.vacantSide) room₁ = .ok node room₁ := getNode_ok hnode
  rw [bind_of_ok (modify_apply _ room)]
  show (getNode (startNode room.vacantSide) >>= _) room₁ = _
  rw [bind_of_ok hget]
  -- The two writes, of the seat and of the node, make up `seated`.
  have hseated : { room₁ with
      nodes := room.nodes.set (startNode room.vacantSide) (garrisonStart node room.vacantSide) } =
        room.seated playerId := by
    rw [seated, seatNodes, hnode]
  show startWhenFull room.roomId room.vacantSide (deadline.getD (now + defaultPlanning)) { room₁ with
    nodes := room.nodes.set (startNode room.vacantSide) (garrisonStart node room.vacantSide) } = _
  rw [hseated]
  exact startWhenFull_ok (room.seated playerId) room.vacantSide _

/-- On an end of the edge, the source's opposite node is `oppositeEnd`. -/
theorem getOppositeNode_eq (e : EdgeId) (n : NodeId) :
    e.getOppositeNode n = if e.IsEnd n then .ok (oppositeEnd e n)
      else .error (.argument s!"Node {n} is not part of edge {e}") := by
  rw [EdgeId.getOppositeNode, oppositeEnd]
  rcases em (n = e.fromNode) with hf | hf
  · have hend : e.IsEnd n := Or.inl hf
    rw [if_pos hf, if_pos hf, if_pos hend]
  rcases em (n = e.toNode) with ht | ht
  · have hend : e.IsEnd n := Or.inr ht
    rw [if_neg hf, if_pos ht, if_pos hend, if_neg hf]
  · have hend : ¬ e.IsEnd n := fun h => h.elim hf ht
    rw [if_neg hf, if_neg ht, if_neg hend]

/-- Carrying out a decision that is not refused. -/
theorem executeDecision_ok {room : GameRoom} {edge : Edge} {pending : PendingEncounter}
    {side : PlayerSide} {decision : EncounterDecision}
    (h : retreatRefusal edge (pending.groupOf side) decision = none) :
    executeDecision edge pending side decision room = .ok (outcomeOf edge pending side decision)
      { room with
        edges := room.edgesAfter edge pending side decision
        domainEvents := room.domainEvents ++ [room.decisionEvent pending side decision] } := by
  cases decision with
  | advance => rfl
  | retreat =>
    have hend : edge.id.getOppositeNode (pending.groupOf side).destination =
        .ok (oppositeEnd edge.id (pending.groupOf side).destination) := by
      rw [retreatRefusal, getOppositeNode_eq] at h
      rw [getOppositeNode_eq]
      split
      · rfl
      · next hne => rw [if_neg hne] at h; cases h
    rw [executeDecision, bind_of_ok (get_apply room), hend]
    rfl

/-- Carrying out a decision that is refused. -/
theorem executeDecision_error {room : GameRoom} {edge : Edge} {pending : PendingEncounter}
    {side : PlayerSide} {decision : EncounterDecision} {e : GameError}
    (h : retreatRefusal edge (pending.groupOf side) decision = some e) :
    executeDecision edge pending side decision room = .error e room := by
  cases decision with
  | advance => cases h
  | retreat =>
    rw [retreatRefusal] at h
    rw [executeDecision, bind_of_ok (get_apply room)]
    cases hopp : edge.id.getOppositeNode (pending.groupOf side).destination with
    | ok n => rw [hopp] at h; cases h
    | error e' => rw [hopp] at h; cases h; rfl

/-- A decision is refused, or it is recorded and carried out. -/
theorem resolveEncounter_eq (room : GameRoom) (edgeId : EdgeId) (side : PlayerSide)
    (decision : EncounterDecision) :
    resolveEncounter edgeId side decision room =
      verdict (room.decisionRefusal edgeId side decision) ()
        room (room.decideEncounter edgeId side decision) := by
  unfold resolveEncounter decisionRefusal
  rw [bind_of_ok (get_apply room), throwIf_bind]
  split
  · rfl
  rw [encounterOn]
  cases hp : room.pendingEncounters.find? (·.edgeId = edgeId) with
  | none => rfl
  | some pending =>
    simp only
    rw [throwIf_bind]
    split
    · rfl
    cases he : room.edges.get? edgeId with
    | none => rw [bind_of_error (getEdge_absent he)]; rfl
    | some edge =>
      rw [bind_of_ok (getEdge_ok he)]
      cases href : retreatRefusal edge (pending.groupOf side) decision with
      | some e => rw [bind_of_error (executeDecision_error href)]; simp only [href]; rfl
      | none =>
        rw [bind_of_ok (executeDecision_ok href)]
        simp only [href, verdict]
        rw [decideEncounter, encounterOn, hp, he]
        show (_ : Game Unit) _ = EStateM.Result.ok () (room.decideOn edge pending edgeId side decision)
        rw [raiseEvent, bind_of_ok (modify_apply _ _), bind_of_ok (modify_apply _ _), decideOn, marked]
        cases resolvedEvent room (pending.markDecided side decision
            (outcomeOf edge pending side decision)) with
        | none => simp [pure_apply]
        | some e => simp [raiseEvent, modify_apply]

end HexWar
