/-
  The events of a game tell the game.

  A spectator who reads every event that is published, on whichever server it was raised, knows who
  plays, the phase and the round, the units and the owner of every node, from where each side has
  reserved how many units, and which encounters wait for a decision.  `Chronicle.tell` is what it does
  with an event, `GameRoom.chronicle` what there is to know; `Recorded.next` is one turn, and
  `events_tell_game` says that the two agree in every state the servers of a room can get into.

  The default decisions of a timer raise events that the resolution drops again.  The spectator does
  not miss them: nothing is pending any more when a round is resolved, so the encounters it is told of
  then are all there are.
-/
import HexWar.Session.Secrecy
import HexWar.Session.Sequencing

namespace HexWar

open Lib Lib.Action GameRoom

/-! ## The spectator -/

/-- What the events tell of a game. -/
structure Chronicle where
  players : PerSide (Option PlayerId)
  phase : GamePhase
  currentRound : Int
  unitUsedThisRound : PerSide Int
  /-- The reserved moves, without their destinations. -/
  departures : PerSide (List (NodeId × Int))
  nodes : List (Int × NodeStateSnapshot)
  encounters : List EncounterRecord
deriving DecidableEq, Repr

/-- The snapshots of some nodes. -/
def snapshots (nodes : Dict NodeId Node) : List (Int × NodeStateSnapshot) :=
  nodes.values.map fun n => (n.id.value, snapshot n)

/-- The nodes when both players have their units. -/
def openingNodes : Dict NodeId Node := seatNodes (seatNodes initialNodes .a) .b

/-- Strike the record of the encounter on an edge off the list. -/
def strike (edgeId : EdgeId) (rs : List EncounterRecord) : List EncounterRecord :=
  modifyFirst (fun r => r.edgeId = toString edgeId) (fun _ => none) rs

namespace Chronicle

/-- Before any event. -/
def blank : Chronicle := ⟨.both none, .watingForPlayers, 0, .both 0, .both [], [], []⟩

/-- Take an event into account. -/
def tell (c : Chronicle) : DomainEvent → Chronicle
  | .gameStarted e =>
    ⟨⟨some e.playerAId, some e.playerBId⟩, .planning, e.startingRound, .both 0, .both [],
      snapshots openingNodes, []⟩
  | .unitsDeparted e => { c with
      unitUsedThisRound := c.unitUsedThisRound.update e.side (· + e.unitCount)
      departures := c.departures.update e.side (· ++ [(e.fromNode, e.unitCount)]) }
  | .roundResolved e => { c with
      phase := .resolution
      currentRound := e.completedRound + 1
      unitUsedThisRound := .both 0
      departures := .both []
      nodes := e.nodeSnapshots
      encounters := e.encounters }
  | .roundStarted e => { c with phase := e.phase, currentRound := e.roundNumber }
  | .gameOver _ => { c with phase := .gameOver }
  | .encounterResolved e => { c with encounters := strike e.edgeId c.encounters }
  | .unitsRetreated _ | .unitsAdvanced _ | .encounterOccurred _ | .encounterDecisionMade _ => c

/-- All that a list of events tells. -/
def read (es : List DomainEvent) : Chronicle := es.foldl tell blank

theorem read_append (es es' : List DomainEvent) : read (es ++ es') = es'.foldl tell (read es) :=
  List.foldl_append

end Chronicle

/-! ## What there is to know -/

/-- The record of a pending encounter. -/
def pendingRecord (edges : Dict EdgeId Edge) (p : PendingEncounter) : EncounterRecord :=
  match edges.get? p.edgeId with
  | some e => ⟨toString p.edgeId, e.fromNode.value, e.toNode.value, p.groupA.unitCount,
      p.groupB.unitCount, p.remainingRounds⟩
  | none => ⟨"", 0, 0, 0, 0, 0⟩

/-- What a spectator should know of a room. -/
def GameRoom.chronicle (room : GameRoom) : Chronicle where
  players := room.players
  phase := room.phase
  currentRound := room.currentRound
  unitUsedThisRound := room.unitUsedThisRound
  departures := ⟨room.pendingMoves.a.map (·.departure), room.pendingMoves.b.map (·.departure)⟩
  nodes := snapshots room.nodes
  encounters := room.pendingEncounters.map (pendingRecord room.edges)

/-- The ends of an edge never change. -/
theorem pendingRecord_onMap {room room' : GameRoom} (h : OnMap room) (h' : OnMap room')
    (p : PendingEncounter) : pendingRecord room'.edges p = pendingRecord room.edges p := by
  have hshape : (room'.edges.get? p.edgeId).map edgeShape =
    (room.edges.get? p.edgeId).map edgeShape := by
    rw [← Dict.get?_mapValues, ← Dict.get?_mapValues, h.edges, h'.edges]
  unfold pendingRecord
  rcases he : room.edges.get? p.edgeId with _ | e <;> rcases he' : room'.edges.get? p.edgeId with _ | e'
  · rfl
  · rw [he, he'] at hshape
    cases hshape
  · rw [he, he'] at hshape
    cases hshape
  · rw [he, he'] at hshape
    have hends : edgeShape e' = edgeShape e := Option.some.inj hshape
    have hfrom : e'.fromNode = e.fromNode := congrArg (·.2.1) hends
    have hto : e'.toNode = e.toNode := congrArg (·.2.2.1) hends
    simp only [hfrom, hto]

/-- The ids of two edges of the map are written differently. -/
theorem mapEdges_written : ∀ e ∈ mapEdges.entries, ∀ e' ∈ mapEdges.entries,
    toString e.1 = toString e'.1 → e.1 = e'.1 := by decide +kernel

theorem edgeId_of_toString {room : GameRoom} (h : OnMap room) {id id' : EdgeId} {e e' : Edge}
    (he : room.edges.get? id = some e) (he' : room.edges.get? id' = some e')
    (hstring : toString id = toString id') : id = id' :=
  mapEdges_written _ (Dict.mem_iff_get?.mpr (h.edge_shape he)) _
    (Dict.mem_iff_get?.mpr (h.edge_shape he')) hstring

/-- Clearing the departures changes nothing that is told of a node. -/
theorem snapshots_cleared (nodes : Dict NodeId Node) :
    snapshots (nodes.mapValues (·.clearDepartureHistory)) = snapshots nodes := by
  rw [snapshots, Dict.values_mapValues, List.map_map]
  rfl

/-! ## Lists with one element changed -/

/-- Changing the first match and then reading all is reading all and then changing the first match. -/
theorem map_modifyFirst_eq {α β : Type} {p : α → Bool} {q : β → Bool} {f : α → Option α}
    {f' : β → Option β} {g : α → β} {l : List α} (hp : ∀ x ∈ l, q (g x) = p x)
    (hf : ∀ x ∈ l, p x = true → (f x).map g = f' (g x)) :
    (modifyFirst p f l).map g = modifyFirst q f' (l.map g) := by
  induction l with
  | nil => rfl
  | cons x xs ih =>
    rw [List.map_cons, modifyFirst, modifyFirst, hp x List.mem_cons_self]
    by_cases hx : p x = true
    · rw [if_pos hx, if_pos hx, List.map_append, ← hf x List.mem_cons_self hx]
      cases f x <;> rfl
    · rw [if_neg hx, if_neg hx, List.map_cons,
        ih (fun y hy => hp y (List.mem_cons_of_mem _ hy))
          (fun y hy => hf y (List.mem_cons_of_mem _ hy))]

theorem modifyFirst_some {α : Type} (p : α → Bool) (l : List α) : modifyFirst p some l = l := by
  induction l with
  | nil => rfl
  | cons x xs ih =>
    rw [modifyFirst, ih]
    split <;> rfl

/-! ## One turn -/

/-- Once both players are there, the events that were raised tell the room. -/
def Recorded (es : List DomainEvent) (room : GameRoom) : Prop :=
  room.playerCount ≥ 2 → Chronicle.read es = room.chronicle

variable {es : List DomainEvent} {room : GameRoom}

/-- The event of the start tells all there is when the game starts. -/
theorem recorded_joined (hs : Sound room) (hquiet : room.domainEvents = []) {playerId : PlayerId}
    (hr : room.joinRefusal playerId = none) (es : List DomainEvent) (deadline : Time) :
    Recorded (es ++ (room.joined playerId deadline).domainEvents) (room.joined playerId deadline) := by
  intro hfull
  have hcount := joinRefusal_none hr
  have hwaiting := hs.waiting hcount
  rcases seats_cases hs.seats hcount with ⟨hp, hv⟩ | ⟨p, hp, hv⟩
  · -- the first player leaves a seat free
    rw [playerCount, (joined_frame room playerId deadline).players, hp, hv] at hfull
    exact absurd hfull (by simp [PerSide.set, PerSide.both])
  · have hnodes : room.nodes = seatNodes initialNodes .a := by
      rw [hwaiting.nodes, hp]
      rfl
    have hjoined : room.joined playerId deadline =
        { room with
          players := ⟨some p, some playerId⟩, nodes := openingNodes, phase := .planning
          currentRound := 1
          domainEvents := [.gameStarted ⟨room.roomId, p, playerId, 1, deadline⟩] } := by
      simp only [joined, seated, hv, hp, hnodes, PerSide.set, started, hquiet, List.nil_append,
        openingNodes]
    rw [hjoined, Chronicle.read_append]
    simp only [chronicle, hwaiting.moves, hwaiting.used, hwaiting.encounters]
    rfl

/-- A reservation is told without its destination. -/
theorem Recorded.reserve (h : Recorded es room) (hquiet : room.domainEvents = []) (side : PlayerSide)
    (command : MoveCommand) :
    Recorded (es ++ (room.reserve side command).domainEvents) (room.reserve side command) := by
  intro hfull
  rw [events_reserve hquiet, Chronicle.read_append, h hfull]
  cases side <;> simp [Chronicle.tell, chronicle, GameRoom.reserve, PerSide.update, PerSide.set,
    PerSide.get, PendingMove.departure, grantedMove]

/-- The end of an encounter is told when both sides have decided. -/
theorem tell_resolvedEvent (c : Chronicle) (room : GameRoom) (p : PendingEncounter) :
    (resolvedEvent room p).toList.foldl Chronicle.tell c =
      if p.bothDecided then { c with encounters := strike p.edgeId c.encounters } else c := by
  unfold resolvedEvent PendingEncounter.bothDecided PendingEncounter.hasDecided
  rcases p with ⟨edgeId, groupA, groupB, remainingRounds, ⟨dA, dB⟩, outcome⟩
  cases dA <;> cases dB <;> rfl

/-- The records of what is pending after a decision on one of the encounters. -/
theorem records_decideOn (hroom : InSession room) {edgeId : EdgeId} {p : PendingEncounter} {e : Edge}
    (hp : room.encounterOn edgeId = some p) (he : room.edges.get? edgeId = some e) (side : PlayerSide)
    (decision : EncounterDecision) :
    (room.decideOn e p edgeId side decision).pendingEncounters.map (pendingRecord room.edges) =
      if (marked e p side decision).bothDecided then
        strike edgeId (room.pendingEncounters.map (pendingRecord room.edges))
      else room.pendingEncounters.map (pendingRecord room.edges) := by
  obtain ⟨hmem, hid⟩ := encounterOn_mem hp
  -- among the pending encounters the edge tells which one it is, also in writing
  have hwritten : ∀ x ∈ room.pendingEncounters,
      decide ((pendingRecord room.edges x).edgeId = toString edgeId) = decide (x.edgeId = edgeId) := by
    intro x hx
    obtain ⟨ex, hex⟩ := (hroom.sound.encounters x hx).edge
    have hrecord : (pendingRecord room.edges x).edgeId = toString x.edgeId := by
      rw [pendingRecord, hex]
    rw [hrecord, decide_eq_decide]
    exact ⟨edgeId_of_toString hroom.sound.map hex he, congrArg toString⟩
  have hfirst : ∀ x ∈ room.pendingEncounters, decide (x.edgeId = edgeId) = true → x = p := by
    intro x hx hxid
    exact List.inj_on_of_nodup_map hroom.orderly.unique hx hmem
      ((of_decide_eq_true hxid).trans hid.symm)
  show (modifyFirst (·.edgeId = edgeId) (fun _ => if (marked e p side decision).bothDecided then none
    else some (marked e p side decision)) room.pendingEncounters).map (pendingRecord room.edges) = _
  split
  · exact map_modifyFirst_eq hwritten fun _ _ _ => rfl
  · -- marking the encounter changes nothing that is told of it
    have hkept : ∀ x ∈ room.pendingEncounters, decide (x.edgeId = edgeId) = true →
        (some (marked e p side decision)).map (pendingRecord room.edges) =
          some (pendingRecord room.edges x) := by
      intro x hx hxid
      rw [hfirst x hx hxid]
      rfl
    exact (map_modifyFirst_eq (q := fun r => r.edgeId = toString edgeId) hwritten hkept).trans
      (modifyFirst_some _ _)

/-- A decision is told of when it is the second one: then the encounter is over. -/
theorem Recorded.decided (h : Recorded es room) (hroom : InSession room)
    (hquiet : room.domainEvents = []) {edgeId : EdgeId} {side : PlayerSide}
    {decision : EncounterDecision} (hr : room.decisionRefusal edgeId side decision = none) :
    Recorded (es ++ (room.decideEncounter edgeId side decision).domainEvents)
      (room.decideEncounter edgeId side decision) := by
  intro hfull
  have hafter := hroom.decided edgeId side hr
  obtain ⟨-, p, e, hp, -, he, -⟩ := decisionRefusal_none hr
  rw [decideEncounter_eq hp he] at hfull hafter ⊢
  have hid : (marked e p side decision).edgeId = edgeId := (encounterOn_mem hp).2
  have hrecords : (room.decideOn e p edgeId side decision).pendingEncounters.map
      (pendingRecord (room.decideOn e p edgeId side decision).edges) =
        (room.decideOn e p edgeId side decision).pendingEncounters.map (pendingRecord room.edges) :=
    List.map_congr_left fun x _ => pendingRecord_onMap hroom.sound.map hafter.sound.map x
  have hquietly : ∀ c : Chronicle, c.tell (room.decisionEvent p side decision) = c := by
    intro c
    cases decision <;> rfl
  have htold : Chronicle.read (es ++ (room.decideOn e p edgeId side decision).domainEvents) =
      (resolvedEvent room (marked e p side decision)).toList.foldl Chronicle.tell room.chronicle := by
    have hevents : (room.decideOn e p edgeId side decision).domainEvents =
        room.decisionEvent p side decision :: .encounterDecisionMade ⟨room.roomId, side, edgeId,
          decision, (p.groupOf side).unitCount, room.currentRound⟩ ::
            (resolvedEvent room (marked e p side decision)).toList := by
      show room.domainEvents ++ _ ++ _ = _
      rw [hquiet]
      rfl
    rw [Chronicle.read_append, hevents, List.foldl_cons, List.foldl_cons, hquietly, h hfull]
    rfl
  rw [htold, tell_resolvedEvent, hid, chronicle, chronicle, hrecords, records_decideOn hroom hp he]
  split <;> rfl

/-- **A resolution tells all that it does**, whatever was told before, except who plays. -/
theorem tell_resolved (hnone : room.pendingEncounters = []) {c : Chronicle}
    (hplayers : c.players = room.players) (deadline : Time) :
    (sourceOrder.resolved room deadline).domainEvents.foldl Chronicle.tell c =
      (sourceOrder.resolved room deadline).chronicle := by
  have hframe := resolved_frame sourceOrder room deadline
  have hphase := opened_phase (sourceOrder.closedRoom room) room.currentRound deadline
  have hencounters : (sourceOrder.resolved room deadline).pendingEncounters.map
      (pendingRecord (sourceOrder.advancedEdges room)) = (sourceOrder.summary room).encounters := by
    rw [pendingEncounters_resolved hnone, List.map_map]
    rfl
  have hnodes : snapshots (sourceOrder.resolved room deadline).nodes =
      (sourceOrder.summary room).nodeSnapshots := by
    rw [hframe.nodes, snapshots_cleared]
    rfl
  have hround := hframe.currentRound
  rw [events_resolved, chronicle, hframe.players, hframe.moves, hframe.used, hframe.edges,
    hencounters, hnodes, hround, ← hplayers]
  change (sourceOrder.resolved room deadline).phase = _ at hphase
  rw [hphase, ProcessingOrder.following]
  by_cases hends : (sourceOrder.closedRoom room).endsGame
  · simp only [if_pos hends]
    rfl
  · simp only [if_neg hends]
    rfl

/-- **One turn** that does something to the room. -/
theorem Recorded.next {h : Host} (hroom : InSession h.room) (hquiet : h.room.domainEvents = [])
    (hrecorded : Recorded es h.room) {call : SessionCall} {room : GameRoom} (hdoes : Does h call room) :
    Recorded (es ++ room.domainEvents) room := by
  cases hdoes with
  | join hr => exact recorded_joined hroom.sound hquiet hr es _
  | move hconn hr => exact hrecorded.reserve hquiet _ _
  | decide hconn hr => exact hrecorded.decided hroom hquiet hr
  | @resolve call ready now hres =>
    intro hfull
    obtain ⟨-, hin, hready⟩ := next_of_resolves hroom hres
    have hplayers := (resolves_round hres).2.2.2
    rw [playerCount_resolved, playerCount_congr hplayers] at hfull
    rw [Chronicle.read_append, hrecorded hfull]
    exact tell_resolved (hin.orderly.ready hin.sound hready).2 hplayers.symm _
  | abandon hphase hwinner =>
    intro hfull
    rw [events_forced hquiet, Chronicle.read_append, hrecorded hfull]
    rfl

/-! ## Every run -/

/-- What holds of the servers of a room: what was ever published tells the stored room. -/
structure Chronicled (c : Cluster) : Prop where
  consistent : Consistent c
  recorded : Recorded (c.issued.map (·.event)) c.room

theorem Chronicled.next {c : Cluster} (hc : Chronicled c) (planningTimeout : Time) (call : ClusterCall) :
    Chronicled (c.next planningTimeout call) := by
  refine ⟨hc.consistent.next planningTimeout call, ?_⟩
  by_cases hturn : ∃ id turn, call = .turn id turn
  · obtain ⟨id, turn, rfl⟩ := hturn
    show Recorded ((c.turn id turn).issued.map _) (c.turn id turn).room
    rcases hget : c.servers.get? id with _ | s
    · rw [turn_unknown hget]
      exact hc.recorded
    rw [turn_eq hget]
    have hs := hc.consistent.servers id s hget
    have hpublished :
      ∀ {es : List DomainEvent}, Announces es (s.host c.room) ((s.host c.room).next turn) →
        ((s.host c.room).next turn).published.map (·.event) = es := by
      intro es ha
      rw [published_of_turn hs ha, List.map_map]
      exact map_event_numberFrom _ _
    show Recorded ((c.issued ++ ((s.host c.room).next turn).published).map _)
      ((s.host c.room).next turn).room
    rw [List.map_append]
    rcases next_does (h := s.host c.room) hc.consistent.room hc.consistent.quiet turn with
      ⟨room, hdone⟩ | hidle
    · rw [hpublished hdone.turn.announces, hdone.saved]
      exact Recorded.next (h := s.host c.room) hc.consistent.room hc.consistent.quiet hc.recorded
        hdone.does
    · rw [hpublished hidle.turn.announces, hidle.kept, List.append_nil]
      exact hc.recorded
  · obtain ⟨hroom, hissued⟩ := c.next_frame planningTimeout fun id turn heq => hturn ⟨id, turn, heq⟩
    rw [hroom, hissued]
    exact hc.recorded

/-- **The events tell the game.**  In every state the servers of a room can get into, whatever the
    players, the timers, the other servers and the channel between them do: once both players are
    there, the events that were ever published, read from the first on, tell who plays, the phase, the
    round, the units each side has used and from where, the state of every node and the encounters
    that wait for a decision. -/
theorem events_tell_game {roomId serverId : String} {planningTimeout : Time} {side : PlayerSide}
    {c : Cluster} (hreach : (clusters roomId serverId planningTimeout side).Reachable c)
    (hfull : c.room.playerCount ≥ 2) :
    Chronicle.read (c.issued.map (·.event)) = c.room.chronicle := by
  refine (hreach.invariant (I := Chronicled) ?_ fun c call hc _ => hc.next planningTimeout call).recorded
    hfull
  refine ⟨consistent_initial _ _ _ _, fun hfull => ?_⟩
  have hempty : (initialRoom roomId).players = .both none := (initialRoom_fields roomId).players
  have hcount : (initialRoom roomId).playerCount ≥ 2 := hfull
  rw [playerCount, hempty] at hcount
  exact absurd hcount (by simp [PerSide.both])

/-- On two servers all units of both sides set out towards each other, the second server's timer
    resolves the round, and side A retreats. -/
def chargingCalls : List ClusterCall :=
  [.turn "s1" (.addPlayer ⟨"alice"⟩ 0), .turn "s1" (.addPlayer ⟨"bob"⟩ 5),
    .turn "s1" (.onPlayerConnected .a 10), .hydrate "s2", .turn "s2" (.onPlayerConnected .b 20),
    .turn "s1" (.moveUnits .a ⟨⟨1⟩, ⟨5⟩, 3⟩),
    .turn "s2" (.moveUnits .b ⟨⟨5⟩, ⟨1⟩, 3⟩),
    .turn "s2" (.backupPlanningTimeout 1 35000),
    .turn "s1" (.encounterDecision .a (EdgeId.of ⟨1⟩ ⟨5⟩) .retreat)]

/-- The events tell of the second round, and that the encounter still waits. -/
theorem events_tell_game_charging :
    let c := pair.after pair.start chargingCalls
    Chronicle.read (c.issued.map (·.event)) = c.room.chronicle ∧ c.room.currentRound = 2 ∧
      (Chronicle.read (c.issued.map (·.event))).encounters = [⟨"1-5", 1, 5, 3, 3, 1⟩] := by
  intro c
  have hreach : pair.Reachable c :=
    ⟨chargingCalls, Machine.steps_of_forall (fun _ _ => trivial) _ _, rfl⟩
  have htold := events_tell_game hreach (by decide +kernel)
  exact ⟨htold, by decide +kernel, by decide +kernel⟩

end HexWar
