/-
  The end of a game is final, as long as nobody joins afterwards.

  Moves, decisions and resolutions are refused outside the planning phase, a forced end only ends the
  game once more, and what a session makes of them all goes through these.  Joining alone looks at
  the seats and not at the phase: a room that was ended before its second player came still has a
  seat, and whoever takes it opens the first round of a game that is over.

  `gameOver_final_iff` says that this is the only way back, for the room under any operations, for a
  session on its own, and for any number of servers.


  The three machines have the same shape of proof.  In a state that is over, a step keeps the game
  ended exactly if it meets the condition (`ended_next_iff`, once for each machine); in one that is
  not over, the condition holds of every step; and `Machine.keeps_iff` makes a statement about
  consecutive states out of the one about all pairs of states of a run.
-/
import HexWar.Session.Course
import HexWar.Session.Reconnect

namespace HexWar

open Lib Lib.Action GameRoom

/-! ## The properties

One property for each of the three machines, which differ in where their events are kept: in the
room, in the buffer of the session, or with what was published. -/

/-- The phase is GameOver. -/
def GameRoom.isOver (room : GameRoom) : Prop := room.phase = .gameOver

instance (room : GameRoom) : Decidable room.isOver := inferInstanceAs (Decidable (_ = _))

/-- The room is over and stands as it stood. -/
structure Standing (room room' : GameRoom) : Prop where
  /-- It is still over, -/
  isOver : room'.isOver
  /-- the board is the same, -/
  nodes : room'.nodes = room.nodes
  edges : room'.edges = room.edges
  /-- and so are the players -/
  players : room'.players = room.players
  /-- and the round. -/
  currentRound : room'.currentRound = room.currentRound

namespace Standing

variable {room room' room'' : GameRoom}

/-- A room that is over stands. -/
theorem refl (h : room.isOver) : Standing room room := ⟨h, rfl, rfl, rfl, rfl⟩

/-- And what stands twice in a row stands. -/
theorem trans (h : Standing room room') (h' : Standing room' room'') : Standing room room'' :=
  ⟨h'.isOver, h'.nodes.trans h.nodes, h'.edges.trans h.edges, h'.players.trans h.players,
    h'.currentRound.trans h.currentRound⟩

end Standing

/-- The room stands, and no event of a game that goes on was raised. -/
def GameRoom.Ended (room room' : GameRoom) : Prop :=
  Standing room room' ∧ room'.domainEvents.filter (·.goesOn) = room.domainEvents.filter (·.goesOn)

/-- The same of a session, which keeps the events it has raised in its buffer. -/
def Host.Ended (h h' : Host) : Prop :=
  Standing h.room h'.room ∧ ∀ b ∈ h'.session.eventBuffer.items, b.event.goesOn = true →
    b ∈ h.session.eventBuffer.items

/-- The same of several servers, which publish what they raise. -/
def Cluster.Ended (c c' : Cluster) : Prop :=
  Standing c.room c'.room ∧
    c'.issued.filter (·.event.goesOn) = c.issued.filter (·.event.goesOn)

/-- A player cannot join: the room is full, or the player is in it. -/
def GameRoom.Shut (room : GameRoom) (playerId : PlayerId) : Prop :=
  room.playerCount ≥ 2 ∨ room.players.a = some playerId ∨ room.players.b = some playerId

instance (room : GameRoom) (playerId : PlayerId) : Decidable (room.Shut playerId) :=
  inferInstanceAs (Decidable (_ ∨ _))

/-- Nobody joins a room that is over. -/
def GameRoom.NoLateJoin (room : GameRoom) : Call → Prop
  | .addPlayer playerId _ _ => room.isOver → room.Shut playerId
  | .moveUnits _ _ | .resolveEncounter _ _ _ | .resolveRound _ _ | .forceGameOver _ _ => True

/-- The same of a turn of a session, -/
def Host.NoLateJoin (h : Host) : SessionCall → Prop
  | .addPlayer playerId _ => h.room.isOver → h.room.Shut playerId
  | _ => True

/-- and of a step of several servers: only a turn can be a join. -/
def Cluster.NoLateJoin (c : Cluster) : ClusterCall → Prop
  | .turn id call => ∀ s, c.servers.get? id = some s → (s.host c.room).NoLateJoin call
  | .hydrate _ | .deliver _ _ | .connect _ | .disconnect => True

/-! ## The room

Everything but joining asks for the planning phase, except for a forced end, which ends the game
again. -/

variable {room : GameRoom}

/-- Who may join is who is not shut out, and nothing else is asked. -/
theorem joinRefusal_none_iff {playerId : PlayerId} :
    room.joinRefusal playerId = none ↔ ¬ room.Shut playerId := by
  rw [joinRefusal, Shut]
  by_cases hfull : room.playerCount ≥ 2
  · rw [if_pos hfull]
    exact iff_of_false (Option.some_ne_none _) (not_not_intro (.inl hfull))
  rw [if_neg hfull]
  by_cases hin : room.players.a = some playerId ∨ room.players.b = some playerId
  · rw [if_pos hin]
    exact iff_of_false (Option.some_ne_none _) (not_not_intro (.inr hin))
  · rw [if_neg hin]
    exact iff_of_true rfl (not_or.mpr ⟨hfull, hin⟩)

/-- **One operation** leaves a room that is over standing exactly if it lets nobody in. -/
theorem ended_next_iff (hs : Sound room) (hover : room.isOver) (call : Call) :
    room.Ended (room.next call) ↔ room.NoLateJoin call := by
  have hstay : room.Ended room := ⟨Standing.refl hover, rfl⟩
  have hphase : room.phase ≠ .planning := by
    intro hplanning
    rw [isOver, hplanning] at hover
    cases hover
  cases call with
  | addPlayer playerId deadline now =>
    show _ ↔ (room.isOver → room.Shut playerId)
    rw [next_addPlayer hs.map]
    rcases hr : room.joinRefusal playerId with _ | e
    · refine iff_of_false ?_ fun h => joinRefusal_none_iff.mp hr (h hover)
      rintro ⟨hstanding, -⟩
      exact players_joined_ne hs hr _ hstanding.players
    · refine iff_of_true hstay fun _ => ?_
      by_contra hshut
      rw [joinRefusal_none_iff.mpr hshut] at hr
      cases hr
  | moveUnits side command =>
    refine iff_of_true ?_ trivial
    rw [next_moveUnits, moveRefusal, if_pos hphase]
    exact hstay
  | resolveEncounter edgeId side decision =>
    refine iff_of_true ?_ trivial
    rw [next_resolveEncounter, decisionRefusal, if_pos hphase]
    exact hstay
  | resolveRound deadline now =>
    refine iff_of_true ?_ trivial
    rw [next_resolveRound_refused hphase]
    exact hstay
  | forceGameOver winner reason =>
    refine iff_of_true ⟨⟨rfl, rfl, rfl, rfl, rfl⟩, ?_⟩ trivial
    show (room.domainEvents ++ [_]).filter _ = _
    rw [List.filter_append]
    exact List.append_nil _

/-! ## The session

What a turn does to the room is one of the cases of `Does`; in a room that is over only the join is
left. -/

/-- In a room that is over a turn does nothing, or lets a player in. -/
theorem does_of_over {h : Host} (hover : h.room.isOver) {call : SessionCall} {room : GameRoom}
    (hdoes : Does h call room) : ∃ playerId now, call = .addPlayer playerId now ∧
      h.room.joinRefusal playerId = none ∧
      room = h.room.joined playerId (now + h.session.planningTimeout) := by
  have hno : h.room.phase ≠ .planning := by
    intro hplanning
    rw [isOver, hplanning] at hover
    cases hover
  cases hdoes with
  | join hr => exact ⟨_, _, rfl, hr, rfl⟩
  | move hconn hr => exact absurd (moveRefusal_of_session hr).1 hno
  | decide hconn hr => exact absurd (decisionRefusal_none hr).1 hno
  | resolve hres =>
    cases hres with
    | ready hready hall =>
      rw [isReadyForResolution, if_pos hno] at hready
      cases hready
    | timeout hphase hround => exact absurd hphase hno
    | backup hphase hround => exact absurd hphase hno
  | abandon hphase hwinner => exact absurd hover hphase

/-- A turn in a room that is over does nothing, exactly if it lets nobody in. -/
theorem idle_or_joined {h : Host} (hroom : InSession h.room) (hquiet : h.room.domainEvents = [])
    (hover : h.room.isOver) (call : SessionCall) :
    (h.NoLateJoin call ∧ Idle h call) ∨ (¬ h.NoLateJoin call ∧
      (h.next call).room.players ≠ h.room.players) := by
  rcases next_does hroom hquiet call with ⟨room, hdone⟩ | hidle
  · obtain ⟨playerId, now, rfl, hr, rfl⟩ := does_of_over hover hdone.does
    refine .inr ⟨fun hno => joinRefusal_none_iff.mp hr (hno hover), ?_⟩
    rw [hdone.saved]
    exact players_joined_ne hroom.sound hr _
  -- A join that does nothing was refused.
  · refine .inl ⟨?_, hidle⟩
    cases call with
    | addPlayer playerId now =>
      intro _
      by_contra hshut
      exact hidle.nothing _ (.join (joinRefusal_none_iff.mpr hshut))
    | onPlayerConnected _ _ | onPlayerDisconnected _ | forceGameOver | moveUnits _ _
    | encounterDecision _ _ _ | checkAndResolveIfReady _ | planningTimeout _ _
    | backupPlanningTimeout _ _ | getGameState _ | reconnectSync _ _ => trivial

/-- While the game goes on anyone may join. -/
theorem Host.noLateJoin_of_open {h : Host} (hopen : ¬ h.room.isOver) (call : SessionCall) :
    h.NoLateJoin call := by
  cases call with
  | addPlayer _ _ => exact fun hover => absurd hover hopen
  | onPlayerConnected _ _ | onPlayerDisconnected _ | forceGameOver | moveUnits _ _
  | encounterDecision _ _ _ | checkAndResolveIfReady _ | planningTimeout _ _
  | backupPlanningTimeout _ _ | getGameState _ | reconnectSync _ _ => trivial

/-- A turn that does nothing leaves the room standing. -/
theorem Idle.standing {h : Host} {call : SessionCall} (hidle : Idle h call)
    (hover : h.room.isOver) : Standing h.room (h.next call).room := by
  rw [hidle.kept]
  exact Standing.refl hover

/-- **One turn** of a session. -/
theorem Host.ended_next_iff {h : Host} (hroom : InSession h.room)
    (hquiet : h.room.domainEvents = []) (hover : h.room.isOver) (call : SessionCall) :
    h.Ended (h.next call) ↔ h.NoLateJoin call := by
  rcases idle_or_joined hroom hquiet hover call with ⟨hno, hidle⟩ | ⟨hlate, hmoved⟩
  · refine iff_of_true ⟨hidle.standing hover, ?_⟩ hno
    intro b hb _
    rw [hidle.turn.announces.buffer] at hb
    exact hb
  · exact iff_of_false (fun hended => hmoved hended.1.players) hlate

/-! ## Several servers

All servers share the room, so it is enough that no server's turn lets anybody in. -/

/-- A server that loads the room changes nothing in it, -/
theorem Cluster.hydrate_frame (c : Cluster) (planningTimeout : Time) (id : String) :
    (c.hydrate planningTimeout id).room = c.room ∧
      (c.hydrate planningTimeout id).issued = c.issued := by
  rw [Cluster.hydrate]
  split <;> exact ⟨rfl, rfl⟩

/-- and neither does one that receives an event. -/
theorem Cluster.deliver_frame (c : Cluster) (index : Nat) (now : Time) :
    (c.deliver index now).room = c.room ∧ (c.deliver index now).issued = c.issued := by
  rw [Cluster.deliver]
  split
  · exact ⟨rfl, rfl⟩
  · rw [Cluster.receives]
    split <;> exact ⟨rfl, rfl⟩

/-- Only a turn touches the room, or raises an event. -/
theorem Cluster.next_frame (c : Cluster) (planningTimeout : Time) {call : ClusterCall}
    (hcall : ∀ id turn, call ≠ .turn id turn) :
    (c.next planningTimeout call).room = c.room ∧
      (c.next planningTimeout call).issued = c.issued := by
  cases call with
  | hydrate id => exact c.hydrate_frame planningTimeout id
  | turn id call => exact absurd rfl (hcall id call)
  | deliver index now => exact c.deliver_frame index now
  | connect id =>
    show (c.connect planningTimeout id).room = _ ∧ (c.connect planningTimeout id).issued = _
    rw [Cluster.connect]
    split
    · exact ⟨rfl, rfl⟩
    · exact c.hydrate_frame planningTimeout id
  | disconnect =>
    show c.disconnect.room = _ ∧ c.disconnect.issued = _
    rw [Cluster.disconnect]
    split <;> exact ⟨rfl, rfl⟩

/-- **One step** of several servers. -/
theorem Cluster.ended_next_iff {c : Cluster} (hc : Consistent c) (hover : c.room.isOver)
    (planningTimeout : Time) (call : ClusterCall) :
    c.Ended (c.next planningTimeout call) ↔ c.NoLateJoin call := by
  by_cases hturn : ∃ id turn, call = .turn id turn
  · obtain ⟨id, turn, rfl⟩ := hturn
    show c.Ended (c.turn id turn) ↔ ∀ s, c.servers.get? id = some s → _
    rcases hget : c.servers.get? id with _ | s
    · rw [turn_unknown hget]
      refine iff_of_true ⟨Standing.refl hover, rfl⟩ fun s hs => ?_
      cases hs
    rw [turn_eq hget]
    show c.Ended (c.save id s ((s.host c.room).next turn)) ↔ _
    rcases idle_or_joined (h := s.host c.room) hc.room hc.quiet hover turn with
      ⟨hno, hidle⟩ | ⟨hlate, hmoved⟩
    · refine iff_of_true ⟨hidle.standing hover, ?_⟩ ?_
      · have hnone : ((s.host c.room).next turn).published = [] :=
          published_of_turn (hc.servers id s hget) hidle.turn.announces
        show (c.issued ++ ((s.host c.room).next turn).published).filter _ = _
        rw [hnone, List.append_nil]
      · intro t ht
        cases ht
        exact hno
    · exact iff_of_false (fun hended => hmoved hended.1.players) fun hno => hlate (hno s rfl)
  · have hcall : ∀ id turn, call ≠ .turn id turn := fun id turn heq => hturn ⟨id, turn, heq⟩
    obtain ⟨hroom, hissued⟩ := c.next_frame planningTimeout hcall
    refine iff_of_true ⟨?_, congrArg _ hissued⟩ ?_
    · rw [hroom]
      exact Standing.refl hover
    · cases call with
      | turn id call => exact absurd rfl (hcall id call)
      | hydrate _ | deliver _ _ | connect _ | disconnect => trivial

/-! ## Runs

The statement for all three, from their step lemmas and their invariants. -/

/-- **The end of a game is final exactly if nobody joins a room that is over**: from the state on in
    which the phase is GameOver it stays so, nodes, edges, players and round stay as they are, and
    no event of a game that goes on is raised.  So it is for the room under any operations, for one
    session and for any number of servers. -/
theorem gameOver_final_iff (roomId serverId : String) (hasEventPublisher : Bool)
    (planningTimeout : Time) (side : PlayerSide) :
    (∀ calls, (rooms roomId).Keeps isOver GameRoom.Ended (initialRoom roomId) calls ↔
      (rooms roomId).Steps GameRoom.NoLateJoin (initialRoom roomId) calls) ∧
    (∀ calls, (hosts roomId serverId hasEventPublisher planningTimeout).Keeps (·.room.isOver)
        Host.Ended (Host.initial roomId serverId hasEventPublisher planningTimeout) calls ↔
      (hosts roomId serverId hasEventPublisher planningTimeout).Steps Host.NoLateJoin
        (Host.initial roomId serverId hasEventPublisher planningTimeout) calls) ∧
    ∀ calls, (clusters roomId serverId planningTimeout side).Keeps (·.room.isOver) Cluster.Ended
        (Cluster.initial roomId serverId planningTimeout side) calls ↔
      (clusters roomId serverId planningTimeout side).Steps Cluster.NoLateJoin
        (Cluster.initial roomId serverId planningTimeout side) calls := by
  refine ⟨fun calls => ?_, fun calls => ?_, fun calls => ?_⟩
  · rw [Machine.keeps_iff (fun _ hq => ⟨Standing.refl hq, rfl⟩)
      (fun _ _ _ h h' => ⟨h.1.trans h'.1, h'.2.trans h.2⟩) fun _ _ h => h.1.isOver]
    refine Machine.steps_iff (M := rooms roomId) (I := Sound) (fun _ call hs _ => hs.next call) ?_
      (sound_initial roomId) (Machine.steps_of_forall (fun _ _ => trivial) calls _)
    intro room call hs _
    rcases em room.isOver with hover | hopen
    · exact (forall_prop_of_true hover).trans (ended_next_iff hs hover call)
    · refine iff_of_true (fun hover => absurd hover hopen) ?_
      cases call with
      | addPlayer _ _ _ => exact fun hover => absurd hover hopen
      | moveUnits _ _ | resolveEncounter _ _ _ | resolveRound _ _ | forceGameOver _ _ => trivial
  · rw [Machine.keeps_iff (fun h hq => ⟨Standing.refl hq, fun _ hb _ => hb⟩)
      (fun _ _ _ h h' => ⟨h.1.trans h'.1, fun b hb hb' => h.2 b (h'.2 b hb hb') hb'⟩)
      fun _ _ h => h.1.isOver]
    refine Machine.steps_iff (M := hosts roomId serverId hasEventPublisher planningTimeout)
      (I := Hosting) (fun _ call hh _ => hh.next call) ?_ (hosting_initial _ _ _ _)
      (Machine.steps_of_forall (fun _ _ => trivial) calls _)
    intro h call hh _
    rcases em h.room.isOver with hover | hopen
    · exact (forall_prop_of_true hover).trans (Host.ended_next_iff hh.room hh.quiet hover call)
    · exact iff_of_true (fun hover => absurd hover hopen) (Host.noLateJoin_of_open hopen call)
  · rw [Machine.keeps_iff (fun _ hq => ⟨Standing.refl hq, rfl⟩)
      (fun _ _ _ h h' => ⟨h.1.trans h'.1, h'.2.trans h.2⟩) fun _ _ h => h.1.isOver]
    refine Machine.steps_iff (M := clusters roomId serverId planningTimeout side) (I := Consistent)
      (fun _ call hc _ => hc.next planningTimeout call) ?_ (consistent_initial _ _ _ _)
      (Machine.steps_of_forall (fun _ _ => trivial) calls _)
    intro c call hc _
    rcases em c.room.isOver with hover | hopen
    · exact (forall_prop_of_true hover).trans
        (Cluster.ended_next_iff hc hover planningTimeout call)
    · refine iff_of_true (fun hover => absurd hover hopen) ?_
      cases call with
      | turn id call => exact fun s _ => Host.noLateJoin_of_open (h := s.host c.room) hopen call
      | hydrate _ | deliver _ _ | connect _ | disconnect => trivial

/-- Side A joins, loses its connection and does not come back for 15 seconds: side B, who is not
    there yet, has won.  Then side B joins. -/
def lateCalls : List SessionCall :=
  [.addPlayer ⟨"alice"⟩ 0, .onPlayerDisconnected .a, .forceGameOver, .addPlayer ⟨"bob"⟩ 16000]

/-- A server on its own. -/
abbrev alone : Machine Host SessionCall := hosts "room" "s1" false 30000

/-- The game that was over starts. -/
theorem gameOver_reopened :
    ((alone.after alone.start (lateCalls.take 3)).room.isOver ∧
      (alone.after alone.start lateCalls).room.phase = .planning ∧
      (alone.after alone.start lateCalls).room.currentRound = 1 ∧
      ∃ b ∈ (alone.after alone.start lateCalls).session.eventBuffer.items,
        b.event.goesOn = true) ∧
    ¬ alone.Keeps (·.room.isOver) Host.Ended alone.start lateCalls := by
  have hrun : (alone.after alone.start (lateCalls.take 3)).room.isOver ∧
      (alone.after alone.start lateCalls).room.phase = .planning ∧
      (alone.after alone.start lateCalls).room.currentRound = 1 ∧
      ∃ b ∈ (alone.after alone.start lateCalls).session.eventBuffer.items,
        b.event.goesOn = true := by
    decide +kernel
  refine ⟨hrun, fun hkeeps => ?_⟩
  have hlast : alone.after alone.start lateCalls ∈
      alone.visited (alone.after alone.start (lateCalls.take 3)) (lateCalls.drop 3) :=
    Machine.mem_visited_iff.mpr ⟨lateCalls.drop 3, [], rfl, rfl⟩
  have hover := (hkeeps (lateCalls.take 3) (lateCalls.drop 3) rfl hrun.1 _ hlast).1.isOver
  rw [isOver, hrun.2.1] at hover
  cases hover

end HexWar
