/-
  The rounds of a game are resolved one after the other.

  A round may be resolved by the last command of a player on any server, by the owner's timer and by
  the backup timer of every other server, and old timers may fire at any time.  Each of them looks at
  the stored room again, under the lock, before it resolves anything; so the number of rounds that
  have been told of is always one less than the room's own count, and after the end of the game
  there is nothing left to resolve.

  `Sequenced` says this of the events raised so far, `Sequenced.next` that every turn keeps it, and
  `rounds_in_sequence` threads it through the steps of any number of servers.


  That a resolution counts on by one is all the argument needs of the rules: which round was
  resolved is read off the room, the event carries the same number, and the timer's own number is
  compared with it before anything happens.
-/
import HexWar.Session.Finality

namespace HexWar

open Lib Lib.Action GameRoom

/-! ## The invariant

The events are all those raised since the game began, whichever server raised them. -/

/-- The rounds `1 .. k`. -/
def roundsUpTo (k : Nat) : List Int := (List.range k).map fun (n : Nat) => (n : Int) + 1

/-- One more round is told of at the end. -/
theorem roundsUpTo_succ (k : Nat) : roundsUpTo (k + 1) = roundsUpTo k ++ [(k : Int) + 1] := by
  rw [roundsUpTo, List.range_succ, List.map_append]
  rfl

/-- The events from the first end of the game on. -/
def sinceGameOver (es : List DomainEvent) : List DomainEvent :=
  es.dropWhile fun e => e.asGameOver.isNone

/-- What holds of a room in which a game was started and `es` was raised since. -/
structure Sequenced (es : List DomainEvent) (room : GameRoom) : Prop where
  /-- Both players have joined, so that no join can start the game again. -/
  full : room.playerCount ≥ 2
  /-- The rounds told of are all before the current one. -/
  rounds : ∃ k : Nat, completedRounds es = roundsUpTo k ∧ room.currentRound = k + 1
  /-- The last resolution may count one above the last round, and no further. -/
  counted : room.currentRound ≤ room.maxRounds + 1
  /-- While the game goes on the current round is one of its rounds. -/
  bounded : ¬ room.isOver → room.currentRound ≤ room.maxRounds
  /-- While the game goes on its end has not been told. -/
  undecided : ¬ room.isOver → verdicts es = []
  /-- No round is told of after the end. -/
  closed : completedRounds (sinceGameOver es) = []

/-- Before the end of the game nothing comes after it. -/
theorem sinceGameOver_append {es : List DomainEvent} (h : verdicts es = [])
    (es' : List DomainEvent) : sinceGameOver (es ++ es') = sinceGameOver es' := by
  refine List.dropWhile_append_of_pos fun e he => ?_
  rw [Option.isNone_iff_eq_none]
  exact List.filterMap_eq_nil_iff.mp h e he

/-- Moves and decisions are no end of the game. -/
theorem sinceGameOver_minor {es : List DomainEvent} (h : ∀ e ∈ es, e.isMinor = true) :
    sinceGameOver es = [] := by
  refine List.dropWhile_eq_nil_iff.mpr fun e he => ?_
  exact (Bool.and_eq_true_iff.mp (h e he)).2

/-! ## One turn

What a turn can do to the room is listed in `Does`; of its cases only two matter for the rounds, the
resolution, and the end by a player who stays away. -/

/-- Moves and decisions change neither the players nor the course of the game. -/
theorem Sequenced.minor {es es' : List DomainEvent} {room room' : GameRoom}
    (hseq : Sequenced es room) (hopen : ¬ room.isOver) (hminor : ∀ e ∈ es', e.isMinor = true)
    (hround : room'.currentRound = room.currentRound) (hmax : room'.maxRounds = room.maxRounds)
    (hplayers : room'.players = room.players) :
    Sequenced (es ++ es') room' where
  full := by
    rw [playerCount, hplayers]
    exact hseq.full
  rounds := by
    obtain ⟨k, hrounds, hk⟩ := hseq.rounds
    refine ⟨k, ?_, hround.trans hk⟩
    rw [completedRounds, List.filterMap_append]
    show completedRounds es ++ completedRounds es' = _
    rw [completedRounds_minor hminor, List.append_nil, hrounds]
  counted := by
    rw [hround, hmax]
    exact hseq.counted
  bounded _ := by
    rw [hround, hmax]
    exact hseq.bounded hopen
  undecided _ := by
    rw [verdicts, List.filterMap_append]
    show verdicts es ++ verdicts es' = _
    rw [hseq.undecided hopen, verdicts_minor hminor]
    rfl
  closed := by
    rw [sinceGameOver_append (hseq.undecided hopen), sinceGameOver_minor hminor]
    rfl

/-- A resolution ends the round that comes next. -/
theorem Sequenced.resolved {es : List DomainEvent} {room : GameRoom} (hseq : Sequenced es room)
    (hopen : ¬ room.isOver) (deadline : Time) :
    Sequenced (es ++ (sourceOrder.resolved room deadline).domainEvents)
      (sourceOrder.resolved room deadline) := by
  have hframe := resolved_frame sourceOrder room deadline
  have hphase := opened_phase (sourceOrder.closedRoom room) room.currentRound deadline
  have hbounded := hseq.bounded hopen
  obtain ⟨k, hrounds, hk⟩ := hseq.rounds
  -- Field by field: the round told of is the current one, and the current one is the next.
  refine ⟨?_, ⟨k + 1, ?_, ?_⟩, ?_, fun hgoes => ?_, fun hgoes => ?_, ?_⟩
  · rw [playerCount_resolved]
    exact hseq.full
  · rw [completedRounds, List.filterMap_append]
    show completedRounds es ++ completedRounds _ = _
    rw [completedRounds_resolved, hrounds, hk, roundsUpTo_succ]
  · rw [hframe.currentRound, hk]
    rfl
  · rw [hframe.currentRound, hframe.maxRounds]
    omega
  · -- the round that is opened is not above the last one
    have hends : ¬ (sourceOrder.closedRoom room).endsGame := by
      intro hends
      rw [if_pos hends] at hphase
      exact hgoes hphase
    have hlast : ¬ (sourceOrder.closedRoom room).currentRound >
        (sourceOrder.closedRoom room).maxRounds := fun hlast => hends (.inr hlast)
    rw [hframe.currentRound, hframe.maxRounds]
    exact Int.not_lt.mp hlast
  · have hends : ¬ (sourceOrder.closedRoom room).endsGame := by
      intro hends
      rw [if_pos hends] at hphase
      exact hgoes hphase
    rw [verdicts, List.filterMap_append]
    show verdicts es ++ verdicts _ = _
    rw [hseq.undecided hopen, verdicts_resolved, ProcessingOrder.following]
    simp only [if_neg hends]
    rfl
  · rw [sinceGameOver_append (hseq.undecided hopen), events_resolved]
    -- The round is told of before the end of the game, or before the start of the next round.
    rcases following_cases sourceOrder room deadline with ⟨e, he⟩ | ⟨e, he⟩
    · rw [he]
      rfl
    · rw [he]
      rfl

/-- **One turn** that does something to the room keeps the rounds in sequence. -/
theorem Sequenced.next {es : List DomainEvent} {h : Host} (hseq : Sequenced es h.room)
    (hquiet : h.room.domainEvents = []) {call : SessionCall} {room : GameRoom}
    (hdoes : Does h call room) : Sequenced (es ++ room.domainEvents) room := by
  -- After the end only a join could still do something, and the room is full.
  have hopen : ¬ h.room.isOver := by
    intro hover
    obtain ⟨_, _, -, hr, -⟩ := does_of_over hover hdoes
    exact absurd hseq.full (Nat.not_le_of_lt (joinRefusal_none hr))
  -- One case for each thing a turn can do to the room.
  cases hdoes with
  | join hr => exact absurd hseq.full (Nat.not_le_of_lt (joinRefusal_none hr))
  | move hconn hr =>
    refine hseq.minor hopen ?_ rfl rfl rfl
    rw [events_reserve hquiet]
    intro e he
    rw [List.mem_singleton.mp he]
    rfl
  | decide hconn hr =>
    obtain ⟨-, hround, hmax, -, hplayers⟩ := decideEncounter_frame h.room _ _ _
    exact hseq.minor hopen (events_decideEncounter_minor hquiet _ _ _).1 hround hmax hplayers
  | resolve hres =>
    obtain ⟨hphase, hround, hmax, hplayers⟩ := resolves_round hres
    have hready : Sequenced (es ++ []) _ := hseq.minor hopen (fun _ he => absurd he List.not_mem_nil)
      hround hmax hplayers
    rw [List.append_nil] at hready
    refine hready.resolved ?_ _
    rw [isOver, hphase]
    exact hopen
  | abandon hphase hwinner =>
    obtain ⟨k, hrounds, hk⟩ := hseq.rounds
    rw [events_forced hquiet]
    refine ⟨hseq.full, ⟨k, ?_, hk⟩, hseq.counted, fun hgoes => absurd rfl hgoes,
      fun hgoes => absurd rfl hgoes, ?_⟩
    · rw [completedRounds, List.filterMap_append]
      exact (List.append_nil _).trans hrounds
    · rw [sinceGameOver_append (hseq.undecided hopen)]
      rfl

/-- The events still in the room are no part of it. -/
theorem Sequenced.saved {es : List DomainEvent} {room : GameRoom} (hseq : Sequenced es room) :
    Sequenced es { room with domainEvents := [] } :=
  ⟨hseq.full, hseq.rounds, hseq.counted, hseq.bounded, hseq.undecided, hseq.closed⟩

/-! ## Runs

A turn publishes what it raised, so the events since the start are a suffix of those published; the
other steps of the servers publish nothing and leave the stored room alone. -/

/-- The events that were raised since the state `c₀`. -/
def Cluster.raisedSince (c₀ c : Cluster) : List DomainEvent :=
  (c.issued.drop c₀.issued.length).map (·.event)

/-- What holds of a cluster in which a game was started in the state `c₀`. -/
structure Playing (c₀ c : Cluster) : Prop where
  /-- What holds of every reachable cluster. -/
  consistent : Consistent c
  /-- Nothing that was published is taken back. -/
  since : c₀.issued.length ≤ c.issued.length
  /-- The number of rounds is fixed. -/
  maxRounds : c.room.maxRounds = c₀.room.maxRounds
  /-- And what was raised since is in sequence. -/
  sequenced : Sequenced (c₀.raisedSince c) c.room

/-- The events of a turn are published. -/
theorem raisedSince_save {c₀ c : Cluster} (hlen : c₀.issued.length ≤ c.issued.length) {id : String}
    {s : Server} (hs : ServerSound c.issued id s) {es : List DomainEvent} {h : Host}
    (ha : Announces es (s.host c.room) h) :
    c₀.raisedSince (c.save id s h) = c₀.raisedSince c ++ es := by
  have hpublished := published_of_turn hs ha
  have hevents : h.published.map (·.event) = es := by
    rw [hpublished, List.map_map]
    exact map_event_numberFrom _ _
  unfold Cluster.raisedSince
  show ((c.issued ++ h.published).drop c₀.issued.length).map _ = _
  rw [List.drop_append_of_le_length hlen, List.map_append, hevents]

/-- **One step** of the servers keeps the rounds in sequence. -/
theorem Playing.next {c₀ c : Cluster} (hp : Playing c₀ c) (planningTimeout : Time)
    (call : ClusterCall) : Playing c₀ (c.next planningTimeout call) := by
  have hc := hp.consistent
  have hnext := hc.next planningTimeout call
  by_cases hturn : ∃ id turn, call = .turn id turn
  · obtain ⟨id, turn, rfl⟩ := hturn
    show Playing c₀ (c.turn id turn)
    replace hnext : Consistent (c.turn id turn) := hnext
    rw [Cluster.turn] at hnext ⊢
    rcases hget : c.servers.get? id with _ | s
    · exact hp
    rw [hget] at hnext
    have hs := hc.servers id s hget
    have hgrows : ∀ h : Host, c₀.issued.length ≤ (c.save id s h).issued.length := by
      intro h
      show _ ≤ (c.issued ++ h.published).length
      rw [List.length_append]
      exact Nat.le_add_right_of_le hp.since
    rcases next_does (h := s.host c.room) hc.room hc.quiet turn with ⟨room, hdone⟩ | hidle
    · refine ⟨hnext, hgrows _, ?_, ?_⟩
      · show ((s.host c.room).next turn).room.maxRounds = _
        rw [hdone.saved]
        exact (does_maxRounds hdone.does).trans hp.maxRounds
      · rw [raisedSince_save hp.since hs hdone.turn.announces]
        show Sequenced _ ((s.host c.room).next turn).room
        rw [hdone.saved]
        exact (hp.sequenced.next (h := s.host c.room) hc.quiet hdone.does).saved
    · refine ⟨hnext, hgrows _, ?_, ?_⟩
      · show ((s.host c.room).next turn).room.maxRounds = _
        rw [hidle.kept]
        exact hp.maxRounds
      · rw [raisedSince_save hp.since hs hidle.turn.announces, List.append_nil]
        show Sequenced _ ((s.host c.room).next turn).room
        rw [hidle.kept]
        exact hp.sequenced
  · obtain ⟨hroom, hissued⟩ :=
      c.next_frame planningTimeout fun id turn heq => hturn ⟨id, turn, heq⟩
    refine ⟨hnext, ?_, ?_, ?_⟩
    · rw [hissued]
      exact hp.since
    · rw [hroom]
      exact hp.maxRounds
    · unfold Cluster.raisedSince
      rw [hroom, hissued]
      exact hp.sequenced

/-- A game has twenty rounds. -/
theorem maxRounds_of_reachable {roomId serverId : String} {planningTimeout : Time}
    {side : PlayerSide} {c : Cluster}
    (hreach : (clusters roomId serverId planningTimeout side).Reachable c) :
    Consistent c ∧ c.room.maxRounds = 20 := by
  refine hreach.invariant (I := fun c => Consistent c ∧ c.room.maxRounds = 20)
    ⟨consistent_initial _ _ _ _, (initialRoom_fields roomId).maxRounds⟩ ?_
  rintro c call ⟨hc, hmax⟩ -
  refine ⟨hc.next planningTimeout call, ?_⟩
  by_cases hturn : ∃ id turn, call = .turn id turn
  · obtain ⟨id, turn, rfl⟩ := hturn
    show (c.turn id turn).room.maxRounds = 20
    rw [Cluster.turn]
    rcases c.servers.get? id with _ | s
    · exact hmax
    show ((s.host c.room).next turn).room.maxRounds = 20
    rcases next_does (h := s.host c.room) hc.room hc.quiet turn with ⟨room, hdone⟩ | hidle
    · rw [hdone.saved]
      exact (does_maxRounds hdone.does).trans hmax
    · rw [hidle.kept]
      exact hmax
  · obtain ⟨hroom, -⟩ := c.next_frame planningTimeout fun id turn heq => hturn ⟨id, turn, heq⟩
    show (c.next planningTimeout call).room.maxRounds = 20
    rw [hroom]
    exact hmax

/-- A timeout changes nothing but a room in the planning phase of the round it was armed for. -/
theorem room_of_timeout {c : Cluster} (hc : Consistent c) (id : String) (forRound : Int) (now : Time)
    {call : SessionCall}
    (hcall : call = .planningTimeout forRound now ∨ call = .backupPlanningTimeout forRound now)
    (hchanged : (c.turn id call).room ≠ c.room) :
    c.room.phase = .planning ∧ c.room.currentRound = forRound := by
  rw [Cluster.turn] at hchanged
  rcases hget : c.servers.get? id with _ | s
  · rw [hget] at hchanged
    exact absurd rfl hchanged
  rw [hget] at hchanged
  replace hchanged : ((s.host c.room).next call).room ≠ c.room := hchanged
  rcases next_does (h := s.host c.room) hc.room hc.quiet call with ⟨room, hdone⟩ | hidle
  · rcases hcall with rfl | rfl
    · cases hdone.does with
      | resolve hres =>
        cases hres with
        | timeout hphase hround => exact ⟨hphase, hround⟩
    · cases hdone.does with
      | resolve hres =>
        cases hres with
        | backup hphase hround => exact ⟨hphase, hround⟩
  · exact absurd hidle.kept hchanged

/-- **The rounds of a game come in order.**  From a state in which the game has just started, whatever
    the players, the timers and the other servers do, the rounds that are told as resolved are
    1, 2, 3, ..., no more than the game has; none is told after the end of the game; and a timeout of
    a round changes nothing unless the room is still in the planning phase of that round. -/
theorem rounds_in_sequence {roomId serverId : String} {planningTimeout : Time} {side : PlayerSide}
    {c₀ : Cluster} (hreach : (clusters roomId serverId planningTimeout side).Reachable c₀)
    (hphase : c₀.room.phase = .planning) (hround : c₀.room.currentRound = 1)
    (calls : List ClusterCall) :
    let c := (clusters roomId serverId planningTimeout side).after c₀ calls
    (∃ k : Nat, completedRounds (c₀.raisedSince c) = roundsUpTo k ∧
      (k : Int) ≤ c₀.room.maxRounds) ∧
      completedRounds (sinceGameOver (c₀.raisedSince c)) = [] ∧
      ∀ id forRound now call,
        call = .planningTimeout forRound now ∨ call = .backupPlanningTimeout forRound now →
          (c.turn id call).room ≠ c.room →
            c.room.phase = .planning ∧ c.room.currentRound = forRound := by
  intro c
  obtain ⟨hc, hmax⟩ := maxRounds_of_reachable hreach
  have hnone : c₀.raisedSince c₀ = [] := by
    rw [Cluster.raisedSince, List.drop_length, List.map_nil]
  -- At the start nothing was raised, and the first of the rounds is being planned.
  have hstart : Playing c₀ c₀ := by
    refine ⟨hc, Nat.le_refl _, rfl, ?_⟩
    rw [hnone]
    refine ⟨Nat.not_lt.mp (hc.room.sound.full hphase), ⟨0, rfl, hround⟩, ?_, fun _ => ?_,
      fun _ => rfl, rfl⟩
    · rw [hround, hmax]
      decide
    · rw [hround, hmax]
      decide
  -- Every step keeps it, so it holds after the whole run.
  have hplaying : Playing c₀ c :=
    Machine.after_of_invariant (C := fun _ _ => True) (fun _ call hp _ => hp.next planningTimeout call)
      hstart (Machine.steps_of_forall (fun _ _ => trivial) _ _)
  refine ⟨?_, hplaying.sequenced.closed, ?_⟩
  · obtain ⟨k, hrounds, hk⟩ := hplaying.sequenced.rounds
    have hcounted := hplaying.sequenced.counted
    rw [hplaying.maxRounds] at hcounted
    exact ⟨k, hrounds, by omega⟩
  · intro id forRound now call hcall hchanged
    exact room_of_timeout hplaying.consistent id forRound now hcall hchanged

/-- Two players on one server. -/
def pairedCalls : List ClusterCall :=
  [.turn "s1" (.addPlayer ⟨"alice"⟩ 0), .turn "s1" (.addPlayer ⟨"bob"⟩ 5)]

/-- A second server joins in; the owner's timer fires, then the backup timer of the first round, late,
    and then that of the second round. -/
theorem rounds_in_sequence_opening :
    let c₀ := pair.after pair.start pairedCalls
    let c := pair.after c₀ [.hydrate "s2", .turn "s1" (.planningTimeout 1 30000),
      .turn "s2" (.backupPlanningTimeout 1 35000), .turn "s2" (.backupPlanningTimeout 2 65000)]
    (c₀.room.phase = .planning ∧ c₀.room.currentRound = 1 ∧
      completedRounds (c₀.raisedSince c) = [1, 2]) ∧
    ((∃ k : Nat, completedRounds (c₀.raisedSince c) = roundsUpTo k ∧
        (k : Int) ≤ c₀.room.maxRounds) ∧
      completedRounds (sinceGameOver (c₀.raisedSince c)) = [] ∧
      ∀ id forRound now call,
        call = .planningTimeout forRound now ∨ call = .backupPlanningTimeout forRound now →
          (c.turn id call).room ≠ c.room →
            c.room.phase = .planning ∧ c.room.currentRound = forRound) := by
  intro c₀ c
  have hreach : pair.Reachable c₀ :=
    ⟨pairedCalls, Machine.steps_of_forall (fun _ _ => trivial) _ _, rfl⟩
  have hfacts : c₀.room.phase = .planning ∧ c₀.room.currentRound = 1 ∧
      completedRounds (c₀.raisedSince c) = [1, 2] := by
    decide +kernel
  exact ⟨hfacts, rounds_in_sequence hreach hfacts.1 hfacts.2.1 _⟩

end HexWar
