/-
  What a step does to the servers of a room.

  A step touches the session of one server at most: it is new, or it has taken a turn, or a message of
  another server has reached it (`server_next`).  Only a turn puts messages on their way, and only a
  delivery takes one off (`inFlight_next`).

  Three questions are answered for every step of a cluster, one section each:

  1. Which server does it change?  The step is looked at from a server `k`: `get?_turn`, `get?_deliver`,
     `get?_hydrate` and `get?_disconnect` say what is found under `k` after it.
  2. What has happened to the session there?  `Touched` has one constructor for each answer, and the
     invariants about sessions are proved by cases on it.
  3. Which messages are on their way?  They are put there by turns and taken off by deliveries, and what
     a turn puts there it has raised.

  The last section is about the session alone: what it makes of a message that opens a round, and of one
  that does not.
-/
import HexWar.Session.Aftermath
import HexWar.Session.Finality

namespace HexWar

open Lib Lib.Action GameRoom

variable {c : Cluster} {planningTimeout : Time}

/-! ## Turns that are carried out

A turn on a server that is not there does nothing, and neither does one that is refused.  The others
raise an event. -/

/-- Does a call find what it needs, so that an event is raised? -/
def Cluster.carriesOut (c : Cluster) : ClusterCall → Bool
  | .turn id call => (c.servers.get? id).any fun s => (s.host c.room).raises call
  | .hydrate _ | .deliver _ _ | .connect _ | .disconnect => false

/-- On a server that is there, the call raises an event. -/
theorem carriesOut_iff {id : String} {s : Server} (hget : c.servers.get? id = some s)
    (call : SessionCall) :
    c.carriesOut (.turn id call) = true ↔ (s.host c.room).raises call = true := by
  rw [Cluster.carriesOut, hget, Option.any_some]

/-! ## Servers

The dictionary of servers after a step.  A step that fails, because there is no such server or no
such message, leaves it as it is. -/

/-- A turn changes the server that it runs on. -/
theorem get?_turn (c : Cluster) (id k : String) (call : SessionCall) :
    (c.turn id call).servers.get? k =
      if id = k then (c.servers.get? id).map fun s =>
        s.processing ((s.host c.room).next call) ((s.host c.room).next call).published
      else c.servers.get? k := by
  rw [Cluster.turn]
  rcases hget : c.servers.get? id with _ | s
  · exact get?_absent hget k
  · exact get?_commit c id k s _ _

/-- A message changes nothing on the servers that it is not for. -/
theorem get?_deliver (c : Cluster) {index : Nat} {now : Time} {d : String × DistributedEventMessage}
    (hflight : c.inFlight[index]? = some d) {k : String} (hne : k ≠ d.1) :
    (c.deliver index now).servers.get? k = c.servers.get? k := by
  rw [Cluster.deliver, hflight]
  show (Cluster.receives _ d.1 d.2 now).servers.get? k = _
  rw [Cluster.receives]
  split
  · rfl
  · exact (get?_commit _ d.1 k _ _ _).trans (if_neg hne.symm)

/-- On the server that it is for it is processed, unless the server has published it itself. -/
theorem get?_deliver_target (c : Cluster) {index : Nat} {now : Time} {id : String}
    {m : DistributedEventMessage} (hflight : c.inFlight[index]? = some (id, m)) :
    (c.deliver index now).servers.get? id = (c.servers.get? id).map fun s =>
      s.processing (after (handleRemoteEvent m now) (s.host c.room))
        (if m.sourceServerId = s.session.serverId then [] else [m]) := by
  let rest : Cluster := { c with inFlight := c.inFlight.eraseIdx index }
  rw [Cluster.deliver, hflight]
  show (rest.receives id m now).servers.get? id = _
  rw [Cluster.receives]
  rcases hget : c.servers.get? id with _ | s
  · exact hget
  · exact (get?_commit rest id id s _ _).trans (if_pos rfl)

/-- Without a message nothing arrives. -/
theorem deliver_none (c : Cluster) {index : Nat} (hflight : c.inFlight[index]? = none) (now : Time) :
    c.deliver index now = c := by
  rw [Cluster.deliver, hflight]

/-- Whom a client leaves goes on as it was. -/
theorem get?_disconnect {k : String} {t : Server} (hk : c.disconnect.servers.get? k = some t) :
    ∃ s, c.servers.get? k = some s ∧ t.session = s.session ∧ t.processed = s.processed := by
  rw [Cluster.disconnect] at hk
  split at hk
  · exact ⟨t, hk, rfl, rfl⟩
  · replace hk : _ = some t := (Dict.get?_mapValues _ _ _).symm.trans hk
    obtain ⟨s, hget, rfl⟩ := Option.map_eq_some_iff.mp hk
    exact ⟨s, hget, rfl, rfl⟩

/-- The servers stay where they are when another one looks the room up. -/
theorem get?_hydrate {k : String} {s : Server} (hk : c.servers.get? k = some s) (id : String) :
    (c.hydrate planningTimeout id).servers.get? k = some s := by
  rw [Cluster.hydrate]
  rcases hget : c.servers.get? id with _ | s'
  · refine (Dict.get?_set _ _ _ _).trans ?_
    -- the new server is not `k`, since there is none of its name yet
    rw [if_neg]
    · exact hk
    · rintro rfl
      rw [hget] at hk
      cases hk
  · exact hk

/-- No step takes a server away. -/
theorem get?_next {k : String} {s : Server} (hk : c.servers.get? k = some s) (planningTimeout : Time)
    (call : ClusterCall) : ∃ t, (c.next planningTimeout call).servers.get? k = some t := by
  cases call with
  | hydrate id => exact ⟨s, get?_hydrate hk id⟩
  | connect id =>
    show ∃ t, (c.connect planningTimeout id).servers.get? k = some t
    rw [Cluster.connect]
    split
    · exact ⟨s, hk⟩
    · exact ⟨s, get?_hydrate hk id⟩
  | disconnect =>
    show ∃ t, c.disconnect.servers.get? k = some t
    rw [Cluster.disconnect]
    split
    · exact ⟨s, hk⟩
    · exact ⟨_, (Dict.get?_mapValues _ _ _).trans (congrArg (Option.map _) hk)⟩
  | turn id turn =>
    show ∃ t, (c.turn id turn).servers.get? k = some t
    rw [get?_turn]
    split
    · rename_i heq
      subst heq
      exact ⟨_, congrArg (Option.map _) hk⟩
    · exact ⟨s, hk⟩
  | deliver index now =>
    show ∃ t, (c.deliver index now).servers.get? k = some t
    rcases hflight : c.inFlight[index]? with _ | ⟨id, m⟩
    · rw [deliver_none c hflight]
      exact ⟨s, hk⟩
    · by_cases hid : k = id
      · subst hid
        rw [get?_deliver_target c hflight]
        exact ⟨_, congrArg (Option.map _) hk⟩
      · rw [get?_deliver c hflight hid]
        exact ⟨s, hk⟩

/-! ## Sessions

The sessions of the cluster after a step, one at a time. -/

/-- How the session of a server comes out of a step. -/
inductive Touched (planningTimeout : Time) (c : Cluster) :
    ClusterCall → String → GameSession → Prop where
  /-- Untouched; what it has published itself may have come back to it. -/
  | kept {call : ClusterCall} {id : String} {s : Server} (hget : c.servers.get? id = some s)
      (hturn : ∀ turn, call ≠ .turn id turn)
      (hown : ∀ index now m, call = .deliver index now → c.inFlight[index]? = some (id, m) →
        m.sourceServerId = id) :
      Touched planningTimeout c call id s.session
  /-- The server has looked the room up for the first time, of its own accord or for a client. -/
  | hydrated {call : ClusterCall} {id : String} (hget : c.servers.get? id = none)
      (hcall : (∃ id, call = .hydrate id) ∨ ∃ id, call = .connect id) :
      Touched planningTimeout c call id (GameSession.new c.room.roomId id true planningTimeout)
  /-- The turn of the step has run on it. -/
  | turned {id : String} {turn : SessionCall} {s : Server} (hget : c.servers.get? id = some s) :
      Touched planningTimeout c (.turn id turn) id ((s.host c.room).next turn).session
  /-- A message of another server has reached it: the session follows the message and buffers its
      event. -/
  | delivered {index : Nat} {now : Time} {id : String} {m : DistributedEventMessage} {s : Server}
      (hflight : c.inFlight[index]? = some (id, m)) (hget : c.servers.get? id = some s)
      (hother : m.sourceServerId ≠ id) :
      Touched planningTimeout c (.deliver index now) id
        ((s.session.aligned m now).keep m.buffered)

/-- Looking the room up makes a new session where there is none. -/
theorem Touched.hydrate {call : ClusterCall}
    (hcall : (∃ id, call = .hydrate id) ∨ ∃ id, call = .connect id)
    {id k : String} {t : Server} (hk : (c.hydrate planningTimeout id).servers.get? k = some t) :
    Touched planningTimeout c call k t.session := by
  have hquiet : (∀ turn, call ≠ .turn k turn) ∧
      ∀ index now m, call = .deliver index now → c.inFlight[index]? = some (k, m) →
        m.sourceServerId = k := by
    rcases hcall with ⟨i, rfl⟩ | ⟨i, rfl⟩
    · exact ⟨fun _ heq => by (cases heq), fun _ _ _ heq => by (cases heq)⟩
    · exact ⟨fun _ heq => by (cases heq), fun _ _ _ heq => by (cases heq)⟩
  rw [Cluster.hydrate] at hk
  rcases hget : c.servers.get? id with _ | s
  · rw [hget] at hk
    replace hk : _ = some t := (Dict.get?_set _ _ _ _).symm.trans hk
    split at hk
    · rename_i heq
      cases hk
      subst heq
      exact .hydrated hget hcall
    · exact .kept hk hquiet.1 hquiet.2
  · rw [hget] at hk
    exact .kept hk hquiet.1 hquiet.2

/-- **A step touches the session of one server at most.** -/
theorem server_next (hc : Consistent c) {call : ClusterCall} {k : String} {t : Server}
    (hk : (c.next planningTimeout call).servers.get? k = some t) :
    Touched planningTimeout c call k t.session := by
  cases call with
  | hydrate id => exact Touched.hydrate (.inl ⟨id, rfl⟩) hk
  | connect id =>
    replace hk : (c.connect planningTimeout id).servers.get? k = some t := hk
    rw [Cluster.connect] at hk
    split at hk
    · exact .kept hk (fun _ heq => by cases heq) fun _ _ _ heq => by cases heq
    · exact Touched.hydrate (.inr ⟨id, rfl⟩) hk
  | disconnect =>
    obtain ⟨s, hget, hsession, -⟩ := get?_disconnect hk
    rw [hsession]
    exact .kept hget (fun _ heq => by cases heq) fun _ _ _ heq => by cases heq
  | turn id turn =>
    replace hk : (c.turn id turn).servers.get? k = some t := hk
    rw [get?_turn] at hk
    split at hk
    · rename_i heq
      subst heq
      obtain ⟨s, hget, rfl⟩ := Option.map_eq_some_iff.mp hk
      exact .turned hget
    · rename_i hne
      refine .kept hk (fun u heq => ?_) fun _ _ _ heq => by cases heq
      cases heq
      exact hne rfl
  | deliver index now =>
    replace hk : (c.deliver index now).servers.get? k = some t := hk
    rcases hflight : c.inFlight[index]? with _ | ⟨id, m⟩
    · rw [deliver_none c hflight] at hk
      refine .kept hk (fun _ heq => by cases heq) fun i n m' heq hm' => ?_
      cases heq
      rw [hflight] at hm'
      cases hm'
    by_cases hid : k = id
    · -- the message is for this server
      subst hid
      rw [get?_deliver_target c hflight] at hk
      obtain ⟨s, hget, rfl⟩ := Option.map_eq_some_iff.mp hk
      have hserver := (hc.servers k s hget).serverId
      rw [after_handleRemoteEvent, show (s.host c.room).session.serverId = k from hserver]
      -- a server throws away what it has published itself
      by_cases hown : m.sourceServerId = k
      · rw [if_pos hown]
        refine .kept (s := s) hget (fun _ heq => by cases heq) fun i n m' heq hm' => ?_
        cases heq
        rw [hflight] at hm'
        cases hm'
        exact hown
      · rw [if_neg hown]
        exact .delivered hflight hget hown
    · rw [get?_deliver c hflight hid] at hk
      refine .kept hk (fun _ heq => by cases heq) fun i n m' heq hm' => ?_
      cases heq
      rw [hflight] at hm'
      cases hm'
      exact absurd rfl hid

/-! ## Messages

What is on its way: a list of pairs of a server and a message.  A message that a turn publishes is
put there once for every server there is, the one it comes from included. -/

/-- What is on its way stays so, unless it is delivered. -/
theorem inFlight_next {d : String × DistributedEventMessage} (hd : d ∈ c.inFlight)
    {call : ClusterCall} (hstay : ∀ index now, call = .deliver index now →
      c.inFlight[index]? ≠ some d) :
    d ∈ (c.next planningTimeout call).inFlight := by
  cases call with
  | hydrate id =>
    show d ∈ (c.hydrate planningTimeout id).inFlight
    rw [Cluster.hydrate]
    split <;> exact hd
  | connect id =>
    show d ∈ (c.connect planningTimeout id).inFlight
    rw [Cluster.connect, Cluster.hydrate]
    split
    · exact hd
    · split <;> exact hd
  | disconnect =>
    show d ∈ c.disconnect.inFlight
    rw [Cluster.disconnect]
    split <;> exact hd
  | turn id turn =>
    show d ∈ (c.turn id turn).inFlight
    rw [Cluster.turn]
    split
    · exact hd
    · exact List.mem_append_left _ hd
  | deliver index now =>
    show d ∈ (c.deliver index now).inFlight
    rw [Cluster.deliver]
    split
    · exact hd
    · rename_i id m hflight
      have hrest : d ∈ c.inFlight.eraseIdx index := by
        -- it stands at another place than the one that is delivered
        obtain ⟨i, hi⟩ := List.mem_iff_getElem?.mp hd
        refine List.mem_eraseIdx_iff_getElem?.mpr ⟨i, ?_, hi⟩
        rintro rfl
        exact hstay _ now rfl hi
      rw [Cluster.receives]
      split <;> exact hrest

/-- What a turn has published is on its way to every server. -/
theorem inFlight_turn {id : String} {s : Server} (hget : c.servers.get? id = some s)
    (turn : SessionCall) {m : DistributedEventMessage}
    (hm : m ∈ ((s.host c.room).next turn).published) {k : String} {t : Server}
    (hk : c.servers.get? k = some t) : (k, m) ∈ (c.turn id turn).inFlight := by
  rw [turn_eq hget]
  refine List.mem_append_right _ (List.mem_flatMap.mpr ⟨m, hm, ?_⟩)
  refine List.mem_map.mpr ⟨k, ?_, rfl⟩
  exact List.mem_map.mpr ⟨(k, t), Dict.mem_iff_get?.mpr hk, rfl⟩

/-- **What is on its way was so before, or has just been published.** -/
theorem mem_inFlight_next {d : String × DistributedEventMessage} {call : ClusterCall}
    (hd : d ∈ (c.next planningTimeout call).inFlight) : d ∈ c.inFlight ∨
      ∃ id turn s, call = .turn id turn ∧ c.servers.get? id = some s ∧
        d.2 ∈ ((s.host c.room).next turn).published ∧ ∃ t, c.servers.get? d.1 = some t := by
  cases call with
  | hydrate id =>
    replace hd : d ∈ (c.hydrate planningTimeout id).inFlight := hd
    rw [Cluster.hydrate] at hd
    split at hd <;> exact .inl hd
  | connect id =>
    replace hd : d ∈ (c.connect planningTimeout id).inFlight := hd
    rw [Cluster.connect, Cluster.hydrate] at hd
    split at hd
    · exact .inl hd
    · split at hd <;> exact .inl hd
  | disconnect =>
    replace hd : d ∈ c.disconnect.inFlight := hd
    rw [Cluster.disconnect] at hd
    split at hd <;> exact .inl hd
  | turn id turn =>
    replace hd : d ∈ (c.turn id turn).inFlight := hd
    rw [Cluster.turn] at hd
    rcases hget : c.servers.get? id with _ | s
    · rw [hget] at hd
      exact .inl hd
    rw [hget] at hd
    rcases List.mem_append.mp hd with hold | hnew
    · exact .inl hold
    · obtain ⟨m, hm, hmem⟩ := List.mem_flatMap.mp hnew
      obtain ⟨k, hk, rfl⟩ := List.mem_map.mp hmem
      obtain ⟨⟨_, t⟩, he, rfl⟩ := List.mem_map.mp hk
      exact .inr ⟨id, turn, s, rfl, hget, hm, t, Dict.mem_iff_get?.mp he⟩
  | deliver index now =>
    replace hd : d ∈ (c.deliver index now).inFlight := hd
    rw [Cluster.deliver] at hd
    split at hd
    · exact .inl hd
    · rw [Cluster.receives] at hd
      split at hd <;> exact .inl (List.mem_of_mem_eraseIdx hd)

/-- What a resolving turn announces. -/
theorem announces_of_resolves {h : Host} (hroom : InSession h.room) {call : SessionCall}
    {room : GameRoom} {now : Time} (hres : Resolves h call room now) :
    Announces (sourceOrder.resolved room (now + h.session.planningTimeout)).domainEvents h
      (h.next call) := by
  obtain ⟨hnext, hin, hready⟩ := next_of_resolves hroom hres
  let before : Host := { h.synced with room := room }
  have hbefore : Announces [] h before := Announces.of_same ⟨rfl, rfl, rfl, rfl, rfl⟩ rfl rfl
  have hturn := @Turn.resolvedRound before room h.session.planningTimeout rfl rfl hin hready now now
  rw [hnext]
  exact (Turn.preceded hbefore hturn.then_synced).announces

/-- A turn that resolves a round tells the other servers that it is over. -/
theorem published_of_resolves {s : Server} {room : GameRoom} {issued : List DistributedEventMessage}
    {id : String} (hs : ServerSound issued id s) (hroom : InSession room) {call : SessionCall}
    {ready : GameRoom} {now : Time} (hres : Resolves (s.host room) call ready now) :
    ∃ m ∈ ((s.host room).next call).published, m.sourceServerId = id ∧
      m.event = .roundResolved (sourceOrder.summary ready) := by
  rw [published_of_turn hs (announces_of_resolves (h := s.host room) hroom hres), events_resolved]
  exact ⟨_, List.mem_cons_self, rfl, rfl⟩

/-- What a turn has published, it has raised. -/
theorem mem_published {s : Server} {room : GameRoom} {issued : List DistributedEventMessage}
    {id : String} (hs : ServerSound issued id s) (hroom : InSession room)
    (hquiet : room.domainEvents = []) {turn : SessionCall} {m : DistributedEventMessage}
    (hm : m ∈ ((s.host room).next turn).published) :
    ∃ room', Done (s.host room) turn room' ∧ m.event ∈ room'.domainEvents ∧
      m.sourceServerId = id := by
  rcases next_does (h := s.host room) hroom hquiet turn with ⟨room', hdone⟩ | hidle
  · rw [published_of_turn hs hdone.turn.announces] at hm
    obtain ⟨b, hb, rfl⟩ := List.mem_map.mp hm
    refine ⟨room', hdone, ?_, rfl⟩
    have hmem : b.event ∈ (numberFrom s.session.eventSequence room'.domainEvents).map (·.event) :=
      List.mem_map.mpr ⟨b, hb, rfl⟩
    rw [map_event_numberFrom] at hmem
    exact hmem
  · rw [published_of_turn hs hidle.turn.announces] at hm
    cases hm

/-- **An event of another server is processed when its message arrives.** -/
theorem processed_next (hc : Consistent c) {call : ClusterCall} {k : String} {t : Server}
    (hk : (c.next planningTimeout call).servers.get? k = some t) {m : DistributedEventMessage}
    (hm : m ∈ t.processed) (hother : m.sourceServerId ≠ k) :
    (∃ s, c.servers.get? k = some s ∧ m ∈ s.processed) ∨
      ∃ index now, call = .deliver index now ∧ c.inFlight[index]? = some (k, m) := by
  -- a new session has processed nothing
  have hnew : ∀ {id : String}, (c.hydrate planningTimeout id).servers.get? k = some t →
      ∃ s, c.servers.get? k = some s ∧ m ∈ s.processed := by
    intro id hk
    rw [Cluster.hydrate] at hk
    split at hk
    · exact ⟨t, hk, hm⟩
    · replace hk : _ = some t := (Dict.get?_set _ _ _ _).symm.trans hk
      split at hk
      · cases hk
        cases hm
      · exact ⟨t, hk, hm⟩
  cases call with
  | hydrate id => exact .inl (hnew hk)
  | connect id =>
    replace hk : (c.connect planningTimeout id).servers.get? k = some t := hk
    rw [Cluster.connect] at hk
    split at hk
    · exact .inl ⟨t, hk, hm⟩
    · exact .inl (hnew hk)
  | disconnect =>
    obtain ⟨s, hget, -, hprocessed⟩ := get?_disconnect hk
    rw [hprocessed] at hm
    exact .inl ⟨s, hget, hm⟩
  | turn id turn =>
    replace hk : (c.turn id turn).servers.get? k = some t := hk
    rw [get?_turn] at hk
    split at hk
    · rename_i heq
      subst heq
      obtain ⟨s, hget, rfl⟩ := Option.map_eq_some_iff.mp hk
      rcases List.mem_append.mp hm with hold | hpublished
      · exact .inl ⟨s, hget, hold⟩
      -- what its own turn publishes has this server as its source
      · obtain ⟨-, -, -, hsource⟩ := mem_published (hc.servers id s hget) hc.room hc.quiet hpublished
        exact absurd hsource hother
    · exact .inl ⟨t, hk, hm⟩
  | deliver index now =>
    replace hk : (c.deliver index now).servers.get? k = some t := hk
    rcases hflight : c.inFlight[index]? with _ | ⟨id, m'⟩
    · rw [deliver_none c hflight] at hk
      exact .inl ⟨t, hk, hm⟩
    by_cases hid : k = id
    · subst hid
      rw [get?_deliver_target c hflight] at hk
      obtain ⟨s, hget, rfl⟩ := Option.map_eq_some_iff.mp hk
      rcases List.mem_append.mp hm with hold | hreceived
      · exact .inl ⟨s, hget, hold⟩
      · split at hreceived
        · cases hreceived
        · cases List.mem_singleton.mp hreceived
          exact .inr ⟨index, now, rfl, hflight⟩
    · rw [get?_deliver c hflight hid] at hk
      exact .inl ⟨t, hk, hm⟩

/-- The room after a turn on a server. -/
theorem left_turn (hc : Consistent c) {id : String} {s : Server} (hget : c.servers.get? id = some s)
    (turn : SessionCall) : ∃ room session, Leaves (s.host c.room) turn room session ∧
      (c.turn id turn).room = room ∧
      ((s.host c.room).next turn).session.bare = session.bare := by
  obtain ⟨room, session, hl⟩ := next_leaves (h := s.host c.room) hc.room turn
  refine ⟨room, session, hl.leaves, ?_, hl.session⟩
  rw [turn_eq hget]
  exact hl.room

/-! ## Messages that open a round

RoundResolved, RoundStarted and GameStarted all lead to StartPlanningTimer, for the round that they
name, after the session has noted who owns the room. -/

/-- What a session makes of a message that opens round `r`. -/
structure Opens (s s' : GameSession) (m : DistributedEventMessage) (r : Int) : Prop where
  /-- Whoever has opened the round is taken for the owner from now on. -/
  owner : s'.ownerServerId = some m.sourceServerId
  /-- The session is in the round. -/
  current : s'.currentRound = r
  /-- Its timer, whichever it is, is for the round. -/
  round : s'.planningTimerRound = r
  /-- The timer is started, unless it runs for this round already. -/
  timer : s'.timer = some (if m.sourceServerId = s.serverId then .planning else .backupPlanning) ∨
    s.planningTimerRound = r ∧ s'.timer = s.timer

/-- The event itself is buffered after that. -/
theorem Opens.keep {s s' : GameSession} {m : DistributedEventMessage} {r : Int} (h : Opens s s' m r)
    (e : BufferedEvent) : Opens s (s'.keep e) m r := ⟨h.owner, h.current, h.round, h.timer⟩

/-- StartPlanningTimer, called by a session that has noted the owner and the round. -/
theorem opens_startPlanningTimer {s t : GameSession} {m : DistributedEventMessage}
    (howner : t.ownerServerId = some m.sourceServerId) (hserver : t.serverId = s.serverId)
    (hround : t.planningTimerRound = s.planningTimerRound) (htimer : t.timer = s.timer) {r : Int}
    (hcurrent : t.currentRound = r) (deadline : Option Time) (now : Time) :
    Opens s (t.startPlanningTimer r deadline now) m r := by
  rw [GameSession.startPlanningTimer]
  split
  · rename_i hruns
    exact ⟨howner, hcurrent, hruns.1, .inr ⟨hround.symm.trans hruns.1, htimer⟩⟩
  · refine ⟨howner, hcurrent, rfl, .inl ?_⟩
    show some (if _ then _ else _) = _
    simp only [howner, hserver, Option.some.injEq]

/-- The three events that open a round are handled alike, but for where the round is read from. -/
theorem opens_aligned (s : GameSession) {m : DistributedEventMessage} {r : Int}
    (hopens : m.event.opensRound = some r) (now : Time) : Opens s (s.aligned m now) m r := by
  rw [GameSession.aligned]
  split
  · rename_i resolved hevent
    rw [hevent] at hopens
    cases hopens
    refine opens_startPlanningTimer ?_ ?_ ?_ ?_ ?_ _ _ <;> rfl
  · rename_i started hevent
    rw [hevent] at hopens
    cases hopens
    refine opens_startPlanningTimer ?_ ?_ ?_ ?_ ?_ _ _ <;> rfl
  · rename_i started hevent
    rw [hevent] at hopens
    cases hopens
    refine opens_startPlanningTimer ?_ ?_ ?_ ?_ ?_ _ _ <;> rfl
  · rename_i e hevent
    rw [hevent] at hopens
    cases hopens
  -- no other event opens one
  · rename_i hno hno' hno'' _
    exfalso
    cases hevent : m.event with
    | roundResolved e => exact hno e hevent
    | roundStarted e => exact hno' e hevent
    | gameStarted e => exact hno'' e hevent
    | gameOver _ | unitsDeparted _ | unitsRetreated _ | unitsAdvanced _ | encounterOccurred _
    | encounterDecisionMade _ | encounterResolved _ =>
      rw [hevent] at hopens
      cases hopens

/-- A message that opens no round leaves the timer alone, or stops it if the game is over. -/
structure Quiet (s s' : GameSession) (m : DistributedEventMessage) : Prop where
  owner : s'.ownerServerId = s.ownerServerId
  current : s'.currentRound = s.currentRound
  timer : m.event.asGameOver = none ∧ s'.planningTimerRound = s.planningTimerRound ∧
      s'.timer = s.timer ∨ m.event.asGameOver.isSome = true ∧ s'.planningTimerRound = -1

/-- An event that opens no round; the end of the game is the one that still concerns the timer. -/
theorem quiet_aligned (s : GameSession) {m : DistributedEventMessage}
    (hquiet : m.event.opensRound = none) (now : Time) : Quiet s (s.aligned m now) m := by
  rw [GameSession.aligned]
  split
  · rename_i e hevent
    rw [hevent] at hquiet
    cases hquiet
  · rename_i e hevent
    rw [hevent] at hquiet
    cases hquiet
  · rename_i e hevent
    rw [hevent] at hquiet
    cases hquiet
  · rename_i e hevent
    refine ⟨rfl, rfl, .inr ⟨?_, rfl⟩⟩
    rw [hevent]
    rfl
  · rename_i hno
    refine ⟨rfl, rfl, .inl ⟨?_, rfl, rfl⟩⟩
    rw [DomainEvent.asGameOver]
    exact hno

end HexWar
