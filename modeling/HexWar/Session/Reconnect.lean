/-
  When a reconnection loses nothing.

  The numbers a server has given out are exactly those up to its counter (`ServerSound.numbers`), on
  every server.  So as soon as two servers raise events, number 1 is used twice; and a client that
  has seen number 7 of one server asks the other for what comes after 7, whatever that one has
  raised under smaller numbers since.

  `reconnect_lossless_iff` turns this round: a run keeps every number unique and every reconnection
  lossless exactly if all its steps keep the numbers in order (`Cluster.InOrder`).  The buffer of a
  server is the end of what it has processed (`ServerSound.items`), so that a reconnection is
  lossless exactly if the events since carry numbers above the client's last one
  (`lossless_iff_ahead`); the rest is what one step does to these numbers.

  The plan of the module:

  1. `Consistent`, which every step keeps, whatever the numbers: where the messages come from, what the
     buffers hold, which numbers each server has given out.
  2. `Cluster.Ahead`: the property that a step can break, said of numbers instead of buffers.
  3. One step: for each kind of call, both properties hold afterwards exactly if the call was in order.
     A turn that raises something needs all earlier events to be its server's own; a delivery needs a
     number above the client's, where the client is concerned.
  4. Runs: by `Machine.visited_iff` the equivalence goes on from one step to all of them.
-/
import HexWar.Session.Cluster

namespace HexWar

open Lib Lib.Action

/-! ## The invariant

Two levels: a server with its buffer and its counter, and the cluster with its messages. -/

/-- What holds of a server with a given id, when the messages `issued` have been published. -/
structure ServerSound (issued : List DistributedEventMessage) (id : String) (s : Server) : Prop where
  /-- Every server is found under its own name, -/
  serverId : s.session.serverId = id
  /-- and publishes what it raises. -/
  publisher : s.session.hasEventPublisher = true
  size : s.session.eventBuffer.capacity = GameSession.eventBufferSize
  /-- The buffer is the end of what was processed. -/
  items : s.session.eventBuffer.items =
    (s.processed.map (·.buffered)).rtake GameSession.eventBufferSize
  /-- The mark of the client's leaving lies in what was processed. -/
  leftAt : s.leftAt ≤ s.processed.length
  /-- A server processes nothing that nobody has published. -/
  processed : ∀ m ∈ s.processed, m ∈ issued
  counter : 0 ≤ s.session.eventSequence
  /-- The numbers the server has given out. -/
  numbers : ∀ n, (∃ m ∈ issued, m.sourceServerId = id ∧ m.sequenceNumber = n) ↔
    0 < n ∧ n ≤ s.session.eventSequence

/-- What holds of a cluster between two steps. -/
structure Consistent (c : Cluster) : Prop where
  room : InSession c.room
  quiet : c.room.domainEvents = []
  servers : ∀ id s, c.servers.get? id = some s → ServerSound c.issued id s
  /-- Whoever has published something is still there. -/
  source : ∀ m ∈ c.issued, ∃ s, c.servers.get? m.sourceServerId = some s
  /-- What is on its way was published. -/
  inFlight : ∀ d ∈ c.inFlight, d.2 ∈ c.issued
  /-- The client's number is one of the room. -/
  seen : c.client.lastSeenSequence = 0 ∨
    ∃ m ∈ c.issued, m.sequenceNumber = c.client.lastSeenSequence

/-! ### What a server processes -/

namespace ServerSound

variable {issued issued' ms : List DistributedEventMessage} {id : String} {s : Server} {h : Host}

/-- What is processed while the client is away is added to what it has missed. -/
theorem since_processing (hs : ServerSound issued id s) (h : Host)
    (ms : List DistributedEventMessage) : (s.processing h ms).since = s.since ++ ms :=
  List.drop_append_of_le_length hs.leftAt

/-- What was processed since is in the buffer, if it is not too much. -/
theorem mem_items (hs : ServerSound issued id s)
    (hlen : s.since.length ≤ GameSession.eventBufferSize) {m : DistributedEventMessage}
    (hm : m ∈ s.since) : m.buffered ∈ s.session.eventBuffer.items := by
  -- the buffer keeps the last events, and those since the client left are the last ones
  have hsplit : s.processed.map (·.buffered) =
      (s.processed.take s.leftAt).map (·.buffered) ++ s.since.map (·.buffered) := by
    rw [← List.map_append, Server.since, List.take_append_drop]
  rw [hs.items, hsplit, List.rtake, List.drop_append, List.length_append]
  refine List.mem_append_right _ ?_
  have hlen' : (s.since.map (·.buffered)).length ≤ GameSession.eventBufferSize := by
    rw [List.length_map]
    exact hlen
  have hnone : ((s.processed.take s.leftAt).map (·.buffered)).length +
      (s.since.map (·.buffered)).length - GameSession.eventBufferSize -
        ((s.processed.take s.leftAt).map (·.buffered)).length = 0 := by
    omega
  rw [hnone, List.drop_zero]
  exact List.mem_map_of_mem hm

/-- A server that buffers the events of some messages. -/
theorem processing (hs : ServerSound issued id s)
    (hserver : h.session.serverId = s.session.serverId)
    (hpublisher : h.session.hasEventPublisher = s.session.hasEventPublisher)
    (hbuffer : h.session.eventBuffer = s.session.eventBuffer.addAll (ms.map (·.buffered)))
    (hms : ∀ m ∈ s.processed ++ ms, m ∈ issued') (hcounter : 0 ≤ h.session.eventSequence)
    (hnumbers : ∀ n, (∃ m ∈ issued', m.sourceServerId = id ∧ m.sequenceNumber = n) ↔
      0 < n ∧ n ≤ h.session.eventSequence) : ServerSound issued' id (s.processing h ms) where
  serverId := hserver.trans hs.serverId
  publisher := hpublisher.trans hs.publisher
  size := by
    show h.session.eventBuffer.capacity = _
    rw [hbuffer, CircularBuffer.capacity_addAll]
    exact hs.size
  items := by
    show h.session.eventBuffer.items = ((s.processed ++ ms).map (·.buffered)).rtake _
    rw [hbuffer, CircularBuffer.items_addAll, hs.size, hs.items,
      CircularBuffer.rtake_rtake_append, List.map_append]
  leftAt := by
    show s.leftAt ≤ (s.processed ++ ms).length
    rw [List.length_append]
    exact Nat.le_trans hs.leftAt (Nat.le_add_right _ _)
  processed := hms
  counter := hcounter
  numbers := hnumbers

/-- A server on which nothing happens while others publish. -/
theorem mono (hs : ServerSound issued id s) (hother : ∀ m ∈ ms, m.sourceServerId ≠ id) :
    ServerSound (issued ++ ms) id s where
  serverId := hs.serverId
  publisher := hs.publisher
  size := hs.size
  items := hs.items
  leftAt := hs.leftAt
  processed m hm := List.mem_append_left _ (hs.processed m hm)
  counter := hs.counter
  numbers n := by
    rw [← hs.numbers n]
    constructor
    · rintro ⟨m, hm, hid, hn⟩
      rcases List.mem_append.mp hm with hold | hnew
      · exact ⟨m, hold, hid, hn⟩
      · exact absurd hid (hother m hnew)
    · rintro ⟨m, hm, hid, hn⟩
      exact ⟨m, List.mem_append_left _ hm, hid, hn⟩

/-- The numbers of a server that has published some more messages from its counter on. -/
theorem numbers_append (hs : ServerSound issued id s) (es : List DomainEvent) (roomId : String)
    (n : Int) :
    (∃ m ∈ issued ++ (numberFrom s.session.eventSequence es).map fun b =>
        ⟨roomId, b.event, b.sequenceNumber, id⟩, m.sourceServerId = id ∧ m.sequenceNumber = n) ↔
      0 < n ∧ n ≤ s.session.eventSequence + es.length := by
  have hcounter := hs.counter
  have hnumbers := hs.numbers n
  constructor
  · rintro ⟨m, hm, hid, hn⟩
    rcases List.mem_append.mp hm with hold | hnew
    · have := hnumbers.mp ⟨m, hold, hid, hn⟩
      omega
    · obtain ⟨b, hb, rfl⟩ := List.mem_map.mp hnew
      have hrange := mem_numberFrom hb
      have hn' : b.sequenceNumber = n := hn
      omega
  · rintro ⟨hpos, hle⟩
    -- a number above the old counter is a new one, and one up to it was given out before
    rcases Int.lt_or_le s.session.eventSequence n with hnew | hold
    · obtain ⟨b, hb, hn⟩ := exists_numberFrom hnew hle
      exact ⟨_, List.mem_append_right _ (List.mem_map_of_mem hb), rfl, hn⟩
    · obtain ⟨m, hm, hid, hn⟩ := hnumbers.mpr ⟨hpos, hold⟩
      exact ⟨m, List.mem_append_left _ hm, hid, hn⟩

end ServerSound

/-- A server that has just looked the room up, and has published nothing. -/
theorem serverSound_new (roomId id : String) (planningTimeout : Time)
    {issued : List DistributedEventMessage} (hnone : ∀ m ∈ issued, m.sourceServerId ≠ id) :
    ServerSound issued id (Server.new roomId id planningTimeout) where
  serverId := rfl
  publisher := rfl
  size := CircularBuffer.capacity_new _ (by decide)
  items := (CircularBuffer.items_new _ (by decide)).trans List.drop_nil.symm
  leftAt := Nat.le_refl _
  processed _ hm := absurd hm List.not_mem_nil
  counter := Int.le_refl 0
  numbers n := by
    show _ ↔ 0 < n ∧ n ≤ 0
    constructor
    · rintro ⟨m, hm, hid, -⟩
      exact absurd hid (hnone m hm)
    · rintro ⟨hpos, hle⟩
      omega

/-! ### What the client receives

The client keeps the highest number it was sent.  It does so only while it is connected to the
server that sends. -/

/-- A message changes neither the client's side nor where it is connected. -/
theorem receive_frame (subscribed : List String) (client : Client) (n : Notice) :
    (client.receive subscribed n).side = client.side ∧
      (client.receive subscribed n).connectedTo = client.connectedTo := by
  cases n with
  | message m =>
    rw [Client.receive]
    split <;> exact ⟨rfl, rfl⟩
  | moved _ | decided _ | exception _ => exact ⟨rfl, rfl⟩

/-- The client's number is its old one or one it has received. -/
theorem receive_lastSeen (subscribed : List String) (client : Client) (n : Notice) :
    (client.receive subscribed n).lastSeenSequence = client.lastSeenSequence ∨
      ∃ m, n = .message m ∧ m.sequenceNumber ≠ 0 ∧
        (client.receive subscribed n).lastSeenSequence = m.sequenceNumber := by
  cases n with
  | message m =>
    rw [Client.receive]
    split
    · exact .inl rfl
    · rename_i hne
      show max _ _ = _ ∨ _
      rcases max_choice client.lastSeenSequence m.sequenceNumber with hold | hnew
      · exact .inl hold
      · exact .inr ⟨m, rfl, hne, hnew⟩
  | moved _ | decided _ | exception _ => exact .inl rfl

namespace Cluster

variable {c : Cluster}

/-- Neither do many. -/
theorem hears_frame (c : Cluster) (id : String) (before after : PerSide (List Notice)) :
    (c.hears id before after).side = c.client.side ∧
      (c.hears id before after).connectedTo = c.client.connectedTo := by
  rw [hears]
  split
  -- by induction over the messages that are new in its inbox
  · generalize (after.get c.client.side).drop (before.get c.client.side).length = ns
    generalize c.client = client
    induction ns generalizing client with
    | nil => exact ⟨rfl, rfl⟩
    | cons n ns ih =>
      obtain ⟨hside, hconn⟩ := ih (client.receive c.subscribed n)
      obtain ⟨hside', hconn'⟩ := receive_frame c.subscribed client n
      exact ⟨hside.trans hside', hconn.trans hconn'⟩
  · exact ⟨rfl, rfl⟩

/-- A client that is away hears nothing. -/
theorem hears_away (haway : c.client.connectedTo = none) (id : String)
    (before after : PerSide (List Notice)) : c.hears id before after = c.client := by
  rw [hears, if_neg]
  rw [haway]
  exact fun h => nomatch h

/-- What holds of the client's number, and of all that is sent to it, holds of its next number. -/
theorem hears_lastSeen {P : Int → Prop} {id : String} {before after : PerSide (List Notice)}
    {ns : List Notice} (hsent : after.get c.client.side = before.get c.client.side ++ ns)
    (hold : P c.client.lastSeenSequence)
    (hns : ∀ m, .message m ∈ ns → m.sequenceNumber ≠ 0 → P m.sequenceNumber) :
    P (c.hears id before after).lastSeenSequence := by
  rw [hears]
  split
  · rw [hsent, List.drop_left]
    generalize c.client = client at hold
    clear hsent
    induction ns generalizing client with
    | nil => exact hold
    | cons n ns ih =>
      refine ih (fun m hm => hns m (List.mem_cons_of_mem _ hm)) (client.receive c.subscribed n) ?_
      rcases receive_lastSeen c.subscribed client n with hsame | ⟨m, rfl, hne, hnew⟩
      · rw [hsame]
        exact hold
      · rw [hnew]
        exact hns m List.mem_cons_self hne
  · exact hold

end Cluster

/-! ### The steps keep the invariant

One lemma for each call.  `save` is the long one: a turn publishes, buffers and sends at once. -/

/-- What a turn publishes are the events it announces. -/
theorem published_of_turn {s : Server} {room : GameRoom} {issued : List DistributedEventMessage}
    {id : String} (hs : ServerSound issued id s) {es : List DomainEvent} {h : Host}
    (ha : Announces es (s.host room) h) : h.published =
      (numberFrom s.session.eventSequence es).map fun b =>
        ⟨s.session.roomId, b.event, b.sequenceNumber, id⟩ := by
  rw [ha.published]
  show [] ++ s.session.messages _ = _
  rw [List.nil_append, GameSession.messages, if_pos hs.publisher, hs.serverId]
  rfl

/-- The servers after one of them was written. -/
theorem get?_commit (c : Cluster) (id k : String) (s : Server) (h : Host)
    (ms : List DistributedEventMessage) : (c.commit id s h ms).servers.get? k =
      if id = k then some (s.processing h ms) else c.servers.get? k := Dict.get?_set _ _ _ _

/-- Nothing is written on a server that is not there. -/
theorem get?_absent {c : Cluster} {id : String} (hget : c.servers.get? id = none) (k : String) :
    c.servers.get? k = if id = k then none else c.servers.get? k := by
  split
  · rename_i heq
    rw [← heq, hget]
  · rfl

namespace Consistent

variable {c : Cluster}

/-- A server that looks the room up has published nothing, so there is no message of its name. -/
theorem hydrate (hc : Consistent c) (planningTimeout : Time) (id : String) :
    Consistent (c.hydrate planningTimeout id) := by
  rw [Cluster.hydrate]
  split
  · exact hc
  rename_i hnone
  have hget : ∀ k, (c.servers.set id (Server.new c.room.roomId id planningTimeout)).get? k =
      if id = k then some (Server.new c.room.roomId id planningTimeout) else c.servers.get? k :=
    fun k => Dict.get?_set _ _ k _
  refine ⟨hc.room, hc.quiet, fun k s hk => ?_, fun m hm => ?_, hc.inFlight, hc.seen⟩
  · replace hk : _ = some s := (hget k).symm.trans hk
    split at hk
    · rename_i heq
      cases hk
      subst heq
      refine serverSound_new _ _ _ fun m hm hid => ?_
      obtain ⟨s, hs⟩ := hc.source m hm
      rw [hid, hnone] at hs
      cases hs
    · exact hc.servers k s hk
  · obtain ⟨s, hs⟩ := hc.source m hm
    have hne : id ≠ m.sourceServerId := by
      intro heq
      rw [← heq, hnone] at hs
      cases hs
    exact ⟨s, (hget _).trans ((if_neg hne).trans hs)⟩

/-- The room is saved after a turn, and what was announced is on its way. -/
theorem save (hc : Consistent c) {id : String} {s : Server} (hget : c.servers.get? id = some s)
    {es : List DomainEvent} {h : Host} (hturn : Turn es (s.host c.room) h) :
    Consistent (c.save id s h) := by
  have hs := hc.servers id s hget
  have ha := hturn.announces
  have hpub := published_of_turn hs ha
  have hbuffered : h.published.map (·.buffered) = numberFrom s.session.eventSequence es := by
    rw [hpub, List.map_map]
    exact List.map_id _
  have hsource : ∀ m ∈ h.published, m.sourceServerId = id := by
    intro m hm
    rw [hpub] at hm
    obtain ⟨b, -, rfl⟩ := List.mem_map.mp hm
    rfl
  refine ⟨hturn.room, hturn.quiet, fun k t hk => ?_, fun m hm => ?_, fun d hd => ?_, ?_⟩
  · have hk' := (get?_commit c id k s h h.published).symm.trans hk
    split at hk'
    · rename_i heq
      cases hk'
      subst heq
      refine hs.processing ha.serverId ha.publisher ?_ (fun m hm => ?_) ?_ fun n => ?_
      · rw [hbuffered]
        exact ha.buffer
      · rcases List.mem_append.mp hm with hold | hnew
        · exact List.mem_append_left _ (hs.processed m hold)
        · exact List.mem_append_right _ hnew
      · rw [ha.sequence]
        exact Int.add_nonneg hs.counter (Int.natCast_nonneg _)
      · show (∃ m ∈ c.issued ++ h.published, _) ↔ _
        rw [hpub, ha.sequence]
        exact hs.numbers_append es _ n
    · rename_i hne
      exact (hc.servers k t hk').mono fun m hm heq => hne ((hsource m hm).symm.trans heq)
  · show ∃ t, (c.commit id s h h.published).servers.get? _ = some t
    rw [get?_commit]
    split
    · exact ⟨_, rfl⟩
    · rename_i hne
      rcases List.mem_append.mp hm with hold | hnew
      · exact hc.source m hold
      · exact absurd (hsource m hnew).symm hne
  · rcases List.mem_append.mp hd with hold | hnew
    · exact List.mem_append_left _ (hc.inFlight d hold)
    · obtain ⟨m, hm, hmap⟩ := List.mem_flatMap.mp hnew
      obtain ⟨k, -, rfl⟩ := List.mem_map.mp hmap
      exact List.mem_append_right _ hm
  -- the client's number: what it was sent is in the buffer or has just been numbered
  · obtain ⟨ns, hns, hmay⟩ := ha.inbox c.client.side
    refine Cluster.hears_lastSeen
      (P := fun n => n = 0 ∨ ∃ m ∈ c.issued ++ h.published, m.sequenceNumber = n) hns ?_ ?_
    · refine hc.seen.imp_right ?_
      rintro ⟨m, hm, heq⟩
      exact ⟨m, List.mem_append_left _ hm, heq⟩
    · intro m hm hne
      rcases hmay m hm with hzero | ⟨b, hb, heq⟩
      · exact absurd hzero hne
      refine .inr ?_
      rcases List.mem_append.mp hb with hitem | hnew
      · replace hitem : b ∈ s.session.eventBuffer.items := hitem
        rw [hs.items] at hitem
        obtain ⟨m', hm', rfl⟩ := List.mem_map.mp (List.mem_of_mem_drop hitem)
        exact ⟨m', List.mem_append_left _ (hs.processed m' hm'), heq⟩
      · replace hnew : b ∈ numberFrom s.session.eventSequence es := hnew
        rw [← hbuffered] at hnew
        obtain ⟨m', hm', rfl⟩ := List.mem_map.mp hnew
        exact ⟨m', List.mem_append_right _ hm', heq⟩

/-- A turn on a server that is there is saved; on any other it does nothing. -/
theorem turn (hc : Consistent c) (id : String) (call : SessionCall) :
    Consistent (c.turn id call) := by
  rw [Cluster.turn]
  split
  · exact hc
  rename_i s hget
  obtain ⟨es, hturn, -⟩ := next_turn (h := s.host c.room) hc.room hc.quiet call
  exact hc.save hget hturn

/-- A server that buffers the events of messages of the room, and sends nothing else. -/
theorem commit (hc : Consistent c) {id : String} {s : Server} (hget : c.servers.get? id = some s)
    {h : Host} {ms : List DistributedEventMessage} (hserver : h.session.serverId = s.session.serverId)
    (hpublisher : h.session.hasEventPublisher = s.session.hasEventPublisher)
    (hsequence : h.session.eventSequence = s.session.eventSequence)
    (hbuffer : h.session.eventBuffer = s.session.eventBuffer.addAll (ms.map (·.buffered)))
    (hms : ∀ m ∈ ms, m ∈ c.issued) {ns : List Notice}
    (hsent : h.inbox.get c.client.side = s.inbox.get c.client.side ++ ns)
    (hns : ∀ n, .message n ∈ ns → ∃ m ∈ ms, m.sequenceNumber = n.sequenceNumber) :
    Consistent (c.commit id s h ms) := by
  have hs := hc.servers id s hget
  refine ⟨hc.room, hc.quiet, fun k t hk => ?_, fun m hm => ?_, hc.inFlight, ?_⟩
  · have hk' := (get?_commit c id k s h ms).symm.trans hk
    split at hk'
    · rename_i heq
      cases hk'
      subst heq
      refine hs.processing hserver hpublisher hbuffer (fun m hm => ?_) ?_ ?_
      · rcases List.mem_append.mp hm with hold | hnew
        · exact hs.processed m hold
        · exact hms m hnew
      · rw [hsequence]
        exact hs.counter
      · rw [hsequence]
        exact hs.numbers
    · exact hc.servers k t hk'
  · obtain ⟨t, ht⟩ := hc.source m hm
    rw [get?_commit]
    split
    · exact ⟨_, rfl⟩
    · exact ⟨t, ht⟩
  · refine Cluster.hears_lastSeen
      (P := fun n => n = 0 ∨ ∃ m ∈ c.issued, m.sequenceNumber = n) hsent hc.seen ?_
    intro n hn _
    obtain ⟨m, hm, heq⟩ := hns n hn
    exact .inr ⟨m, hms m hm, heq⟩

/-- A server that gets a message buffers it and passes it on, unless it has published it itself. -/
theorem receives (hc : Consistent c) {id : String} {m : DistributedEventMessage}
    (hm : m ∈ c.issued) (now : Time) : Consistent (c.receives id m now) := by
  rcases hget : c.servers.get? id with _ | s
  · rw [Cluster.receives, hget]
    exact hc
  rw [receives_eq hget]
  split
  · exact hc.commit hget rfl rfl rfl rfl (fun _ hm => absurd hm List.not_mem_nil)
      (List.append_nil _).symm fun _ hn => absurd hn List.not_mem_nil
  · obtain ⟨hbuffer, hsequence, hserver, hpublisher⟩ := relayed_session (s.host c.room) m now
    obtain ⟨round, hsent⟩ := relayed_inbox (s.host c.room) m now c.client.side
    refine hc.commit hget hserver hpublisher hsequence hbuffer ?_ hsent ?_
    · intro m' hm'
      rw [List.mem_singleton.mp hm']
      exact hm
    · intro n hn
      refine ⟨m, List.mem_singleton_self m, ?_⟩
      rw [Notice.message.inj (List.mem_singleton.mp hn)]
      rfl

/-- A delivery takes the message off and hands it over. -/
theorem deliver (hc : Consistent c) (index : Nat) (now : Time) :
    Consistent (c.deliver index now) := by
  rw [Cluster.deliver]
  split
  · exact hc
  rename_i id m hindex
  have hsent : Consistent { c with inFlight := c.inFlight.eraseIdx index } :=
    ⟨hc.room, hc.quiet, hc.servers, hc.source,
      fun d hd => hc.inFlight d (List.mem_of_mem_eraseIdx hd), hc.seen⟩
  exact hsent.receives (hc.inFlight _ (List.mem_of_getElem? hindex)) now

/-- A client that connects looks the room up first, where it has not been looked up yet. -/
theorem connect (hc : Consistent c) (planningTimeout : Time) (id : String) :
    Consistent (c.connect planningTimeout id) := by
  rw [Cluster.connect]
  split
  · exact hc
  · have hh := hc.hydrate planningTimeout id
    refine ⟨hh.room, hh.quiet, hh.servers, hh.source, hh.inFlight, ?_⟩
    have hseen := hc.seen
    rw [Cluster.hydrate]
    split <;> exact hseen

/-- When the client leaves, every server marks where it stands. -/
theorem disconnect (hc : Consistent c) : Consistent c.disconnect := by
  rw [Cluster.disconnect]
  split
  · exact hc
  refine ⟨hc.room, hc.quiet, fun k t hk => ?_, fun m hm => ?_, hc.inFlight, hc.seen⟩
  · rw [Dict.get?_mapValues] at hk
    obtain ⟨s, hs, rfl⟩ := Option.map_eq_some_iff.mp hk
    have hsound := hc.servers k s hs
    exact ⟨hsound.serverId, hsound.publisher, hsound.size, hsound.items, Nat.le_refl _,
      hsound.processed, hsound.counter, hsound.numbers⟩
  · obtain ⟨s, hs⟩ := hc.source m hm
    rw [Dict.get?_mapValues, hs]
    exact ⟨_, rfl⟩

/-- **Every step keeps the invariant.** -/
theorem next (hc : Consistent c) (planningTimeout : Time) (call : ClusterCall) :
    Consistent (c.next planningTimeout call) := by
  cases call with
  | hydrate id => exact hc.hydrate planningTimeout id
  | turn id call => exact hc.turn id call
  | deliver index now => exact hc.deliver index now
  | connect id => exact hc.connect planningTimeout id
  | disconnect => exact hc.disconnect

end Consistent

/-- The server that makes the room has published nothing. -/
theorem consistent_initial (roomId serverId : String) (planningTimeout : Time) (side : PlayerSide) :
    Consistent (Cluster.initial roomId serverId planningTimeout side) where
  room := (inSession_initial roomId).relabel (some serverId) _
  quiet := (initialRoom_fields roomId).events
  servers k s hk := by
    have hk' := (Dict.get?_set _ _ _ _).symm.trans hk
    split at hk'
    · rename_i heq
      cases hk'
      subst heq
      exact serverSound_new _ _ _ fun _ hm => absurd hm List.not_mem_nil
    · cases hk'
  source _ hm := absurd hm List.not_mem_nil
  inFlight _ hd := absurd hd List.not_mem_nil
  seen := .inl rfl

/-! ## Lossless means ahead

GetEventsAfter compares numbers, so an event that is in the buffer is sent again exactly if its
number is above the client's. -/

/-- What was processed since the client left, and would have been sent to it, carries numbers above
    the client's last one. -/
def Cluster.Ahead (c : Cluster) : Prop :=
  c.client.connectedTo = none → ∀ id s, c.servers.get? id = some s → c.client.knows id = true →
    s.since.length ≤ GameSession.eventBufferSize → ∀ m ∈ s.since,
      s.sends c.client.side m = true → c.client.lastSeenSequence < m.sequenceNumber

/-- With a buffer that is right, losing nothing is a matter of numbers. -/
theorem lossless_iff_ahead {c : Cluster} (hc : Consistent c) : c.Lossless ↔ c.Ahead := by
  constructor
  · intro h haway id s hget hknows hlen m hm hsends
    exact (mem_getEventsAfter.mp (h haway id s hget hknows hlen m hm hsends)).2
  · intro h haway id s hget hknows hlen m hm hsends
    exact mem_getEventsAfter.mpr ⟨(hc.servers id s hget).mem_items hlen hm,
      h haway id s hget hknows hlen m hm hsends⟩

/-! ## One step

Each of the five calls, in both directions. -/

/-- Events numbered from a server's counter on are new exactly if all events so far are its own. -/
theorem unique_append_iff {c : Cluster} (hc : Consistent c) (hu : c.Unique) {id : String} {s : Server}
    (hget : c.servers.get? id = some s) {es : List DomainEvent} (hne : es ≠ []) (roomId : String) :
    ((c.issued ++ (numberFrom s.session.eventSequence es).map fun b =>
        (⟨roomId, b.event, b.sequenceNumber, id⟩ : DistributedEventMessage)).map
          (·.sequenceNumber)).Nodup ↔ ∀ m ∈ c.issued, m.sourceServerId = id := by
  have hs := hc.servers id s hget
  rw [List.map_append, List.map_map, List.nodup_append]
  constructor
  · rintro ⟨-, -, hdisjoint⟩ m hm
    obtain ⟨t, ht⟩ := hc.source m hm
    -- whoever has published something has given out number 1
    have hfirst := (hc.servers _ t ht).numbers 1
    have hrange := ((hc.servers _ t ht).numbers m.sequenceNumber).mp ⟨m, hm, rfl, rfl⟩
    obtain ⟨m₁, hm₁, hid₁, hone₁⟩ := hfirst.mpr ⟨by decide, by omega⟩
    have hcounter := hs.counter
    rcases Int.lt_or_le s.session.eventSequence 1 with hfresh | hused
    · have hlen : 0 < es.length := List.length_pos_of_ne_nil hne
      have hrange : 1 ≤ s.session.eventSequence + es.length := by omega
      obtain ⟨b, hb, hone⟩ := exists_numberFrom hfresh hrange
      exact absurd (hone₁.trans hone.symm) (hdisjoint _ (List.mem_map_of_mem hm₁) _
        (List.mem_map_of_mem hb))
    · obtain ⟨m₂, hm₂, hid₂, hone₂⟩ := (hs.numbers 1).mpr ⟨by decide, hused⟩
      have hsame : m₁ = m₂ := List.inj_on_of_nodup_map hu hm₁ hm₂ (hone₁.trans hone₂.symm)
      rw [← hid₁, hsame, hid₂]
  · intro hown
    refine ⟨hu, ?_, ?_⟩
    · exact List.pairwise_map.mpr ((numberFrom_pairwise _ _).imp fun h => Int.ne_of_lt h)
    -- the other way round: all numbers so far are the server's own, so the counter is above them
    · intro n hn n' hn' heq
      obtain ⟨m, hm, rfl⟩ := List.mem_map.mp hn
      obtain ⟨b, hb, rfl⟩ := List.mem_map.mp hn'
      have hold := ((hs.numbers m.sequenceNumber).mp ⟨m, hm, hown m hm, rfl⟩).2
      have hnew := (mem_numberFrom hb).1
      have heq' : m.sequenceNumber = b.sequenceNumber := heq
      omega

/-- While the client is connected nothing is asked. -/
theorem ahead_of_connected {c : Cluster} (hconn : c.client.connectedTo ≠ none) : c.Ahead :=
  fun haway => absurd haway hconn

/-- While the client is away, what a server processes next has to carry numbers above the client's. -/
theorem ahead_commit_iff {c : Cluster} (hc : Consistent c) (hahead : c.Ahead)
    (haway : c.client.connectedTo = none) {id : String} {s : Server}
    (hget : c.servers.get? id = some s) {h : Host} (hserver : h.session.serverId = s.session.serverId)
    (ms : List DistributedEventMessage) :
    (c.commit id s h ms).Ahead ↔ (c.client.knows id = true →
      s.since.length + ms.length ≤ GameSession.eventBufferSize → ∀ m ∈ ms,
        s.sends c.client.side m = true → c.client.lastSeenSequence < m.sequenceNumber) := by
  have hs := hc.servers id s hget
  have hclient : (c.commit id s h ms).client = c.client := Cluster.hears_away haway _ _ _
  have hsends : ∀ m, (s.processing h ms).sends c.client.side m = s.sends c.client.side m := by
    intro m
    rw [Server.sends, Server.sends]
    show (if m.sourceServerId = h.session.serverId then _ else _) = _
    rw [hserver]
  have hlength : (s.since ++ ms).length = s.since.length + ms.length := List.length_append
  unfold Cluster.Ahead
  rw [hclient]
  constructor
  · intro h' hknows hlen m hm hsend
    have hgetId := (get?_commit c id id s h ms).trans (if_pos rfl)
    refine h' haway id _ hgetId hknows ?_ m ?_ ?_
    · rw [hs.since_processing, hlength]
      exact hlen
    · rw [hs.since_processing]
      exact List.mem_append_right _ hm
    · rw [hsends]
      exact hsend
  · intro h' _ k t hk hknows hlen m hm hsend
    have hk' := (get?_commit c id k s h ms).symm.trans hk
    split at hk'
    · rename_i heq
      cases hk'
      subst heq
      rw [hs.since_processing] at hlen hm
      rw [hlength] at hlen
      rw [hsends] at hsend
      rcases List.mem_append.mp hm with hold | hnew
      · exact hahead haway id s hget hknows (Nat.le_of_add_right_le hlen) m hold hsend
      · exact h' hknows hlen m hnew hsend
    · exact hahead haway k t hk' hknows hlen m hm hsend

/-- A turn keeps both properties exactly if it raises nothing, or all events are its server's. -/
theorem turn_iff {c : Cluster} (hc : Consistent c) (hahead : c.Ahead) (hu : c.Unique) (id : String)
    (call : SessionCall) :
    (c.turn id call).Ahead ∧ (c.turn id call).Unique ↔ c.InOrder (.turn id call) := by
  rcases hget : c.servers.get? id with _ | s
  · rw [turn_unknown hget]
    refine iff_of_true ⟨hahead, hu⟩ fun s hs => ?_
    rw [hget] at hs
    cases hs
  have hs := hc.servers id s hget
  obtain ⟨es, hturn, hraises⟩ := next_turn (h := s.host c.room) hc.room hc.quiet call
  have hpub := published_of_turn hs hturn.announces
  have hserver := hturn.announces.serverId
  have horder : c.InOrder (.turn id call) ↔ (es ≠ [] → ∀ m ∈ c.issued, m.sourceServerId = id) := by
    rw [hraises]
    constructor
    · exact fun h => h s hget
    · intro h t ht
      rw [hget] at ht
      cases ht
      exact h
  rw [horder, Cluster.turn, hget]
  show (c.save id s ((s.host c.room).next call)).Ahead ∧
    (c.save id s ((s.host c.room).next call)).Unique ↔ _
  generalize (s.host c.room).next call = h at *
  show (c.commit id s h h.published).Ahead ∧ ((c.issued ++ h.published).map _).Nodup ↔ _
  rw [hpub]
  rcases em (es = []) with rfl | hne
  · refine iff_of_true ⟨?_, ?_⟩ fun h => absurd rfl h
    · rcases em (c.client.connectedTo = none) with haway | hconn
      · exact (ahead_commit_iff hc hahead haway hget hserver _).mpr
          fun _ _ m hm => absurd hm List.not_mem_nil
      · exact ahead_of_connected ((Cluster.hears_frame c id _ _).2.symm ▸ hconn)
    · rw [numberFrom, List.map_nil, List.append_nil]
      exact hu
  · have hunique := unique_append_iff hc hu hget hne s.session.roomId
    constructor
    · exact fun h _ => hunique.mp h.2
    · intro hown
      refine ⟨?_, hunique.mpr (hown hne)⟩
      rcases em (c.client.connectedTo = none) with haway | hconn
      · refine (ahead_commit_iff hc hahead haway hget hserver _).mpr fun _ _ m hm _ => ?_
        obtain ⟨b, hb, rfl⟩ := List.mem_map.mp hm
        have hnew := (mem_numberFrom hb).1
        show c.client.lastSeenSequence < b.sequenceNumber
        -- the client's number is 0 or one that this server has given out, and the new ones are
        -- above both
        rcases hc.seen with hzero | ⟨m', hm', heq⟩
        · have hcounter := hs.counter
          omega
        · have hold := (hs.numbers _).mp ⟨m', hm', hown hne m' hm', heq⟩
          omega
      · exact ahead_of_connected ((Cluster.hears_frame c id _ _).2.symm ▸ hconn)

/-- An arriving message keeps both properties exactly if its number is above the client's, or the
    client is not concerned. -/
theorem deliver_iff {c : Cluster} (hc : Consistent c) (hahead : c.Ahead) (hu : c.Unique)
    (index : Nat) (now : Time) :
    (c.deliver index now).Ahead ∧ (c.deliver index now).Unique ↔
      c.InOrder (.deliver index now) := by
  rcases hindex : c.inFlight[index]? with _ | ⟨id, m⟩
  · rw [Cluster.deliver, hindex]
    refine iff_of_true ⟨hahead, hu⟩ fun d hd => ?_
    rw [hindex] at hd
    cases hd
  let sent : Cluster := { c with inFlight := c.inFlight.eraseIdx index }
  have hsent : Consistent sent := ⟨hc.room, hc.quiet, hc.servers, hc.source,
    fun d hd => hc.inFlight d (List.mem_of_mem_eraseIdx hd), hc.seen⟩
  have hdeliver : c.deliver index now = sent.receives id m now := by
    rw [Cluster.deliver, hindex]
  have horder : c.InOrder (.deliver index now) ↔ (m.sourceServerId ≠ id →
      c.client.connectedTo = none → c.client.knows id = true →
      ∀ s, c.servers.get? id = some s → s.since.length < GameSession.eventBufferSize →
        c.client.lastSeenSequence < m.sequenceNumber) := by
    constructor
    · exact fun h => h (id, m) hindex
    · intro h d hd
      rw [hindex] at hd
      cases hd
      exact h
  rw [hdeliver, horder]
  rcases hget : c.servers.get? id with _ | s
  · rw [Cluster.receives, show sent.servers.get? id = none from hget]
    refine iff_of_true ⟨hahead, hu⟩ ?_
    intro _ _ _ t ht
    cases ht
  have hs := hc.servers id s hget
  rw [@receives_eq sent id s hget, hs.serverId]
  by_cases hown : m.sourceServerId = id
  · rw [if_pos hown]
    refine iff_of_true ⟨?_, hu⟩ fun hne => absurd hown hne
    rcases em (c.client.connectedTo = none) with haway | hconn
    · exact (ahead_commit_iff (c := sent) hsent hahead haway hget rfl _).mpr
        fun _ _ m hm => absurd hm List.not_mem_nil
    · exact ahead_of_connected ((Cluster.hears_frame sent id _ _).2.symm ▸ hconn)
  rw [if_neg hown]
  rcases em (c.client.connectedTo = none) with haway | hconn
  · have hserver := (relayed_session (s.host c.room) m now).2.2.1
    have hcommit := ahead_commit_iff (c := sent) hsent hahead haway hget hserver [m]
    have hsends : s.sends c.client.side m = true := by
      rw [Server.sends, hs.serverId, if_neg hown]
    constructor
    · rintro ⟨h, -⟩ - - hknows t ht hlen
      cases ht
      exact hcommit.mp h hknows hlen m (List.mem_singleton_self m) hsends
    · intro h
      refine ⟨hcommit.mpr fun hknows hlen m' hm' _ => ?_, hu⟩
      rw [List.mem_singleton.mp hm']
      exact h hown haway hknows s rfl hlen
  · exact iff_of_true
      ⟨ahead_of_connected ((Cluster.hears_frame sent id _ _).2.symm ▸ hconn), hu⟩
      fun _ haway => absurd haway hconn

/-- A server that has just looked the room up has processed nothing. -/
theorem ahead_hydrate {c : Cluster} (hahead : c.Ahead) (planningTimeout : Time) (id : String) :
    (c.hydrate planningTimeout id).Ahead := by
  rw [Cluster.hydrate]
  split
  · exact hahead
  intro haway k t hk hknows hlen m hm hsends
  have hk' := (Dict.get?_set _ _ _ _).symm.trans hk
  split at hk'
  · cases hk'
    exact absurd hm List.not_mem_nil
  · exact hahead haway k t hk' hknows hlen m hm hsends

/-- Looking a room up publishes nothing. -/
theorem issued_hydrate (c : Cluster) (planningTimeout : Time) (id : String) :
    (c.hydrate planningTimeout id).issued = c.issued := by
  rw [Cluster.hydrate]
  split <;> rfl

/-- When the client leaves, nothing was processed since. -/
theorem ahead_disconnect {c : Cluster} (hahead : c.Ahead) : c.disconnect.Ahead := by
  rw [Cluster.disconnect]
  split
  · exact hahead
  intro _ k t hk _ _ m hm _
  have hk' := (Dict.get?_mapValues _ _ _).symm.trans hk
  obtain ⟨s, -, rfl⟩ := Option.map_eq_some_iff.mp hk'
  have hnone : s.processed.drop s.processed.length = [] := List.drop_length
  replace hm : m ∈ s.processed.drop s.processed.length := hm
  rw [hnone] at hm
  exact absurd hm List.not_mem_nil

/-- **One step**: both properties are kept exactly by the steps that keep the numbers in order. -/
theorem next_iff {c : Cluster} (hc : Consistent c) (hahead : c.Ahead) (hu : c.Unique)
    (planningTimeout : Time) (call : ClusterCall) :
    (c.next planningTimeout call).Ahead ∧ (c.next planningTimeout call).Unique ↔
      c.InOrder call := by
  cases call with
  | hydrate id =>
    refine iff_of_true ⟨ahead_hydrate hahead planningTimeout id, ?_⟩ trivial
    show ((c.hydrate planningTimeout id).issued.map _).Nodup
    rw [issued_hydrate]
    exact hu
  | turn id call => exact turn_iff hc hahead hu id call
  | deliver index now => exact deliver_iff hc hahead hu index now
  | connect id =>
    refine iff_of_true ?_ trivial
    show (c.connect planningTimeout id).Ahead ∧ (c.connect planningTimeout id).Unique
    rw [Cluster.connect]
    split
    · exact ⟨hahead, hu⟩
    · refine ⟨ahead_of_connected (Option.some_ne_none id), ?_⟩
      show ((c.hydrate planningTimeout id).issued.map _).Nodup
      rw [issued_hydrate]
      exact hu
  | disconnect =>
    refine iff_of_true ⟨ahead_disconnect hahead, ?_⟩ trivial
    show c.disconnect.Unique
    rw [Cluster.disconnect]
    split <;> exact hu

/-! ## Runs

The equivalence for one step, along a run. -/

/-- At the start there is nothing to be ahead of. -/
theorem ahead_initial (roomId serverId : String) (planningTimeout : Time) (side : PlayerSide) :
    (Cluster.initial roomId serverId planningTimeout side).Ahead := by
  intro _ k s hk _ _ m hm _
  have hk' := (Dict.get?_set _ _ _ _).symm.trans hk
  split at hk'
  · cases hk'
    exact absurd hm List.not_mem_nil
  · cases hk'

/-- **A run loses nothing and uses no number twice exactly if its steps keep the numbers in order.**
    In every state of the run a client that is away would be sent, by any server that has been
    subscribed since its first event, all that the server has processed since and would have sent
    it; and no two events of the room carry one number. -/
theorem reconnect_lossless_iff {roomId serverId : String} {planningTimeout : Time} {side : PlayerSide}
    (calls : List ClusterCall) :
    (∀ c ∈ (clusters roomId serverId planningTimeout side).visited
        (Cluster.initial roomId serverId planningTimeout side) calls, c.Lossless ∧ c.Unique) ↔
      (clusters roomId serverId planningTimeout side).Steps Cluster.InOrder
        (Cluster.initial roomId serverId planningTimeout side) calls := by
  have hstart := consistent_initial roomId serverId planningTimeout side
  have hfirst := ahead_initial roomId serverId planningTimeout side
  refine Machine.visited_iff (M := clusters roomId serverId planningTimeout side) (I := Consistent)
    (P := fun c => c.Lossless ∧ c.Unique) (fun c call hc _ => hc.next planningTimeout call) ?_ hstart
    ⟨(lossless_iff_ahead hstart).mpr hfirst, List.nodup_nil⟩ ?_
  · rintro c call hc - ⟨hlossless, hu⟩
    have hnext : Consistent (c.next planningTimeout call) := hc.next planningTimeout call
    show (c.next planningTimeout call).Lossless ∧ (c.next planningTimeout call).Unique ↔ _
    rw [lossless_iff_ahead hnext]
    exact next_iff hc ((lossless_iff_ahead hc).mp hlossless) hu planningTimeout call
  · exact Machine.steps_of_forall (fun _ _ => trivial) calls _

/-! ### Two servers

The smallest run in which it goes wrong: one event on each of two servers. -/

/-- A room of two servers, and a client that plays side A. -/
abbrev pair : Machine Cluster ClusterCall := clusters "room" "s1" 30000 .a

/-- Two players start on server `s1`; side A connects there and side B to `s2`, where the room is
    looked up.  Side A sends a unit off, `s2` hears of it, and side A loses its connection. -/
def partedCalls : List ClusterCall :=
  [.turn "s1" (.addPlayer ⟨"alice"⟩ 0), .turn "s1" (.addPlayer ⟨"bob"⟩ 5),
    .connect "s1", .turn "s1" (.onPlayerConnected .a 10),
    .hydrate "s2", .turn "s2" (.onPlayerConnected .b 20),
    .turn "s1" (.moveUnits .a ⟨⟨1⟩, ⟨4⟩, 1⟩), .deliver 2 30,
    .disconnect, .turn "s1" (.onPlayerDisconnected .a)]

/-- Then side B sends a unit off, on its own server. -/
def crossedCalls : List ClusterCall := partedCalls ++ [.turn "s2" (.moveUnits .b ⟨⟨5⟩, ⟨3⟩, 1⟩)]

/-- The departure of side B's unit gets number 1 on `s2`, as the start of the game had on `s1`; and
    side A, who has seen number 2, would not be sent it on reconnecting to `s2`. -/
theorem reconnect_loses_departure :
    (pair.after pair.start crossedCalls).client.lastSeenSequence = 2 ∧
      ¬ (pair.after pair.start crossedCalls).Lossless ∧
      ¬ (pair.after pair.start crossedCalls).Unique := by
  decide +kernel

/-- Had side B gone over to `s1` with its next move, side A would lose nothing on `s2`. -/
example : pair.Steps Cluster.InOrder pair.start (partedCalls ++
    [.turn "s1" (.onPlayerConnected .b 40), .turn "s1" (.moveUnits .b ⟨⟨5⟩, ⟨3⟩, 1⟩), .deliver 3 50,
      .connect "s2", .turn "s2" (.reconnectSync .a 2)]) := by
  decide +kernel

end HexWar
