/-
  Several servers that serve one room.

  The room lies in a repository that all servers share.  Each server has a session of its own, with
  its own counter and its own buffer, from the first connection on that makes it look the room up
  (`hydrate`).  A turn on one of them goes as on a single server; what it raises is published, and
  every session that is subscribed at that moment gets each message once, in any order, as long
  after as the channel likes (`inFlight`, `deliver`).

  One client is followed: it has one connection, to any server, and remembers the highest number it
  has received.  The other players are only what their turns do.

  A server also remembers which events it has processed, and a cluster which messages were ever
  published.  Nothing reads either; the results about lost events speak of them.
-/
import HexWar.Session.Hosts

namespace HexWar

open Lib Lib.Action

/-! ## The parts -/

structure Server where
  session : GameSession
  /-- Everything it has sent to the players, the oldest first. -/
  inbox : PerSide (List Notice)
  /-- The events it has buffered, its own and those of the others, the oldest first. -/
  processed : List DistributedEventMessage
  /-- How many of them it had buffered when the client lost its connection. -/
  leftAt : Nat

/-- A player's browser. -/
structure Client where
  side : PlayerSide
  connectedTo : Option String
  lastSeenSequence : Int
  /-- The servers that were subscribed when the first event arrived. -/
  subscribedSince : Option (List String)

structure Cluster where
  /-- The room in the repository. -/
  room : GameRoom
  servers : Dict String Server
  /-- The messages on their way, with the server each is for. -/
  inFlight : List (String × DistributedEventMessage)
  /-- Every message ever published, the oldest first. -/
  issued : List DistributedEventMessage
  client : Client

namespace Server

/-- A server that has just looked the room up. -/
def new (roomId serverId : String) (planningTimeout : Time) : Server where
  session := GameSession.new roomId serverId true planningTimeout
  inbox := .both []
  processed := []
  leftAt := 0

/-- The server as the host of a turn that has not published anything yet. -/
def host (s : Server) (room : GameRoom) : Host := ⟨s.session, room, s.inbox, [], []⟩

/-- The server after it has processed the events of some messages. -/
def processing (s : Server) (h : Host) (messages : List DistributedEventMessage) : Server :=
  { s with session := h.session, inbox := h.inbox, processed := s.processed ++ messages }

/-- The events processed since the client lost its connection. -/
def since (s : Server) : List DistributedEventMessage := s.processed.drop s.leftAt

/-- Would a side that is connected be sent the event of a message? -/
def sends (s : Server) (side : PlayerSide) (m : DistributedEventMessage) : Bool :=
  if m.sourceServerId = s.session.serverId then sentTo side m.event else true

end Server

/-- The event of a message, under its number. -/
def DistributedEventMessage.buffered (m : DistributedEventMessage) : BufferedEvent :=
  ⟨m.sequenceNumber, m.event⟩

namespace Client

def new (side : PlayerSide) : Client := ⟨side, none, 0, none⟩

/-- Take a message from the server; `subscribed` are the servers that are subscribed by now. -/
def receive (subscribed : List String) (client : Client) : Notice → Client
  | .message m =>
    -- what is no event has no number
    if m.sequenceNumber = 0 then client
    else { client with
      lastSeenSequence := max client.lastSeenSequence m.sequenceNumber
      subscribedSince := client.subscribedSince.or (some subscribed) }
  | .moved _ | .decided _ | .exception _ => client

/-- Has a server been subscribed since the client's first event? -/
def knows (client : Client) (id : String) : Bool :=
  match client.subscribedSince with
  | some subscribed => id ∈ subscribed
  | none => true

end Client

/-! ## The steps -/

namespace Cluster

/-- A room that one server has just created. -/
def initial (roomId serverId : String) (planningTimeout : Time) (side : PlayerSide) : Cluster where
  room := { initialRoom roomId with ownerServerId := some serverId }
  servers := Dict.empty.set serverId (Server.new roomId serverId planningTimeout)
  inFlight := []
  issued := []
  client := Client.new side

/-- The servers that have a session of the room. -/
def subscribed (c : Cluster) : List String := c.servers.entries.map Prod.fst

/-- The client after a server has sent what `after` has more than `before`. -/
def hears (c : Cluster) (id : String) (before after : PerSide (List Notice)) : Client :=
  if c.client.connectedTo = some id then
    ((after.get c.client.side).drop (before.get c.client.side).length).foldl
      (Client.receive c.subscribed) c.client
  else c.client

/-- Write a server back that has processed the events of some messages. -/
def commit (c : Cluster) (id : String) (s : Server) (h : Host)
    (messages : List DistributedEventMessage) : Cluster :=
  { c with
    servers := c.servers.set id (s.processing h messages)
    client := c.hears id s.inbox h.inbox }

/-- Look the room up on a server. -/
def hydrate (planningTimeout : Time) (c : Cluster) (id : String) : Cluster :=
  match c.servers.get? id with
  | some _ => c
  | none => { c with servers := c.servers.set id (Server.new c.room.roomId id planningTimeout) }

/-- Save the room after a turn on a server, with what was published on its way to everyone. -/
def save (c : Cluster) (id : String) (s : Server) (h : Host) : Cluster :=
  { c.commit id s h h.published with
    room := h.room
    inFlight := c.inFlight ++ h.published.flatMap fun m => c.subscribed.map fun id => (id, m)
    issued := c.issued ++ h.published }

/-- A turn on one server. -/
def turn (c : Cluster) (id : String) (call : SessionCall) : Cluster :=
  match c.servers.get? id with
  | none => c
  | some s => c.save id s ((s.host c.room).next call)

/-- A message reaches the server it is for. -/
def receives (c : Cluster) (id : String) (m : DistributedEventMessage) (now : Time) : Cluster :=
  match c.servers.get? id with
  | none => c
  | some s => c.commit id s (after (handleRemoteEvent m now) (s.host c.room))
      (if m.sourceServerId = s.session.serverId then [] else [m])

/-- Any message on its way arrives. -/
def deliver (c : Cluster) (index : Nat) (now : Time) : Cluster :=
  match c.inFlight[index]? with
  | none => c
  | some (id, m) => { c with inFlight := c.inFlight.eraseIdx index }.receives id m now

/-- The client opens its connection, to any server. -/
def connect (planningTimeout : Time) (c : Cluster) (id : String) : Cluster :=
  match c.client.connectedTo with
  | some _ => c
  | none => { c.hydrate planningTimeout id with client := { c.client with connectedTo := some id } }

/-- The client loses its connection. -/
def disconnect (c : Cluster) : Cluster :=
  match c.client.connectedTo with
  | none => c
  | some _ => { c with
      servers := c.servers.mapValues fun s => { s with leftAt := s.processed.length }
      client := { c.client with connectedTo := none } }

end Cluster

inductive ClusterCall where
  | hydrate (id : String)
  | turn (id : String) (call : SessionCall)
  | deliver (index : Nat) (now : Time)
  | connect (id : String)
  | disconnect
deriving DecidableEq

namespace Cluster

def next (planningTimeout : Time) (c : Cluster) : ClusterCall → Cluster
  | .hydrate id => c.hydrate planningTimeout id
  | .turn id call => c.turn id call
  | .deliver index now => c.deliver index now
  | .connect id => c.connect planningTimeout id
  | .disconnect => c.disconnect

end Cluster

/-- The servers of one room under any steps. -/
def clusters (roomId serverId : String) (planningTimeout : Time) (side : PlayerSide) :
    Machine Cluster ClusterCall :=
  ⟨Cluster.initial roomId serverId planningTimeout side, Cluster.next planningTimeout,
    fun _ _ => True⟩

namespace Cluster

/-! ## The properties -/

/-- **A reconnection loses nothing**: on any server that has been subscribed since the client's first
    event, the buffer after the client's last number has every event that was processed there since
    the client lost its connection and would have been sent to it, if there were not more of them
    than the buffer holds. -/
def Lossless (c : Cluster) : Prop :=
  c.client.connectedTo = none → ∀ id s, c.servers.get? id = some s → c.client.knows id = true →
    s.since.length ≤ GameSession.eventBufferSize → ∀ m ∈ s.since,
      s.sends c.client.side m = true →
        m.buffered ∈ s.session.getEventsAfter c.client.lastSeenSequence

/-- **No number is given to two events.** -/
def Unique (c : Cluster) : Prop := (c.issued.map (·.sequenceNumber)).Nodup

/-- A step that keeps the numbers in order.  The events of a room all come from one server; and what
    reaches another server while the client is away carries a number above the client's last one,
    unless that server has buffered 200 events since. -/
def InOrder (c : Cluster) : ClusterCall → Prop
  | .turn id call => ∀ s ∈ c.servers.get? id, (s.host c.room).raises call = true →
      ∀ m ∈ c.issued, m.sourceServerId = id
  | .deliver index _ => ∀ d ∈ c.inFlight[index]?, d.2.sourceServerId ≠ d.1 →
      c.client.connectedTo = none → c.client.knows d.1 = true →
      ∀ s ∈ c.servers.get? d.1, s.since.length < GameSession.eventBufferSize →
        c.client.lastSeenSequence < d.2.sequenceNumber
  | .hydrate _ | .connect _ | .disconnect => True

/-- The servers are finitely many. -/
theorem lossless_iff_entries {c : Cluster} : c.Lossless ↔ c.client.connectedTo ≠ none ∨
    ∀ e ∈ c.servers.entries, c.client.knows e.1 = true →
      e.2.since.length ≤ GameSession.eventBufferSize → ∀ m ∈ e.2.since,
        e.2.sends c.client.side m = true →
          m.buffered ∈ e.2.session.getEventsAfter c.client.lastSeenSequence := by
  constructor
  · intro h
    rcases em (c.client.connectedTo = none) with haway | hconn
    · exact .inr fun e he => h haway e.1 e.2 (Dict.mem_iff_get?.mp he)
    · exact .inl hconn
  · intro h haway id s hget
    exact h.resolve_left (not_not_intro haway) (id, s) (Dict.mem_iff_get?.mpr hget)

instance (c : Cluster) : Decidable c.Lossless := decidable_of_iff' _ lossless_iff_entries

instance (c : Cluster) : Decidable c.Unique := inferInstanceAs (Decidable (List.Nodup _))

instance (c : Cluster) : DecidablePred c.InOrder
  | .turn _ _ => inferInstanceAs (Decidable (∀ s ∈ _, _))
  | .deliver _ _ => inferInstanceAs (Decidable (∀ d ∈ _, _))
  | .hydrate _ | .connect _ | .disconnect => .isTrue trivial

end Cluster

/-! ## The steps in closed form -/

theorem sameEvents_aligned (s : GameSession) (message : DistributedEventMessage) (now : Time) :
    SameEvents s (s.aligned message now) := by
  rw [GameSession.aligned]
  split
  · exact sameEvents_startPlanningTimer _ _ _ _
  · exact sameEvents_startPlanningTimer _ _ _ _
  · exact sameEvents_startPlanningTimer _ _ _ _
  · exact ⟨rfl, rfl, rfl, rfl, rfl⟩
  · exact ⟨rfl, rfl, rfl, rfl, rfl⟩

/-- The host after an event of another server. -/
def Host.relayed (h : Host) (m : DistributedEventMessage) (now : Time) : Host :=
  let aligned : Host := { h with session := h.session.aligned m now }
  let told := aligned.broadcastToRoom
    (.fromDomainEvent m.event aligned.session.currentRound m.sequenceNumber)
  { told with session := told.session.keep m.buffered }

theorem after_handleRemoteEvent (h : Host) (m : DistributedEventMessage) (now : Time) :
    after (handleRemoteEvent m now) h =
      if m.sourceServerId = h.session.serverId then h else h.relayed m now := by
  rw [handleRemoteEvent]
  by_cases hown : m.sourceServerId = h.session.serverId
  · rw [if_pos hown]
    refine after_ok (a := ()) ?_
    rw [bind_of_ok (get_apply h)]
    exact congrFun (if_neg (not_not_intro hown)) h
  · rw [if_neg hown]
    refine after_ok (a := ()) ?_
    rw [bind_of_ok (get_apply h)]
    exact congrFun (if_pos hown) h

/-- An event of another server is buffered under its own number; the counter does not move. -/
theorem relayed_session (h : Host) (m : DistributedEventMessage) (now : Time) :
    (h.relayed m now).session.eventBuffer = h.session.eventBuffer.add m.buffered ∧
      (h.relayed m now).session.eventSequence = h.session.eventSequence ∧
      (h.relayed m now).session.serverId = h.session.serverId ∧
      (h.relayed m now).session.hasEventPublisher = h.session.hasEventPublisher := by
  obtain ⟨hbuffer, hsequence, -, hserver, hpublisher⟩ := sameEvents_aligned h.session m now
  exact ⟨congrArg (·.add m.buffered) hbuffer, hsequence, hserver, hpublisher⟩

/-- Both sides are sent the event. -/
theorem relayed_inbox (h : Host) (m : DistributedEventMessage) (now : Time) (side : PlayerSide) :
    ∃ currentRound, (h.relayed m now).inbox.get side =
      h.inbox.get side ++ [.message (.fromDomainEvent m.event currentRound m.sequenceNumber)] :=
  ⟨_, Host.inbox_broadcastToRoom _ _ side⟩

theorem turn_eq {c : Cluster} {id : String} {s : Server} (hget : c.servers.get? id = some s)
    (call : SessionCall) : c.turn id call = c.save id s ((s.host c.room).next call) := by
  rw [Cluster.turn, hget]

/-- A server that does not know the room does nothing. -/
theorem turn_unknown {c : Cluster} {id : String} (hget : c.servers.get? id = none)
    (call : SessionCall) : c.turn id call = c := by
  rw [Cluster.turn, hget]

/-- A server ignores what it has published itself. -/
theorem receives_eq {c : Cluster} {id : String} {s : Server} (hget : c.servers.get? id = some s)
    (m : DistributedEventMessage) (now : Time) :
    c.receives id m now =
      if m.sourceServerId = s.session.serverId then c.commit id s (s.host c.room) []
      else c.commit id s ((s.host c.room).relayed m now) [m] := by
  rw [Cluster.receives, hget]
  show c.commit id s (after (handleRemoteEvent m now) (s.host c.room)) (if _ then _ else _) = _
  rw [after_handleRemoteEvent]
  by_cases hown : m.sourceServerId = s.session.serverId
  · have hhost : m.sourceServerId = (s.host c.room).session.serverId := hown
    rw [if_pos hown, if_pos hown, if_pos hhost]
  · have hhost : ¬ m.sourceServerId = (s.host c.room).session.serverId := hown
    rw [if_neg hown, if_neg hown, if_neg hhost]

end HexWar
