/-
  The sockets of the players on one server.

  A socket enters with `accept`: its connection is added under the room and the side that the URL
  names, as the texts they are.  Then its handler looks the session up, parses the side, and calls
  OnPlayerConnectedAsync, which sets the flag of the side and asks for the lock of the room (`lookup`);
  when that call is through the socket is announced (`announce`).  When its receive loop ends it
  reports its side as disconnected (`leave`) and takes itself out of the connection manager
  (`release`).  The clean-up of stale connections looks at the entries first (`inspect`) and removes
  what it has found afterwards (`sweep`).  Adding and removing a connection write two dictionaries
  each, and are one step here: what falls between the two writes could as well have come before them
  or after them.

  Three things go wrong.

  1. A connection is removed by its KEY, room and side, whichever socket asks for it; and the flag of a
     side is cleared whichever socket of that side has ended.  So the teardown of an old socket hits
     the new one.
  2. The `try` begins after the announcement.  A handler that finds no session, whose side is no
     PlayerSide, or whose call of the repository throws, is gone, and its two entries stay.
  3. A stale entry is removed by its key as well, and a new socket may have come under it since.

  `tracked_next_iff` says of one step that this is all that can go wrong, and
  `connections_tracked_iff` of every run.


  The proof rests on one invariant, `Sound`, that every step keeps, whether or not it comes at the
  right time: an entry of `connections` is that of the socket added last, and the reverse lookup
  knows every socket whose handler has not returned.  Given it, each step is looked at alone, as an
  equivalence between `Tracked` afterwards and the condition before.
-/
import HexWar.Domain.Converters
import HexWar.Lib.Dict
import HexWar.Lib.Runs

namespace HexWar

open Lib

/-! ## The side in a URL

The handler takes room and side from the URL as texts.  Only the session asks for a PlayerSide. -/

/-- What counts as white space around a name: char.IsWhiteSpace. -/
def isWhiteSpace (c : Char) : Bool :=
  isWhite c || (0x2000 ≤ c.toNat && c.toNat ≤ 0x200A) ||
    c.toNat ∈ [0x85, 0xA0, 0x1680, 0x2028, 0x2029, 0x202F, 0x205F, 0x3000]

/-- A text without the white space around it. -/
def trimmed (cs : List Char) : List Char :=
  ((cs.dropWhile isWhiteSpace).reverse.dropWhile isWhiteSpace).reverse

namespace PlayerSide

/-- The value behind a name of the enumeration. -/
def valueOf? (name : List Char) : Option Int :=
  match name with
  | ['A'] => some 0
  | ['B'] => some 1
  | _ => none

/-- Enum.Parse of a PlayerSide: an integer of 32 bits, whether or not a side has it, or names of sides
    with commas between them, whose values are or-ed.  It throws of anything else. -/
def parse? (value : String) : Option Int :=
  let names := (value.toList.splitOn ',').mapM fun name => valueOf? (trimmed name)
  match tryParseInt (String.ofList (value.toList.dropWhile isWhiteSpace)) with
  | some n => some n
  | none => names.map fun values => values.foldl max 0

/-- The side with a value.  The session has a state for each of them, and for nothing else. -/
def ofValue? (value : Int) : Option PlayerSide :=
  if value = 0 then some .a else if value = 1 then some .b else none

end PlayerSide

/-! ## The connection manager

Two dictionaries: the socket of a room and side, and the room and side of a socket. -/

/-- A room and a side, as the URL names them. -/
structure ConnectionKey where
  roomId : String
  playerSide : String
deriving DecidableEq, Repr

/-- The side that a session knows its player by. -/
def ConnectionKey.side? (key : ConnectionKey) : Option PlayerSide :=
  (PlayerSide.parse? key.playerSide).bind PlayerSide.ofValue?

/-- A connected socket, by its identifier. -/
abbrev Socket := Nat

/-- The two dictionaries are written one after the other. -/
structure ConnectionManager where
  connections : Dict ConnectionKey Socket
  reverseLookup : Dict Socket ConnectionKey

namespace ConnectionManager

/-- No connections. -/
def new : ConnectionManager := ⟨Dict.empty, Dict.empty⟩

/-- The connection replaces what was there for the key; the reverse entry of an older socket
    stays. -/
def addConnection (m : ConnectionManager) (key : ConnectionKey) (socket : Socket) :
    ConnectionManager where
  connections := m.connections.set key socket
  reverseLookup := m.reverseLookup.set socket key

/-- The key is read from the reverse lookup, and whatever is under it is removed. -/
def removeConnection (m : ConnectionManager) (socket : Socket) : ConnectionManager :=
  match m.reverseLookup.get? socket with
  | some key => ⟨m.connections.remove key, m.reverseLookup.remove socket⟩
  | none => m

/-- The socket of a room and side, as a sender finds it. -/
def getConnection (m : ConnectionManager) (key : ConnectionKey) : Option Socket :=
  m.connections.get? key

/-- Remove a connection that was found to be stale.  The reverse entry stays. -/
def removeStale (m : ConnectionManager) (key : ConnectionKey) : ConnectionManager :=
  { m with connections := m.connections.remove key }

end ConnectionManager

/-! ## The handlers -/

/-- How far HandleConnectionAsync has come for a socket. -/
inductive HandlerPhase where
  /-- The connection is added, the session is being looked up. -/
  | added
  /-- OnPlayerConnectedAsync has set the flag of the side, and is not through. -/
  | telling (side : PlayerSide)
  /-- The session was told of the connection, and the receive loop has not ended. -/
  | connected (side : PlayerSide)
  /-- The session was told that the connection is lost. -/
  | disconnected
  /-- The handler is through, or an exception has ended it. -/
  | returned
deriving DecidableEq, Repr

/-- One run of HandleConnectionAsync: the key it was called with, how far it is, and is its socket
    open? -/
structure Handler where
  key : ConnectionKey
  phase : HandlerPhase
  isOpen : Bool
deriving DecidableEq, Repr

/-- The sockets of a server: the connection manager, the handlers that run, and what the sessions
    know of it. -/
structure Hub where
  manager : ConnectionManager
  handlers : Dict Socket Handler
  /-- The IsConnected flags that were written, by room and side; the others are as they were
      created. -/
  flags : Dict (String × PlayerSide) Bool
  /-- The keys that a clean-up has found to be stale and not yet removed. -/
  stale : List ConnectionKey
  /-- The socket that was added last for a key. -/
  latest : Dict ConnectionKey Socket

/-- The steps.  Which outcome an awaited call has is part of the step. -/
inductive HubCall where
  /-- A socket comes in. -/
  | accept (socket : Socket) (key : ConnectionKey)
  /-- The session is looked up, and there is one or there is none, or the repository throws. -/
  | lookup (socket : Socket) (found : Bool)
  /-- OnPlayerConnectedAsync is through, or throws. -/
  | announce (socket : Socket) (completes : Bool)
  /-- It is closed, by the peer or by the network. -/
  | close (socket : Socket)
  /-- Its receive loop ends. -/
  | leave (socket : Socket)
  /-- Its handler takes it out of the manager and returns. -/
  | release (socket : Socket)
  /-- A clean-up looks at an entry, -/
  | inspect (key : ConnectionKey)
  /-- and removes one that it has found. -/
  | sweep (key : ConnectionKey)
deriving DecidableEq

namespace Hub

/-- No socket has come in. -/
def initial : Hub := ⟨.new, Dict.empty, Dict.empty, [], Dict.empty⟩

/-- A side counts as connected from the creation of its session on. -/
def isConnected (h : Hub) (roomId : String) (side : PlayerSide) : Bool :=
  (h.flags.get? (roomId, side)).getD true

/-- A socket comes in, and its connection is added. -/
def accept (h : Hub) (socket : Socket) (key : ConnectionKey) : Hub :=
  match h.handlers.get? socket with
  | some _ => h
  | none => { h with
      manager := h.manager.addConnection key socket
      handlers := h.handlers.set socket ⟨key, .added, true⟩
      latest := h.latest.set key socket }

/-- The session is found and is being told; or the handler is gone: it has found no session, or
    Enum.Parse throws, or the session has no state for the value. -/
def lookup (h : Hub) (socket : Socket) (found : Bool) : Hub :=
  match h.handlers.get? socket with
  | some ⟨key, .added, isOpen⟩ =>
    match (if found then key.side? else none) with
    | some side => { h with
        handlers := h.handlers.set socket ⟨key, .telling side, isOpen⟩
        flags := h.flags.set (key.roomId, side) true }
    | none => { h with handlers := h.handlers.set socket ⟨key, .returned, isOpen⟩ }
  | _ => h

/-- The session was told, and the receive loop begins; or the call has thrown. -/
def announce (h : Hub) (socket : Socket) (completes : Bool) : Hub :=
  match h.handlers.get? socket with
  | some ⟨key, .telling side, isOpen⟩ =>
    let phase := if completes then .connected side else .returned
    { h with handlers := h.handlers.set socket ⟨key, phase, isOpen⟩ }
  | _ => h

/-- The peer closes the socket, or the network does. -/
def close (h : Hub) (socket : Socket) : Hub :=
  match h.handlers.get? socket with
  | some handler => { h with handlers := h.handlers.set socket { handler with isOpen := false } }
  | none => h

/-- The receive loop ends, and the session is told. -/
def leave (h : Hub) (socket : Socket) : Hub :=
  match h.handlers.get? socket with
  | some ⟨key, .connected side, isOpen⟩ => { h with
      handlers := h.handlers.set socket ⟨key, .disconnected, isOpen⟩
      flags := h.flags.set (key.roomId, side) false }
  | _ => h

/-- The connection is removed, and the handler returns. -/
def release (h : Hub) (socket : Socket) : Hub :=
  match h.handlers.get? socket with
  | some ⟨key, .disconnected, isOpen⟩ => { h with
      manager := h.manager.removeConnection socket
      handlers := h.handlers.set socket ⟨key, .returned, isOpen⟩ }
  | _ => h

/-- Is the connection of a key to a socket that is not open any more? -/
def isStale (h : Hub) (key : ConnectionKey) : Bool :=
  match h.manager.connections.get? key with
  | some socket => !((h.handlers.get? socket).map (·.isOpen)).getD false
  | none => false

/-- A clean-up looks at a key. -/
def inspect (h : Hub) (key : ConnectionKey) : Hub :=
  if h.isStale key then { h with stale := key :: h.stale } else h

/-- A clean-up removes a key that it has found. -/
def sweep (h : Hub) (key : ConnectionKey) : Hub :=
  if key ∈ h.stale then
    { h with manager := h.manager.removeStale key, stale := h.stale.erase key }
  else h

/-- One step; a step of a handler that is not so far does nothing. -/
def next (h : Hub) : HubCall → Hub
  | .accept socket key => h.accept socket key
  | .lookup socket found => h.lookup socket found
  | .announce socket completes => h.announce socket completes
  | .close socket => h.close socket
  | .leave socket => h.leave socket
  | .release socket => h.release socket
  | .inspect key => h.inspect key
  | .sweep key => h.sweep key

end Hub

/-- A server's sockets under any steps. -/
def hubs : Machine Hub HubCall := ⟨Hub.initial, Hub.next, fun _ _ => True⟩

namespace Hub

/-! ## The properties

A socket is live from its announcement on, until it closes or its loop ends. -/

/-- The socket added last for a key is open, the session was told of its side, and its receive loop has
    not ended. -/
def Live (h : Hub) (key : ConnectionKey) (side : PlayerSide) (socket : Socket) : Prop :=
  h.latest.get? key = some socket ∧ h.handlers.get? socket = some ⟨key, .connected side, true⟩

instance (h : Hub) (key : ConnectionKey) (side : PlayerSide) (socket : Socket) :
    Decidable (h.Live key side socket) := inferInstanceAs (Decidable (_ ∧ _))

/-- **The connections are tracked**: a live socket is the one that is found, and its side counts as
    connected; the two dictionaries agree; and nothing is left of a handler that has returned. -/
structure Tracked (h : Hub) : Prop where
  /-- What is live can be sent to, and counts as connected. -/
  live : ∀ key side socket, h.Live key side socket →
    h.manager.getConnection key = some socket ∧ h.isConnected key.roomId side = true
  /-- Every entry can be removed by its socket. -/
  reverse : ∀ key socket, h.manager.connections.get? key = some socket →
    h.manager.reverseLookup.get? socket = some key
  /-- Neither dictionary mentions a socket whose handler is through. -/
  gone : ∀ socket handler, h.handlers.get? socket = some handler → handler.phase = .returned →
    (∀ key, h.manager.connections.get? key ≠ some socket) ∧
      h.manager.reverseLookup.get? socket = none

/-- A step that comes at the right time.  A session is found, and has the side of the URL; the call that
    tells it does not throw; and when the newest socket of a key is announced open, neither its entry
    has been removed nor the flag of its side been cleared since they were written.  When a socket ends,
    no other one of that side is live, and none of that key when an entry is removed. -/
def OnTime (h : Hub) : HubCall → Prop
  | .lookup socket found => ∀ handler, h.handlers.get? socket = some handler →
      handler.phase = .added → found = true ∧ handler.key.side? ≠ none
  | .announce socket completes => ∀ handler, h.handlers.get? socket = some handler →
      ∀ side, handler.phase = .telling side → completes = true ∧ (handler.isOpen = true →
        h.latest.get? handler.key = some socket → h.manager.connections.get? handler.key ≠ none ∧
          h.isConnected handler.key.roomId side = true)
  | .leave socket => ∀ handler, h.handlers.get? socket = some handler →
      ∀ side, handler.phase = .connected side → ∀ key other, key.roomId = handler.key.roomId →
        h.Live key side other → other = socket
  | .release socket => ∀ handler, h.handlers.get? socket = some handler →
      handler.phase = .disconnected → ∀ side other, ¬ h.Live handler.key side other
  | .sweep key => key ∈ h.stale → ∀ side other, ¬ h.Live key side other
  | .accept _ _ | .close _ | .inspect _ => True

/-! ## The invariant

Neither the flags nor the list of stale keys play a part in it. -/

/-- What holds of a hub between two steps. -/
structure Sound (h : Hub) : Prop where
  /-- The socket added last has a handler, with this key. -/
  latest : ∀ key socket, h.latest.get? key = some socket →
    ∃ handler, h.handlers.get? socket = some handler ∧ handler.key = key
  /-- What is under a key is the socket added last for it: a removal leaves nothing. -/
  connections : ∀ key socket, h.manager.connections.get? key = some socket →
    h.latest.get? key = some socket
  /-- Both dictionaries agree on every entry. -/
  reverse : ∀ key socket, h.manager.connections.get? key = some socket →
    h.manager.reverseLookup.get? socket = some key
  /-- A handler that has not returned is in the reverse lookup. -/
  entered : ∀ socket handler, h.handlers.get? socket = some handler → handler.phase ≠ .returned →
    h.manager.reverseLookup.get? socket = some handler.key
  /-- And only sockets that have come in are there. -/
  known : ∀ socket key, h.manager.reverseLookup.get? socket = some key →
    ∃ handler, h.handlers.get? socket = some handler ∧ handler.key = key

variable {h : Hub} {socket : Socket} {handler : Handler} {key : ConnectionKey} {side : PlayerSide}

/-- It holds before the first socket. -/
theorem sound_initial : Sound initial where
  latest _ _ hk := nomatch hk
  connections _ _ hk := nomatch hk
  reverse _ _ hk := nomatch hk
  entered _ _ hk := nomatch hk
  known _ _ hk := nomatch hk

/-- The handlers after one of them goes on: this one, -/
theorem get?_handlers_set (h : Hub) (socket other : Socket) (handler : Handler) :
    (h.handlers.set socket handler).get? other =
      if socket = other then some handler else h.handlers.get? other := Dict.get?_set _ _ _ _

/-- and seen from its own socket. -/
theorem get?_handlers_set_self (h : Hub) (socket : Socket) (handler : Handler) :
    (h.handlers.set socket handler).get? socket = some handler :=
  (get?_handlers_set h socket socket handler).trans (if_pos rfl)

/-- A handler that goes on, with the same key. -/
theorem Sound.setHandler (hs : h.Sound) (hget : h.handlers.get? socket = some handler)
    (handler' : Handler) (hkey : handler'.key = handler.key)
    (hphase : handler'.phase ≠ .returned → handler.phase ≠ .returned)
    (flags : Dict (String × PlayerSide) Bool) :
    Sound { h with handlers := h.handlers.set socket handler', flags := flags } := by
  -- every handler is still there, under its key
  have hkept : ∀ other t, h.handlers.get? other = some t →
      ∃ t', (h.handlers.set socket handler').get? other = some t' ∧ t'.key = t.key := by
    intro other t ht
    rw [get?_handlers_set]
    split
    · rename_i heq
      subst heq
      rw [hget] at ht
      cases ht
      exact ⟨handler', rfl, hkey⟩
    · exact ⟨t, ht, rfl⟩
  refine ⟨fun k other hk => ?_, hs.connections, hs.reverse, fun other t ht hopen => ?_,
    fun other k hk => ?_⟩
  · obtain ⟨t, ht, htkey⟩ := hs.latest k other hk
    obtain ⟨t', ht', hsame⟩ := hkept other t ht
    exact ⟨t', ht', hsame.trans htkey⟩
  · replace ht : _ = some t := (get?_handlers_set h socket other handler').symm.trans ht
    split at ht
    · rename_i heq
      subst heq
      cases ht
      rw [hkey]
      exact hs.entered socket handler hget (hphase hopen)
    · exact hs.entered other t ht hopen
  · obtain ⟨t, ht, htkey⟩ := hs.known other k hk
    obtain ⟨t', ht', hsame⟩ := hkept other t ht
    exact ⟨t', ht', hsame.trans htkey⟩

/-- A socket that comes in keeps the invariant: it has not been seen before. -/
theorem Sound.accept (hs : h.Sound) (hfresh : h.handlers.get? socket = none)
    (key : ConnectionKey) : (h.accept socket key).Sound := by
  rw [Hub.accept, hfresh]
  -- Every socket with a handler is another one.
  have hother : ∀ {other t}, h.handlers.get? other = some t → socket ≠ other := by
    rintro other t ht rfl
    rw [hfresh] at ht
    cases ht
  have hkept : ∀ other t, h.handlers.get? other = some t →
      (h.handlers.set socket ⟨key, .added, true⟩).get? other = some t := by
    intro other t ht
    rw [get?_handlers_set, if_neg (hother ht)]
    exact ht
  have hnew : (h.handlers.set socket ⟨key, .added, true⟩).get? socket =
      some ⟨key, .added, true⟩ := by
    rw [get?_handlers_set, if_pos rfl]
  refine ⟨fun k other hk => ?_, fun k other hk => ?_, fun k other hk => ?_,
    fun other t ht hopen => ?_, fun other k hk => ?_⟩
  · replace hk : _ = some other := (Dict.get?_set h.latest key k socket).symm.trans hk
    split at hk
    · rename_i heq
      cases hk
      exact ⟨_, hnew, heq⟩
    · obtain ⟨t, ht, htkey⟩ := hs.latest k other hk
      exact ⟨t, hkept other t ht, htkey⟩
  · replace hk : _ = some other := (Dict.get?_set h.manager.connections key k socket).symm.trans hk
    show (h.latest.set key socket).get? k = some other
    rw [Dict.get?_set]
    split at hk
    · rename_i heq
      rw [if_pos heq]
      exact hk
    · rename_i hne
      rw [if_neg hne]
      exact hs.connections k other hk
  · replace hk : _ = some other := (Dict.get?_set h.manager.connections key k socket).symm.trans hk
    show (h.manager.reverseLookup.set socket key).get? other = some k
    rw [Dict.get?_set]
    split at hk
    · rename_i heq
      cases hk
      rw [if_pos rfl, heq]
    · obtain ⟨t, ht, -⟩ := hs.latest k other (hs.connections k other hk)
      rw [if_neg (hother ht)]
      exact hs.reverse k other hk
  · replace ht : _ = some t := (get?_handlers_set h socket other _).symm.trans ht
    show (h.manager.reverseLookup.set socket key).get? other = some t.key
    rw [Dict.get?_set]
    split at ht
    · rename_i heq
      cases ht
      rw [if_pos heq]
    · rename_i hne
      rw [if_neg hne]
      exact hs.entered other t ht hopen
  · replace hk : _ = some k :=
      (Dict.get?_set h.manager.reverseLookup socket other key).symm.trans hk
    split at hk
    · rename_i heq
      cases hk
      subst heq
      exact ⟨_, hnew, rfl⟩
    · obtain ⟨t, ht, htkey⟩ := hs.known other k hk
      exact ⟨t, hkept other t ht, htkey⟩

/-- Entries of `connections` may go at any time. -/
theorem Sound.removeStale (hs : h.Sound) (key : ConnectionKey) (stale : List ConnectionKey) :
    Sound { h with manager := h.manager.removeStale key, stale := stale } := by
  have hkept : ∀ k other, (h.manager.connections.remove key).get? k = some other →
      h.manager.connections.get? k = some other := by
    intro k other hk
    rw [Dict.get?_remove] at hk
    split at hk
    · cases hk
    · exact hk
  exact ⟨hs.latest, fun k other hk => hs.connections k other (hkept k other hk),
    fun k other hk => hs.reverse k other (hkept k other hk), hs.entered, hs.known⟩

/-- What `release` leaves. -/
theorem release_eq (hs : h.Sound) {isOpen : Bool}
    (hget : h.handlers.get? socket = some ⟨key, .disconnected, isOpen⟩) :
    h.release socket = { h with
      manager := ⟨h.manager.connections.remove key, h.manager.reverseLookup.remove socket⟩
      handlers := h.handlers.set socket ⟨key, .returned, isOpen⟩ } := by
  have hentered := hs.entered socket _ hget (by intro heq; cases heq)
  rw [release, hget, ConnectionManager.removeConnection, hentered]

/-- A handler that is released keeps the invariant: it returns, and the entry of its key is gone. -/
theorem Sound.release (hs : h.Sound) {isOpen : Bool}
    (hget : h.handlers.get? socket = some ⟨key, .disconnected, isOpen⟩) :
    (h.release socket).Sound := by
  rw [release_eq hs hget]
  have hset := hs.setHandler hget ⟨key, .returned, isOpen⟩ rfl
    (fun hno => absurd rfl hno) h.flags
  have hkept : ∀ k other, (h.manager.connections.remove key).get? k = some other →
      k ≠ key ∧ h.manager.connections.get? k = some other := by
    intro k other hk
    rw [Dict.get?_remove] at hk
    split at hk
    · cases hk
    · rename_i hne
      exact ⟨fun heq => hne heq.symm, hk⟩
  refine ⟨hset.latest, fun k other hk => hs.connections k other (hkept k other hk).2,
    fun k other hk => ?_, fun other t ht hopen => ?_, fun other k hk => ?_⟩
  · obtain ⟨hne, hconn⟩ := hkept k other hk
    have hreverse := hs.reverse k other hconn
    show (h.manager.reverseLookup.remove socket).get? other = some k
    rw [Dict.get?_remove, if_neg]
    · exact hreverse
    · rintro rfl
      rw [hs.entered socket _ hget (by intro heq; cases heq)] at hreverse
      exact hne (Option.some.inj hreverse).symm
  · show (h.manager.reverseLookup.remove socket).get? other = some t.key
    rw [Dict.get?_remove, if_neg]
    · exact hset.entered other t ht hopen
    · rintro rfl
      replace ht : _ = some t := (get?_handlers_set h socket socket _).symm.trans ht
      rw [if_pos rfl] at ht
      cases ht
      exact hopen rfl
  · replace hk : _ = some k := (Dict.get?_remove h.manager.reverseLookup socket other).symm.trans hk
    split at hk
    · cases hk
    · exact hset.known other k hk

/-- Every step keeps the invariant. -/
theorem Sound.next (hs : h.Sound) (call : HubCall) : (h.next call).Sound := by
  cases call with
  | accept socket key =>
    show (h.accept socket key).Sound
    rcases hget : h.handlers.get? socket with _ | t
    · exact hs.accept hget key
    · rw [Hub.accept, hget]
      exact hs
  | lookup socket found =>
    show (h.lookup socket found).Sound
    rw [Hub.lookup]
    split
    · rename_i key isOpen hget
      split
      · rename_i side _
        exact hs.setHandler hget ⟨key, .telling side, isOpen⟩ rfl (fun _ heq => by cases heq) _
      · exact hs.setHandler hget ⟨key, .returned, isOpen⟩ rfl (fun hno => absurd rfl hno) _
    · exact hs
  | announce socket completes =>
    show (h.announce socket completes).Sound
    rw [Hub.announce]
    split
    · rename_i key side isOpen hget
      exact hs.setHandler hget ⟨key, if completes then .connected side else .returned, isOpen⟩ rfl
        (fun _ heq => by cases heq) _
    · exact hs
  | close socket =>
    show (h.close socket).Sound
    rw [Hub.close]
    split
    · rename_i t hget
      exact hs.setHandler hget { t with isOpen := false } rfl id _
    · exact hs
  | leave socket =>
    show (h.leave socket).Sound
    rw [Hub.leave]
    split
    · rename_i key side isOpen hget
      exact hs.setHandler hget ⟨key, .disconnected, isOpen⟩ rfl (fun _ heq => by cases heq) _
    · exact hs
  | release socket =>
    show (h.release socket).Sound
    rcases hget : h.handlers.get? socket with _ | ⟨key, phase, isOpen⟩
    · rw [Hub.release, hget]
      exact hs
    · cases phase with
      | disconnected => exact hs.release hget
      | added | telling _ | connected _ | returned =>
        rw [Hub.release, hget]
        exact hs
  | inspect key =>
    show (h.inspect key).Sound
    rw [Hub.inspect]
    split
    · exact ⟨hs.latest, hs.connections, hs.reverse, hs.entered, hs.known⟩
    · exact hs
  | sweep key =>
    show (h.sweep key).Sound
    rw [Hub.sweep]
    split
    · exact hs.removeStale key _
    · exact hs

/-! ## One step

For each step the condition under which it leaves the connections tracked.  The steps of a handler
come in two kinds: those that change its phase, and those that also take something out. -/

/-- Who is live after a handler has gone on. -/
theorem live_setHandler (handler' : Handler) (flags : Dict (String × PlayerSide) Bool)
    (k : ConnectionKey) (t : PlayerSide) (other : Socket) :
    Live { h with handlers := h.handlers.set socket handler', flags := flags } k t other ↔
      h.latest.get? k = some other ∧
        (if socket = other then handler' = ⟨k, .connected t, true⟩
          else h.handlers.get? other = some ⟨k, .connected t, true⟩) := by
  show (_ ∧ (h.handlers.set socket handler').get? other = _) ↔ _
  rw [get?_handlers_set]
  split
  · rw [Option.some.injEq]
  · rfl

/-- A newcomer is not announced yet, and takes the place of the older ones. -/
theorem tracked_accept (hs : h.Sound) (ht : h.Tracked) (hfresh : h.handlers.get? socket = none)
    (key : ConnectionKey) : (h.accept socket key).Tracked := by
  have hsound := hs.accept hfresh key
  rw [Hub.accept, hfresh] at hsound ⊢
  refine ⟨?_, hsound.reverse, ?_⟩
  · rintro k side other ⟨hlatest, hconnected⟩
    replace hlatest : _ = some other := (Dict.get?_set h.latest key k socket).symm.trans hlatest
    replace hconnected : _ = some _ := (get?_handlers_set h socket other _).symm.trans hconnected
    have hne : socket ≠ other := by
      rintro rfl
      rw [if_pos rfl] at hconnected
      cases hconnected
    -- The key of a live socket is not the newcomer's: that key's latest socket has just come in.
    have hkey : key ≠ k := by
      rintro rfl
      rw [if_pos rfl] at hlatest
      exact hne (Option.some.inj hlatest)
    rw [if_neg hkey] at hlatest
    rw [if_neg hne] at hconnected
    obtain ⟨hconn, hflag⟩ := ht.live k side other ⟨hlatest, hconnected⟩
    refine ⟨?_, hflag⟩
    show (h.manager.connections.set key socket).get? k = some other
    rw [Dict.get?_set, if_neg hkey]
    exact hconn
  · intro other t hget hreturned
    replace hget : _ = some t := (get?_handlers_set h socket other _).symm.trans hget
    split at hget
    · cases hget
      cases hreturned
    rename_i hne
    obtain ⟨hconn, hreverse⟩ := ht.gone other t hget hreturned
    constructor
    · intro k hk
      replace hk : _ = some other :=
        (Dict.get?_set h.manager.connections key k socket).symm.trans hk
      split at hk
      · exact hne (Option.some.inj hk)
      · exact hconn k hk
    · show (h.manager.reverseLookup.set socket key).get? other = none
      rw [Dict.get?_set, if_neg hne]
      exact hreverse

/-- A handler that goes on and does not return leaves nothing behind. -/
theorem gone_setHandler (ht : h.Tracked) (hget : h.handlers.get? socket = some handler)
    (handler' : Handler) (hphase : handler'.phase = .returned → handler.phase = .returned)
    {other : Socket} {t : Handler} (hother : (h.handlers.set socket handler').get? other = some t)
    (hreturned : t.phase = .returned) : (∀ k, h.manager.connections.get? k ≠ some other) ∧
      h.manager.reverseLookup.get? other = none := by
  rw [get?_handlers_set] at hother
  split at hother
  · rename_i heq
    cases hother
    subst heq
    exact ht.gone socket handler hget (hphase hreturned)
  · exact ht.gone other t hother hreturned

/-- A handler that returns before the `try` leaves its reverse entry behind. -/
theorem not_tracked_of_abandoned (hs : h.Sound) (hget : h.handlers.get? socket = some handler)
    (hphase : handler.phase ≠ .returned) {h' : Hub} {handler' : Handler}
    (hget' : h'.handlers.get? socket = some handler') (hreturned : handler'.phase = .returned)
    (hmanager : h'.manager = h.manager) : ¬ h'.Tracked := by
  intro htracked
  have hentered := hs.entered socket handler hget hphase
  have hnone := (htracked.gone socket handler' hget' hreturned).2
  rw [hmanager, hentered] at hnone
  cases hnone

/-- A handler that neither returns nor becomes live leaves the connections tracked exactly if the
    flags of the live sockets stay. -/
theorem tracked_setHandler_iff (hs : h.Sound) (ht : h.Tracked)
    (hget : h.handlers.get? socket = some handler) (handler' : Handler)
    (hphase : handler'.phase = .returned → handler.phase = .returned)
    (hlive : ∀ k t, handler' ≠ ⟨k, .connected t, true⟩) (flags : Dict (String × PlayerSide) Bool) :
    Tracked { h with handlers := h.handlers.set socket handler', flags := flags } ↔
      ∀ k t other, socket ≠ other → h.Live k t other → (flags.get? (k.roomId, t)).getD true =
        true := by
  constructor
  · intro htracked k t other hne hl
    refine (htracked.live k t other ((live_setHandler handler' flags k t other).mpr ⟨hl.1, ?_⟩)).2
    rw [if_neg hne]
    exact hl.2
  · intro hflags
    refine ⟨fun k t other hl => ?_, hs.reverse,
      fun other t hother => gone_setHandler ht hget handler' hphase hother⟩
    obtain ⟨hlatest, hconnected⟩ := (live_setHandler handler' flags k t other).mp hl
    split at hconnected
    · exact absurd hconnected (hlive k t)
    · rename_i hne
      exact ⟨(ht.live k t other ⟨hlatest, hconnected⟩).1,
        hflags k t other hne ⟨hlatest, hconnected⟩⟩

/-- A socket whose session is looked up. -/
theorem tracked_lookup_iff (hs : h.Sound) (ht : h.Tracked) {isOpen : Bool}
    (hget : h.handlers.get? socket = some ⟨key, .added, isOpen⟩) (found : Bool) :
    (h.lookup socket found).Tracked ↔ found = true ∧ key.side? ≠ none := by
  have hgoes : found = true ∧ key.side? ≠ none ↔ (if found then key.side? else none) ≠ none := by
    cases found with
    | true => exact and_iff_right rfl
    | false => exact iff_of_false (fun h => by cases h.1) (fun h => h rfl)
  rw [lookup, hget, hgoes]
  show Tracked (match (if found then key.side? else none) with
    | some side => _
    | none => _) ↔ _
  -- The handler goes on exactly with a side.
  generalize (if found then key.side? else none) = side?
  cases side? with
  | none =>
    refine iff_of_false ?_ (fun hsome => hsome rfl)
    refine not_tracked_of_abandoned hs hget nofun (get?_handlers_set_self h socket _) rfl rfl
  | some side =>
    refine iff_of_true ?_ (Option.some_ne_none _)
    refine (tracked_setHandler_iff hs ht hget ⟨key, .telling side, isOpen⟩ nofun
      (fun k t heq => by cases heq) _).mpr fun k t other _ hl => ?_
    rw [Dict.get?_set]
    split
    · rfl
    · exact (ht.live k t other hl).2

/-- A socket that is announced. -/
theorem tracked_announce_iff (hs : h.Sound) (ht : h.Tracked) {isOpen : Bool}
    (hget : h.handlers.get? socket = some ⟨key, .telling side, isOpen⟩) (completes : Bool) :
    (h.announce socket completes).Tracked ↔ completes = true ∧ (isOpen = true →
      h.latest.get? key = some socket → h.manager.connections.get? key ≠ none ∧
        h.isConnected key.roomId side = true) := by
  rw [announce, hget]
  cases completes with
  | false =>
    refine iff_of_false ?_ (fun hcompletes => by cases hcompletes.1)
    exact not_tracked_of_abandoned hs hget nofun (get?_handlers_set_self h socket _) rfl rfl
  | true =>
    show Tracked { h with handlers := h.handlers.set socket ⟨key, .connected side, isOpen⟩ } ↔ _
    have hlive := @live_setHandler h socket ⟨key, .connected side, isOpen⟩ h.flags
    constructor
    · intro htracked
      refine ⟨rfl, fun hopen hlatest => ?_⟩
      obtain ⟨hfound, hflag⟩ := htracked.live key side socket ((hlive key side socket).mpr ⟨hlatest, by
        rw [if_pos rfl, hopen]⟩)
      refine ⟨fun hnone => ?_, hflag⟩
      rw [ConnectionManager.getConnection, hnone] at hfound
      cases hfound
    · rintro ⟨-, hentry⟩
      refine ⟨fun k t other hl => ?_, hs.reverse,
        fun other t hother => gone_setHandler ht hget ⟨key, .connected side, isOpen⟩ nofun hother⟩
      obtain ⟨hlatest, hconnected⟩ := (hlive k t other).mp hl
      split at hconnected
      · rename_i heq
        subst heq
        cases hconnected
        obtain ⟨hkept, hflag⟩ := hentry rfl hlatest
        refine ⟨?_, hflag⟩
        obtain ⟨entry, hentry'⟩ := Option.ne_none_iff_exists'.mp hkept
        have hsame := hs.connections key entry hentry'
        rw [hlatest] at hsame
        exact hentry'.trans hsame.symm
      · exact ht.live k t other ⟨hlatest, hconnected⟩

/-- A socket that ends clears the flag of its side. -/
theorem tracked_leave_iff (hs : h.Sound) (ht : h.Tracked) {isOpen : Bool}
    (hget : h.handlers.get? socket = some ⟨key, .connected side, isOpen⟩) :
    (h.leave socket).Tracked ↔
      ∀ k other, k.roomId = key.roomId → h.Live k side other → other = socket := by
  rw [leave, hget]
  refine (tracked_setHandler_iff hs ht hget ⟨key, .disconnected, isOpen⟩ nofun
    (fun k t heq => by cases heq) (h.flags.set (key.roomId, side) false)).trans ?_
  constructor
  · intro hflags k other hroom hl
    by_contra hne
    have hflag := hflags k side other (fun heq => hne heq.symm) hl
    rw [hroom, Dict.get?_set, if_pos rfl] at hflag
    cases hflag
  · intro halone k t other hne hl
    rw [Dict.get?_set, if_neg]
    · exact (ht.live k t other hl).2
    · intro heq
      -- The cleared flag is that of this room and side.
      obtain ⟨hroom, rfl⟩ := Prod.mk.inj heq
      exact hne (halone k other hroom.symm hl).symm

/-- The entry of a key is removed. -/
theorem live_kept_iff (ht : h.Tracked) (key : ConnectionKey) :
    (∀ k t other, h.Live k t other → (h.manager.connections.remove key).get? k = some other) ↔
      ∀ t other, ¬ h.Live key t other := by
  constructor
  · intro hkept t other hl
    have hfound := hkept key t other hl
    rw [Dict.get?_remove, if_pos rfl] at hfound
    cases hfound
  · intro halone k t other hl
    rw [Dict.get?_remove, if_neg]
    · exact (ht.live k t other hl).1
    · rintro rfl
      exact halone t other hl

/-- What is still found after a removal was there before, under another key. -/
theorem get?_connections_remove {k : ConnectionKey} {other : Socket}
    (hk : (h.manager.connections.remove key).get? k = some other) :
    k ≠ key ∧ h.manager.connections.get? k = some other := by
  rw [Dict.get?_remove] at hk
  split at hk
  · cases hk
  · rename_i hne
    exact ⟨fun heq => hne heq.symm, hk⟩

/-- A socket that is released takes the entry of its side along. -/
theorem tracked_release_iff (hs : h.Sound) (ht : h.Tracked) {isOpen : Bool}
    (hget : h.handlers.get? socket = some ⟨key, .disconnected, isOpen⟩) :
    (h.release socket).Tracked ↔ ∀ t other, ¬ h.Live key t other := by
  have hsound := hs.release hget
  have hentered := hs.entered socket _ hget (by intro heq; cases heq)
  rw [release_eq hs hget] at hsound ⊢
  -- the live sockets are the same before and after
  have hlive : ∀ k t other, Live { h with
      manager := ⟨h.manager.connections.remove key, h.manager.reverseLookup.remove socket⟩,
      handlers := h.handlers.set socket ⟨key, .returned, isOpen⟩ } k t other ↔ h.Live k t other := by
    intro k t other
    refine (live_setHandler ⟨key, .returned, isOpen⟩ h.flags k t other).trans (and_congr_right' ?_)
    split
    · rename_i heq
      subst heq
      rw [hget]
      constructor
      · intro heq
        cases heq
      · intro heq
        cases heq
    · rfl
  rw [← live_kept_iff ht key]
  constructor
  · intro htracked k t other hl
    exact (htracked.live k t other ((hlive k t other).mpr hl)).1
  · intro hkept
    refine ⟨fun k t other hl => ?_, hsound.reverse, fun other t hother hreturned => ?_⟩
    · have hold := (hlive k t other).mp hl
      exact ⟨hkept k t other hold, (ht.live k t other hold).2⟩
    replace hother : _ = some t := (get?_handlers_set h socket other _).symm.trans hother
    split at hother
    · rename_i heq
      subst heq
      refine ⟨fun k hk => ?_, ?_⟩
      · obtain ⟨hne, hconn⟩ := get?_connections_remove hk
        have hreverse := hs.reverse k socket hconn
        rw [hentered] at hreverse
        exact hne (Option.some.inj hreverse).symm
      · show (h.manager.reverseLookup.remove socket).get? socket = none
        rw [Dict.get?_remove, if_pos rfl]
    · rename_i hne
      obtain ⟨hconn, hreverse⟩ := ht.gone other t hother hreturned
      refine ⟨fun k hk => hconn k (get?_connections_remove hk).2, ?_⟩
      show (h.manager.reverseLookup.remove socket).get? other = none
      rw [Dict.get?_remove, if_neg hne]
      exact hreverse

/-- A clean-up that removes an entry takes the live socket of that key along. -/
theorem tracked_sweep_iff (hs : h.Sound) (ht : h.Tracked) (hmem : key ∈ h.stale) :
    (h.sweep key).Tracked ↔ ∀ t other, ¬ h.Live key t other := by
  rw [sweep, if_pos hmem, ← live_kept_iff ht key]
  constructor
  · intro htracked k t other hl
    exact (htracked.live k t other hl).1
  · intro hkept
    refine ⟨fun k t other hl => ⟨hkept k t other hl, (ht.live k t other hl).2⟩,
      (hs.removeStale key (h.stale.erase key)).reverse, fun other t hother hreturned => ?_⟩
    obtain ⟨hconn, hreverse⟩ := ht.gone other t hother hreturned
    exact ⟨fun k hk => hconn k (get?_connections_remove hk).2, hreverse⟩

/-- A step of the handler of a socket; without one it does nothing. -/
theorem tracked_handler_iff (ht : h.Tracked) {h' : Hub} {cond : Handler → Prop}
    (hstep : ∀ t, h.handlers.get? socket = some t → (h'.Tracked ↔ cond t))
    (hidle : h.handlers.get? socket = none → h' = h) :
    h'.Tracked ↔ ∀ t, h.handlers.get? socket = some t → cond t := by
  rcases hget : h.handlers.get? socket with _ | t
  · rw [hidle hget]
    exact iff_of_true ht nofun
  · rw [hstep t hget]
    constructor
    · rintro hcond t' ⟨⟩
      exact hcond
    · intro hall
      exact hall t rfl

/-- **One step** keeps the connections tracked exactly if it comes at the right time.  A handler does
    nothing in a phase that the step is not for. -/
theorem tracked_next_iff (hs : h.Sound) (ht : h.Tracked) (call : HubCall) :
    (h.next call).Tracked ↔ h.OnTime call := by
  cases call with
  | accept socket key =>
    refine iff_of_true ?_ trivial
    show (h.accept socket key).Tracked
    rcases hget : h.handlers.get? socket with _ | t
    · exact tracked_accept hs ht hget key
    · rw [accept, hget]
      exact ht
  | lookup socket found =>
    refine tracked_handler_iff ht (fun t hget => ?_) fun hnone => ?_
    · obtain ⟨key, phase, isOpen⟩ := t
      cases phase with
      | added => exact (tracked_lookup_iff hs ht hget found).trans ⟨fun h _ => h, fun h => h rfl⟩
      | telling _ | connected _ | disconnected | returned =>
        refine iff_of_true ?_ nofun
        show (h.lookup socket found).Tracked
        rw [lookup, hget]
        exact ht
    · show h.lookup socket found = h
      rw [lookup, hnone]
  | announce socket completes =>
    refine tracked_handler_iff ht (fun t hget => ?_) fun hnone => ?_
    · obtain ⟨key, phase, isOpen⟩ := t
      cases phase with
      | telling side =>
        refine (tracked_announce_iff hs ht hget completes).trans ⟨?_, fun hall => hall side rfl⟩
        rintro hcond _ ⟨⟩
        exact hcond
      | added | connected _ | disconnected | returned =>
        refine iff_of_true ?_ nofun
        show (h.announce socket completes).Tracked
        rw [announce, hget]
        exact ht
    · show h.announce socket completes = h
      rw [announce, hnone]
  | close socket =>
    refine iff_of_true ?_ trivial
    show (h.close socket).Tracked
    rw [close]
    split
    · rename_i t hget
      refine (tracked_setHandler_iff hs ht hget { t with isOpen := false } id (fun k t' heq => ?_)
        h.flags).mpr fun k t' other _ hl => (ht.live k t' other hl).2
      exact absurd (congrArg Handler.isOpen heq) Bool.false_ne_true
    · exact ht
  | leave socket =>
    refine tracked_handler_iff ht (fun t hget => ?_) fun hnone => ?_
    · obtain ⟨key, phase, isOpen⟩ := t
      cases phase with
      | connected side =>
        refine (tracked_leave_iff hs ht hget).trans ⟨?_, fun hall => hall side rfl⟩
        rintro halone _ ⟨⟩
        exact halone
      | added | telling _ | disconnected | returned =>
        refine iff_of_true ?_ nofun
        show (h.leave socket).Tracked
        rw [leave, hget]
        exact ht
    · show h.leave socket = h
      rw [leave, hnone]
  | release socket =>
    refine tracked_handler_iff ht (fun t hget => ?_) fun hnone => ?_
    · obtain ⟨key, phase, isOpen⟩ := t
      cases phase with
      | disconnected => exact (tracked_release_iff hs ht hget).trans ⟨fun h _ => h, fun h => h rfl⟩
      | added | telling _ | connected _ | returned =>
        refine iff_of_true ?_ nofun
        show (h.release socket).Tracked
        rw [release, hget]
        exact ht
    · show h.release socket = h
      rw [release, hnone]
  | inspect key =>
    refine iff_of_true ?_ trivial
    show (h.inspect key).Tracked
    rw [inspect]
    split
    · exact ⟨ht.live, ht.reverse, ht.gone⟩
    · exact ht
  | sweep key =>
    show (h.sweep key).Tracked ↔ _
    by_cases hmem : key ∈ h.stale
    · rw [tracked_sweep_iff hs ht hmem]
      exact ⟨fun hcond _ => hcond, fun htime => htime hmem⟩
    · rw [sweep, if_neg hmem]
      exact iff_of_true ht fun hin => absurd hin hmem

/-- Before the first socket there is nothing to track. -/
theorem tracked_initial : Tracked initial where
  live _ _ _ hl := by cases hl.1
  reverse _ _ hk := by cases hk
  gone _ _ hget _ := by cases hget

end Hub

/-! ## Every run

The invariant needs nothing of the run, so the step lemma carries over as an equivalence. -/

/-- **The connections are tracked** along a run exactly if every step comes at the right time. -/
theorem connections_tracked_iff (calls : List HubCall) :
    (∀ h ∈ hubs.visited hubs.start calls, h.Tracked) ↔ hubs.Steps Hub.OnTime hubs.start calls := by
  have hall : hubs.Steps hubs.Legal hubs.start calls := Machine.steps_of_forall (fun _ _ => trivial) _ _
  refine Machine.visited_iff (I := Hub.Sound) (P := Hub.Tracked) ?_ ?_ Hub.sound_initial
    Hub.tracked_initial hall
  · intro h call hs _
    exact hs.next call
  · intro h call hs _ ht
    exact Hub.tracked_next_iff hs ht call

/-- A player comes back on a second socket before the receive loop of the first one has ended, and
    then that loop ends. -/
def replacedCalls : List HubCall :=
  [.accept 1 ⟨"room", "A"⟩, .lookup 1 true, .announce 1 true, .accept 2 ⟨"room", "A"⟩, .lookup 2 true,
    .announce 2 true, .close 1, .leave 1, .release 1]

/-- A socket comes in under a side that there is not. -/
def unknownSideCalls : List HubCall := [.accept 1 ⟨"room", "a"⟩, .lookup 1 true]

/-- The late teardown of the old socket cuts the new one off: it is open and announced, and it is not
    found, and its player counts as away.  And a socket whose side does not parse leaves its entry
    behind. -/
theorem replaced_cut_off :
    (∃ h ∈ hubs.visited hubs.start replacedCalls,
      h.Live ⟨"room", "A"⟩ .a 2 ∧ h.manager.getConnection ⟨"room", "A"⟩ = none ∧
        h.isConnected "room" .a = false ∧ ¬ h.Tracked) ∧
    (∃ h ∈ hubs.visited hubs.start unknownSideCalls,
      (∃ handler ∈ h.handlers.get? 1, handler.phase = .returned) ∧
        h.manager.getConnection ⟨"room", "a"⟩ = some 1 ∧ ¬ h.Tracked) := by
  -- Both failures are seen in the last state of their run.
  have hmem : hubs.after hubs.start replacedCalls ∈ hubs.visited hubs.start replacedCalls :=
    Machine.mem_visited_iff.mpr ⟨replacedCalls, [], (List.append_nil _).symm, rfl⟩
  have hmem' : hubs.after hubs.start unknownSideCalls ∈ hubs.visited hubs.start unknownSideCalls :=
    Machine.mem_visited_iff.mpr ⟨unknownSideCalls, [], (List.append_nil _).symm, rfl⟩
  have hlive : (hubs.after hubs.start replacedCalls).Live ⟨"room", "A"⟩ .a 2 := by decide +kernel
  have hnone : (hubs.after hubs.start replacedCalls).manager.getConnection ⟨"room", "A"⟩ = none := by
    decide +kernel
  have hreturned : (hubs.after hubs.start unknownSideCalls).handlers.get? 1 =
      some ⟨⟨"room", "a"⟩, .returned, true⟩ := by
    decide +kernel
  have hleft : (hubs.after hubs.start unknownSideCalls).manager.getConnection ⟨"room", "a"⟩ =
    some 1 := by
    decide +kernel
  refine ⟨⟨_, hmem, hlive, hnone, by decide +kernel, fun ht => ?_⟩,
    ⟨_, hmem', ⟨_, hreturned, rfl⟩, hleft, fun ht => ?_⟩⟩
  · have hfound := (ht.live _ _ _ hlive).1
    rw [hnone] at hfound
    cases hfound
  · exact (ht.gone 1 _ hreturned rfl).1 _ hleft

end HexWar
