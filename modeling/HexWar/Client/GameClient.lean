/-
  The client's connection to the server.

  connect() makes a socket and hangs handlers on it.  When the socket is lost the client sets a timeout
  of three seconds and then connects again, unless disconnect() was called; on every new socket it first
  asks for the events it has missed, or for the state if it has seen none.

  Nothing keeps the page from calling connect() again while an earlier socket is alive: the handlers of
  the earlier one stay as they are, and there is one field for the handle of the timeout.  So the client
  is modelled with all the sockets it ever made and all the timeouts that are set, whether it still
  knows them or not.

  Which sockets live and which timeouts are set does not depend on what is said on the sockets.  A
  `Lifeline` is a page as far as only that is concerned; the page is simulated by it
  (`pages_simulated`), and what holds of every lifeline holds of every page.

  Two results.

  - `connection_kept`: what lives and what is set to connect again goes back, one for one, to calls of the
    page.  The invariant is a count (`Bounded`); with one call of the page it is also an order in time
    (`Orderly`).  Both are about lifelines only.
  - `handshake_asks_missed`: the first thing said on a socket asks for what came after everything that was
    seen before.  This is about what is said, so the page itself is followed, by its present socket and
    the past ones (`Current`).
-/
import HexWar.Lib.Simulation
import HexWar.Session.GameSession

namespace HexWar

open Lib

/-! ## The browser -/

/-- The states of a WebSocket. -/
inductive ReadyState where
  | connecting
  | opened
  | closing
  | closed
deriving DecidableEq, Repr

/-- What the client sends. -/
inductive ClientMessage where
  /-- The whole state is asked for. -/
  | getState
  /-- The events after this number are asked for. -/
  | reconnectSync (lastSeenSequence : Int)
  /-- A move of the player. -/
  | moveUnits (fromNode toNode count : Int)
  /-- A decision for the encounter between two nodes. -/
  | encounterDecision (fromNode toNode : Int) (decision : String)
deriving DecidableEq, Repr

/-- A socket of the browser, as far as the client uses it. -/
structure WebSocket where
  createdAt : Nat
  readyState : ReadyState
  /-- What the client has sent on it, the oldest first. -/
  sent : List ClientMessage
  /-- The numbers of the messages that have come on it, the oldest first. -/
  received : List Int
deriving DecidableEq, Repr

namespace WebSocket

/-- It may still be used, or its loss is still to be heard of. -/
def isLive (s : WebSocket) : Bool := s.readyState ≠ .closed

/-- Only an open socket sends. -/
def send (m : ClientMessage) (s : WebSocket) : WebSocket :=
  if s.readyState = .opened then { s with sent := s.sent ++ [m] } else s

/-- Closing takes time: the socket is told, and onclose comes later. -/
def close (s : WebSocket) : WebSocket :=
  if s.readyState = .closed then s else { s with readyState := .closing }

end WebSocket

/-- A timeout that is set. -/
structure Timeout where
  /-- The number that setTimeout has returned. -/
  handle : Nat
  /-- The time before which it does not fire. -/
  due : Nat
deriving DecidableEq, Repr

/-- clearTimeout, with a handle that may be missing. -/
def cleared (timeouts : List Timeout) (handle : Option Nat) : List Timeout :=
  timeouts.filter fun t => handle ≠ some t.handle

/-! ## The client -/

/-- The fields of the client that its connection uses. -/
structure GameClient where
  /-- The place of the latest socket among all. -/
  ws : Option Nat
  lastSeenSequence : Int
  /-- The timeout it knows, which need not be the only one that is set. -/
  reconnectTimeout : Option Nat
  /-- Set by disconnect(), reset by connect(). -/
  isClosedIntentionally : Bool
deriving DecidableEq, Repr

/-- Keep track of the numbers of the messages; a number of 0 counts as none. -/
def GameClient.see (client : GameClient) (sequence : Int) : GameClient :=
  if sequence ≠ 0 then { client with lastSeenSequence := max client.lastSeenSequence sequence }
  else client

/-- The client, with what the browser keeps for it. -/
structure Page where
  client : GameClient
  /-- Every socket ever made, the oldest first. -/
  sockets : List WebSocket
  timeouts : List Timeout
  /-- How many timeouts have been set. -/
  handles : Nat
  /-- In milliseconds. -/
  clock : Nat
  /-- How often the page itself has called connect(). -/
  connects : Nat
deriving DecidableEq, Repr

/-- How long the client waits before it connects again. -/
def reconnectDelay : Nat := 3000

namespace Page

/-- The page before it has called connect(). -/
def initial : Page := ⟨⟨none, 0, none, false⟩, [], [], 0, 0, 0⟩

/-- Sent on the latest socket, and lost if that is not open. -/
def send (p : Page) (m : ClientMessage) : Page :=
  match p.client.ws with
  | some i => { p with sockets := p.sockets.modify i (.send m) }
  | none => p

/-- A known timeout is cleared; the earlier socket, if there is one, is left as it is. -/
def connect (p : Page) : Page :=
  { p with
    timeouts := cleared p.timeouts p.client.reconnectTimeout
    sockets := p.sockets ++ [⟨p.clock, .connecting, [], []⟩]
    client := { p.client with
      ws := some p.sockets.length, reconnectTimeout := none, isClosedIntentionally := false } }

/-- What a new connection asks for first. -/
def handshake (lastSeenSequence : Int) : ClientMessage :=
  if lastSeenSequence > 0 then .reconnectSync lastSeenSequence else .getState

/-- The handler of an opened socket speaks on the latest one, which need not be its own. -/
def onopen (p : Page) : Page := p.send (handshake p.client.lastSeenSequence)

/-- Of the messages only the end of a round makes the client send something. -/
def handleMessage (p : Page) (message : ServerMessage) : Page :=
  if message.type = "game_event" ∧ message.eventType = "RoundResolved" then p.send .getState else p

/-- The number is noted before the message is handled. -/
def onmessage (p : Page) (message : ServerMessage) : Page :=
  { p with client := p.client.see message.sequenceNumber }.handleMessage message

/-- Unless it was told to disconnect, the client tries again later, and knows this timeout from now
    on. -/
def onclose (p : Page) : Page :=
  if p.client.isClosedIntentionally then p
  else { p with
    timeouts := p.timeouts ++ [⟨p.handles, p.clock + reconnectDelay⟩]
    handles := p.handles + 1
    client := { p.client with reconnectTimeout := some p.handles } }

/-- The known timeout is cleared and the latest socket closed. -/
def disconnect (p : Page) : Page :=
  { p with
    client := { p.client with isClosedIntentionally := true, reconnectTimeout := none }
    timeouts := cleared p.timeouts p.client.reconnectTimeout
    sockets := match p.client.ws with
      | some i => p.sockets.modify i .close
      | none => p.sockets }

/-! ### What the browser does -/

/-- A socket has been opened. -/
def opened (p : Page) (i : Nat) : Page :=
  match p.sockets[i]? with
  | some s =>
    if s.readyState = .connecting then
      { p with sockets := p.sockets.set i { s with readyState := .opened } }.onopen
    else p
  | none => p

/-- A message has come. -/
def message (p : Page) (i : Nat) (m : ServerMessage) : Page :=
  match p.sockets[i]? with
  | some s =>
    if s.readyState = .opened then
      { p with sockets := p.sockets.set i { s with
        received := s.received ++ [m.sequenceNumber] } }.onmessage m
    else p
  | none => p

/-- A socket is lost, or has been closed. -/
def closed (p : Page) (i : Nat) : Page :=
  match p.sockets[i]? with
  | some s =>
    if s.isLive then { p with sockets := p.sockets.set i { s with readyState := .closed } }.onclose
    else p
  | none => p

/-- A timeout fires. -/
def timeout (p : Page) (handle : Nat) : Page :=
  if p.timeouts.any (·.handle = handle) then
    { p with timeouts := cleared p.timeouts (some handle) }.connect
  else p

end Page

/-- What happens to the page: time, its own calls, and what the browser does. -/
inductive PageCall where
  | pass (delay : Nat)
  | connect
  | disconnect
  /-- The player moves or decides, or the page asks for the state. -/
  | command (m : ClientMessage)
  | opened (i : Nat)
  | message (i : Nat) (m : ServerMessage)
  | closed (i : Nat)
  | timeout (handle : Nat)
deriving DecidableEq

namespace Page

/-- One of these. -/
def next (p : Page) : PageCall → Page
  | .pass delay => { p with clock := p.clock + delay }
  | .connect => { p with connects := p.connects + 1 }.connect
  | .disconnect => p.disconnect
  | .command m => p.send m
  | .opened i => p.opened i
  | .message i m => p.message i m
  | .closed i => p.closed i
  | .timeout handle => p.timeout handle

/-- A timeout does not fire too early. -/
def Legal (p : Page) : PageCall → Prop
  | .timeout handle => ∀ t ∈ p.timeouts, t.handle = handle → t.due ≤ p.clock
  | _ => True

instance (p : Page) (call : PageCall) : Decidable (p.Legal call) := by
  cases call <;> unfold Legal <;> infer_instance

/-- The sockets that are not closed. -/
def live (p : Page) : Nat := p.sockets.countP (·.isLive)

end Page

/-- A page that does what it likes. -/
def pages : Machine Page PageCall := ⟨Page.initial, Page.next, Page.Legal⟩

/-! ## The lifeline -/

/-- A socket as far as its life is concerned. -/
structure Line where
  createdAt : Nat
  live : Bool
deriving DecidableEq, Repr

/-- A page as far as its sockets and timeouts are concerned. -/
structure Lifeline where
  lines : List Line
  timeouts : List Timeout
  handles : Nat
  reconnectTimeout : Option Nat
  isClosedIntentionally : Bool
  clock : Nat
  connects : Nat
deriving DecidableEq, Repr

namespace Lifeline

/-- Nothing is there yet. -/
def initial : Lifeline := ⟨[], [], 0, none, false, 0, 0⟩

/-- connect(), as far as sockets and timeouts are concerned, -/
def connect (k : Lifeline) : Lifeline :=
  { k with
    timeouts := cleared k.timeouts k.reconnectTimeout
    lines := k.lines ++ [⟨k.clock, true⟩]
    reconnectTimeout := none
    isClosedIntentionally := false }

/-- and the handler of a lost socket. -/
def onclose (k : Lifeline) : Lifeline :=
  if k.isClosedIntentionally then k
  else { k with
    timeouts := k.timeouts ++ [⟨k.handles, k.clock + reconnectDelay⟩]
    handles := k.handles + 1
    reconnectTimeout := some k.handles }

/-- A socket is no longer live. -/
def lose (k : Lifeline) (i : Nat) (l : Line) : Lifeline :=
  { k with lines := k.lines.set i { l with live := false } }

end Lifeline

/-- The steps of a page that make or lose a socket, or set or clear a timeout; and time. -/
inductive LifelineCall where
  | pass (delay : Nat)
  | connect
  | disconnect
  | closed (i : Nat)
  | timeout (handle : Nat)
deriving DecidableEq

namespace Lifeline

/-- The same as those of the page. -/
def next (k : Lifeline) : LifelineCall → Lifeline
  | .pass delay => { k with clock := k.clock + delay }
  | .connect => { k with connects := k.connects + 1 }.connect
  | .disconnect => { k with
      isClosedIntentionally := true
      reconnectTimeout := none
      timeouts := cleared k.timeouts k.reconnectTimeout }
  | .closed i =>
    match k.lines[i]? with
    | some l => if l.live then (k.lose i l).onclose else k
    | none => k
  | .timeout handle =>
    if k.timeouts.any (·.handle = handle) then
      { k with timeouts := cleared k.timeouts (some handle) }.connect
    else k

def Legal (k : Lifeline) : LifelineCall → Prop
  | .timeout handle => ∀ t ∈ k.timeouts, t.handle = handle → t.due ≤ k.clock
  | _ => True

/-- The sockets that are not closed. -/
def live (k : Lifeline) : Nat := k.lines.countP (·.live)

end Lifeline

/-- A page of which nothing but the life of its sockets is seen. -/
def lifeline : Machine Lifeline LifelineCall := ⟨Lifeline.initial, Lifeline.next, Lifeline.Legal⟩

/-! ### What holds of it

A socket or a timeout comes from a call of the page, from a timeout that fires, or from a socket
that is lost; in the last two cases something goes for it. -/

section Lifelines

variable {k : Lifeline}

/-- Clearing sets no timeout. -/
theorem length_cleared_le (timeouts : List Timeout) (handle : Option Nat) :
    (cleared timeouts handle).length ≤ timeouts.length := List.length_filter_le _ _

/-- A timeout that fires is gone. -/
theorem length_cleared_lt {timeouts : List Timeout} {handle : Nat}
    (h : timeouts.any (·.handle = handle) = true) :
    (cleared timeouts (some handle)).length < timeouts.length := by
  obtain ⟨t, ht, hhandle⟩ := List.any_eq_true.mp h
  refine List.length_filter_lt_length_iff_exists.mpr ⟨t, ht, ?_⟩
  rw [of_decide_eq_true hhandle]
  simp

/-- A socket that is lost is one less. -/
theorem countP_lost {lines : List Line} {i : Nat} {l : Line} (hget : lines[i]? = some l)
    (hlive : l.live = true) :
    (lines.set i { l with live := false }).countP (·.live) + 1 = lines.countP (·.live) := by
  obtain ⟨hi, rfl⟩ := List.getElem?_eq_some_iff.mp hget
  have hcount := List.countP_set (p := fun l : Line => l.live) (a := { lines[i] with live := false }) hi
  have hpos : 0 < lines.countP (·.live) := List.countP_pos_iff.mpr ⟨_, List.getElem_mem hi, hlive⟩
  rw [hcount, if_pos hlive]
  simp only [Bool.false_eq_true, if_false]
  omega

/-- What lives and what is set to connect again goes back, one for one, to calls of the page; and unless
    the client was told to disconnect, something lives or is set to. -/
structure Lifeline.Bounded (k : Lifeline) : Prop where
  /-- Nothing comes from nowhere. -/
  atMost : k.live + k.timeouts.length ≤ k.connects
  /-- What is lost is set to come back. -/
  atLeast : k.isClosedIntentionally = false → k.lines ≠ [] → 1 ≤ k.live + k.timeouts.length
  /-- The first socket was the page's. -/
  asked : k.lines ≠ [] → 1 ≤ k.connects

/-- A new socket lives. -/
theorem Lifeline.live_connect (k : Lifeline) : k.connect.live = k.live + 1 := by
  show (k.lines ++ [Line.mk k.clock true]).countP _ = _
  rw [List.countP_append]
  rfl

/-- **Every step keeps the bounds**: a timeout that fires becomes a socket, and a socket that is
    lost a timeout. -/
theorem Lifeline.Bounded.next (h : k.Bounded) (call : LifelineCall) : (k.next call).Bounded := by
  obtain ⟨hmost, hleast, hasked⟩ := h
  cases call with
  | pass delay => exact ⟨hmost, hleast, hasked⟩
  | connect =>
    have hlive := live_connect { k with connects := k.connects + 1 }
    have htimeouts := length_cleared_le k.timeouts k.reconnectTimeout
    refine ⟨?_, fun _ _ => ?_, fun _ => ?_⟩
    · show live (connect _) + (cleared k.timeouts k.reconnectTimeout).length ≤ k.connects + 1
      rw [hlive]
      show k.live + 1 + _ ≤ _
      omega
    · show 1 ≤ live (connect _) + _
      rw [hlive]
      omega
    · show 1 ≤ k.connects + 1
      omega
  | disconnect =>
    have htimeouts := length_cleared_le k.timeouts k.reconnectTimeout
    refine ⟨?_, nofun, hasked⟩
    show k.live + (cleared k.timeouts k.reconnectTimeout).length ≤ k.connects
    omega
  | closed i =>
    rw [Lifeline.next]
    rcases hget : k.lines[i]? with _ | l
    · exact ⟨hmost, hleast, hasked⟩
    by_cases hlive : l.live = true
    · have hlost := countP_lost hget hlive
      have hne : k.lines ≠ [] := by
        intro hnil
        rw [hnil] at hget
        cases hget
      show (if l.live = true then _ else k).Bounded
      rw [if_pos hlive, onclose]
      split
      · rename_i hintended
        refine ⟨?_, ?_, fun _ => hasked hne⟩
        · show (k.lines.set i _).countP _ + k.timeouts.length ≤ k.connects
          change k.lines.countP _ + k.timeouts.length ≤ k.connects at hmost
          omega
        · intro hopen
          rw [hintended] at hopen
          cases hopen
      · refine ⟨?_, fun _ _ => ?_, fun _ => hasked hne⟩
        · show (k.lines.set i _).countP _ + (k.timeouts ++ [_]).length ≤ k.connects
          change k.lines.countP _ + k.timeouts.length ≤ k.connects at hmost
          rw [List.length_append, List.length_singleton]
          omega
        · show 1 ≤ (k.lines.set i _).countP _ + (k.timeouts ++ [_]).length
          rw [List.length_append, List.length_singleton]
          omega
    · show (if l.live = true then _ else k).Bounded
      rw [if_neg hlive]
      exact ⟨hmost, hleast, hasked⟩
  | timeout handle =>
    rw [Lifeline.next]
    split
    · rename_i hany
      have hfired := length_cleared_lt hany
      have hlive := live_connect { k with timeouts := cleared k.timeouts (some handle) }
      have htimeouts := length_cleared_le (cleared k.timeouts (some handle)) k.reconnectTimeout
      refine ⟨?_, fun _ _ => ?_, fun _ => ?_⟩
      · show live (connect _) + (cleared (cleared k.timeouts (some handle)) k.reconnectTimeout).length ≤
          k.connects
        rw [hlive]
        show k.live + 1 + _ ≤ _
        omega
      · show 1 ≤ live (connect _) + _
        rw [hlive]
        omega
      · show 1 ≤ k.connects
        omega
    · exact ⟨hmost, hleast, hasked⟩

/-- Nothing lives at first. -/
theorem bounded_initial : Lifeline.initial.Bounded :=
  ⟨Nat.le_refl 0, fun _ hne => absurd rfl hne, fun hne => absurd rfl hne⟩

/-- In every run. -/
theorem bounded_of_reachable (hreach : lifeline.Reachable k) : k.Bounded :=
  hreach.invariant bounded_initial fun _ call h _ => h.next call

/-- When the sockets were made. -/
def Lifeline.made (k : Lifeline) : List Nat := k.lines.map (·.createdAt)

/-- A socket that is lost was made when it was made. -/
theorem made_lost {lines : List Line} {i : Nat} {l : Line} (hget : lines[i]? = some l) :
    (lines.set i { l with live := false }).map (·.createdAt) = lines.map (·.createdAt) := by
  obtain ⟨hi, rfl⟩ := List.getElem?_eq_some_iff.mp hget
  rw [List.map_set]
  have hi' : i < (lines.map (·.createdAt)).length := by
    rw [List.length_map]
    exact hi
  have hsame : lines[i].createdAt = (lines.map (·.createdAt))[i] := (List.getElem_map _).symm
  show (lines.map (·.createdAt)).set i lines[i].createdAt = _
  rw [hsame, List.set_getElem_self]

/-- The first socket was made at least one delay before the second. -/
def Apart (t t' : Nat) : Prop := t + reconnectDelay ≤ t'

/-- What holds as long as the page has called connect() no more than once: the client makes its sockets
    one delay apart, and it knows the timeout that is set. -/
structure Lifeline.Orderly (k : Lifeline) : Prop where
  /-- The sockets, in the order in which they were made. -/
  apart : k.made.Pairwise Apart
  /-- None is from the future. -/
  past : ∀ t ∈ k.made, t ≤ k.clock
  /-- The next one will be late enough. -/
  later : ∀ timeout ∈ k.timeouts, ∀ t ∈ k.made, Apart t timeout.due
  /-- So connect() and disconnect() clear whatever is set. -/
  known : ∀ timeout ∈ k.timeouts, k.reconnectTimeout = some timeout.handle
  /-- Who was told to disconnect does not try again. -/
  intended : k.isClosedIntentionally = true → k.timeouts = []

/-- Without a timeout there is less to say. -/
theorem orderly_of_none (hnone : k.timeouts = []) (hapart : k.made.Pairwise Apart)
    (hpast : ∀ t ∈ k.made, t ≤ k.clock) : k.Orderly := by
  refine ⟨hapart, hpast, ?_, ?_, fun _ => hnone⟩
  · rw [hnone]
    nofun
  · rw [hnone]
    nofun

/-- A known timeout is cleared. -/
theorem cleared_known {timeouts : List Timeout} {handle : Option Nat}
    (h : ∀ t ∈ timeouts, handle = some t.handle) : cleared timeouts handle = [] := by
  refine List.filter_eq_nil_iff.mpr fun t ht => ?_
  rw [h t ht]
  simp

/-- A new socket keeps them in order if it comes late enough. -/
theorem Lifeline.Orderly.connect (h : k.Orderly) (hnone : cleared k.timeouts k.reconnectTimeout = [])
    (hlate : ∀ t ∈ k.made, Apart t k.clock) : k.connect.Orderly := by
  have hmade : k.connect.made = k.made ++ [k.clock] := List.map_append
  refine orderly_of_none hnone ?_ ?_
  · rw [hmade, List.pairwise_append]
    refine ⟨h.apart, List.pairwise_singleton _ _, ?_⟩
    rintro t ht t' ht'
    rw [List.mem_singleton.mp ht']
    exact hlate t ht
  · rw [hmade]
    intro t ht
    rcases List.mem_append.mp ht with hold | hnew
    · exact h.past t hold
    · exact Nat.le_of_eq (List.mem_singleton.mp hnew)

/-- A lost socket sets the one timeout that there is. -/
theorem Lifeline.Orderly.onclose (h : k.Orderly) (hnone : k.timeouts = []) : k.onclose.Orderly := by
  rw [Lifeline.onclose]
  split
  · exact h
  · have hone : k.timeouts ++ [⟨k.handles, k.clock + reconnectDelay⟩] =
        [⟨k.handles, k.clock + reconnectDelay⟩] := by
      rw [hnone]
      rfl
    refine ⟨h.apart, h.past, ?_, ?_, fun hintended => absurd hintended ‹_›⟩
    · show ∀ timeout ∈ k.timeouts ++ [_], _
      rw [hone]
      rintro timeout htimeout t ht
      rw [List.mem_singleton.mp htimeout]
      exact Nat.add_le_add_right (h.past t ht) _
    · show ∀ timeout ∈ k.timeouts ++ [_], _
      rw [hone]
      rintro timeout htimeout
      rw [List.mem_singleton.mp htimeout]

/-- **Every step keeps the order**, as long as the page has called connect() no more than once: then
    a socket that lives and a timeout that is set are never there together. -/
theorem Lifeline.Orderly.next (h : k.Orderly) (hb : k.Bounded) {call : LifelineCall}
    (hlegal : k.Legal call) (honce : (k.next call).connects ≤ 1) : (k.next call).Orderly := by
  have hmost := hb.atMost
  cases call with
  | pass delay =>
    refine ⟨h.apart, fun t ht => ?_, h.later, h.known, h.intended⟩
    exact Nat.le_trans (h.past t ht) (Nat.le_add_right _ _)
  | connect =>
    -- it is the first call of the page: there is nothing yet
    have hzero : k.connects = 0 := by
      have : k.connects + 1 ≤ 1 := honce
      omega
    have hlines : k.lines = [] := by
      by_contra hne
      have := hb.asked hne
      omega
    have htimeouts : k.timeouts = [] := List.length_eq_zero_iff.mp (by omega)
    refine Lifeline.Orderly.connect (k := { k with connects := k.connects + 1 })
      ⟨h.apart, h.past, h.later, h.known, h.intended⟩ ?_ ?_
    · show cleared k.timeouts _ = []
      rw [htimeouts]
      rfl
    · show ∀ t ∈ k.lines.map _, _
      rw [hlines]
      nofun
  | disconnect => exact orderly_of_none (cleared_known h.known) h.apart h.past
  | closed i =>
    rw [Lifeline.next] at honce ⊢
    rcases hget : k.lines[i]? with _ | l
    · exact h
    rw [hget] at honce
    by_cases hlive : l.live = true
    · replace honce : (if l.live = true then (k.lose i l).onclose else k).connects ≤ 1 := honce
      show (if l.live = true then _ else k).Orderly
      rw [if_pos hlive] at honce ⊢
      have hcount : k.connects ≤ 1 := by
        rw [Lifeline.onclose] at honce
        split at honce <;> exact honce
      -- the socket was live, so no timeout is set
      have hpos : 1 ≤ k.live := by
        have := countP_lost hget hlive
        show 1 ≤ k.lines.countP _
        omega
      have hnone : k.timeouts = [] := List.length_eq_zero_iff.mp (by omega)
      have hmade := made_lost hget
      refine Lifeline.Orderly.onclose (k := k.lose i l) (orderly_of_none hnone ?_ ?_) hnone
      · show ((k.lines.set i _).map _).Pairwise Apart
        rw [hmade]
        exact h.apart
      · show ∀ t ∈ (k.lines.set i _).map _, t ≤ k.clock
        rw [hmade]
        exact h.past
    · show (if l.live = true then _ else k).Orderly
      rw [if_neg hlive]
      exact h
  | timeout handle =>
    rw [Lifeline.next] at honce ⊢
    split
    · rename_i hany
      rw [if_pos hany] at honce
      have hcount : k.connects ≤ 1 := honce
      have hfired := length_cleared_lt hany
      obtain ⟨timeout, htimeout, hhandle⟩ := List.any_eq_true.mp hany
      -- the timeout that fires was the only one
      have hnone : cleared k.timeouts (some handle) = [] := List.length_eq_zero_iff.mp (by omega)
      refine Lifeline.Orderly.connect (k := { k with timeouts := cleared k.timeouts (some handle) })
        (orderly_of_none hnone h.apart h.past) ?_ ?_
      · show cleared (cleared k.timeouts (some handle)) _ = []
        rw [hnone]
        rfl
      · intro t ht
        exact Nat.le_trans (h.later timeout htimeout t ht)
          (hlegal timeout htimeout (of_decide_eq_true hhandle))
    · exact h

/-- No step takes a call back. -/
theorem connects_le_next (k : Lifeline) (call : LifelineCall) : k.connects ≤ (k.next call).connects := by
  cases call with
  | pass _ | disconnect => exact Nat.le_refl _
  | connect => exact Nat.le_succ _
  | closed i =>
    rw [Lifeline.next]
    split
    · split
      · rw [Lifeline.onclose]
        split <;> exact Nat.le_refl _
      · exact Nat.le_refl _
    · exact Nat.le_refl _
  | timeout handle =>
    rw [Lifeline.next]
    split <;> exact Nat.le_refl _

/-- In every run with one call of the page. -/
theorem orderly_of_reachable (hreach : lifeline.Reachable k) (honce : k.connects ≤ 1) : k.Orderly := by
  -- the bounds go along: they say that there is no timeout beside a live socket
  have hall : k.Bounded ∧ (k.connects ≤ 1 → k.Orderly) := by
    refine hreach.invariant (I := fun k => k.Bounded ∧ (k.connects ≤ 1 → k.Orderly))
      ⟨bounded_initial, fun _ => orderly_of_none rfl List.Pairwise.nil fun _ ht =>
        absurd ht List.not_mem_nil⟩ ?_
    rintro k call ⟨hb, h⟩ hlegal
    exact ⟨hb.next call, fun honce =>
      (h (Nat.le_trans (connects_le_next k call) honce)).next hb hlegal honce⟩
  exact hall.2 honce

/-- A client that was told to disconnect stays disconnected, unless it is told to connect. -/
theorem lines_after_disconnect : ∀ {calls : List LifelineCall} {k : Lifeline},
    k.isClosedIntentionally = true → k.timeouts = [] → .connect ∉ calls →
      (lifeline.after k calls).lines.length = k.lines.length
  | [], _, _, _, _ => rfl
  | call :: calls, k, hintended, hnone, hcalls => by
    obtain ⟨hcall, hcalls⟩ := List.ne_and_not_mem_of_not_mem_cons hcalls
    have hstep : (k.next call).isClosedIntentionally = true ∧ (k.next call).timeouts = [] ∧
        (k.next call).lines.length = k.lines.length := by
      cases call with
      | pass delay => exact ⟨hintended, hnone, rfl⟩
      | connect => exact absurd rfl hcall
      | disconnect =>
        refine ⟨rfl, ?_, rfl⟩
        show cleared k.timeouts _ = []
        rw [hnone]
        rfl
      | closed i =>
        rw [Lifeline.next]
        split
        · rename_i l _
          split
          · rw [Lifeline.onclose, if_pos (show (k.lose i l).isClosedIntentionally = true from hintended)]
            exact ⟨hintended, hnone, List.length_set⟩
          · exact ⟨hintended, hnone, rfl⟩
        · exact ⟨hintended, hnone, rfl⟩
      | timeout handle =>
        have hany : ¬ k.timeouts.any (·.handle = handle) = true := by
          rw [hnone]
          exact Bool.false_ne_true
        rw [Lifeline.next, if_neg hany]
        exact ⟨hintended, hnone, rfl⟩
    exact (lines_after_disconnect hstep.1 hstep.2.1 hcalls).trans hstep.2.2

end Lifelines

/-! ## The page and its lifeline

The handlers of a page do two things: they say something on a socket, and they make or lose one.
The lifeline sees only the second, so each step of the page is one of its steps or none. -/

/-- What of a socket is its line. -/
def WebSocket.line (s : WebSocket) : Line := ⟨s.createdAt, s.isLive⟩

/-- What of a page is its lifeline. -/
def Page.lifeline (p : Page) : Lifeline where
  lines := p.sockets.map (·.line)
  timeouts := p.timeouts
  handles := p.handles
  reconnectTimeout := p.client.reconnectTimeout
  isClosedIntentionally := p.client.isClosedIntentionally
  clock := p.clock
  connects := p.connects

/-- What a call means for the lifeline. -/
def PageCall.onLifeline : PageCall → List LifelineCall
  | .pass delay => [.pass delay]
  | .connect => [.connect]
  | .disconnect => [.disconnect]
  | .closed i => [.closed i]
  | .timeout handle => [.timeout handle]
  | .command _ | .opened _ | .message _ _ => []

section Pages

variable {p : Page}

/-- Changing a socket without changing its line. -/
theorem lines_modify {f : WebSocket → WebSocket} (hf : ∀ s, (f s).line = s.line) (i : Nat)
    (sockets : List WebSocket) : (sockets.modify i f).map (·.line) = sockets.map (·.line) := by
  induction sockets generalizing i with
  | nil => rw [List.modify_nil]
  | cons s sockets ih =>
    cases i with
    | zero =>
      rw [List.modify_zero_cons, List.map_cons, List.map_cons, hf]
    | succ i =>
      rw [List.modify_succ_cons, List.map_cons, List.map_cons, ih]

/-- Saying something leaves a socket as alive as it was, -/
theorem line_send (m : ClientMessage) (s : WebSocket) : (s.send m).line = s.line := by
  rw [WebSocket.send]
  split <;> rfl

/-- and so does closing it, until onclose. -/
theorem line_close (s : WebSocket) : s.close.line = s.line := by
  rw [WebSocket.close]
  split
  · rfl
  · rename_i hopen
    show Line.mk s.createdAt true = ⟨s.createdAt, s.isLive⟩
    rw [WebSocket.isLive, decide_eq_true hopen]

/-- Nothing else of the sockets is seen. -/
theorem lifeline_sockets (p : Page) {sockets : List WebSocket}
    (h : sockets.map (·.line) = p.sockets.map (·.line)) :
    { p with sockets := sockets }.lifeline = p.lifeline := by
  show { p.lifeline with lines := sockets.map (·.line) } = p.lifeline
  rw [h]
  rfl

/-- Sending changes nothing that the lifeline sees. -/
theorem lifeline_send (p : Page) (m : ClientMessage) : (p.send m).lifeline = p.lifeline := by
  rw [Page.send]
  split
  · exact lifeline_sockets p (lines_modify (line_send m) _ _)
  · rfl

/-- A message makes or loses no socket. -/
theorem lifeline_onmessage (p : Page) (m : ServerMessage) : (p.onmessage m).lifeline = p.lifeline := by
  have hsee : { p with client := p.client.see m.sequenceNumber }.lifeline = p.lifeline := by
    rw [GameClient.see]
    split <;> rfl
  rw [Page.onmessage, Page.handleMessage]
  split
  · exact (lifeline_send _ _).trans hsee
  · exact hsee

/-- Writing a socket back with the same line. -/
theorem lines_set {sockets : List WebSocket} {i : Nat} {s s' : WebSocket} (hget : sockets[i]? = some s)
    (hline : s'.line = s.line) : (sockets.set i s').map (·.line) = sockets.map (·.line) := by
  obtain ⟨hi, rfl⟩ := List.getElem?_eq_some_iff.mp hget
  rw [List.map_set, hline]
  have hi' : i < (sockets.map (·.line)).length := by
    rw [List.length_map]
    exact hi
  have hsame : sockets[i].line = (sockets.map (·.line))[i] := (List.getElem_map _).symm
  rw [hsame, List.set_getElem_self]

/-- connect() is seen as it is, -/
theorem lifeline_connect (p : Page) : p.connect.lifeline = p.lifeline.connect := by
  have hlines : (p.sockets ++ [WebSocket.mk p.clock .connecting [] []]).map (·.line) =
      p.sockets.map (·.line) ++ [Line.mk p.clock true] := List.map_append
  show { p.lifeline.connect with
    lines := (p.sockets ++ [WebSocket.mk p.clock .connecting [] []]).map WebSocket.line } = _
  rw [hlines]
  rfl

/-- and so is the handler of a lost socket. -/
theorem lifeline_onclose (p : Page) : p.onclose.lifeline = p.lifeline.onclose := by
  rw [Page.onclose, Lifeline.onclose]
  by_cases hintended : p.client.isClosedIntentionally = true
  · rw [if_pos hintended, if_pos (show p.lifeline.isClosedIntentionally = true from hintended)]
  · rw [if_neg hintended, if_neg (show ¬ p.lifeline.isClosedIntentionally = true from hintended)]
    rfl

/-- **One step of a page** is seen by the lifeline as its own step, or not at all. -/
theorem lifeline_next (p : Page) (call : PageCall) :
    (p.next call).lifeline = lifeline.after p.lifeline call.onLifeline := by
  cases call with
  | pass delay => rfl
  | connect => exact lifeline_connect { p with connects := p.connects + 1 }
  | disconnect =>
    have hlines : p.disconnect.sockets.map (·.line) = p.sockets.map (·.line) := by
      unfold Page.disconnect
      rcases p.client.ws with _ | i
      · rfl
      · exact lines_modify line_close i p.sockets
    show { p.lifeline.next .disconnect with lines := p.disconnect.sockets.map WebSocket.line } = _
    rw [hlines]
    rfl
  | command m => exact lifeline_send p m
  | opened i =>
    show (p.opened i).lifeline = p.lifeline
    rw [Page.opened]
    split
    · rename_i s hget
      split
      · rename_i hconnecting
        refine (lifeline_send _ _).trans (lifeline_sockets p (lines_set hget ?_))
        show Line.mk s.createdAt true = ⟨s.createdAt, s.isLive⟩
        rw [WebSocket.isLive, hconnecting]
        rfl
      · rfl
    · rfl
  | message i m =>
    show (p.message i m).lifeline = p.lifeline
    rw [Page.message]
    split
    · rename_i s hget
      split
      · exact (lifeline_onmessage _ _).trans (lifeline_sockets p (lines_set hget rfl))
      · rfl
    · rfl
  | closed i =>
    show (p.closed i).lifeline = p.lifeline.next (.closed i)
    rw [Page.closed, Lifeline.next]
    have hlines : p.lifeline.lines[i]? = p.sockets[i]?.map (·.line) := List.getElem?_map
    rw [hlines]
    rcases p.sockets[i]? with _ | s
    · rfl
    show (if s.isLive = true then _ else p).lifeline = if s.isLive = true then _ else p.lifeline
    split
    · refine (lifeline_onclose _).trans (congrArg Lifeline.onclose ?_)
      show { p.lifeline with
        lines := (p.sockets.set i { s with readyState := .closed }).map WebSocket.line } = _
      rw [List.map_set]
      rfl
    · rfl
  | timeout handle =>
    show (p.timeout handle).lifeline = p.lifeline.next (.timeout handle)
    rw [Page.timeout, Lifeline.next]
    by_cases hany : p.timeouts.any (·.handle = handle) = true
    · rw [if_pos hany, if_pos (show p.lifeline.timeouts.any (·.handle = handle) = true from hany)]
      exact lifeline_connect _
    · rw [if_neg hany, if_neg (show ¬ p.lifeline.timeouts.any (·.handle = handle) = true from hany)]

/-- **A page is simulated by its lifeline.** -/
theorem pages_simulated : pages.Simulation lifeline fun p k => p.lifeline = k where
  start := rfl
  step := by
    rintro p k call rfl hlegal
    refine ⟨call.onLifeline, ?_, lifeline_next p call⟩
    cases call with
    | timeout handle => exact ⟨hlegal, trivial⟩
    | pass _ | connect | disconnect | closed _ => exact ⟨trivial, trivial⟩
    | command _ | opened _ | message _ _ => exact trivial

/-- So is a run. -/
theorem lifeline_after : ∀ (calls : List PageCall) (p : Page),
    (pages.after p calls).lifeline = lifeline.after p.lifeline (calls.flatMap (·.onLifeline))
  | [], _ => rfl
  | call :: calls, p => by
    rw [List.flatMap_cons, Machine.after_append]
    exact (lifeline_after calls (p.next call)).trans
      (congrArg (lifeline.after · _) (lifeline_next p call))

/-- Both count the same live sockets. -/
theorem live_lifeline (p : Page) : p.lifeline.live = p.live := List.countP_map

/-- **The connection is kept, and not more than once.**  Whatever the network does: the client has no
    more live sockets and set timeouts than the page has called connect(), and at least one, as long as
    it was not told to disconnect.  If the page has called connect() only once, the client makes its
    sockets at least three seconds apart; and once told to disconnect, it makes no further one until the
    page calls connect() again. -/
theorem connection_kept (hreach : pages.Reachable p) :
    p.live + p.timeouts.length ≤ p.connects ∧
      (p.client.isClosedIntentionally = false → p.sockets ≠ [] → 1 ≤ p.live + p.timeouts.length) ∧
      (p.connects ≤ 1 →
        p.sockets.Pairwise (fun s s' => s.createdAt + 3000 ≤ s'.createdAt) ∧
          (p.client.isClosedIntentionally = true → ∀ calls, .connect ∉ calls →
            (pages.after p calls).sockets.length = p.sockets.length)) := by
  obtain ⟨hb, ho⟩ : p.lifeline.Bounded ∧ (p.lifeline.connects ≤ 1 → p.lifeline.Orderly) := by
    refine pages_simulated.invariant (I := fun k => k.Bounded ∧ (k.connects ≤ 1 → k.Orderly))
      (J := fun p => p.lifeline.Bounded ∧ (p.lifeline.connects ≤ 1 → p.lifeline.Orderly))
      (fun k hk => ⟨bounded_of_reachable hk, orderly_of_reachable hk⟩) ?_ hreach
    rintro p k rfl hk
    exact hk
  have hmost := hb.atMost
  have hleast := hb.atLeast
  rw [live_lifeline] at hmost hleast
  refine ⟨hmost, fun hopen hne => hleast hopen ?_, fun honce => ⟨?_, fun hintended calls hrun => ?_⟩⟩
  · intro hnil
    exact hne (List.map_eq_nil_iff.mp hnil)
  · have hapart := (ho honce).apart
    rw [Lifeline.made, Page.lifeline, List.map_map, List.pairwise_map] at hapart
    exact hapart
  · have hquiet : .connect ∉ calls.flatMap (·.onLifeline) := by
      intro hmem
      obtain ⟨call, hcall, hon⟩ := List.mem_flatMap.mp hmem
      cases call with
      | connect => exact hrun hcall
      | pass _ | disconnect | closed _ | timeout _ => cases List.mem_singleton.mp hon
      | command _ | opened _ | message _ _ => cases hon
    have hlines := lines_after_disconnect hintended ((ho honce).intended hintended) hquiet
    rw [← lifeline_after, Page.lifeline, Page.lifeline, List.length_map, List.length_map] at hlines
    exact hlines

end Pages

/-! ## What a new connection asks for

As long as the page has called connect() once, all sockets but the last are closed
(`connection_kept`'s bounds say so).  So the handlers that run are those of the socket they speak
on, and what the client has seen is what came on all of them. -/

/-- The highest number that came on some sockets; 0 if none did. -/
def highest (sockets : List WebSocket) : Int := (sockets.flatMap (·.received)).foldl max 0

/-- A socket on which nothing came changes nothing, -/
theorem highest_append_nil {olds : List WebSocket} {s : WebSocket} (h : s.received = []) :
    highest (olds ++ [s]) = highest olds := by
  rw [highest, List.flatMap_append, List.flatMap_singleton, h, List.append_nil]
  rfl

/-- and a number that comes is the highest, or the highest stays. -/
theorem highest_append_received (olds : List WebSocket) (s : WebSocket) (n : Int) :
    highest (olds ++ [{ s with received := s.received ++ [n] }]) = max (highest (olds ++ [s])) n := by
  rw [highest, highest, List.flatMap_append, List.flatMap_append, List.flatMap_singleton,
    List.flatMap_singleton, ← List.append_assoc, List.foldl_append]
  rfl

/-- The first thing that is sent on an open socket asks for what comes after `n`. -/
structure WebSocket.Asked (n : Int) (s : WebSocket) : Prop where
  /-- Nothing is said before it opens, -/
  connecting : s.readyState = .connecting → s.sent = [] ∧ s.received = []
  /-- and something as soon as it does. -/
  opened : s.readyState = .opened → s.sent ≠ []
  /-- That is the handshake. -/
  first : ∀ m ∈ s.sent.head?, m = Page.handshake n

/-- The sockets of a page that has called connect() once: the past ones, and the present one. -/
structure Page.Current (p : Page) (olds : List WebSocket) (s : WebSocket) : Prop where
  sockets : p.sockets = olds ++ [s]
  ws : p.client.ws = some olds.length
  closed : ∀ o ∈ olds, o.isLive = false
  /-- No number is forgotten when a socket is lost. -/
  seen : p.client.lastSeenSequence = highest (olds ++ [s])
  /-- Each past socket asked for what came after those before it, -/
  past : ∀ (i : Nat) (o : WebSocket), olds[i]? = some o → o.Asked (highest (olds.take i))
  /-- and so does the present one. -/
  present : s.Asked (highest olds)

section Handshakes

variable {p : Page} {olds : List WebSocket} {s : WebSocket}

/-- The last of a list is changed, -/
theorem modify_last {α : Type} (f : α → α) (x : α) :
    ∀ xs : List α, (xs ++ [x]).modify xs.length f = xs ++ [f x]
  | [] => rfl
  | y :: xs => congrArg (y :: ·) (modify_last f x xs)

/-- or written anew. -/
theorem set_last {α : Type} (x x' : α) : ∀ xs : List α, (xs ++ [x]).set xs.length x' = xs ++ [x']
  | [] => rfl
  | y :: xs => congrArg (y :: ·) (set_last x x' xs)

/-- An element from the end on is the last. -/
theorem last_of_get {α : Type} {xs : List α} {x y : α} {i : Nat} (hget : (xs ++ [x])[i]? = some y)
    (hi : xs.length ≤ i) : i = xs.length ∧ y = x := by
  rw [List.getElem?_append_right hi] at hget
  obtain ⟨hlt, hy⟩ := List.getElem?_eq_some_iff.mp hget
  have hzero : i - xs.length = 0 := Nat.lt_one_iff.mp hlt
  refine ⟨by omega, ?_⟩
  rw [← hy]
  simp [hzero]

/-- A socket that is not closed is the present one. -/
theorem Page.Current.get (h : p.Current olds s) {i : Nat} {t : WebSocket} (hget : p.sockets[i]? = some t)
    (hlive : t.isLive = true) : i = olds.length ∧ t = s := by
  rw [h.sockets] at hget
  rcases Nat.lt_or_ge i olds.length with hi | hi
  · rw [List.getElem?_append_left hi] at hget
    have hdead := h.closed t (List.mem_of_getElem? hget)
    rw [hlive] at hdead
    cases hdead
  · exact last_of_get hget hi

/-- The present socket is changed, and nothing that the others see. -/
theorem Page.Current.change (h : p.Current olds s) {p' : Page} {s' : WebSocket}
    (hsockets : p'.sockets = olds ++ [s']) (hws : p'.client.ws = p.client.ws)
    (hseen : p'.client.lastSeenSequence = highest (olds ++ [s'])) (hasked : s'.Asked (highest olds)) :
    p'.Current olds s' :=
  ⟨hsockets, hws.trans h.ws, h.closed, hseen, h.past, hasked⟩

/-- What is sent goes over the present socket. -/
theorem Page.Current.sockets_send (h : p.Current olds s) (m : ClientMessage) :
    (p.send m).sockets = olds ++ [s.send m] := by
  rw [Page.send, h.ws]
  show p.sockets.modify olds.length _ = _
  rw [h.sockets, modify_last]

/-- Saying something changes nothing that the client knows. -/
theorem client_send (p : Page) (m : ClientMessage) : (p.send m).client = p.client := by
  rw [Page.send]
  split <;> rfl

/-- What is said is not heard. -/
theorem received_send (m : ClientMessage) (s : WebSocket) : (s.send m).received = s.received := by
  rw [WebSocket.send]
  split <;> rfl

/-- Only what came counts. -/
theorem highest_congr {s' : WebSocket} (h : s.received = s'.received) :
    highest (olds ++ [s]) = highest (olds ++ [s']) := by
  rw [highest, highest, List.flatMap_append, List.flatMap_append, List.flatMap_singleton,
    List.flatMap_singleton, h]

/-- Sending more does not change what was sent first. -/
theorem WebSocket.Asked.send {n : Int} (h : s.Asked n) (m : ClientMessage) : (s.send m).Asked n := by
  rw [WebSocket.send]
  split
  · rename_i hopened
    have hne := h.opened hopened
    refine ⟨fun hconnecting => ?_, fun _ => ?_, ?_⟩
    · rw [show s.readyState = .connecting from hconnecting] at hopened
      cases hopened
    · show s.sent ++ [m] ≠ []
      simp
    · show ∀ m' ∈ (s.sent ++ [m]).head?, m' = _
      rw [List.head?_append_of_ne_nil _ hne]
      exact h.first
  · exact h

/-- Closing a socket forgets nothing, -/
theorem received_close (s : WebSocket) : s.close.received = s.received := by
  rw [WebSocket.close]
  split <;> rfl

/-- and says nothing. -/
theorem WebSocket.Asked.close {n : Int} (h : s.Asked n) : s.close.Asked n := by
  rw [WebSocket.close]
  split
  · exact h
  · exact ⟨nofun, nofun, h.first⟩

/-- What is said later goes on the present socket. -/
theorem Page.Current.send (h : p.Current olds s) (m : ClientMessage) :
    (p.send m).Current olds (s.send m) := by
  refine h.change (h.sockets_send m) ?_ ?_ (h.present.send m)
  · rw [client_send]
  · rw [client_send, h.seen]
    exact highest_congr (received_send m s).symm

/-- The highest number is never below 0, which counts as none. -/
theorem highest_nonneg (sockets : List WebSocket) : 0 ≤ highest sockets := by
  have hfold : ∀ (ns : List Int) (n : Int), n ≤ ns.foldl max n := by
    intro ns
    induction ns with
    | nil => exact fun n => Int.le_refl n
    | cons m ns ih => exact fun n => Int.le_trans (Int.le_max_left n m) (ih _)
  exact hfold _ 0

/-- The present socket comes after the past ones. -/
theorem Page.Current.asked (h : p.Current olds s) (i : Nat) (t : WebSocket)
    (hget : (olds ++ [s])[i]? = some t) : t.Asked (highest ((olds ++ [s]).take i)) := by
  rcases Nat.lt_or_ge i olds.length with hi | hi
  · rw [List.getElem?_append_left hi] at hget
    rw [List.take_append_of_le_length (Nat.le_of_lt hi)]
    exact h.past i t hget
  · obtain ⟨rfl, rfl⟩ := last_of_get hget hi
    rw [List.take_left]
    exact h.present

/-- A new socket is the present one, if all that were there are closed. -/
theorem Page.Current.connect (h : p.Current olds s) (hdead : s.isLive = false) :
    p.connect.Current (olds ++ [s]) ⟨p.clock, .connecting, [], []⟩ where
  sockets := congrArg (· ++ [_]) h.sockets
  ws := by
    show some p.sockets.length = _
    rw [h.sockets]
  closed o ho := by
    rcases List.mem_append.mp ho with hold | hlast
    · exact h.closed o hold
    · rw [List.mem_singleton.mp hlast]
      exact hdead
  seen := h.seen.trans (highest_append_nil rfl).symm
  past := h.asked
  present := ⟨fun _ => ⟨rfl, rfl⟩, nofun, nofun⟩

/-- A socket that opens asks for what comes after all that was seen. -/
theorem Page.Current.opened (h : p.Current olds s) (hconnecting : s.readyState = .connecting) :
    ∃ s', ({ p with
      sockets := olds ++ [{ s with readyState := .opened }] } : Page).onopen.Current olds s' := by
  obtain ⟨hsent, hreceived⟩ := h.present.connecting hconnecting
  let open_ : WebSocket := { s with readyState := .opened }
  have hseen : p.client.lastSeenSequence = highest olds := h.seen.trans (highest_append_nil hreceived)
  have hsend : ∀ m, open_.send m = { open_ with sent := [m] } := by
    intro m
    show (if _ then { open_ with sent := s.sent ++ [m] } else _) = _
    rw [if_pos rfl, hsent]
    rfl
  refine ⟨{ open_ with sent := [Page.handshake p.client.lastSeenSequence] }, ?_⟩
  refine h.change ?_ ?_ ?_ ⟨nofun, fun _ => List.cons_ne_nil _ _, ?_⟩
  · rw [Page.onopen, Page.send, h.ws]
    show (olds ++ [open_]).modify olds.length _ = _
    rw [modify_last, hsend]
  · rw [Page.onopen, client_send]
  · rw [Page.onopen, client_send]
    exact h.seen.trans (highest_congr rfl)
  · intro m hm
    rw [hseen] at hm
    exact (Option.some.inj hm).symm

/-- A message makes what was seen grow. -/
theorem Page.Current.message (h : p.Current olds s) (hopened : s.readyState = .opened)
    (m : ServerMessage) : ∃ s', Page.Current (({ p with
      sockets := olds ++ [{ s with received := s.received ++ [m.sequenceNumber] }] } : Page).onmessage
        m) olds s' := by
  let heard : WebSocket := { s with received := s.received ++ [m.sequenceNumber] }
  have hseen : (p.client.see m.sequenceNumber).lastSeenSequence = highest (olds ++ [heard]) := by
    rw [highest_append_received, ← h.seen, GameClient.see]
    split
    · rfl
    · rename_i hzero
      rw [not_not.mp hzero, h.seen]
      exact (Int.max_eq_left (highest_nonneg _)).symm
  have hws : (p.client.see m.sequenceNumber).ws = p.client.ws := by
    rw [GameClient.see]
    split <;> rfl
  have hheard : Page.Current { p with
      sockets := olds ++ [heard], client := p.client.see m.sequenceNumber } olds heard := by
    refine h.change rfl hws hseen ⟨fun hconnecting => ?_, h.present.opened, h.present.first⟩
    rw [show s.readyState = .connecting from hconnecting] at hopened
    cases hopened
  rw [Page.onmessage, Page.handleMessage]
  split
  · exact ⟨_, hheard.send _⟩
  · exact ⟨_, hheard⟩

/-- The present socket is closed. -/
theorem Page.Current.lost (h : p.Current olds s) :
    ({ p with sockets := olds ++ [{ s with readyState := .closed }] } : Page).onclose.Current olds
      { s with readyState := .closed } := by
  have hasked : ({ s with readyState := .closed } : WebSocket).Asked (highest olds) :=
    ⟨nofun, nofun, h.present.first⟩
  rw [Page.onclose]
  split <;> exact h.change rfl rfl (h.seen.trans (highest_congr rfl)) hasked

/-- Before the page has called connect(), or after it has once. -/
def Page.Proper (p : Page) : Prop :=
  (p.sockets = [] ∧ p.client.ws = none ∧ p.client.lastSeenSequence = 0) ∨ ∃ olds s, p.Current olds s

/-- The new socket is the only one that is not closed. -/
theorem Page.Proper.connect (h : p.Proper) (hone : p.connect.live ≤ 1) : p.connect.Proper := by
  refine .inr ?_
  rcases h with ⟨hnone, -, hzero⟩ | ⟨olds, s, h⟩
  · refine ⟨[], ⟨p.clock, .connecting, [], []⟩, ?_, ?_, nofun, hzero, nofun, fun _ => ⟨rfl, rfl⟩,
      nofun,
      nofun⟩
    · exact congrArg (· ++ [_]) hnone
    · exact congrArg (fun sockets : List WebSocket => some sockets.length) hnone
  · refine ⟨_, _, h.connect ?_⟩
    have hlive : p.connect.live = p.live + 1 := by
      show (p.sockets ++ [WebSocket.mk p.clock .connecting [] []]).countP _ = _
      rw [List.countP_append]
      rfl
    have hzero : p.sockets.countP (·.isLive) = 0 := by
      have : p.live = 0 := by omega
      exact this
    have hmem : s ∈ p.sockets := by
      rw [h.sockets]
      exact List.mem_append_right _ List.mem_cons_self
    exact Bool.eq_false_iff.mpr (List.countP_eq_zero.mp hzero s hmem)

/-- **One step** of a page that calls connect() no more than once. -/
theorem Page.Proper.next (h : p.Proper) {call : PageCall} (hone : (p.next call).live ≤ 1) :
    (p.next call).Proper := by
  cases call with
  | pass delay =>
    rcases h with hnone | ⟨olds, s, h⟩
    · exact .inl hnone
    · exact .inr ⟨olds, s, h.change h.sockets rfl h.seen h.present⟩
  | connect =>
    refine Page.Proper.connect (p := { p with connects := p.connects + 1 }) ?_ hone
    rcases h with hnone | ⟨olds, s, h⟩
    · exact .inl hnone
    · exact .inr ⟨olds, s, h.change h.sockets rfl h.seen h.present⟩
  | disconnect =>
    rcases h with ⟨hnone, hws, hzero⟩ | ⟨olds, s, h⟩
    · refine .inl ⟨?_, hws, hzero⟩
      show (Page.disconnect p).sockets = []
      rw [Page.disconnect, hws]
      exact hnone
    · refine .inr ⟨olds, s.close, h.change ?_ rfl ?_ ?_⟩
      · show (Page.disconnect p).sockets = _
        rw [Page.disconnect, h.ws]
        show p.sockets.modify olds.length _ = _
        rw [h.sockets, modify_last]
      · exact h.seen.trans (highest_congr (received_close s).symm)
      · exact h.present.close
  | command m =>
    rcases h with ⟨hnone, hws, hzero⟩ | ⟨olds, s, h⟩
    · refine .inl ⟨?_, ?_, ?_⟩
      · show (p.send m).sockets = []
        rw [Page.send, hws]
        exact hnone
      · exact (congrArg GameClient.ws (client_send p m)).trans hws
      · exact (congrArg GameClient.lastSeenSequence (client_send p m)).trans hzero
    · exact .inr ⟨olds, _, h.send m⟩
  | opened i =>
    show (p.opened i).Proper
    rw [Page.opened]
    rcases hget : p.sockets[i]? with _ | t
    · exact h
    show (if t.readyState = .connecting then _ else p).Proper
    split
    · rename_i hconnecting
      rcases h with ⟨hnone, -, -⟩ | ⟨olds, s, h⟩
      · rw [hnone] at hget
        cases hget
      have hlive : t.isLive = true := by
        rw [WebSocket.isLive, hconnecting]
        rfl
      obtain ⟨rfl, rfl⟩ := h.get hget hlive
      rw [h.sockets, set_last]
      obtain ⟨s', hs'⟩ := h.opened hconnecting
      exact .inr ⟨olds, s', hs'⟩
    · exact h
  | message i m =>
    show (p.message i m).Proper
    rw [Page.message]
    rcases hget : p.sockets[i]? with _ | t
    · exact h
    show (if t.readyState = .opened then _ else p).Proper
    split
    · rename_i hopened
      rcases h with ⟨hnone, -, -⟩ | ⟨olds, s, h⟩
      · rw [hnone] at hget
        cases hget
      have hlive : t.isLive = true := by
        rw [WebSocket.isLive, hopened]
        rfl
      obtain ⟨rfl, rfl⟩ := h.get hget hlive
      rw [h.sockets, set_last]
      obtain ⟨s', hs'⟩ := h.message hopened m
      exact .inr ⟨olds, s', hs'⟩
    · exact h
  | closed i =>
    show (p.closed i).Proper
    rw [Page.closed]
    rcases hget : p.sockets[i]? with _ | t
    · exact h
    show (if t.isLive = true then _ else p).Proper
    split
    · rename_i hlive
      rcases h with ⟨hnone, -, -⟩ | ⟨olds, s, h⟩
      · rw [hnone] at hget
        cases hget
      obtain ⟨rfl, rfl⟩ := h.get hget hlive
      rw [h.sockets, set_last]
      exact .inr ⟨olds, _, h.lost⟩
    · exact h
  | timeout handle =>
    replace hone : (p.timeout handle).live ≤ 1 := hone
    show (p.timeout handle).Proper
    rw [Page.timeout] at hone ⊢
    split
    · rename_i hany
      rw [if_pos hany] at hone
      refine Page.Proper.connect (p := { p with timeouts := cleared p.timeouts (some handle) }) ?_ hone
      rcases h with hnone | ⟨olds, s, h⟩
      · exact .inl hnone
      · exact .inr ⟨olds, s, h.change h.sockets rfl h.seen h.present⟩
    · exact h

theorem bounded_after (calls : List LifelineCall) {k : Lifeline} (h : k.Bounded) :
    (lifeline.after k calls).Bounded ∧ k.connects ≤ (lifeline.after k calls).connects := by
  refine Machine.after_of_invariant (C := fun _ _ => True)
    (I := fun k' : Lifeline => k'.Bounded ∧ k.connects ≤ k'.connects) ?_ ⟨h, Nat.le_refl _⟩
    (Machine.steps_of_forall (fun _ _ => trivial) _ _)
  rintro k' call ⟨hb, hle⟩ -
  exact ⟨hb.next call, Nat.le_trans hle (connects_le_next k' call)⟩

theorem proper_of_reachable (hreach : pages.Reachable p) (honce : p.connects ≤ 1) : p.Proper := by
  have hall : p.lifeline.Bounded ∧ (p.connects ≤ 1 → p.Proper) := by
    refine hreach.invariant (I := fun p => p.lifeline.Bounded ∧ (p.connects ≤ 1 → p.Proper))
      ⟨bounded_initial, fun _ => .inl ⟨rfl, rfl, rfl⟩⟩ ?_
    rintro p call ⟨hb, h⟩ -
    obtain ⟨hb', hle⟩ := bounded_after call.onLifeline hb
    rw [← lifeline_next] at hb' hle
    refine ⟨hb', fun honce => (h (Nat.le_trans hle honce)).next ?_⟩
    have hmost := hb'.atMost
    rw [live_lifeline] at hmost
    have hcount : (p.next call).lifeline.connects ≤ 1 := honce
    omega
  exact hall.2 honce

/-- **A new connection asks for what was missed.**  If the page has called connect() once: the client
    remembers the highest number that came on any of its sockets, and the first thing it sends on a
    socket asks for what comes after the highest number that came on the sockets before it, or for the
    state if none did. -/
theorem handshake_asks_missed (hreach : pages.Reachable p) (honce : p.connects ≤ 1) :
    p.client.lastSeenSequence = highest p.sockets ∧
      ∀ (i : Nat) (s : WebSocket), p.sockets[i]? = some s →
        (s.readyState = .opened → s.sent ≠ []) ∧
          ∀ m ∈ s.sent.head?, m = Page.handshake (highest (p.sockets.take i)) := by
  rcases proper_of_reachable hreach honce with ⟨hnone, -, hzero⟩ | ⟨olds, s, h⟩
  · rw [hnone]
    exact ⟨hzero, nofun⟩
  · rw [h.sockets]
    refine ⟨h.seen, fun i t hget => ?_⟩
    have hasked := h.asked i t hget
    exact ⟨hasked.opened, hasked.first⟩

end Handshakes

/-! ## A connection that is lost once -/

/-- The third event. -/
def departedMessage : ServerMessage :=
  ⟨"game_event", "UnitsDepartedPublicInfo", .unitsDepartedPublicInfo ⟨"room", .a, ⟨1⟩, 1, 1⟩,
    some 1, 3⟩

/-- The client connects, hears of the third event, loses its connection and makes a new one. -/
def reconnectingCalls : List PageCall :=
  [.connect, .pass 20, .opened 0, .message 0 departedMessage, .pass 500, .closed 0, .pass 3000,
    .timeout 0, .pass 20, .opened 1]

def reconnectedPage : Page := pages.after pages.start reconnectingCalls

theorem reconnectedPage_reachable : pages.Reachable reconnectedPage := by
  have hrun : pages.Steps Page.Legal pages.start reconnectingCalls := by decide +kernel
  exact ⟨reconnectingCalls, hrun, rfl⟩

theorem connection_kept_lost :
    reconnectedPage.live = 1 ∧
      reconnectedPage.sockets.Pairwise (fun s s' => s.createdAt + 3000 ≤ s'.createdAt) :=
  have hkept := connection_kept reconnectedPage_reachable
  ⟨by decide +kernel, (hkept.2.2 (by decide +kernel)).1⟩

theorem handshake_asks_missed_lost :
    reconnectedPage.sockets.map (·.sent) = [[.getState], [.reconnectSync 3]] ∧
      reconnectedPage.client.lastSeenSequence = highest reconnectedPage.sockets :=
  ⟨by decide +kernel, (handshake_asks_missed reconnectedPage_reachable (by decide +kernel)).1⟩

/-- Two calls of connect(), and both sockets lost: the client has forgotten the first timeout, and
    connects again after it was told to disconnect. -/
example : (pages.after pages.start [.connect, .connect, .closed 0, .closed 1, .disconnect, .pass 3000,
    .timeout 0]).live = 1 := by
  decide +kernel

end HexWar
