/-
  How players come through JoinQueue into a room, on a server without Redis.

  JoinQueue is a stream that stays open while its player waits: it tells the player the place in the
  queue once a second, and closes with a verdict.  The verdict comes from elsewhere.  Whoever completes
  a pair in TryMatchInMemory raises OnMatchFound, whose handler creates the room, seats the two players
  and completes the calls that `_waitingPlayers` has for them at that moment.

  `matchmaking` takes the calls of JoinQueue and LeaveQueue and the handlers of OnMatchFound in any
  order, and one access to what they share is one step: DequeueAsync, which empties the queue and fills
  it again, is many.  Only TryMatchInMemory has a lock, and it keeps out nobody but itself.

  What may throw is the write to the stream, the creation of the session and AddPlayerAsync.  The
  EnqueueAsync of the queue in memory does not: it is awaited outside of the `try`, after the entry in
  `_waitingPlayers` was made, and with Redis, where it can throw, the entry would stay.

  Sessions come and go as well.  A session leaves the registry a minute after its game is over, or when
  the clean-up finds it idle, which also disposes of it; a handler that holds it may not be through by
  then.  The room itself stays, for the repository in memory forgets none.

  1. `stream_wellFormed`: what a call has written is a run of Searching updates, and one verdict.
  2. `waiting_underWay`: an entry of `_waitingPlayers` is always that of a call under way.
  3. That the verdicts tell how the rooms are seated follows in `Seats`.
-/
import HexWar.Matchmaking.Queue
import HexWar.Session.Hosts

namespace HexWar

open Lib Lib.Action GameRoom

/-! ## The messages

What is written to a stream, with the fields in the order of the message. -/

/-- What an update says of the player's case. -/
inductive MatchmakingStatus where
  | searching
  | matched
  | cancelled
  | timeout
  | error
deriving DecidableEq, Repr

/-- Where a player goes who has been matched. -/
structure MatchFoundResult where
  roomId : String
  playerSide : String
  wsEndpoint : String
  opponentId : String
deriving DecidableEq, Repr

/-- One message of a stream. -/
structure MatchmakingUpdate where
  status : MatchmakingStatus
  matchResult : Option MatchFoundResult
  queuePosition : Nat
  estimatedWaitSeconds : Nat
deriving DecidableEq, Repr

/-- An update that says no more than its status. -/
def MatchmakingUpdate.plain (status : MatchmakingStatus) : MatchmakingUpdate := ⟨status, none, 0, 0⟩

/-- The update that is written once a second. -/
def MatchmakingUpdate.searching (status : QueueStatusInfo) : MatchmakingUpdate :=
  ⟨.searching, none, status.position, status.estimatedWaitSeconds⟩

/-- The first player of a pair is seated as side A. -/
def MatchFoundEventArgs.player (e : MatchFoundEventArgs) : PlayerSide → QueuedPlayer
  | .a => e.player1
  | .b => e.player2

/-- What a player is told of a match; there is no room when the handler has failed. -/
def MatchFoundEventArgs.update (e : MatchFoundEventArgs) (room : Option String) (side : PlayerSide)
    (clientHost : String) : MatchmakingUpdate :=
  match room with
  | some roomId => ⟨.matched, some {
      roomId := roomId
      playerSide := toString side
      wsEndpoint := s!"ws://{clientHost}/ws/game/{roomId}"
      opponentId := (e.player side.enemy).playerId }, 0, 0⟩
  | none => .plain .error

/-! ## The queue, one access at a time

ConcurrentQueue makes each of its operations atomic, and nothing beyond.  So the methods of the
queue are cut up at these operations. -/

/-- Where DequeueAsync is. -/
inductive DequeueStage where
  /-- The players who remain are read off the queue. -/
  | snapshot (playerId : String)
  /-- The queue is emptied. -/
  | drain (remaining : List QueuedPlayer)
  /-- Those who remain are enqueued again. -/
  | refill (remaining : List QueuedPlayer) (count : Nat)
  /-- It has answered. -/
  | returned (removed : Bool)
deriving DecidableEq, Repr

/-- The next access of DequeueAsync to the queue. -/
def DequeueStage.run (queue : List QueuedPlayer) : DequeueStage → List QueuedPlayer × DequeueStage
  | .snapshot playerId => (queue, .drain (queue.filter (·.playerId ≠ playerId)))
  | .drain remaining =>
    match queue with
    | _ :: rest => (rest, .drain remaining)
    | [] => ([], .refill remaining remaining.length)
  | .refill (player :: rest) count => (queue ++ [player], .refill rest count)
  -- the answer compares the count with what is in the queue by now, and one more
  | .refill [] count => (queue, .returned (count < queue.length + 1))
  | .returned removed => (queue, .returned removed)

/-- Where TryMatchInMemory is, under its lock. -/
inductive MatchStage where
  /-- The loop looks at the number of players, -/
  | count
  /-- takes one -/
  | dequeue1
  /-- and another, -/
  | dequeue2 (player1 : QueuedPlayer)
  /-- and looks at the token of the first -/
  | weigh1 (player1 player2 : QueuedPlayer)
  /-- The first of the two has cancelled. -/
  | keep2 (player2 : QueuedPlayer)
  /-- and at that of the second. -/
  | weigh2 (player1 player2 : QueuedPlayer)
  /-- It is through, perhaps with a pair. -/
  | leave (found : Option MatchFoundEventArgs)
deriving DecidableEq, Repr

/-- The next access of TryMatchInMemory to the queue or to a token. -/
def MatchStage.run (isCancellationRequested : CancellationToken → Bool) (queue : List QueuedPlayer) :
    MatchStage → List QueuedPlayer × MatchStage
  | .count => (queue, if queue.length < 2 then .leave none else .dequeue1)
  | .dequeue1 =>
    match queue with
    | player1 :: rest => (rest, .dequeue2 player1)
    | [] => ([], .leave none)
  -- the queue may be empty again: then the first player is not put back
  | .dequeue2 player1 =>
    match queue with
    | player2 :: rest => (rest, .weigh1 player1 player2)
    | [] => ([], .leave none)
  | .weigh1 player1 player2 =>
    (queue, if isCancellationRequested player1.cancellationToken then .keep2 player2
      else .weigh2 player1 player2)
  | .keep2 player2 =>
    (if isCancellationRequested player2.cancellationToken then queue else queue ++ [player2], .count)
  | .weigh2 player1 player2 =>
    if isCancellationRequested player2.cancellationToken then (queue ++ [player1], .count)
    else (queue, .leave (some ⟨player1, player2⟩))
  | .leave found => (queue, .leave found)

/-! ## A call of JoinQueue

A call is a program counter with the variables that its code reads: the stages stand for the lines
between two accesses to what is shared, or between two awaits. -/

/-- How a write to a stream ends. -/
inductive WriteOutcome where
  | written
  | operationCanceled
  | failed
deriving DecidableEq, Repr

/-- Where a call of JoinQueue is. -/
inductive JoinStage where
  /-- Is the player in `_waitingPlayers`? -/
  | containsKey
  /-- The player waits already. -/
  | writeDuplicate
  /-- Its entry is made, -/
  | register
  -- EnqueueAsync
  | enqueue
  | enterLock
  | matching (stage : MatchStage)
  -- the loop
  | checkCancelled
  | checkCompleted
  | getStatus
  | writeSearching (status : QueueStatusInfo)
  /-- and after a second the loop begins anew. -/
  | pause
  /-- The player is not in the queue any more: the verdict may still be on its way. -/
  | waitShortly
  -- after the loop
  | checkFinal
  | writeFinal (finalUpdate : MatchmakingUpdate)
  -- catch
  | dequeueCancelled (stage : DequeueStage)
  | writeCancelled
  | writeError
  -- finally
  /-- The entry is removed, and then the player. -/
  | removeWaiting
  | dequeueLeft (stage : DequeueStage)
  | returned
deriving DecidableEq, Repr

/-- One call of JoinQueue, with its token, its stream and where it is. -/
structure JoinCall where
  playerId : String
  rating : Int
  clientHost : String
  /-- The player's token is cancelled. -/
  cancelled : Bool
  /-- The result of the TaskCompletionSource. -/
  completion : Option MatchmakingUpdate
  /-- The stream. -/
  sent : List MatchmakingUpdate
  stage : JoinStage
deriving DecidableEq, Repr

/-- What a call writes next, if it writes. -/
def JoinStage.update? : JoinStage → Option MatchmakingUpdate
  | .writeDuplicate | .writeError => some (.plain .error)
  | .writeSearching status => some (.searching status)
  | .writeFinal finalUpdate => some finalUpdate
  | .writeCancelled => some (.plain .cancelled)
  | .containsKey | .register | .enqueue | .enterLock | .matching _ | .checkCancelled
  | .checkCompleted | .getStatus | .pause | .waitShortly | .checkFinal | .dequeueCancelled _
  | .removeWaiting | .dequeueLeft _ | .returned => none

/-- TrySetResult: the first result stays. -/
def JoinCall.trySetResult (c : JoinCall) (update : MatchmakingUpdate) : JoinCall :=
  { c with completion := some (c.completion.getD update) }

/-- What goes onto the stream in a step. -/
def JoinCall.written (c : JoinCall) (outcome : WriteOutcome) : List MatchmakingUpdate :=
  if outcome = .written then c.sent ++ c.stage.update?.toList else c.sent

/-! ## The server

One process: the queue, the calls, the handlers, and the sessions with their rooms. -/

/-- Where a handler of OnMatchFound is. -/
inductive MatchTask where
  | createSession (e : MatchFoundEventArgs)
  | addPlayer (e : MatchFoundEventArgs) (roomId : String) (side : PlayerSide)
  /-- TryGetValue for one of the players; without a room when something was thrown. -/
  | find (e : MatchFoundEventArgs) (room : Option String) (side : PlayerSide)
  /-- TrySetResult for the call that was found. -/
  | complete (e : MatchFoundEventArgs) (room : Option String) (side : PlayerSide) (call : Nat)
deriving DecidableEq, Repr

/-- What has become of a session. -/
inductive Registration where
  | registered
  /-- It is in the registry no more, but whoever holds it may still use it. -/
  | removed
  /-- Its lock is gone too, and whoever asks for it throws. -/
  | disposed
deriving DecidableEq, Repr

/-- All that the calls and the handlers share. -/
structure Lobby where
  serverId : String
  planningTimeout : Time
  inMemoryQueue : List QueuedPlayer
  /-- The call inside TryMatchInMemory. -/
  matchLock : Option Nat
  /-- For every player that waits, the call that waits. -/
  waitingPlayers : Dict String Nat
  calls : Dict Nat JoinCall
  /-- The handlers of OnMatchFound under way. -/
  handlers : List MatchTask
  leaves : List DequeueStage
  /-- The rooms that were created, each with its session. -/
  sessions : Dict String Host
  /-- What has become of their sessions. -/
  registry : Dict String Registration
  /-- The rooms whose session has been removed, for the record. -/
  removed : List String

/-- What can happen next. -/
inductive LobbyStep where
  /-- A player calls JoinQueue, -/
  | joinQueue (call : Nat) (playerId : String) (rating : Int) (clientHost : String)
  /-- or goes away. -/
  | cancel (call : Nat)
  /-- A call goes on; if it writes, so does the write end. -/
  | advanceCall (call : Nat) (outcome : WriteOutcome) (now : Time)
  /-- A handler goes on; if it needs a room id, the Guid is this one. -/
  | advanceMatch (index : Nat) (guid : String) (now : Time)
  /-- LeaveQueue is called, -/
  | leaveQueue (playerId : String)
  /-- and goes on. -/
  | advanceLeave (index : Nat)
  /-- The game in a room goes on. -/
  | play (roomId : String) (call : SessionCall)
  /-- A session leaves the registry, by the handler of OnGameOver or the clean-up. -/
  | removeSession (roomId : String)
  /-- The clean-up disposes of a session that it has removed. -/
  | disposeSession (roomId : String)
deriving DecidableEq

namespace Lobby

/-- A player's token is the number of its call. -/
def isCancellationRequested (l : Lobby) (token : CancellationToken) : Bool :=
  (token.bind l.calls.get?).any JoinCall.cancelled

/-- GetStatusAsync of the queue as it is now. -/
def getStatus (l : Lobby) (playerId : String) : QueueStatusInfo :=
  InMemoryQueue.getStatus ⟨l.inMemoryQueue, [], []⟩ playerId

/-- Where a call goes on after a write inside the try block. -/
def afterWrite (c : JoinCall) (outcome : WriteOutcome) (stage : JoinStage) : JoinStage :=
  match outcome with
  | .written => stage
  | .operationCanceled => .dequeueCancelled (.snapshot c.playerId)
  | .failed => .writeError

/-- Where a call goes on. -/
def nextStage (l : Lobby) (c : JoinCall) (outcome : WriteOutcome) : JoinStage :=
  match c.stage with
  | .containsKey => if l.waitingPlayers.containsKey c.playerId then .writeDuplicate else .register
  | .writeDuplicate => .returned
  | .register => .enqueue
  | .enqueue => .enterLock
  | .enterLock => if l.matchLock.isSome then .enterLock else .matching .count
  | .matching (.leave _) => .checkCancelled
  | .matching stage => .matching (stage.run l.isCancellationRequested l.inMemoryQueue).2
  | .checkCancelled => if c.cancelled then .checkFinal else .checkCompleted
  | .checkCompleted => if c.completion.isSome then .checkFinal else .getStatus
  | .getStatus =>
    if (l.getStatus c.playerId).isInQueue then .writeSearching (l.getStatus c.playerId)
    else .waitShortly
  | .writeSearching _ => afterWrite c outcome .pause
  | .pause => .checkCancelled
  | .waitShortly => .checkFinal
  | .checkFinal =>
    match c.completion with
    | some finalUpdate => .writeFinal finalUpdate
    | none => .removeWaiting
  | .writeFinal _ => afterWrite c outcome .removeWaiting
  | .dequeueCancelled (.returned _) => .writeCancelled
  | .dequeueCancelled stage => .dequeueCancelled (stage.run l.inMemoryQueue).2
  -- what is thrown in a catch block passes the finally block
  | .writeCancelled | .writeError => .removeWaiting
  | .removeWaiting => .dequeueLeft (.snapshot c.playerId)
  | .dequeueLeft (.returned _) => .returned
  | .dequeueLeft stage => .dequeueLeft (stage.run l.inMemoryQueue).2
  | .returned => .returned

/-- What a call does to the queue. -/
def queueAfter (l : Lobby) (call : Nat) (c : JoinCall) (now : Time) : List QueuedPlayer :=
  match c.stage with
  | .enqueue => l.inMemoryQueue ++ [⟨c.playerId, c.rating, now, some call⟩]
  | .matching stage => (stage.run l.isCancellationRequested l.inMemoryQueue).1
  | .dequeueCancelled stage | .dequeueLeft stage => (stage.run l.inMemoryQueue).1
  | _ => l.inMemoryQueue

/-- What a call does to the lock of TryMatchInMemory. -/
def lockAfter (l : Lobby) (call : Nat) (c : JoinCall) : Option Nat :=
  match c.stage with
  | .enterLock => some (l.matchLock.getD call)
  | .matching (.leave _) => none
  | _ => l.matchLock

/-- What a call does to `_waitingPlayers`. -/
def waitingAfter (l : Lobby) (call : Nat) (c : JoinCall) : Dict String Nat :=
  match c.stage with
  | .register => l.waitingPlayers.set c.playerId call
  | .removeWaiting => l.waitingPlayers.remove c.playerId
  | _ => l.waitingPlayers

/-- The handler that a call starts by raising OnMatchFound. -/
def raised (c : JoinCall) : List MatchTask :=
  match c.stage with
  | .matching (.leave (some e)) => [.createSession e]
  | _ => []

/-- One step of a call: everything that it touches, at once. -/
def advanceCall (l : Lobby) (call : Nat) (c : JoinCall) (outcome : WriteOutcome) (now : Time) :
    Lobby :=
  { l with
    inMemoryQueue := l.queueAfter call c now
    matchLock := l.lockAfter call c
    waitingPlayers := l.waitingAfter call c
    calls := l.calls.set call { c with sent := c.written outcome, stage := l.nextStage c outcome }
    handlers := l.handlers ++ raised c }

/-- The session of a room that has just been created. -/
def newSession (l : Lobby) (roomId : String) : Host :=
  Host.initial roomId l.serverId false l.planningTimeout

/-- Is a session registered under an id? -/
def isRegistered (l : Lobby) (roomId : String) : Bool := l.registry.get? roomId = some .registered

/-- The player who is to be seated. -/
def joining (e : MatchFoundEventArgs) (side : PlayerSide) : PlayerId := ⟨(e.player side).playerId⟩

/-- The room with its session, when the session can still be used. -/
def held? (l : Lobby) (roomId : String) : Option Host :=
  if l.registry.get? roomId = some .disposed then none else l.sessions.get? roomId

/-- Does AddPlayerAsync return?  The lock of a session that has been disposed of throws. -/
def admits (l : Lobby) (e : MatchFoundEventArgs) (roomId : String) (side : PlayerSide) (now : Time) :
    Bool :=
  match l.held? roomId with
  | some h => succeeds (reliable.addPlayerToRoom (joining e side) now) h
  | none => false

/-- The other player's turn, or the end of the handler. -/
def findNext (e : MatchFoundEventArgs) (room : Option String) : PlayerSide → List MatchTask
  | .a => [.find e room .b]
  | .b => []

/-- What is left of a handler after its next step. -/
def handlerLeft (l : Lobby) (guid : String) (now : Time) : MatchTask → List MatchTask
  | .createSession e =>
    if l.isRegistered guid then [.find e none .a] else [.addPlayer e guid .a]
  | .addPlayer e roomId side =>
    if l.admits e roomId side now then
      match side with
      | .a => [.addPlayer e roomId .b]
      | .b => [.find e (some roomId) .a]
    else [.find e none .a]
  | .find e room side =>
    match l.waitingPlayers.get? (e.player side).playerId with
    | some call => [.complete e room side call]
    | none => findNext e room side
  | .complete e room side _ => findNext e room side

/-- What a handler does to the sessions: a new one replaces what the repository has under its id. -/
def sessionsAfter (l : Lobby) (guid : String) (now : Time) : MatchTask → Dict String Host
  | .createSession _ =>
    if l.isRegistered guid then l.sessions else l.sessions.set guid (l.newSession guid)
  | .addPlayer e roomId side =>
    match l.held? roomId with
    | some h => l.sessions.set roomId (h.next (.addPlayer (joining e side) now))
    | none => l.sessions
  | .find _ _ _ | .complete _ _ _ _ => l.sessions

/-- What a handler does to the registry. -/
def registryAfter (l : Lobby) (guid : String) : MatchTask → Dict String Registration
  | .createSession _ => l.registry.set guid .registered
  | .addPlayer _ _ _ | .find _ _ _ | .complete _ _ _ _ => l.registry

/-- What a handler does to the calls. -/
def callsAfter (l : Lobby) : MatchTask → Dict Nat JoinCall
  | .complete e room side call =>
    match l.calls.get? call with
    | some c => l.calls.set call (c.trySetResult (e.update room side c.clientHost))
    | none => l.calls
  | .createSession _ | .addPlayer _ _ _ | .find _ _ _ => l.calls

/-- One step of a handler: the task is replaced by what is left of it. -/
def advanceMatch (l : Lobby) (index : Nat) (t : MatchTask) (guid : String) (now : Time) : Lobby :=
  { l with
    sessions := l.sessionsAfter guid now t
    registry := l.registryAfter guid t
    calls := l.callsAfter t
    handlers :=
      l.handlers.take index ++ l.handlerLeft guid now t ++ l.handlers.drop (index + 1) }

/-- One step of the server; a step of what is not there does nothing. -/
def next (l : Lobby) : LobbyStep → Lobby
  | .joinQueue call playerId rating clientHost =>
    -- the calls are numbered as they come
    if l.calls.containsKey call then l
    else { l with
      calls := l.calls.set call ⟨playerId, rating, clientHost, false, none, [], .containsKey⟩ }
  | .cancel call =>
    match l.calls.get? call with
    | some c => { l with calls := l.calls.set call { c with cancelled := true } }
    | none => l
  | .advanceCall call outcome now =>
    match l.calls.get? call with
    | some c => l.advanceCall call c outcome now
    | none => l
  | .advanceMatch index guid now =>
    match l.handlers[index]? with
    | some t => l.advanceMatch index t guid now
    | none => l
  | .leaveQueue playerId => { l with leaves := l.leaves ++ [.snapshot playerId] }
  | .advanceLeave index =>
    match l.leaves[index]? with
    | some stage => { l with
        inMemoryQueue := (stage.run l.inMemoryQueue).1
        leaves := l.leaves.set index (stage.run l.inMemoryQueue).2 }
    | none => l
  | .play roomId call =>
    match l.held? roomId with
    | some h => { l with sessions := l.sessions.set roomId (h.next call) }
    | none => l
  | .removeSession roomId =>
    if l.isRegistered roomId then { l with
      registry := l.registry.set roomId .removed
      removed := roomId :: l.removed }
    else l
  | .disposeSession roomId =>
    if l.registry.get? roomId = some .removed then
      { l with registry := l.registry.set roomId .disposed }
    else l

end Lobby

/-- The matchmaking of one server. -/
def matchmaking (serverId : String) (planningTimeout : Time) : Machine Lobby LobbyStep :=
  ⟨⟨serverId, planningTimeout, [], none, .empty, .empty, [], [], .empty, .empty, []⟩, Lobby.next,
    fun _ _ => True⟩

/-! ## What a step does to a call

Whatever happens, a call rests, is cancelled, goes on or gets its result. -/

/-- What becomes of a call of JoinQueue in a step. -/
inductive CallMoves (l : Lobby) (call : Nat) (c : JoinCall) : JoinCall → Prop where
  | rests : CallMoves l call c c
  | cancelled : CallMoves l call c { c with cancelled := true }
  | goesOn (outcome : WriteOutcome) :
      CallMoves l call c { c with sent := c.written outcome, stage := l.nextStage c outcome }
  | completed {e : MatchFoundEventArgs} {room : Option String} {side : PlayerSide}
      (ht : .complete e room side call ∈ l.handlers) :
      CallMoves l call c (c.trySetResult (e.update room side c.clientHost))

/-- What becomes of all calls: nothing, or one of them moves, or one comes. -/
inductive CallsMove (l : Lobby) : Dict Nat JoinCall → Prop where
  | rest : CallsMove l l.calls
  | move {call : Nat} {c c' : JoinCall} (hcall : l.calls.get? call = some c)
      (hmoves : CallMoves l call c c') : CallsMove l (l.calls.set call c')
  | come {call : Nat} (hcall : l.calls.get? call = none) (playerId : String) (rating : Int)
      (clientHost : String) : CallsMove l
        (l.calls.set call ⟨playerId, rating, clientHost, false, none, [], .containsKey⟩)

/-- **What a step does to the calls.** -/
theorem next_callsMove (l : Lobby) (step : LobbyStep) : CallsMove l (l.next step).calls := by
  cases step with
  | joinQueue call playerId rating clientHost =>
    rw [Lobby.next]
    split
    · exact .rest
    · rename_i hnew
      rw [Dict.containsKey, Option.isSome_iff_ne_none, not_not] at hnew
      exact .come hnew playerId rating clientHost
  | cancel call =>
    rw [Lobby.next]
    split
    · rename_i c hcall
      exact .move hcall .cancelled
    · exact .rest
  | advanceCall call outcome now =>
    rw [Lobby.next]
    split
    · rename_i c hcall
      exact .move hcall (.goesOn outcome)
    · exact .rest
  | advanceMatch index guid now =>
    rw [Lobby.next]
    split
    · rename_i t ht
      cases t with
      | complete e room side call =>
        show CallsMove l (l.callsAfter (.complete e room side call))
        rw [Lobby.callsAfter]
        split
        · rename_i c hcall
          exact .move hcall (.completed (List.mem_of_getElem? ht))
        · exact .rest
      | createSession e | addPlayer e roomId side | find e room side => exact .rest
    · exact .rest
  | leaveQueue playerId => exact .rest
  | advanceLeave index =>
    rw [Lobby.next]
    split <;> exact .rest
  | play roomId sessionCall =>
    rw [Lobby.next]
    split <;> exact .rest
  | removeSession roomId | disposeSession roomId =>
    rw [Lobby.next]
    split <;> exact .rest

/-- Where the calls after a step come from. -/
theorem CallsMove.before {l : Lobby} {calls : Dict Nat JoinCall} (h : CallsMove l calls) {k : Nat}
    {d' : JoinCall} (hget : calls.get? k = some d') :
    (∃ d, l.calls.get? k = some d ∧ CallMoves l k d d') ∨
      ∃ playerId rating clientHost,
        d' = ⟨playerId, rating, clientHost, false, none, [], .containsKey⟩ := by
  cases h with
  | rest => exact .inl ⟨d', hget, .rests⟩
  | @move call c c' hcall hmoves =>
    rw [Dict.get?_set] at hget
    split at hget
    · rename_i heq
      subst heq
      cases hget
      exact .inl ⟨c, hcall, hmoves⟩
    · exact .inl ⟨d', hget, .rests⟩
  | come hcall playerId rating clientHost =>
    rw [Dict.get?_set] at hget
    split at hget
    · cases hget
      exact .inr ⟨_, _, _, rfl⟩
    · exact .inl ⟨d', hget, .rests⟩

/-- No call is forgotten. -/
theorem CallsMove.after {l : Lobby} {calls : Dict Nat JoinCall} (h : CallsMove l calls) {k : Nat}
    {d : JoinCall} (hget : l.calls.get? k = some d) :
    ∃ d', calls.get? k = some d' ∧ CallMoves l k d d' := by
  cases h with
  | rest => exact ⟨d, hget, .rests⟩
  | @move call c c' hcall hmoves =>
    rw [Dict.get?_set]
    split
    · rename_i heq
      subst heq
      rw [hcall] at hget
      cases hget
      exact ⟨c', rfl, hmoves⟩
    · exact ⟨d, hget, .rests⟩
  | @come call hcall playerId rating clientHost =>
    rw [Dict.get?_set]
    split
    · rename_i heq
      subst heq
      rw [hcall] at hget
      cases hget
    · exact ⟨d, hget, .rests⟩

/-- The induction of a property that every call keeps, whatever happens around it. -/
theorem calls_of_reachable {serverId : String} {planningTimeout : Time} {P : JoinCall → Prop}
    (hnew : ∀ playerId rating clientHost,
      P ⟨playerId, rating, clientHost, false, none, [], .containsKey⟩)
    (hmoves : ∀ l call c c', P c → CallMoves l call c c' → P c') {l : Lobby}
    (hreach : (matchmaking serverId planningTimeout).Reachable l) :
    ∀ call c, l.calls.get? call = some c → P c := by
  refine hreach.invariant (I := fun l => ∀ call c, l.calls.get? call = some c → P c)
    (fun _ _ hget => by cases hget) fun l step hl _ call c' hget => ?_
  rcases (next_callsMove l step).before hget with ⟨c, hc, hmove⟩ | ⟨playerId, rating, clientHost, rfl⟩
  · exact hmoves l call c c' (hl call c hc) hmove
  · exact hnew playerId rating clientHost

/-! ## The streams

A property that every step of a call keeps is carried to all calls of all runs by
`calls_of_reachable`. -/

/-- Something can still be written. -/
def JoinStage.isOpen : JoinStage → Bool
  | .removeWaiting | .dequeueLeft _ | .returned => false
  | .containsKey | .writeDuplicate | .register | .enqueue | .enterLock | .matching _
  | .checkCancelled | .checkCompleted | .getStatus | .writeSearching _ | .pause | .waitShortly
  | .checkFinal | .writeFinal _ | .dequeueCancelled _ | .writeCancelled | .writeError => true

/-- An update says what its status says. -/
structure MatchmakingUpdate.Regular (u : MatchmakingUpdate) : Prop where
  result : u.status = .matched ↔ u.matchResult.isSome
  place : u.status = .searching → 1 ≤ u.queuePosition
  timeout : u.status ≠ .timeout

/-- An update that says no more than its status is regular, unless it says that there is a match. -/
theorem regular_plain {status : MatchmakingStatus} (hmatched : status ≠ .matched)
    (hsearching : status ≠ .searching) (htimeout : status ≠ .timeout) :
    (MatchmakingUpdate.plain status).Regular where
  result := ⟨fun h => absurd h hmatched, nofun⟩
  place h := absurd h hsearching
  timeout := htimeout

/-- So is what a player is told of a match. -/
theorem regular_update (e : MatchFoundEventArgs) (room : Option String) (side : PlayerSide)
    (clientHost : String) : (e.update room side clientHost).Regular := by
  cases room with
  | none => exact regular_plain (by decide) (by decide) (by decide)
  | some roomId => exact ⟨⟨fun _ => rfl, fun _ => rfl⟩, nofun, nofun⟩

/-- Whoever is in the queue has a place in it. -/
theorem regular_searching {l : Lobby} {playerId : String}
    (hin : (l.getStatus playerId).isInQueue = true) :
    (MatchmakingUpdate.searching (l.getStatus playerId)).Regular where
  result := ⟨nofun, nofun⟩
  place _ := by
    show 1 ≤ (l.getStatus playerId).position
    rw [Lobby.getStatus, InMemoryQueue.getStatus] at hin ⊢
    split at hin
    · exact Nat.le_add_left 1 _
    · cases hin
  timeout := nofun

/-- What holds of a call's stream. -/
structure Streaming (c : JoinCall) : Prop where
  regular : ∀ u ∈ c.sent, u.Regular
  /-- A verdict is the last thing that is sent. -/
  searching : ∀ u ∈ c.sent.dropLast, u.status = .searching
  isOpen : c.stage.isOpen = true → ∀ u ∈ c.sent, u.status = .searching
  completion : ∀ u, c.completion = some u → u.Regular
  pending : ∀ u, c.stage.update? = some u → u.Regular

/-- After a verdict nothing can be written. -/
theorem isOpen_nextStage {l : Lobby} {c : JoinCall} {u : MatchmakingUpdate}
    (hupdate : c.stage.update? = some u)
    (hopen : (l.nextStage c .written).isOpen = true) : u.status = .searching := by
  rcases hstage : c.stage <;> rw [hstage] at hupdate <;> cases hupdate <;>
    simp only [Lobby.nextStage, hstage] at hopen
  case writeSearching status => rfl
  all_goals cases hopen

/-- A call that is closed stays closed. -/
theorem isOpen_of_nextStage {l : Lobby} {c : JoinCall} {outcome : WriteOutcome}
    (hopen : (l.nextStage c outcome).isOpen = true) : c.stage.isOpen = true := by
  rcases hstage : c.stage <;> try rfl
  all_goals simp only [Lobby.nextStage, hstage] at hopen
  case removeWaiting => cases hopen
  case dequeueLeft stage => cases stage <;> cases hopen
  case returned => cases hopen

/-- What a call is about to write comes from the queue, from its result, or is plain. -/
theorem update_nextStage {l : Lobby} {c : JoinCall} {outcome : WriteOutcome} {u : MatchmakingUpdate}
    (hupdate : (l.nextStage c outcome).update? = some u) :
    c.completion = some u ∨ u = .plain .error ∨ u = .plain .cancelled ∨
      ∃ playerId, (l.getStatus playerId).isInQueue = true ∧
        u = .searching (l.getStatus playerId) := by
  have hwrite : ∀ {stage : JoinStage}, stage.update? = none →
      (Lobby.afterWrite c outcome stage).update? = some u → u = .plain .error := by
    intro stage hnone h
    cases outcome with
    | written => exact absurd (hnone.symm.trans h) nofun
    | operationCanceled => cases h
    | failed => exact (Option.some.inj h).symm
  rcases hstage : c.stage <;> simp only [Lobby.nextStage, hstage] at hupdate
  case containsKey =>
    split at hupdate
    · exact .inr (.inl (Option.some.inj hupdate).symm)
    · cases hupdate
  case getStatus =>
    split at hupdate
    · rename_i hin
      exact .inr (.inr (.inr ⟨c.playerId, hin, (Option.some.inj hupdate).symm⟩))
    · cases hupdate
  case writeSearching status => exact .inr (.inl (hwrite rfl hupdate))
  case writeFinal finalUpdate => exact .inr (.inl (hwrite rfl hupdate))
  case checkFinal =>
    split at hupdate
    · rename_i finalUpdate hcompletion
      exact .inl (hcompletion.trans hupdate)
    · cases hupdate
  case dequeueCancelled stage =>
    cases stage with
    | returned removed => exact .inr (.inr (.inl (Option.some.inj hupdate).symm))
    | snapshot playerId | drain remaining | refill remaining count => cases hupdate
  case enterLock => split at hupdate <;> cases hupdate
  case checkCancelled => split at hupdate <;> cases hupdate
  case checkCompleted => split at hupdate <;> cases hupdate
  case matching stage => cases stage <;> cases hupdate
  case dequeueLeft stage => cases stage <;> cases hupdate
  all_goals cases hupdate

/-- A step of the call keeps its stream in order, -/
theorem Streaming.goesOn {l : Lobby} {c : JoinCall} (h : Streaming c) (outcome : WriteOutcome) :
    Streaming { c with sent := c.written outcome, stage := l.nextStage c outcome } := by
  have hpending : ∀ u, (l.nextStage c outcome).update? = some u → u.Regular := by
    intro u hupdate
    rcases update_nextStage hupdate with hcompletion | rfl | rfl | ⟨playerId, hin, rfl⟩
    · exact h.completion u hcompletion
    · exact regular_plain (by decide) (by decide) (by decide)
    · exact regular_plain (by decide) (by decide) (by decide)
    · exact regular_searching hin
  have hquiet : c.written outcome = c.sent →
      Streaming { c with sent := c.written outcome, stage := l.nextStage c outcome } := by
    intro hsent
    rw [hsent]
    exact ⟨h.regular, h.searching, fun hopen => h.isOpen (isOpen_of_nextStage hopen), h.completion,
      hpending⟩
  rcases hupdate : c.stage.update? with _ | u
  · refine hquiet ?_
    rw [JoinCall.written, hupdate]
    split
    · exact List.append_nil _
    · rfl
  · by_cases hwritten : outcome = .written
    · subst hwritten
      have hopen : c.stage.isOpen = true := by
        rcases hstage : c.stage <;> rw [hstage] at hupdate <;> first | rfl | cases hupdate
      have hsent : c.written .written = c.sent ++ [u] := by
        rw [JoinCall.written, if_pos rfl, hupdate]
        rfl
      rw [hsent]
      refine ⟨fun v hv => ?_, ?_, fun hnext v hv => ?_, h.completion, hpending⟩
      · rcases List.mem_append.mp hv with hold | hnew
        · exact h.regular v hold
        · rw [List.mem_singleton.mp hnew]
          exact h.pending u hupdate
      · show ∀ v ∈ (c.sent ++ [u]).dropLast, v.status = .searching
        rw [List.dropLast_concat]
        exact h.isOpen hopen
      · rcases List.mem_append.mp hv with hold | hnew
        · exact h.isOpen hopen v hold
        · rw [List.mem_singleton.mp hnew]
          exact isOpen_nextStage hupdate hnext
    · refine hquiet ?_
      rw [JoinCall.written, if_neg hwritten]

/-- and so does everything else that can happen to it. -/
theorem Streaming.moves {l : Lobby} {call : Nat} {c c' : JoinCall} (h : Streaming c)
    (hmoves : CallMoves l call c c') : Streaming c' := by
  cases hmoves with
  | rests => exact h
  | cancelled => exact ⟨h.regular, h.searching, h.isOpen, h.completion, h.pending⟩
  | goesOn outcome => exact h.goesOn outcome
  | @completed e room side ht =>
    refine ⟨h.regular, h.searching, h.isOpen, fun u hu => ?_, h.pending⟩
    rcases hold : c.completion with _ | v
    · rw [JoinCall.trySetResult, hold] at hu
      rw [← Option.some.inj hu]
      exact regular_update e room side c.clientHost
    · rw [JoinCall.trySetResult, hold] at hu
      rw [← Option.some.inj hu]
      exact h.completion v hold

/-- **The shape of every stream.**  However the calls, their writes and the handlers take turns, a
    stream is a sequence of places in the queue, each at least one, and after them at most one verdict,
    which carries a result exactly if it says that the player was matched; a call that is on its way
    out writes nothing more. -/
theorem stream_wellFormed {serverId : String} {planningTimeout : Time} {l : Lobby}
    (hreach : (matchmaking serverId planningTimeout).Reachable l) {call : Nat} {c : JoinCall}
    (hcall : l.calls.get? call = some c) :
    (∀ u ∈ c.sent.dropLast, u.status = .searching) ∧
      (∀ u ∈ c.sent, (u.status = .searching → 1 ≤ u.queuePosition) ∧
        (u.status = .matched ↔ u.matchResult.isSome) ∧ u.status ≠ .timeout) ∧
      (∀ u ∈ c.sent, u.status ≠ .searching → ∀ outcome, c.written outcome = c.sent) := by
  have hc : Streaming c := by
    refine calls_of_reachable (fun playerId rating clientHost => ?_)
      (fun l call c c' h hmoves => h.moves hmoves) hreach call c hcall
    exact ⟨nofun, nofun, nofun, nofun, nofun⟩
  refine ⟨hc.searching, fun u hu => ?_, fun u hu hverdict outcome => ?_⟩
  · have hu := hc.regular u hu
    exact ⟨hu.place, hu.result, hu.timeout⟩
  · -- a call with a verdict on its stream is closed
    have hclosed : c.stage.isOpen ≠ true := fun hopen => hverdict (hc.isOpen hopen u hu)
    have hnone : c.stage.update? = none := by
      rcases hstage : c.stage <;> rw [hstage] at hclosed <;> first | rfl | exact absurd rfl hclosed
    rw [JoinCall.written, hnone]
    split
    · exact List.append_nil _
    · rfl

/-- Two players come, are matched, and the first one is told. -/
def firstMatch : List LobbyStep :=
  [.joinQueue 0 "ann" 1500 "hex", .joinQueue 1 "bob" 1500 "hex"] ++
    List.replicate 6 (.advanceCall 0 .written 0) ++ List.replicate 10 (.advanceCall 1 .written 0) ++
    List.replicate 7 (.advanceMatch 0 "room" 0) ++ List.replicate 4 (.advanceCall 0 .written 0)

/-- The server when they have been matched. -/
def firstMatched : Lobby := (matchmaking "S" 30000).after (matchmaking "S" 30000).start firstMatch

/-- It is a state of a run. -/
theorem firstMatched_reachable : (matchmaking "S" 30000).Reachable firstMatched :=
  ⟨firstMatch, Machine.steps_of_forall (fun _ _ => trivial) _ _, rfl⟩

/-- What the first player is told. -/
def annMatched : MatchFoundResult := ⟨"room", "A", "ws://hex/ws/game/room", "bob"⟩

/-- The first player's call, on its way out. -/
def annLeaving : JoinCall where
  playerId := "ann"
  rating := 1500
  clientHost := "hex"
  cancelled := false
  completion := some ⟨.matched, some annMatched, 0, 0⟩
  sent := [⟨.matched, some annMatched, 0, 0⟩]
  stage := .removeWaiting

theorem stream_wellFormed_ann : firstMatched.calls.get? 0 = some annLeaving ∧
    (∀ u ∈ annLeaving.sent.dropLast, u.status = .searching) ∧
      ∀ u ∈ annLeaving.sent, u.status ≠ .searching → ∀ outcome, annLeaving.written outcome =
        annLeaving.sent := by
  have hann : firstMatched.calls.get? 0 = some annLeaving := by decide +kernel
  obtain ⟨hsearching, -, hlast⟩ := stream_wellFormed firstMatched_reachable hann
  exact ⟨hann, hsearching, hlast⟩

/-! ## Who waits

An entry is written and removed by the call that it names, or overwritten by a later call of the
same player; both are under way until they are through with it. -/

/-- The call has registered its player, and has not yet taken it out again. -/
def JoinStage.isRegistered : JoinStage → Bool
  | .containsKey | .writeDuplicate | .register | .dequeueLeft _ | .returned => false
  | .enqueue | .enterLock | .matching _ | .checkCancelled | .checkCompleted | .getStatus
  | .writeSearching _ | .pause | .waitShortly | .checkFinal | .writeFinal _ | .dequeueCancelled _
  | .writeCancelled | .writeError | .removeWaiting => true

/-- A call is registered until it removes its entry. -/
theorem isRegistered_nextStage {l : Lobby} {c : JoinCall} {outcome : WriteOutcome}
    (h : c.stage.isRegistered = true) (hne : c.stage ≠ .removeWaiting) :
    (l.nextStage c outcome).isRegistered = true := by
  rcases hstage : c.stage <;> rw [hstage] at h hne <;> simp only [Lobby.nextStage, hstage]
  case removeWaiting => exact absurd rfl hne
  case enterLock => split <;> rfl
  case matching stage => cases stage <;> rfl
  case checkCancelled => split <;> rfl
  case checkCompleted => split <;> rfl
  case getStatus => split <;> rfl
  case writeSearching status => cases outcome <;> rfl
  case writeFinal finalUpdate => cases outcome <;> rfl
  case checkFinal => split <;> rfl
  case dequeueCancelled stage => cases stage <;> rfl
  all_goals first | rfl | cases h

/-- Every entry of `_waitingPlayers` is that of a call of its player that is registered. -/
def Lobby.Registered (l : Lobby) : Prop := ∀ playerId call, l.waitingPlayers.get? playerId = some call →
  ∃ c, l.calls.get? call = some c ∧ c.playerId = playerId ∧ c.stage.isRegistered = true

/-- A call that keeps its player and its stage keeps the entries right. -/
theorem Lobby.Registered.congr {l l' : Lobby} (h : l.Registered)
    (hwaiting : l'.waitingPlayers = l.waitingPlayers)
    (hcalls : ∀ call c, l.calls.get? call = some c → ∃ c', l'.calls.get? call = some c' ∧
      c'.playerId = c.playerId ∧ c'.stage = c.stage) : l'.Registered := by
  intro playerId call hget
  rw [hwaiting] at hget
  obtain ⟨c, hc, hid, hstage⟩ := h playerId call hget
  obtain ⟨c', hc', hid', hstage'⟩ := hcalls call c hc
  exact ⟨c', hc', hid'.trans hid, hstage' ▸ hstage⟩

/-- The same when one call is written over by one that agrees with it. -/
theorem Lobby.Registered.congr_set {l l' : Lobby} (h : l.Registered)
    (hwaiting : l'.waitingPlayers = l.waitingPlayers) {k : Nat} {d d' : JoinCall}
    (hk : l.calls.get? k = some d) (hcalls : l'.calls = l.calls.set k d')
    (hid : d'.playerId = d.playerId) (hstage : d'.stage = d.stage) : l'.Registered := by
  refine h.congr hwaiting fun call c hc => ?_
  rw [hcalls, Dict.get?_set]
  split
  · rename_i heq
    subst heq
    rw [hk] at hc
    cases hc
    exact ⟨d', rfl, hid, hstage⟩
  · exact ⟨c, hc, rfl, rfl⟩

/-- A call goes on: it writes its own entry or takes it away, and moves within its time. -/
theorem Lobby.Registered.goesOn {l : Lobby} (h : l.Registered) {k : Nat} {c : JoinCall}
    (hk : l.calls.get? k = some c) (outcome : WriteOutcome) (now : Time) :
    (l.advanceCall k c outcome now).Registered := by
  intro playerId call hget
  replace hget : (l.waitingAfter k c).get? playerId = some call := hget
  show ∃ c', (l.calls.set k { c with
    sent := c.written outcome, stage := l.nextStage c outcome }).get? call = some c' ∧ _
  rw [Dict.get?_set]
  -- an entry that was there before
  have hold : l.waitingPlayers.get? playerId = some call →
      (k = call → c.playerId = playerId → c.stage ≠ .removeWaiting) →
      ∃ c', (if k = call then some { c with
        sent := c.written outcome, stage := l.nextStage c outcome } else l.calls.get? call) = some c' ∧
        c'.playerId = playerId ∧ c'.stage.isRegistered = true := by
    intro hentry hstays
    obtain ⟨d, hd, hid, hregistered⟩ := h playerId call hentry
    split
    · rename_i heq
      subst heq
      rw [hk] at hd
      cases hd
      exact ⟨_, rfl, hid, isRegistered_nextStage hregistered (hstays rfl hid)⟩
    · exact ⟨d, hd, hid, hregistered⟩
  by_cases hregister : c.stage = .register
  · rw [Lobby.waitingAfter, hregister] at hget
    replace hget : (l.waitingPlayers.set c.playerId k).get? playerId = some call := hget
    rw [Dict.get?_set] at hget
    split at hget
    · rename_i heq
      cases hget
      rw [if_pos rfl]
      refine ⟨_, rfl, heq, ?_⟩
      show (l.nextStage c outcome).isRegistered = true
      simp only [Lobby.nextStage, hregister]
      rfl
    · refine hold hget fun _ _ hstage => ?_
      rw [hregister] at hstage
      cases hstage
  by_cases hremove : c.stage = .removeWaiting
  · rw [Lobby.waitingAfter, hremove] at hget
    replace hget : (l.waitingPlayers.remove c.playerId).get? playerId = some call := hget
    rw [Dict.get?_remove] at hget
    split at hget
    · cases hget
    · rename_i hne
      exact hold hget fun _ hid => absurd hid hne
  · have hsame : l.waitingAfter k c = l.waitingPlayers := by
      rw [Lobby.waitingAfter]
      split
      · exact absurd ‹_› hregister
      · exact absurd ‹_› hremove
      · rfl
    rw [hsame] at hget
    exact hold hget fun _ _ => hremove

theorem Lobby.Registered.next {l : Lobby} (h : l.Registered) (step : LobbyStep) :
    (l.next step).Registered := by
  cases step with
  | joinQueue k playerId rating clientHost =>
    rw [Lobby.next]
    split
    · exact h
    · rename_i hnew
      refine h.congr rfl fun call c hc => ⟨c, ?_, rfl, rfl⟩
      show (l.calls.set k _).get? call = some c
      rw [Dict.get?_set]
      split
      · rename_i heq
        subst heq
        rw [Dict.containsKey, hc] at hnew
        exact absurd rfl hnew
      · exact hc
  | cancel k =>
    rw [Lobby.next]
    split
    · rename_i c hk
      exact h.congr_set rfl hk rfl rfl rfl
    · exact h
  | advanceCall k outcome now =>
    rw [Lobby.next]
    split
    · rename_i c hk
      exact h.goesOn hk outcome now
    · exact h
  | advanceMatch index guid now =>
    rw [Lobby.next]
    split
    · rename_i t ht
      cases t with
      | complete e room side k =>
        rcases hk : l.calls.get? k with _ | c
        · exact h.congr rfl fun call c hc => ⟨c, by
            show (l.callsAfter (.complete e room side k)).get? call = some c
            rw [Lobby.callsAfter, hk]
            exact hc, rfl, rfl⟩
        · have hcalls : l.callsAfter (.complete e room side k) =
              l.calls.set k (c.trySetResult (e.update room side c.clientHost)) := by
            rw [Lobby.callsAfter, hk]
          exact h.congr_set rfl hk hcalls rfl rfl
      | createSession e | addPlayer e roomId side | find e room side =>
        exact h.congr rfl fun _ c hc => ⟨c, hc, rfl, rfl⟩
    · exact h
  | leaveQueue playerId => exact h.congr rfl fun _ c hc => ⟨c, hc, rfl, rfl⟩
  | advanceLeave index =>
    rw [Lobby.next]
    split
    · exact h.congr rfl fun _ c hc => ⟨c, hc, rfl, rfl⟩
    · exact h
  | play roomId _ | removeSession roomId | disposeSession roomId =>
    rw [Lobby.next]
    split
    · exact h.congr rfl fun _ c hc => ⟨c, hc, rfl, rfl⟩
    · exact h

/-- Every state of the matchmaking has its entries right. -/
theorem registered_of_reachable {serverId : String} {planningTimeout : Time} {l : Lobby}
    (hreach : (matchmaking serverId planningTimeout).Reachable l) : l.Registered :=
  hreach.invariant (fun _ _ hget => by cases hget) fun _ step hl _ => hl.next step

/-- **Nobody is left behind in `_waitingPlayers`** on a server without Redis.  An entry always belongs to
    a call of its player that is under way, however the calls for one player overlap and whatever write
    throws; when all calls have returned, it is empty. -/
theorem waiting_underWay {serverId : String} {planningTimeout : Time} {l : Lobby}
    (hreach : (matchmaking serverId planningTimeout).Reachable l) :
    (∀ playerId call, l.waitingPlayers.get? playerId = some call →
      ∃ c, l.calls.get? call = some c ∧ c.playerId = playerId ∧ c.stage ≠ .returned) ∧
    ((∀ call c, l.calls.get? call = some c → c.stage = .returned) → l.waitingPlayers.entries = []) := by
  have hl := registered_of_reachable hreach
  have hunderWay : ∀ playerId call, l.waitingPlayers.get? playerId = some call →
      ∃ c, l.calls.get? call = some c ∧ c.playerId = playerId ∧ c.stage ≠ .returned := by
    intro playerId call hget
    obtain ⟨c, hc, hid, hregistered⟩ := hl playerId call hget
    refine ⟨c, hc, hid, fun hreturned => ?_⟩
    rw [hreturned] at hregistered
    cases hregistered
  refine ⟨hunderWay, fun hall => List.eq_nil_iff_forall_not_mem.mpr fun entry hentry => ?_⟩
  obtain ⟨c, hc, -, hne⟩ := hunderWay entry.1 entry.2 (Dict.mem_iff_get?.mp hentry)
  exact hne (hall entry.2 c hc)

theorem waiting_underWay_ann : ∃ c, firstMatched.calls.get? 0 = some c ∧ c.playerId = "ann" ∧
    c.stage ≠ .returned :=
  (waiting_underWay firstMatched_reachable).1 "ann" 0 (by decide +kernel)

end HexWar
