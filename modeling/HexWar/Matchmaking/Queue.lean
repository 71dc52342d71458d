/-
  MatchmakingQueue: players wait for an opponent.

  With Redis the servers share a list of player ids, a hash with the players' details and a lock for
  those that match.  EnqueueAsync, DequeueAsync and TryMatchAsync are sequences of Redis commands, and
  only the single commands are atomic: a `QueueTask` is what is left of one of the three, named by the
  command it sends next, and `redisMatchmaking` takes the tasks of all servers in any order.  What a
  task computes between two commands goes with the command before.

  Without Redis there is a queue in the process (`InMemoryQueue`), and an operation runs to its end.
-/
import HexWar.Domain.Basic
import HexWar.Lib.Dict
import HexWar.Lib.Runs
import HexWar.Lib.Tasks

namespace HexWar

open Lib

/-! ## The players -/

/-- The source of cancellation; `none` is CancellationToken.None. -/
abbrev CancellationToken := Option Nat

/-- A player who waits for an opponent. -/
structure QueuedPlayer where
  playerId : String
  rating : Int
  joinedAt : Time
  cancellationToken : CancellationToken
deriving DecidableEq, Repr

/-- What is stored of a player. -/
structure QueuedPlayerDto where
  playerId : String
  rating : Int
  joinedAt : Time
deriving DecidableEq, Repr

/-- The token is not stored. -/
def QueuedPlayer.toDto (player : QueuedPlayer) : QueuedPlayerDto :=
  ⟨player.playerId, player.rating, player.joinedAt⟩

/-- A player that is read back has no token. -/
def QueuedPlayerDto.toPlayer (dto : QueuedPlayerDto) : QueuedPlayer :=
  ⟨dto.playerId, dto.rating, dto.joinedAt, none⟩

/-- What the subscribers of OnMatchFound are told. -/
structure MatchFoundEventArgs where
  player1 : QueuedPlayer
  player2 : QueuedPlayer
deriving DecidableEq, Repr

/-- The answer to a player who asks about the queue. -/
structure QueueStatusInfo where
  isInQueue : Bool
  position : Nat
  totalInQueue : Nat
  estimatedWaitSeconds : Nat
deriving DecidableEq, Repr

/-- Nothing was popped, or the empty id. -/
def isNullOrEmpty (value : Option String) : Bool := value.getD "" = ""

/-! ## In Redis -/

/-- What the servers share, and what they have done with it. -/
structure RedisQueue where
  /-- The hash matchmaking:player_details. -/
  playerDetails : Dict String QueuedPlayerDto
  /-- The list matchmaking:queue. -/
  queue : List String
  /-- The lock matchmaking:queue is held. -/
  locked : Bool
  /-- The OnMatchFound events of all servers. -/
  matchFound : List MatchFoundEventArgs
  /-- The answers of DequeueAsync. -/
  removed : List Bool
  /-- The ids EnqueueAsync was called for. -/
  enqueued : List String

/-- What is left of an operation. -/
inductive QueueTask where
  -- EnqueueAsync
  | hashSet (player : QueuedPlayer)
  | listRemove (playerId : String)
  | rightPush (playerId : String)
  -- DequeueAsync
  | dequeueHashDelete (playerId : String)
  | dequeueListRemove (playerId : String)
  -- TryMatchAsync
  | tryAcquire
  | listLength
  | leftPop1
  | leftPop2 (p1Val : Option String)
  /-- Only one id was popped: it is put back. -/
  | pushBack1 (p1Val p2Val : Option String)
  | pushBack2 (p2Val : Option String)
  | hashGet1 (p1Id p2Id : String)
  | hashGet2 (p1Id p2Id : String) (p1Json : Option QueuedPlayerDto)
  /-- Somebody's details are gone: whoever still has them is put back. -/
  | staleCleanup1 (p1Id p2Id : String) (p1Json p2Json : Option QueuedPlayerDto)
  | staleCleanup2 (p2Id : String) (p2Json : Option QueuedPlayerDto)
  | hashDelete1 (p1Id p2Id : String) (p1Dto p2Dto : QueuedPlayerDto)
  | hashDelete2 (p2Id : String) (p1Dto p2Dto : QueuedPlayerDto)
  /-- The method has returned, its lock handle is not yet disposed of. -/
  | dispose
deriving DecidableEq, Repr

namespace RedisQueue

/-- HDEL.  An absent field is no error. -/
def hashDelete (r : RedisQueue) (playerId : String) : RedisQueue :=
  { r with playerDetails := r.playerDetails.remove playerId }

/-- LREM with a count of zero: every occurrence goes. -/
def listRemove (r : RedisQueue) (playerId : String) : RedisQueue :=
  { r with queue := r.queue.filter (· ≠ playerId) }

/-- LPUSH. -/
def leftPush (r : RedisQueue) (playerId : String) : RedisQueue :=
  { r with queue := playerId :: r.queue }

/-- LPOP, as far as the list is concerned; the caller looks at its head first. -/
def leftPop (r : RedisQueue) : RedisQueue := { r with queue := r.queue.tail }

/-- Push what was popped, if it was anything. -/
def pushBack (r : RedisQueue) (value : Option String) : RedisQueue :=
  if isNullOrEmpty value then r else r.leftPush (value.getD "")

/-- The stale cleanup of one player. -/
def staleCleanup (r : RedisQueue) (id : String) (json : Option QueuedPlayerDto) : RedisQueue :=
  if json.isSome then r.leftPush id else r.hashDelete id

/-- The next command of a task, and what is left of it.  TryMatchAsync is restarted before its lock
    handle is disposed of. -/
def run (r : RedisQueue) : QueueTask → RedisQueue × List QueueTask
  | .hashSet player =>
    ({ r with playerDetails := r.playerDetails.set player.playerId player.toDto },
      [.listRemove player.playerId])
  | .listRemove playerId => (r.listRemove playerId, [.rightPush playerId])
  | .rightPush playerId => ({ r with queue := r.queue ++ [playerId] }, [.tryAcquire])
  | .dequeueHashDelete playerId => (r.hashDelete playerId, [.dequeueListRemove playerId])
  | .dequeueListRemove playerId =>
    ({ r.listRemove playerId with removed := r.removed ++ [decide (playerId ∈ r.queue)] }, [])
  | .tryAcquire => if r.locked then (r, []) else ({ r with locked := true }, [.listLength])
  | .listLength => (r, [if r.queue.length < 2 then .dispose else .leftPop1])
  | .leftPop1 => (r.leftPop, [.leftPop2 r.queue.head?])
  | .leftPop2 p1Val =>
    (r.leftPop,
      [if isNullOrEmpty p1Val || isNullOrEmpty r.queue.head? then .pushBack1 p1Val r.queue.head?
       else .hashGet1 (p1Val.getD "") (r.queue.head?.getD "")])
  | .pushBack1 p1Val p2Val => (r.pushBack p1Val, [.pushBack2 p2Val])
  | .pushBack2 p2Val => (r.pushBack p2Val, [.dispose])
  | .hashGet1 p1Id p2Id => (r, [.hashGet2 p1Id p2Id (r.playerDetails.get? p1Id)])
  | .hashGet2 p1Id p2Id p1Json =>
    (r, [match p1Json, r.playerDetails.get? p2Id with
      | some p1Dto, some p2Dto => .hashDelete1 p1Id p2Id p1Dto p2Dto
      | p1Json, p2Json => .staleCleanup1 p1Id p2Id p1Json p2Json])
  | .staleCleanup1 p1Id p2Id p1Json p2Json =>
    (r.staleCleanup p1Id p1Json, [.staleCleanup2 p2Id p2Json])
  | .staleCleanup2 p2Id p2Json => (r.staleCleanup p2Id p2Json, [.tryAcquire, .dispose])
  | .hashDelete1 p1Id p2Id p1Dto p2Dto => (r.hashDelete p1Id, [.hashDelete2 p2Id p1Dto p2Dto])
  | .hashDelete2 p2Id p1Dto p2Dto =>
    ({ r.hashDelete p2Id with
        matchFound := r.matchFound ++ [⟨p1Dto.toPlayer, p2Dto.toPlayer⟩] }, [.tryAcquire, .dispose])
  | .dispose => ({ r with locked := false }, [])

/-- GetStatusAsync: one LRANGE. -/
def getStatus (r : RedisQueue) (playerId : String) : QueueStatusInfo :=
  match r.queue.idxOf? playerId with
  | some index => ⟨true, index + 1, r.queue.length, r.queue.length * 5⟩
  | none => ⟨false, 0, r.queue.length, r.queue.length * 5⟩

end RedisQueue

/-- The queue and the operations under way on all servers. -/
abbrev Matchmaking := Pool RedisQueue QueueTask

/-- A call on one of the servers, or the next command of an operation under way. -/
inductive QueueCall where
  | enqueueAsync (player : QueuedPlayer)
  | dequeueAsync (playerId : String)
  | advance (task : Nat)
deriving DecidableEq, Repr

namespace Matchmaking

/-- EnqueueAsync has been called: its first command is still to come. -/
def enqueueAsync (s : Matchmaking) (player : QueuedPlayer) : Matchmaking :=
  Pool.start ⟨{ s.shared with enqueued := s.shared.enqueued ++ [player.playerId] }, s.tasks⟩
    (.hashSet player)

/-- DequeueAsync has been called. -/
def dequeueAsync (s : Matchmaking) (playerId : String) : Matchmaking :=
  Pool.start s (.dequeueHashDelete playerId)

/-- A call begins, or a task that has begun performs its next command. -/
def next (s : Matchmaking) : QueueCall → Matchmaking
  | .enqueueAsync player => s.enqueueAsync player
  | .dequeueAsync playerId => s.dequeueAsync playerId
  | .advance task => s.advance RedisQueue.run task

end Matchmaking

/-- Matchmaking on any number of servers, in any order of the commands. -/
def redisMatchmaking : Machine Matchmaking QueueCall :=
  ⟨⟨⟨.empty, [], false, [], [], []⟩, []⟩, Matchmaking.next, fun _ _ => True⟩

/-! ## In memory -/

/-- TryMatchInMemory: the queue it leaves, and the events it raises. -/
def tryMatchInMemory (isCancellationRequested : CancellationToken → Bool) :
    List QueuedPlayer → List QueuedPlayer × List MatchFoundEventArgs
  | player1 :: player2 :: rest =>
    if isCancellationRequested player1.cancellationToken then
      if isCancellationRequested player2.cancellationToken then
        tryMatchInMemory isCancellationRequested rest
      else tryMatchInMemory isCancellationRequested (rest ++ [player2])
    else if isCancellationRequested player2.cancellationToken then
      tryMatchInMemory isCancellationRequested (rest ++ [player1])
    else (rest, [⟨player1, player2⟩])
  | [player] => ([player], [])
  | [] => ([], [])
termination_by queue => queue.length

/-- The queue of a server without Redis, and what was done with it. -/
structure InMemoryQueue where
  queue : List QueuedPlayer
  matchFound : List MatchFoundEventArgs
  removed : List Bool
deriving DecidableEq, Repr

namespace InMemoryQueue

/-- The player is put at the end, and the queue is searched for a pair at once. -/
def enqueueAsync (isCancellationRequested : CancellationToken → Bool) (m : InMemoryQueue)
    (player : QueuedPlayer) : InMemoryQueue :=
  let outcome := tryMatchInMemory isCancellationRequested (m.queue ++ [player])
  { m with queue := outcome.1, matchFound := m.matchFound ++ outcome.2 }

/-- DequeueAsync compares the count with one more than itself. -/
def dequeueAsync (m : InMemoryQueue) (playerId : String) : InMemoryQueue :=
  let remaining := m.queue.filter (·.playerId ≠ playerId)
  { m with
    queue := remaining
    removed := m.removed ++ [decide (remaining.length < remaining.length + 1)] }

/-- The position of a player, counted from one, and five seconds for everyone who waits. -/
def getStatus (m : InMemoryQueue) (playerId : String) : QueueStatusInfo :=
  match m.queue.find? (·.playerId = playerId) with
  | some player => ⟨true, m.queue.idxOf player + 1, m.queue.length, m.queue.length * 5⟩
  | none => ⟨false, 0, m.queue.length, m.queue.length * 5⟩

end InMemoryQueue
end HexWar
