/-
  The queue in memory and the queue in Redis, one call after the other.

  Called in sequence, with all attempts at their ends before the next call, both hold at most one entry
  between the calls, and the next player is matched with it.  They differ in three places.  Only the
  Redis queue removes the player's old entry when it joins again: in memory it is matched with itself.
  Only the Redis queue drops an empty id.  And DequeueAsync in memory compares a count with one more
  than itself, so it answers that it removed something whether it did or not.


  The Redis commands of a call take turns as a schedule says, the disposal of the lock and a restarted
  attempt in either order.  None of it matters: a call that has come to its end has come to the SAME
  end under every schedule (`Pool.Ends`), which is computed here for each case of the list.  Then the
  two queues are compared call by call, with the invariant that both hold the same entry or none
  (`Linked`).
-/
import HexWar.Matchmaking.Queue

namespace HexWar

open Lib

/-! ## The two queues

The calls of the interface, and the state of both implementations side by side. -/

/-- A call of IMatchmakingQueue. -/
inductive ServedCall where
  | enqueueAsync (player : QueuedPlayer)
  | dequeueAsync (playerId : String)
  | getStatusAsync (playerId : String)
deriving DecidableEq, Repr

/-- A call is made to both queues; in Redis its commands and those of the attempts that it starts take
    turns as the schedule says. -/
structure SequentialCall where
  call : ServedCall
  schedule : List Nat
deriving DecidableEq, Repr

/-- The two queues, and what GetStatusAsync has answered. -/
structure BothQueues where
  redis : Matchmaking
  memory : InMemoryQueue
  /-- The answers of GetStatusAsync, in the order of the calls. -/
  redisReports : List QueueStatusInfo
  memoryReports : List QueueStatusInfo

namespace BothQueues

/-- The call itself: in memory it is done with this, in Redis its first command is now under way. -/
def call (s : BothQueues) : ServedCall → BothQueues
  | .enqueueAsync player =>
    -- nobody's token is cancelled
    { s with
      redis := s.redis.enqueueAsync player
      memory := s.memory.enqueueAsync (fun _ => false) player }
  | .dequeueAsync playerId =>
    { s with redis := s.redis.dequeueAsync playerId, memory := s.memory.dequeueAsync playerId }
  | .getStatusAsync playerId =>
    { s with
      redisReports := s.redisReports ++ [s.redis.shared.getStatus playerId]
      memoryReports := s.memoryReports ++ [s.memory.getStatus playerId] }

/-- Afterwards the commands follow their schedule. -/
def next (s : BothQueues) (c : SequentialCall) : BothQueues :=
  { s.call c.call with redis := (s.call c.call).redis.follow RedisQueue.run c.schedule }

/-- All that was started has come to its end. -/
def Complete (s : BothQueues) (c : SequentialCall) : Prop := (s.next c).redis.tasks = []

instance (s : BothQueues) (c : SequentialCall) : Decidable (s.Complete c) :=
  inferInstanceAs (Decidable ((s.next c).redis.tasks = []))

end BothQueues

/-- Calls one after the other. -/
def bothQueues : Machine BothQueues SequentialCall :=
  ⟨⟨redisMatchmaking.start, ⟨[], [], []⟩, [], []⟩, BothQueues.next, BothQueues.Complete⟩

instance (s : BothQueues) (c : SequentialCall) : Decidable (bothQueues.Legal s c) :=
  inferInstanceAs (Decidable (s.Complete c))

/-! ## The properties

The two queues raise a match with the same players; the Redis queue takes them through JSON, so they
are compared as they are written there. -/

/-- The players of a match. -/
def MatchFoundEventArgs.pair (m : MatchFoundEventArgs) : QueuedPlayerDto × QueuedPlayerDto :=
  (m.player1.toDto, m.player2.toDto)

/-- **The queues agree**: on the matches, in order, on the answers of DequeueAsync and on those of
    GetStatusAsync. -/
structure BothQueues.Agree (s : BothQueues) : Prop where
  /-- The same matches were raised, in the same order. -/
  matchFound : s.redis.shared.matchFound.map (·.pair) = s.memory.matchFound.map (·.pair)
  /-- DequeueAsync has answered the same, -/
  removed : s.redis.shared.removed = s.memory.removed
  /-- and so has GetStatusAsync. -/
  reports : s.redisReports = s.memoryReports

/-- **The condition**: who joins while somebody waits is somebody else, and neither id is empty; who
    leaves is in the queue. -/
def Unambiguous (s : BothQueues) (c : SequentialCall) : Prop :=
  match c.call with
  | .enqueueAsync player => ∀ waiting ∈ s.redis.shared.queue,
      waiting ≠ player.playerId ∧ waiting ≠ "" ∧ player.playerId ≠ ""
  | .dequeueAsync playerId => playerId ∈ s.redis.shared.queue
  | .getStatusAsync _ => True

/-! ## What a call comes to in Redis

Each lemma follows the commands of one kind of call to their end. -/

namespace RedisQueue

/-- An attempt that finds fewer than two entries. -/
theorem ends_short {r : RedisQueue} (hfree : r.locked = false) (hshort : r.queue.length < 2) :
    Pool.Ends run ⟨r, [.tryAcquire]⟩ ⟨r, []⟩ := by
  have hsame : { { r with locked := true } with locked := false } = r := by
    cases r
    cases hfree
    rfl
  apply Pool.ends_single
  simp only [run, hfree, Bool.false_eq_true, if_false]
  apply Pool.ends_single
  simp only [run, hshort, if_true]
  apply Pool.ends_single
  simp only [run]
  rw [hsame]
  exact Pool.ends_of_nil rfl

/-- An attempt that is started while the last one has not yet released the lock, the list being
    short: it finds the lock busy, or it finds nothing. -/
theorem ends_restarted {r : RedisQueue} (hheld : r.locked = true) (hshort : r.queue.length < 2) :
    Pool.Ends run ⟨r, [.tryAcquire, .dispose]⟩ ⟨{ r with locked := false }, []⟩ := by
  apply Pool.ends_pair
  · simp only [run, hheld, if_true, List.nil_append]
    apply Pool.ends_single
    exact Pool.ends_of_nil rfl
  · exact ends_short (r := { r with locked := false }) rfl hshort

/-- EnqueueAsync up to its push. -/
theorem ends_enqueue {r : RedisQueue} {player : QueuedPlayer} {q : Pool RedisQueue QueueTask}
    (h : Pool.Ends run ⟨{ r with
      playerDetails := r.playerDetails.set player.playerId player.toDto
      queue := r.queue.filter (· ≠ player.playerId) ++ [player.playerId] }, [.tryAcquire]⟩ q) :
    Pool.Ends run ⟨r, [.hashSet player]⟩ q := by
  apply Pool.ends_single
  apply Pool.ends_single
  apply Pool.ends_single
  exact h

/-- An attempt that finds two entries pops both. -/
theorem ends_popped {details : Dict String QueuedPlayerDto} {p1 p2 : String}
    {found : List MatchFoundEventArgs} {removed : List Bool} {enqueued : List String}
    {q : Pool RedisQueue QueueTask}
    (h : Pool.Ends run ⟨⟨details, [], true, found, removed, enqueued⟩,
      [if isNullOrEmpty (some p1) || isNullOrEmpty (some p2) then .pushBack1 (some p1) (some p2)
       else .hashGet1 p1 p2]⟩ q) :
    Pool.Ends run ⟨⟨details, [p1, p2], false, found, removed, enqueued⟩, [.tryAcquire]⟩ q := by
  apply Pool.ends_single
  show Pool.Ends run ⟨⟨details, [p1, p2], true, found, removed, enqueued⟩, [.listLength]⟩ q
  apply Pool.ends_single
  show Pool.Ends run ⟨⟨details, [p1, p2], true, found, removed, enqueued⟩, [.leftPop1]⟩ q
  apply Pool.ends_single
  show Pool.Ends run ⟨⟨details, [p2], true, found, removed, enqueued⟩, [.leftPop2 (some p1)]⟩ q
  apply Pool.ends_single
  exact h

/-- An attempt that pops an empty id puts the other one back. -/
theorem ends_dropped {details : Dict String QueuedPlayerDto} {p1 p2 : String}
    {found : List MatchFoundEventArgs} {removed : List Bool} {enqueued : List String}
    (hempty : p1 = "" ∨ p2 = "") :
    ∃ queue, Pool.Ends run ⟨⟨details, [p1, p2], false, found, removed, enqueued⟩, [.tryAcquire]⟩
      ⟨⟨details, queue, false, found, removed, enqueued⟩, []⟩ := by
  have hboth : (isNullOrEmpty (some p1) || isNullOrEmpty (some p2)) = true := by
    rcases hempty with rfl | rfl
    · rfl
    · exact Bool.or_true _
  have hpush : ∀ (queue : List String) (value : Option String), ∃ queue',
      pushBack ⟨details, queue, true, found, removed, enqueued⟩ value =
        ⟨details, queue', true, found, removed, enqueued⟩ := by
    intro queue value
    rw [pushBack]
    split
    · exact ⟨_, rfl⟩
    · exact ⟨_, rfl⟩
  obtain ⟨queue1, h1⟩ := hpush [] (some p1)
  obtain ⟨queue2, h2⟩ := hpush queue1 (some p2)
  refine ⟨queue2, ends_popped ?_⟩
  rw [hboth, if_pos rfl]
  apply Pool.ends_single
  simp only [run, h1]
  apply Pool.ends_single
  simp only [run, h2]
  apply Pool.ends_single
  exact Pool.ends_of_nil rfl

/-- An attempt that finds two with their details matches them. -/
theorem ends_matched {details : Dict String QueuedPlayerDto} {p1 p2 : String}
    {found : List MatchFoundEventArgs} {removed : List Bool} {enqueued : List String}
    {p1Dto p2Dto : QueuedPlayerDto} (h1 : p1 ≠ "") (h2 : p2 ≠ "")
    (hd1 : details.get? p1 = some p1Dto) (hd2 : details.get? p2 = some p2Dto) :
    Pool.Ends run ⟨⟨details, [p1, p2], false, found, removed, enqueued⟩, [.tryAcquire]⟩
      ⟨⟨(details.remove p1).remove p2, [], false, found ++ [⟨p1Dto.toPlayer, p2Dto.toPlayer⟩],
        removed, enqueued⟩, []⟩ := by
  have hboth : (isNullOrEmpty (some p1) || isNullOrEmpty (some p2)) = false := by
    simp [isNullOrEmpty, h1, h2]
  apply ends_popped
  rw [hboth, if_neg Bool.false_ne_true]
  apply Pool.ends_single
  simp only [run, hd1]
  apply Pool.ends_single
  simp only [run, hd2]
  apply Pool.ends_single
  apply Pool.ends_single
  exact ends_restarted rfl (Nat.zero_lt_two)

/-- DequeueAsync, when nothing else is under way. -/
theorem ends_dequeue (r : RedisQueue) (playerId : String) :
    Pool.Ends run ⟨r, [.dequeueHashDelete playerId]⟩ ⟨{ r with
      playerDetails := r.playerDetails.remove playerId
      queue := r.queue.filter (· ≠ playerId)
      removed := r.removed ++ [decide (playerId ∈ r.queue)] }, []⟩ := by
  apply Pool.ends_single
  apply Pool.ends_single
  exact Pool.ends_of_nil rfl

end RedisQueue

/-! ## Call by call

Between two calls everything has come to rest, and a queue with two entries would have been
matched. -/

namespace BothQueues

/-- **Between the calls** nothing is under way, both queues hold the same entry or none, and Redis has
    its details. -/
structure Linked (s : BothQueues) : Prop where
  /-- No command is under way. -/
  settled : s.redis.tasks = []
  /-- Nobody holds the lock. -/
  free : s.redis.shared.locked = false
  /-- The same players wait in both. -/
  same : s.redis.shared.queue = s.memory.queue.map (·.playerId)
  /-- And there is at most one. -/
  short : s.memory.queue.length ≤ 1
  /-- The details of who waits are in Redis. -/
  details : ∀ player ∈ s.memory.queue,
    s.redis.shared.playerDetails.get? player.playerId = some player.toDto

/-- A call that runs to its end leaves what every schedule leaves. -/
theorem next_of_ends {s : BothQueues} {c : SequentialCall} {q : Matchmaking}
    (h : Pool.Ends RedisQueue.run (s.call c.call).redis q) (hc : s.Complete c) :
    s.next c = { s.call c.call with redis := q } := by
  have hend : (s.call c.call).redis.follow RedisQueue.run c.schedule = q := h c.schedule hc
  rw [next, hend]

/-- The state of the queues between the calls: empty, or with one entry. -/
theorem Linked.cases {s : BothQueues} (h : s.Linked) :
    (s.memory.queue = [] ∧ s.redis.shared.queue = []) ∨
      ∃ waiting, s.memory.queue = [waiting] ∧ s.redis.shared.queue = [waiting.playerId] ∧
        s.redis.shared.playerDetails.get? waiting.playerId = some waiting.toDto := by
  have hsame := h.same
  have hdetails := h.details
  have hshort := h.short
  cases hq : s.memory.queue with
  | nil =>
    rw [hq] at hsame
    exact Or.inl ⟨rfl, hsame⟩
  | cons waiting rest =>
    rw [hq] at hsame hdetails hshort
    have hrest : rest = [] :=
      List.eq_nil_of_length_eq_zero (Nat.le_zero.mp (Nat.le_of_succ_le_succ hshort))
    subst hrest
    exact Or.inr ⟨waiting, rfl, hsame, hdetails waiting (List.mem_singleton_self _)⟩

/-- Nothing but the call is under way. -/
theorem Linked.redis_eq {s : BothQueues} (h : s.Linked) : s.redis = ⟨s.redis.shared, []⟩ := by
  rw [← h.settled]

/-! ### EnqueueAsync -/

section Enqueue

variable {s : BothQueues} {player : QueuedPlayer} {schedule : List Nat}

/-- In memory nobody who waits is passed over. -/
theorem enqueue_memory_nil (hq : s.memory.queue = []) :
    s.memory.enqueueAsync (fun _ => false) player = { s.memory with queue := [player] } := by
  simp [InMemoryQueue.enqueueAsync, hq, tryMatchInMemory]

/-- With somebody waiting in memory the two are matched at once. -/
theorem enqueue_memory_one {waiting : QueuedPlayer} (hq : s.memory.queue = [waiting]) :
    s.memory.enqueueAsync (fun _ => false) player = { s.memory with
      queue := [], matchFound := s.memory.matchFound ++ [⟨waiting, player⟩] } := by
  simp [InMemoryQueue.enqueueAsync, hq, tryMatchInMemory]

/-- The list as EnqueueAsync leaves it to its attempt. -/
theorem ends_call_enqueue {q : Matchmaking} (h : s.Linked)
    (hq : Pool.Ends RedisQueue.run ⟨⟨s.redis.shared.playerDetails.set player.playerId player.toDto,
      s.redis.shared.queue.filter (· ≠ player.playerId) ++ [player.playerId], false,
      s.redis.shared.matchFound, s.redis.shared.removed,
      s.redis.shared.enqueued ++ [player.playerId]⟩, [.tryAcquire]⟩ q) :
    Pool.Ends RedisQueue.run (s.call (.enqueueAsync player)).redis q := by
  rw [call, h.redis_eq]
  apply RedisQueue.ends_enqueue
  show Pool.Ends RedisQueue.run ⟨⟨s.redis.shared.playerDetails.set player.playerId player.toDto,
    s.redis.shared.queue.filter (· ≠ player.playerId) ++ [player.playerId], s.redis.shared.locked,
    s.redis.shared.matchFound, s.redis.shared.removed,
    s.redis.shared.enqueued ++ [player.playerId]⟩, [.tryAcquire]⟩ q
  rw [h.free]
  exact hq

/-- The list is as long as it gets when somebody else waits. -/
theorem filter_other {waiting id : String} (hne : waiting ≠ id) :
    [waiting].filter (· ≠ id) ++ [id] = [waiting, id] := by
  simp [hne]

/-- EnqueueAsync where nobody else waits: in Redis the player waits. -/
theorem next_enqueue_short (h : s.Linked) (hc : s.Complete ⟨.enqueueAsync player, schedule⟩)
    (halone : s.redis.shared.queue.filter (· ≠ player.playerId) = []) :
    (s.next ⟨.enqueueAsync player, schedule⟩).redis =
      ⟨⟨s.redis.shared.playerDetails.set player.playerId player.toDto, [player.playerId], false,
        s.redis.shared.matchFound, s.redis.shared.removed,
        s.redis.shared.enqueued ++ [player.playerId]⟩, []⟩ := by
  refine congrArg BothQueues.redis (next_of_ends (ends_call_enqueue h ?_) hc)
  rw [halone]
  exact RedisQueue.ends_short rfl Nat.one_lt_two

/-- EnqueueAsync where somebody else waits, and one of the two ids is empty: no match. -/
theorem next_enqueue_dropped {waiting : QueuedPlayer} (h : s.Linked)
    (hc : s.Complete ⟨.enqueueAsync player, schedule⟩)
    (hq : s.redis.shared.queue = [waiting.playerId]) (hne : waiting.playerId ≠ player.playerId)
    (hempty : waiting.playerId = "" ∨ player.playerId = "") :
    (s.next ⟨.enqueueAsync player, schedule⟩).redis.shared.matchFound =
      s.redis.shared.matchFound := by
  obtain ⟨queue, hends⟩ : ∃ queue, Pool.Ends RedisQueue.run
      ⟨⟨s.redis.shared.playerDetails.set player.playerId player.toDto,
        [waiting.playerId, player.playerId], false, s.redis.shared.matchFound,
        s.redis.shared.removed, s.redis.shared.enqueued ++ [player.playerId]⟩, [.tryAcquire]⟩
      ⟨⟨s.redis.shared.playerDetails.set player.playerId player.toDto, queue, false,
        s.redis.shared.matchFound, s.redis.shared.removed,
        s.redis.shared.enqueued ++ [player.playerId]⟩, []⟩ := RedisQueue.ends_dropped hempty
  have hcall := ends_call_enqueue h (by rw [hq, filter_other hne]; exact hends)
  rw [next_of_ends hcall hc]

/-- EnqueueAsync where somebody else waits: the two are matched. -/
theorem next_enqueue_matched {waiting : QueuedPlayer} (h : s.Linked)
    (hc : s.Complete ⟨.enqueueAsync player, schedule⟩)
    (hq : s.redis.shared.queue = [waiting.playerId])
    (hd : s.redis.shared.playerDetails.get? waiting.playerId = some waiting.toDto)
    (hne : waiting.playerId ≠ player.playerId) (hw : waiting.playerId ≠ "")
    (hp : player.playerId ≠ "") :
    (s.next ⟨.enqueueAsync player, schedule⟩).redis = ⟨⟨((s.redis.shared.playerDetails.set
      player.playerId player.toDto).remove waiting.playerId).remove player.playerId, [], false,
      s.redis.shared.matchFound ++ [⟨waiting.toDto.toPlayer, player.toDto.toPlayer⟩],
      s.redis.shared.removed, s.redis.shared.enqueued ++ [player.playerId]⟩, []⟩ := by
  refine congrArg BothQueues.redis (next_of_ends (ends_call_enqueue h ?_) hc)
  rw [hq, filter_other hne]
  apply RedisQueue.ends_matched hw hp
  · rw [Dict.get?_set, if_neg fun heq => hne heq.symm]
    exact hd
  · rw [Dict.get?_set, if_pos rfl]

/-- **EnqueueAsync agrees** exactly where it meets the condition, and leaves the queues linked. -/
theorem enqueue_agrees (h : s.Linked) (ha : s.Agree)
    (hc : s.Complete ⟨.enqueueAsync player, schedule⟩) :
    ((s.next ⟨.enqueueAsync player, schedule⟩).Agree ↔
        Unambiguous s ⟨.enqueueAsync player, schedule⟩) ∧
      (Unambiguous s ⟨.enqueueAsync player, schedule⟩ →
        (s.next ⟨.enqueueAsync player, schedule⟩).Linked) := by
  have hmemory : (s.next ⟨.enqueueAsync player, schedule⟩).memory =
      s.memory.enqueueAsync (fun _ => false) player := rfl
  -- one more match in memory and none in Redis
  have hlonger : ∀ {waiting : QueuedPlayer}, s.memory.queue = [waiting] →
      (s.next ⟨.enqueueAsync player, schedule⟩).redis.shared.matchFound = s.redis.shared.matchFound →
        ¬ (s.next ⟨.enqueueAsync player, schedule⟩).Agree := by
    intro waiting hq hsame hagree
    have hlen := congrArg List.length hagree.matchFound
    have hold := congrArg List.length ha.matchFound
    rw [hsame, hmemory, enqueue_memory_one hq] at hlen
    simp only [List.length_map, List.length_append, List.length_singleton] at hlen hold
    omega
  rcases h.cases with ⟨hq, hq'⟩ | ⟨waiting, hq, hq', hd⟩
  · -- nobody waits
    have hredis := next_enqueue_short h hc (by rw [hq']; rfl)
    rw [enqueue_memory_nil hq] at hmemory
    have hcond : Unambiguous s ⟨.enqueueAsync player, schedule⟩ := by
      intro x hx
      rw [hq'] at hx
      cases hx
    refine ⟨iff_of_true ⟨?_, ?_, ha.reports⟩ hcond, fun _ => ⟨?_, ?_, ?_, ?_, ?_⟩⟩
    · rw [hredis, hmemory]
      exact ha.matchFound
    · rw [hredis, hmemory]
      exact ha.removed
    · rw [hredis]
    · rw [hredis]
    · rw [hredis, hmemory]
      rfl
    · rw [hmemory]
      exact Nat.le_refl 1
    · intro x hx
      rw [hmemory] at hx
      rw [List.mem_singleton.mp hx, hredis, Dict.get?_set, if_pos rfl]
  · have hcond : Unambiguous s ⟨.enqueueAsync player, schedule⟩ ↔
        waiting.playerId ≠ player.playerId ∧ waiting.playerId ≠ "" ∧ player.playerId ≠ "" := by
      show (∀ x ∈ s.redis.shared.queue, _) ↔ _
      rw [hq']
      exact List.forall_mem_singleton
    rcases em (waiting.playerId = player.playerId) with heq | hne
    · -- the player itself waits
      have hredis := next_enqueue_short h hc (by rw [hq', heq]; simp)
      have hbad : ¬ Unambiguous s ⟨.enqueueAsync player, schedule⟩ := fun hu => (hcond.mp hu).1 heq
      refine ⟨iff_of_false (hlonger hq ?_) hbad, fun hu => absurd hu hbad⟩
      rw [hredis]
    · rcases em (waiting.playerId = "" ∨ player.playerId = "") with hempty | hboth
      · have hredis := next_enqueue_dropped h hc hq' hne hempty
        have hbad : ¬ Unambiguous s ⟨.enqueueAsync player, schedule⟩ := fun hu =>
          hempty.elim (hcond.mp hu).2.1 (hcond.mp hu).2.2
        exact ⟨iff_of_false (hlonger hq hredis) hbad, fun hu => absurd hu hbad⟩
      · obtain ⟨hw, hp⟩ := not_or.mp hboth
        have hredis := next_enqueue_matched h hc hq' hd hne hw hp
        rw [enqueue_memory_one hq] at hmemory
        refine ⟨iff_of_true ⟨?_, ?_, ha.reports⟩ (hcond.mpr ⟨hne, hw, hp⟩),
          fun _ => ⟨?_, ?_, ?_, ?_, ?_⟩⟩
        · rw [hredis, hmemory]
          simp only [List.map_append, ha.matchFound]
          rfl
        · rw [hredis, hmemory]
          exact ha.removed
        · rw [hredis]
        · rw [hredis]
        · rw [hredis, hmemory]
          rfl
        · rw [hmemory]
          exact Nat.zero_le 1
        · intro x hx
          rw [hmemory] at hx
          cases hx

end Enqueue

/-! ### DequeueAsync and GetStatusAsync -/

section Others

variable {s : BothQueues} {playerId : String} {schedule : List Nat}

/-- DequeueAsync in Redis, run to its end. -/
theorem next_dequeue (h : s.Linked) (hc : s.Complete ⟨.dequeueAsync playerId, schedule⟩) :
    (s.next ⟨.dequeueAsync playerId, schedule⟩).redis = ⟨{ s.redis.shared with
      playerDetails := s.redis.shared.playerDetails.remove playerId
      queue := s.redis.shared.queue.filter (· ≠ playerId)
      removed := s.redis.shared.removed ++ [decide (playerId ∈ s.redis.shared.queue)] }, []⟩ := by
  refine congrArg BothQueues.redis (next_of_ends ?_ hc)
  rw [call, h.redis_eq]
  exact RedisQueue.ends_dequeue _ _

/-- **DequeueAsync agrees** exactly where the player is in the queue: in memory it answers that it
    removed it in any case. -/
theorem dequeue_agrees (h : s.Linked) (ha : s.Agree)
    (hc : s.Complete ⟨.dequeueAsync playerId, schedule⟩) :
    ((s.next ⟨.dequeueAsync playerId, schedule⟩).Agree ↔
        Unambiguous s ⟨.dequeueAsync playerId, schedule⟩) ∧
      (s.next ⟨.dequeueAsync playerId, schedule⟩).Linked := by
  have hredis := next_dequeue h hc
  have hmemory : (s.next ⟨.dequeueAsync playerId, schedule⟩).memory = { s.memory with
      queue := s.memory.queue.filter (·.playerId ≠ playerId)
      removed := s.memory.removed ++ [true] } := by
    show s.memory.dequeueAsync playerId = _
    simp [InMemoryQueue.dequeueAsync]
  refine ⟨⟨fun hagree => ?_, fun hin => ⟨?_, ?_, ha.reports⟩⟩, ?_, ?_, ?_, ?_, ?_⟩
  · have hremoved := hagree.removed
    rw [hredis, hmemory] at hremoved
    simp only [ha.removed] at hremoved
    have hlast := List.append_cancel_left hremoved
    have hin : playerId ∈ s.redis.shared.queue := of_decide_eq_true (List.cons.inj hlast).1
    exact hin
  · rw [hredis, hmemory]
    exact ha.matchFound
  · have htrue : decide (playerId ∈ s.redis.shared.queue) = true := decide_eq_true hin
    rw [hredis, hmemory]
    simp only [ha.removed, htrue]
  · rw [hredis]
  · rw [hredis]
    exact h.free
  · rw [hredis, hmemory]
    simp only [h.same, List.filter_map]
    rfl
  · rw [hmemory]
    exact Nat.le_trans (List.length_filter_le _ _) h.short
  · intro x hx
    rw [hmemory] at hx
    obtain ⟨hold, hother⟩ := List.mem_filter.mp hx
    have hne : ¬ playerId = x.playerId := fun heq => of_decide_eq_true hother heq.symm
    rw [hredis]
    show (s.redis.shared.playerDetails.remove playerId).get? x.playerId = _
    rw [Dict.get?_remove, if_neg hne]
    exact h.details x hold

/-- Linked queues give the same status. -/
theorem Linked.getStatus (h : s.Linked) :
    s.redis.shared.getStatus playerId = s.memory.getStatus playerId := by
  rcases h.cases with ⟨hq, hq'⟩ | ⟨waiting, hq, hq', -⟩
  · simp [RedisQueue.getStatus, InMemoryQueue.getStatus, hq, hq']
  · rcases em (waiting.playerId = playerId) with heq | hne
    · simp [RedisQueue.getStatus, InMemoryQueue.getStatus, hq, hq', heq]
    · simp [RedisQueue.getStatus, InMemoryQueue.getStatus, hq, hq', hne]

theorem getStatus_agrees (h : s.Linked) (ha : s.Agree) :
    (s.next ⟨.getStatusAsync playerId, schedule⟩).Agree ∧
      (s.next ⟨.getStatusAsync playerId, schedule⟩).Linked := by
  have hredis : (s.next ⟨.getStatusAsync playerId, schedule⟩).redis = s.redis :=
    Pool.follow_of_nil h.settled schedule
  refine ⟨⟨?_, ?_, ?_⟩, ⟨?_, ?_, ?_, h.short, ?_⟩⟩
  · rw [hredis]
    exact ha.matchFound
  · rw [hredis]
    exact ha.removed
  · show s.redisReports ++ [_] = s.memoryReports ++ [_]
    rw [ha.reports, h.getStatus]
  · rw [hredis]
    exact h.settled
  · rw [hredis]
    exact h.free
  · rw [hredis]
    exact h.same
  · rw [hredis]
    exact h.details

end Others

end BothQueues

open BothQueues

/-- **When the two queues agree.**  In a run of calls one after the other, under every schedule of the
    commands in Redis, matches, answers and reports are the same exactly as long as who joins while
    somebody waits is somebody else, neither id is empty, and who leaves is in the queue. -/
theorem standalone_agrees_iff (calls : List SequentialCall) (h : bothQueues.Run calls) :
    (∀ s ∈ bothQueues.visited bothQueues.start calls, s.Agree) ↔
      bothQueues.Steps Unambiguous bothQueues.start calls := by
  have hstep : ∀ (s : BothQueues) (c : SequentialCall), s.Linked → s.Complete c → s.Agree →
      ((s.next c).Agree ↔ Unambiguous s c) ∧ (Unambiguous s c → (s.next c).Linked) := by
    rintro s ⟨call, schedule⟩ hl hc ha
    cases call with
    | enqueueAsync player => exact enqueue_agrees hl ha hc
    | dequeueAsync playerId =>
      obtain ⟨hiff, hlinked⟩ := dequeue_agrees hl ha hc
      exact ⟨hiff, fun _ => hlinked⟩
    | getStatusAsync playerId =>
      obtain ⟨hagree, hlinked⟩ := @getStatus_agrees s playerId schedule hl ha
      exact ⟨iff_of_true hagree trivial, fun _ => hlinked⟩
  have hlinked : bothQueues.start.Linked := by
    refine ⟨rfl, rfl, rfl, Nat.zero_le 1, fun x hx => ?_⟩
    cases hx
  exact Machine.visited_iff_of_carried (M := bothQueues) (I := Linked)
    (fun s c hl hc ha hu => (hstep s c hl hc ha).2 hu)
    (fun s c hl hc ha => (hstep s c hl hc ha).1) hlinked ⟨rfl, rfl, rfl⟩ h

/-- Two players meet, another one comes and goes. -/
def meetAndLeave : List SequentialCall :=
  [⟨.enqueueAsync ⟨"a", 1000, 0, none⟩, List.replicate 6 0⟩, ⟨.getStatusAsync "a", []⟩,
    ⟨.enqueueAsync ⟨"b", 1000, 1, none⟩, List.replicate 11 0 ++ [1, 0, 0, 0]⟩,
    ⟨.enqueueAsync ⟨"c", 1000, 2, none⟩, List.replicate 6 0⟩, ⟨.dequeueAsync "c", [0, 0]⟩,
    ⟨.getStatusAsync "c", []⟩]

theorem standalone_agrees_meeting :
    (∀ s ∈ bothQueues.visited bothQueues.start meetAndLeave, s.Agree) ↔
      bothQueues.Steps Unambiguous bothQueues.start meetAndLeave :=
  standalone_agrees_iff meetAndLeave (by decide +kernel)

/-- A player joins twice: in memory it meets itself. -/
def joinAgain : List SequentialCall :=
  [⟨.enqueueAsync ⟨"p", 1000, 0, none⟩, List.replicate 6 0⟩,
    ⟨.enqueueAsync ⟨"p", 1000, 1, none⟩, List.replicate 6 0⟩]

theorem join_again_disagrees :
    bothQueues.Run joinAgain ∧ ∃ s ∈ bothQueues.visited bothQueues.start joinAgain, ¬ s.Agree := by
  refine ⟨by decide +kernel, _, Machine.after_mem_visited _ _, fun hagree => ?_⟩
  have hlen := congrArg List.length hagree.matchFound
  have hredis : ((bothQueues.after bothQueues.start joinAgain).redis.shared.matchFound.map
      (·.pair)).length = 0 := by decide +kernel
  have hmemory : ((bothQueues.after bothQueues.start joinAgain).memory.matchFound.map
      (·.pair)).length = 1 := by
    simp [joinAgain, Machine.after, bothQueues, BothQueues.next, BothQueues.call,
      InMemoryQueue.enqueueAsync, tryMatchInMemory]
  omega

end HexWar
