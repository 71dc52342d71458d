/-
  Who is matched with whom.

  An id gets into the list by an EnqueueAsync and out of it by a match attempt, which puts it back or
  into a match.  So no id is in more matches than EnqueueAsync was called for it (`Accounted`).

  EnqueueAsync removes the id from the list before it pushes it, and others come in between.

  1. Two calls for one player remove first and push then: the list has the id twice.
  2. A player leaves and joins again while an attempt, which has popped the id, is about to pop a second
     one: it pops the same id again.
  3. A player leaves and joins again while an attempt, which has popped both its ids, reads the details;
     those of the other player are gone, and the attempt puts the id back beside the new entry.

  In all three an id is pushed that the list has already, or that an attempt has in its hand between its
  two pops.  As long as that does not happen (`PushesOnce`) the list and that hand have every id once
  (`Unrepeated`), so an attempt pops two ids, and keeps them.  And it does not happen if an EnqueueAsync
  that removes its id finds no other operation under way that is going to push the id (`JoinsAlone`).

  Two invariants carry this, each with its own count.

  - `Singly` counts an id in the list and in the operations that may still push it.  It holds as long as
    nobody joins beside another use, and gives `PushesOnce`.
  - `Unrepeated` counts it in the list and in the hands between two pops only.  It holds as long as nothing
    is pushed twice, and gives two different ids to whoever pops.

  The second is weaker and the pushes are its exact condition for one step; the first is what the
  condition on runs is proved with.
-/
import HexWar.Matchmaking.Queue

namespace HexWar

open Lib

/-! ## The properties -/

/-- The matches an id takes part in. -/
def RedisQueue.participations (r : RedisQueue) (id : String) : Nat :=
  r.matchFound.countP fun m => m.player1.playerId = id ∨ m.player2.playerId = id

/-- Two players. -/
def MatchFoundEventArgs.Distinct (m : MatchFoundEventArgs) : Prop :=
  m.player1.playerId ≠ m.player2.playerId

instance : DecidablePred MatchFoundEventArgs.Distinct :=
  fun m => inferInstanceAs (Decidable (m.player1.playerId ≠ m.player2.playerId))

/-- The ids that an operation under way may push into the list, or pop a second one to: of an
    EnqueueAsync that has removed its id, and of an attempt that has popped it and not read the details
    of both. -/
def QueueTask.uses : QueueTask → List String
  | .rightPush playerId => [playerId]
  | .leftPop2 p1Val => p1Val.toList
  | .pushBack1 p1Val p2Val => p1Val.toList ++ p2Val.toList
  | .pushBack2 p2Val => p2Val.toList
  | .hashGet1 p1Id p2Id | .hashGet2 p1Id p2Id _ => [p1Id, p2Id]
  | .staleCleanup1 p1Id p2Id p1Json p2Json =>
    (if p1Json.isSome then [p1Id] else []) ++ if p2Json.isSome then [p2Id] else []
  | .staleCleanup2 p2Id p2Json => if p2Json.isSome then [p2Id] else []
  | .hashSet _ | .listRemove _ | .dequeueHashDelete _ | .dequeueListRemove _ | .tryAcquire
  | .listLength | .leftPop1 | .hashDelete1 _ _ _ _ | .hashDelete2 _ _ _ | .dispose => []

/-- The id that the next command of a task pushes. -/
def QueueTask.pushes? : QueueTask → Option String
  | .rightPush playerId => some playerId
  | .pushBack1 p1Val _ => if isNullOrEmpty p1Val then none else p1Val
  | .pushBack2 p2Val => if isNullOrEmpty p2Val then none else p2Val
  | .staleCleanup1 p1Id _ p1Json _ => if p1Json.isSome then some p1Id else none
  | .staleCleanup2 p2Id p2Json => if p2Json.isSome then some p2Id else none
  | .hashSet _ | .listRemove _ | .dequeueHashDelete _ | .dequeueListRemove _ | .tryAcquire
  | .listLength | .leftPop1 | .leftPop2 _ | .hashGet1 _ _ | .hashGet2 _ _ _
  | .hashDelete1 _ _ _ _ | .hashDelete2 _ _ _ | .dispose => none

/-- The id that an EnqueueAsync removes with its next command, before it pushes it. -/
def QueueTask.rejoins? : QueueTask → Option String
  | .listRemove playerId => some playerId
  | _ => none

namespace Matchmaking

/-- **No second entry**: the id that a command pushes is not in the list, and no attempt is between its
    two pops with it in its hand. -/
def PushesOnce (s : Matchmaking) : QueueCall → Prop
  | .advance task => ∀ t ∈ s.tasks[task]?, ∀ id ∈ t.pushes?,
      id ∉ s.shared.queue ∧ QueueTask.leftPop2 (some id) ∉ s.tasks
  | .enqueueAsync _ | .dequeueAsync _ => True

/-- **No overlapping uses**: when an EnqueueAsync removes its id, no other EnqueueAsync of the player is
    between its LREM and its RPUSH, and no attempt has the id in its hand. -/
def JoinsAlone (s : Matchmaking) : QueueCall → Prop
  | .advance task => ∀ t ∈ s.tasks[task]?, ∀ id ∈ t.rejoins?, ∀ other ∈ s.tasks, id ∉ other.uses
  | .enqueueAsync _ | .dequeueAsync _ => True

instance (s : Matchmaking) : DecidablePred s.PushesOnce
  | .advance _ => inferInstanceAs (Decidable (∀ t ∈ _, ∀ id ∈ _, _))
  | .enqueueAsync _ | .dequeueAsync _ => .isTrue trivial

instance (s : Matchmaking) : DecidablePred s.JoinsAlone
  | .advance _ => inferInstanceAs (Decidable (∀ t ∈ _, ∀ id ∈ _, _))
  | .enqueueAsync _ | .dequeueAsync _ => .isTrue trivial

end Matchmaking

/-! ## No id is in more matches than it was enqueued

An id is counted in three places: in the matches, in the list, and in the hands of the operations
under way.  Every command moves it from one to another or drops it; only an EnqueueAsync adds one,
which is counted when it is called. -/

/-- The ids a task may still push or match. -/
def QueueTask.ids : QueueTask → List String
  | .hashSet player => [player.playerId]
  | .listRemove playerId | .rightPush playerId => [playerId]
  | .leftPop2 p1Val => p1Val.toList
  | .pushBack1 p1Val p2Val => p1Val.toList ++ p2Val.toList
  | .pushBack2 p2Val => p2Val.toList
  | .hashGet1 p1Id p2Id | .hashGet2 p1Id p2Id _ | .staleCleanup1 p1Id p2Id _ _ => [p1Id, p2Id]
  | .staleCleanup2 p2Id _ => [p2Id]
  | .hashDelete1 _ _ p1Dto p2Dto | .hashDelete2 _ p1Dto p2Dto => [p1Dto.playerId, p2Dto.playerId]
  | .dequeueHashDelete _ | .dequeueListRemove _ | .tryAcquire | .listLength | .leftPop1
  | .dispose => []

/-- What is not null or empty is there. -/
theorem some_of_not_null {value : Option String} (h : ¬ isNullOrEmpty value = true) :
    ∃ id, value = some id := by
  cases value with
  | none => exact absurd rfl h
  | some id => exact ⟨id, rfl⟩

/-- How often a task may still push or match an id. -/
def QueueTask.stake (id : String) (t : QueueTask) : Nat := t.ids.count id

/-- The details that a task has read are those of the id it has popped. -/
def QueueTask.ReadsOwn : QueueTask → Prop
  | .hashGet2 p1Id _ p1Json => ∀ dto, p1Json = some dto → dto.playerId = p1Id
  | .hashDelete1 p1Id p2Id p1Dto p2Dto => p1Dto.playerId = p1Id ∧ p2Dto.playerId = p2Id
  | _ => True

/-- The details are stored under the id they are of, and read so. -/
structure Matchmaking.Keyed (s : Matchmaking) : Prop where
  /-- HSET writes a player's details under the player's own id. -/
  stored : ∀ id dto, s.shared.playerDetails.get? id = some dto → dto.playerId = id
  /-- And HGET reads them under the id that was popped. -/
  read : ∀ t ∈ s.tasks, t.ReadsOwn

/-- Every id that waits, is in hand or is matched was enqueued. -/
def Matchmaking.Accounted (s : Matchmaking) : Prop :=
  ∀ id, s.shared.participations id + s.shared.queue.count id + s.total (QueueTask.stake id) ≤
    s.shared.enqueued.count id

namespace RedisQueue

/-- HDEL only takes details away, -/
theorem get?_hashDelete {r : RedisQueue} {k id : String} {dto : QueuedPlayerDto}
    (h : (r.hashDelete k).playerDetails.get? id = some dto) : r.playerDetails.get? id = some dto := by
  rw [hashDelete, Dict.get?_remove] at h
  split at h
  · cases h
  · exact h

/-- and so does the stale cleanup. -/
theorem staleCleanup_details {r : RedisQueue} {k id : String} {json : Option QueuedPlayerDto}
    {dto : QueuedPlayerDto} (h : (r.staleCleanup k json).playerDetails.get? id = some dto) :
    r.playerDetails.get? id = some dto := by
  rw [staleCleanup] at h
  split at h
  · exact h
  · exact get?_hashDelete h

/-- Pushing back an id touches no details. -/
theorem pushBack_details (r : RedisQueue) (value : Option String) :
    (r.pushBack value).playerDetails = r.playerDetails := by
  rw [pushBack]
  split
  · rfl
  · rfl

/-- A command stores only a player's own details. -/
theorem run_stored {r : RedisQueue} {t : QueueTask}
    (hr : ∀ id dto, r.playerDetails.get? id = some dto → dto.playerId = id) :
    ∀ id dto, (r.run t).1.playerDetails.get? id = some dto → dto.playerId = id := by
  intro id dto h
  cases t with
  | hashSet player =>
    have hset : (r.playerDetails.set player.playerId player.toDto).get? id = some dto := h
    rw [Dict.get?_set] at hset
    split at hset
    case isTrue heq =>
      cases hset
      exact heq
    case isFalse => exact hr id dto hset
  | dequeueHashDelete playerId => exact hr id dto (get?_hashDelete h)
  | hashDelete1 p1Id p2Id p1Dto p2Dto => exact hr id dto (get?_hashDelete h)
  | hashDelete2 p2Id p1Dto p2Dto =>
    have hdel : (r.hashDelete p2Id).playerDetails.get? id = some dto := h
    exact hr id dto (get?_hashDelete hdel)
  | staleCleanup1 p1Id p2Id p1Json p2Json => exact hr id dto (staleCleanup_details h)
  | staleCleanup2 p2Id p2Json => exact hr id dto (staleCleanup_details h)
  | pushBack1 p1Val p2Val => exact hr id dto (pushBack_details r p1Val ▸ h)
  | pushBack2 p2Val => exact hr id dto (pushBack_details r p2Val ▸ h)
  | tryAcquire =>
    simp only [run] at h
    split at h
    · exact hr id dto h
    · exact hr id dto h
  | listRemove _ | rightPush _ | dequeueListRemove _ | listLength | leftPop1 | leftPop2 _
  | hashGet1 _ _ | hashGet2 _ _ _ | dispose => exact hr id dto h

/-- The tasks that are left have read their own details. -/
theorem run_read {r : RedisQueue} {t : QueueTask}
    (hr : ∀ id dto, r.playerDetails.get? id = some dto → dto.playerId = id) (ht : t.ReadsOwn) :
    ∀ t' ∈ (r.run t).2, t'.ReadsOwn := by
  cases t with
  | hashGet1 p1Id p2Id =>
    intro t' ht'
    rw [List.mem_singleton.mp ht']
    exact fun dto hdto => hr p1Id dto hdto
  | hashGet2 p1Id p2Id p1Json =>
    intro t' ht'
    rw [List.mem_singleton.mp ht']
    split
    case h_1 p1Dto p2Dto h2 => exact ⟨ht p1Dto rfl, hr p2Id p2Dto h2⟩
    case h_2 => trivial
  | listLength =>
    intro t' ht'
    rw [List.mem_singleton.mp ht']
    split
    · trivial
    · trivial
  | leftPop2 p1Val =>
    intro t' ht'
    rw [List.mem_singleton.mp ht']
    split
    · trivial
    · trivial
  | tryAcquire =>
    intro t' ht'
    simp only [run] at ht'
    split at ht'
    · cases ht'
    · rw [List.mem_singleton.mp ht']
      trivial
  | hashSet _ | listRemove _ | rightPush _ | dequeueHashDelete _ | dequeueListRemove _ | leftPop1
  | pushBack1 _ _ | pushBack2 _ | staleCleanup1 _ _ _ _ | staleCleanup2 _ _ | hashDelete1 _ _ _ _
  | hashDelete2 _ _ _ | dispose => simp [run, QueueTask.ReadsOwn]

/-! ### The count -/

/-- Two ids are counted one by one. -/
theorem count_pair (a b id : String) : [a, b].count id = [a].count id + [b].count id := by
  rw [← List.count_append]
  rfl

/-- What is popped is not in the list any more. -/
theorem count_pop (r : RedisQueue) (id : String) :
    r.queue.tail.count id + r.queue.head?.toList.count id = r.queue.count id := by
  cases r.queue with
  | nil => rfl
  | cons head rest => simp [List.count_cons]

/-- Pushing back puts into the list what was in hand, if it was anything. -/
theorem count_pushBack (r : RedisQueue) (value : Option String) (id : String) :
    (r.pushBack value).queue.count id ≤
      r.queue.count id + (if isNullOrEmpty value then none else value).toList.count id := by
  rw [pushBack]
  split
  · exact Nat.le_add_right _ _
  · cases value with
    | none => simp_all [isNullOrEmpty]
    | some v => simp [leftPush, List.count_cons]

/-- Only what is there is pushed back. -/
theorem count_pushed_le (value : Option String) (id : String) :
    (if isNullOrEmpty value then none else value).toList.count id ≤ value.toList.count id := by
  split
  · exact Nat.zero_le _
  · exact Nat.le_refl _

/-- The stale cleanup puts back whoever has details. -/
theorem count_staleCleanup (r : RedisQueue) (k : String) (json : Option QueuedPlayerDto)
    (id : String) : (r.staleCleanup k json).queue.count id ≤
      r.queue.count id + (if json.isSome then some k else none).toList.count id := by
  rw [staleCleanup]
  split
  · simp [leftPush, List.count_cons]
  · exact Nat.le_add_right _ _

/-- The cleanup pushes an id once or not at all. -/
theorem count_cleaned_le (k : String) (json : Option QueuedPlayerDto) (id : String) :
    (if json.isSome then some k else none).toList.count id ≤ [k].count id := by
  split
  · exact Nat.le_refl _
  · exact Nat.zero_le _

/-- To push back raises no match, -/
theorem participations_pushBack (r : RedisQueue) (value : Option String) (id : String) :
    (r.pushBack value).participations id = r.participations id := by
  rw [pushBack]
  split
  · rfl
  · rfl

/-- nor does the stale cleanup. -/
theorem participations_staleCleanup (r : RedisQueue) (k : String) (json : Option QueuedPlayerDto)
    (id : String) : (r.staleCleanup k json).participations id = r.participations id := by
  rw [staleCleanup]
  split
  · rfl
  · rfl

/-- One more match counts once for each of its players. -/
theorem participations_concat (r : RedisQueue) (m : MatchFoundEventArgs) (id : String) :
    { r with matchFound := r.matchFound ++ [m] }.participations id ≤
      r.participations id + [m.player1.playerId, m.player2.playerId].count id := by
  rw [participations, participations, List.countP_append, List.countP_singleton]
  rcases em (m.player1.playerId = id) with h1 | h1
  · simp [h1, List.count_cons]
  · rcases em (m.player2.playerId = id) with h2 | h2
    · simp [h1, h2]
    · simp [h1, h2]

/-- **A command makes nobody more of an id**: what waits, is in hand or is matched after it was so
    before. -/
theorem run_accounted {r : RedisQueue} {t : QueueTask}
    (hr : ∀ id dto, r.playerDetails.get? id = some dto → dto.playerId = id) (ht : t.ReadsOwn)
    (id : String) :
    (r.run t).1.participations id + (r.run t).1.queue.count id +
        ((r.run t).2.map (QueueTask.stake id)).sum ≤
      r.participations id + r.queue.count id + t.stake id := by
  have hpop := r.count_pop id
  -- what a command takes off the list is in the hand of the task it leaves, and the other way round
  cases t with
  | hashSet player => simp [run, participations, QueueTask.stake, QueueTask.ids]
  | listRemove playerId =>
    have hle : (r.queue.filter (· ≠ playerId)).count id ≤ r.queue.count id :=
      List.Sublist.count_le _ List.filter_sublist
    simp only [run, listRemove, participations, QueueTask.stake, QueueTask.ids, List.map_cons,
      List.map_nil, List.sum_cons, List.sum_nil]
    omega
  | rightPush playerId =>
    simp [run, participations, QueueTask.stake, QueueTask.ids, List.count_append]
    omega
  | dequeueHashDelete playerId => simp [run, hashDelete, participations, QueueTask.stake, QueueTask.ids]
  | dequeueListRemove playerId =>
    have hle : (r.queue.filter (· ≠ playerId)).count id ≤ r.queue.count id :=
      List.Sublist.count_le _ List.filter_sublist
    simp only [run, listRemove, participations, QueueTask.stake, QueueTask.ids, List.map_nil,
      List.sum_nil, List.count_nil]
    omega
  | tryAcquire =>
    simp only [run]
    split
    · simp
    · simp [participations, QueueTask.stake, QueueTask.ids]
  | listLength =>
    simp only [run]
    split
    · simp [QueueTask.stake, QueueTask.ids]
    · simp [QueueTask.stake, QueueTask.ids]
  | leftPop1 =>
    simp only [run, leftPop, participations, QueueTask.stake, QueueTask.ids, List.map_cons,
      List.map_nil, List.sum_cons, List.sum_nil, List.count_nil]
    omega
  | leftPop2 p1Val =>
    simp only [run, leftPop]
    split
    · simp only [participations, QueueTask.stake, QueueTask.ids, List.map_cons, List.map_nil,
        List.sum_cons, List.sum_nil, List.count_append]
      omega
    case isFalse hboth =>
      -- both ids are there
      obtain ⟨hp1, hp2⟩ := not_or.mp (mt Bool.or_eq_true_iff.mpr hboth)
      obtain ⟨p1, rfl⟩ : ∃ p1, p1Val = some p1 := some_of_not_null hp1
      obtain ⟨p2, hp2⟩ : ∃ p2, r.queue.head? = some p2 := some_of_not_null hp2
      rw [hp2] at hpop
      simp only [participations, QueueTask.stake, QueueTask.ids, List.map_cons, List.map_nil,
        List.sum_cons, List.sum_nil, hp2, Option.getD_some, Option.toList_some] at hpop ⊢
      have hpair := count_pair p1 p2 id
      omega
  | pushBack1 p1Val p2Val =>
    have hle := r.count_pushBack p1Val id
    have hpushed := count_pushed_le p1Val id
    have hsame := r.participations_pushBack p1Val id
    simp only [run, QueueTask.stake, QueueTask.ids, List.map_cons, List.map_nil, List.sum_cons,
      List.sum_nil, List.count_append]
    omega
  | pushBack2 p2Val =>
    have hle := r.count_pushBack p2Val id
    have hpushed := count_pushed_le p2Val id
    have hsame := r.participations_pushBack p2Val id
    simp only [run, QueueTask.stake, QueueTask.ids, List.map_cons, List.map_nil, List.sum_cons,
      List.sum_nil, List.count_nil]
    omega
  | hashGet1 p1Id p2Id => simp [run, QueueTask.stake, QueueTask.ids]
  | hashGet2 p1Id p2Id p1Json =>
    simp only [run]
    split
    case h_1 p1Dto p2Dto h2 =>
      -- the details that were read carry the ids they were read under
      have h1 : p1Dto.playerId = p1Id := ht p1Dto rfl
      have h2' : p2Dto.playerId = p2Id := hr p2Id p2Dto h2
      simp [QueueTask.stake, QueueTask.ids, h1, h2']
    case h_2 => simp [QueueTask.stake, QueueTask.ids]
  | staleCleanup1 p1Id p2Id p1Json p2Json =>
    have hle := r.count_staleCleanup p1Id p1Json id
    have hcleaned := count_cleaned_le p1Id p1Json id
    have hsame := r.participations_staleCleanup p1Id p1Json id
    have hpair := count_pair p1Id p2Id id
    simp only [run, QueueTask.stake, QueueTask.ids, List.map_cons, List.map_nil, List.sum_cons,
      List.sum_nil]
    omega
  | staleCleanup2 p2Id p2Json =>
    have hle := r.count_staleCleanup p2Id p2Json id
    have hcleaned := count_cleaned_le p2Id p2Json id
    have hsame := r.participations_staleCleanup p2Id p2Json id
    simp only [run, QueueTask.stake, QueueTask.ids, List.map_cons, List.map_nil, List.sum_cons,
      List.sum_nil, List.count_nil]
    omega
  | hashDelete1 p1Id p2Id p1Dto p2Dto =>
    simp [run, hashDelete, participations, QueueTask.stake, QueueTask.ids]
  | hashDelete2 p2Id p1Dto p2Dto =>
    have hmatch : (r.run (.hashDelete2 p2Id p1Dto p2Dto)).1.participations id ≤
        r.participations id + [p1Dto.playerId, p2Dto.playerId].count id :=
      (r.hashDelete p2Id).participations_concat ⟨p1Dto.toPlayer, p2Dto.toPlayer⟩ id
    have hqueue : (r.run (.hashDelete2 p2Id p1Dto p2Dto)).1.queue = r.queue := rfl
    have hstake : (QueueTask.hashDelete2 p2Id p1Dto p2Dto).stake id =
        [p1Dto.playerId, p2Dto.playerId].count id := rfl
    have hleft : ((r.run (.hashDelete2 p2Id p1Dto p2Dto)).2.map (QueueTask.stake id)).sum = 0 := rfl
    rw [hqueue, hstake, hleft]
    omega
  | dispose => simp [run, participations, QueueTask.stake, QueueTask.ids]

/-- No command enqueues. -/
theorem run_enqueued (r : RedisQueue) (t : QueueTask) : (r.run t).1.enqueued = r.enqueued := by
  cases t with
  | tryAcquire =>
    simp only [run]
    split
    · rfl
    · rfl
  | pushBack1 p1Val p2Val | pushBack2 p2Val =>
    simp only [run, pushBack]
    split
    · rfl
    · rfl
  | staleCleanup1 p1Id p2Id p1Json p2Json | staleCleanup2 p2Id p2Json =>
    simp only [run, staleCleanup]
    split
    · rfl
    · rfl
  | _ => rfl

end RedisQueue

namespace Matchmaking

/-- New operations have read nothing yet, and a command reads what is stored. -/
theorem Keyed.next {s : Matchmaking} (h : s.Keyed) (c : QueueCall) : (s.next c).Keyed := by
  cases c with
  | enqueueAsync player =>
    refine ⟨h.stored, fun t ht => ?_⟩
    rcases List.mem_append.mp ht with hold | hnew
    · exact h.read t hold
    · rw [List.mem_singleton.mp hnew]
      trivial
  | dequeueAsync playerId =>
    refine ⟨h.stored, fun t ht => ?_⟩
    rcases List.mem_append.mp ht with hold | hnew
    · exact h.read t hold
    · rw [List.mem_singleton.mp hnew]
      trivial
  | advance task =>
    show Keyed (s.advance RedisQueue.run task)
    cases ht : s.tasks[task]? with
    | none =>
      rw [Pool.advance_none ht]
      exact h
    | some t =>
      refine ⟨?_, fun t' ht' => ?_⟩
      · rw [Pool.advance_some ht]
        exact RedisQueue.run_stored h.stored
      · rcases (Pool.mem_advance_iff ht).mp ht' with hleft | hother
        · exact RedisQueue.run_read h.stored (h.read t (List.mem_of_getElem? ht)) t' hleft
        · exact h.read t' ((Pool.mem_tasks_iff ht).mpr (Or.inr hother))

/-- A call is counted when it is made, a command by `run_accounted`, and the other operations keep
    what they have. -/
theorem Accounted.next {s : Matchmaking} (hk : s.Keyed) (h : s.Accounted) (c : QueueCall) :
    (s.next c).Accounted := by
  intro id
  have hid := h id
  cases c with
  | enqueueAsync player =>
    have htotal : (s.enqueueAsync player).total (QueueTask.stake id) =
        s.total (QueueTask.stake id) + [player.playerId].count id := Pool.total_start _ _ _
    show s.shared.participations id + s.shared.queue.count id +
      (s.enqueueAsync player).total (QueueTask.stake id) ≤
        (s.shared.enqueued ++ [player.playerId]).count id
    -- the id is counted once among the calls and once in the hand of the operation
    rw [htotal, List.count_append]
    omega
  | dequeueAsync playerId =>
    have htotal : (s.dequeueAsync playerId).total (QueueTask.stake id) =
        s.total (QueueTask.stake id) + 0 := Pool.total_start _ _ _
    show s.shared.participations id + s.shared.queue.count id +
      (s.dequeueAsync playerId).total (QueueTask.stake id) ≤ s.shared.enqueued.count id
    rw [htotal]
    exact hid
  | advance task =>
    show (s.advance RedisQueue.run task).shared.participations id +
      (s.advance RedisQueue.run task).shared.queue.count id +
      (s.advance RedisQueue.run task).total (QueueTask.stake id) ≤
        (s.advance RedisQueue.run task).shared.enqueued.count id
    cases ht : s.tasks[task]? with
    | none =>
      rw [Pool.advance_none ht]
      exact hid
    | some t =>
      have hown : t.ReadsOwn := hk.read t (List.mem_of_getElem? ht)
      have hrun := RedisQueue.run_accounted hk.stored hown id
      have htotal := Pool.total_advance RedisQueue.run (QueueTask.stake id) ht
      have henq := RedisQueue.run_enqueued s.shared t
      rw [Pool.advance_some ht] at htotal ⊢
      show (s.shared.run t).1.participations id + (s.shared.run t).1.queue.count id + Pool.total _ _ ≤
        (s.shared.run t).1.enqueued.count id
      rw [henq]
      omega

/-! ## Nobody is matched with itself

Four facts about one command are enough for both invariants: what it does to the list
(`count_run_queue`), when it leaves an attempt between its two pops (`run_holds`), what the rest of
the operation still uses (`run_uses`), and where the two ids of a match come from
(`run_pairIds?`). -/

end Matchmaking

/-- The two ids of an attempt that has popped both: those that it has popped, and then those of the
    details that it has read. -/
def QueueTask.pairIds? : QueueTask → Option (String × String)
  | .hashGet1 p1Id p2Id | .hashGet2 p1Id p2Id _ => some (p1Id, p2Id)
  | .hashDelete1 _ _ p1Dto p2Dto | .hashDelete2 _ p1Dto p2Dto => some (p1Dto.playerId, p2Dto.playerId)
  | _ => none

/-- Is a task an attempt between its two pops, with an id in its hand? -/
def QueueTask.holds (id : String) (t : QueueTask) : Nat := if t = .leftPop2 (some id) then 1 else 0

namespace RedisQueue

/-- The ids that the next command of a task pops. -/
def pops (r : RedisQueue) : QueueTask → List String
  | .leftPop1 | .leftPop2 _ => r.queue.head?.toList
  | _ => []

/-- A command puts into the list what it pushes, and takes out at least what it pops. -/
theorem count_run_queue (r : RedisQueue) (t : QueueTask) (id : String) :
    (r.run t).1.queue.count id + (r.pops t).count id ≤
      r.queue.count id + t.pushes?.toList.count id := by
  have hpop := r.count_pop id
  have hremove : ∀ playerId, (r.queue.filter (· ≠ playerId)).count id ≤ r.queue.count id :=
    fun playerId => List.Sublist.count_le _ List.filter_sublist
  cases t with
  | hashSet _ | dequeueHashDelete _ | listLength | hashGet1 _ _ | hashGet2 _ _ _
  | hashDelete1 _ _ _ _ | hashDelete2 _ _ _ | dispose => exact Nat.le_refl _
  | listRemove playerId | dequeueListRemove playerId => exact hremove playerId
  | rightPush playerId => exact Nat.le_of_eq (List.count_append ..)
  | tryAcquire =>
    simp only [run]
    split <;> exact Nat.le_refl _
  | leftPop1 | leftPop2 _ => exact Nat.le_of_eq hpop
  | pushBack1 p1Val _ => exact r.count_pushBack p1Val id
  | pushBack2 p2Val => exact r.count_pushBack p2Val id
  | staleCleanup1 p1Id _ p1Json _ => exact r.count_staleCleanup p1Id p1Json id
  | staleCleanup2 p2Id p2Json => exact r.count_staleCleanup p2Id p2Json id

/-- Only the first pop of an attempt leaves it between its two. -/
theorem run_holds (r : RedisQueue) (t : QueueTask) (id : String) :
    ((r.run t).2.map (QueueTask.holds id)).sum ≤ (r.pops t).count id := by
  cases t with
  | leftPop1 =>
    show QueueTask.holds id (.leftPop2 r.queue.head?) + 0 ≤ r.queue.head?.toList.count id
    rw [QueueTask.holds]
    split
    · rename_i heq
      rw [QueueTask.leftPop2.inj heq]
      simp
    · exact Nat.zero_le _
  | tryAcquire =>
    simp only [run]
    split <;> simp [QueueTask.holds]
  | listLength =>
    simp only [run]
    split <;> simp [QueueTask.holds]
  | leftPop2 p1Val =>
    simp only [run]
    split <;> simp [QueueTask.holds]
  | hashGet2 p1Id p2Id p1Json =>
    simp only [run]
    split <;> simp [QueueTask.holds]
  | hashSet _ | listRemove _ | rightPush _ | dequeueHashDelete _ | dequeueListRemove _ | pushBack1 _ _
  | pushBack2 _ | hashGet1 _ _ | staleCleanup1 _ _ _ _ | staleCleanup2 _ _ | hashDelete1 _ _ _ _
  | hashDelete2 _ _ _ | dispose => simp [run, QueueTask.holds]

/-- What is left of an operation uses what the operation has used and not pushed, what it has popped,
    and the id that it has removed to push it. -/
theorem run_uses (r : RedisQueue) (t : QueueTask) (id : String) :
    ((r.run t).2.map fun t' => t'.uses.count id).sum + t.pushes?.toList.count id ≤
      t.uses.count id + (r.pops t).count id + t.rejoins?.toList.count id := by
  have hcleanup : ∀ (k : String) (json : Option QueuedPlayerDto),
      (if json.isSome then some k else none).toList =
      if json.isSome then [k] else [] := by
    intro k json
    split <;> rfl
  cases t with
  | hashSet _ | listRemove _ | rightPush _ | dequeueHashDelete _ | dequeueListRemove _ | leftPop1
  | hashGet1 _ _ | hashDelete1 _ _ _ _ | hashDelete2 _ _ _ | dispose =>
    simp [run, QueueTask.uses, QueueTask.pushes?, QueueTask.rejoins?, pops]
  | tryAcquire =>
    simp only [run]
    split <;> simp [QueueTask.uses, QueueTask.pushes?]
  | listLength =>
    simp only [run]
    split <;> simp [QueueTask.uses, QueueTask.pushes?]
  | leftPop2 p1Val =>
    simp only [run, pops, QueueTask.pushes?, QueueTask.rejoins?]
    split
    · simp [QueueTask.uses, List.count_append]
    · rename_i hboth
      -- both ids are there
      obtain ⟨hp1, hp2⟩ := not_or.mp (mt Bool.or_eq_true_iff.mpr hboth)
      obtain ⟨p1, rfl⟩ : ∃ p1, p1Val = some p1 := some_of_not_null hp1
      obtain ⟨p2, hhead⟩ : ∃ p2, r.queue.head? = some p2 := some_of_not_null hp2
      rw [hhead]
      have hpair := count_pair p1 p2 id
      simpa [QueueTask.uses] using Nat.le_of_eq hpair
  | pushBack1 p1Val p2Val =>
    have hle := count_pushed_le p1Val id
    simp only [run, pops, QueueTask.uses, QueueTask.pushes?, QueueTask.rejoins?, List.map_cons,
      List.map_nil, List.sum_cons, List.sum_nil, List.count_append, List.count_nil]
    omega
  | pushBack2 p2Val =>
    have hle := count_pushed_le p2Val id
    simp only [run, pops, QueueTask.uses, QueueTask.pushes?, QueueTask.rejoins?, List.map_cons,
      List.map_nil, List.sum_cons, List.sum_nil, List.count_nil]
    omega
  | hashGet2 p1Id p2Id p1Json =>
    simp only [run, pops, QueueTask.pushes?, QueueTask.rejoins?]
    split
    · simp [QueueTask.uses]
    · have hpair := count_pair p1Id p2Id id
      simp only [QueueTask.uses, List.map_cons, List.map_nil, List.sum_cons, List.sum_nil,
        List.count_append]
      split <;> split <;> simp <;> omega
  | staleCleanup1 p1Id p2Id p1Json p2Json =>
    simp only [run, pops, QueueTask.uses, QueueTask.pushes?, QueueTask.rejoins?, hcleanup, List.map_cons,
      List.map_nil, List.sum_cons, List.sum_nil, List.count_append]
    omega
  | staleCleanup2 p2Id p2Json =>
    simp only [run, pops, QueueTask.uses, QueueTask.pushes?, QueueTask.rejoins?, hcleanup, List.map_cons,
      List.map_nil, List.sum_cons, List.sum_nil, List.count_nil]
    omega

/-- Whoever pushes an id uses it. -/
theorem uses_of_pushes {t : QueueTask} {id : String} (hpush : t.pushes? = some id) :
    1 ≤ t.uses.count id := by
  refine List.count_pos_iff.mpr ?_
  cases t with
  | rightPush playerId =>
    cases hpush
    exact List.mem_singleton_self _
  | pushBack1 p1Val p2Val =>
    rw [QueueTask.pushes?] at hpush
    split at hpush
    · cases hpush
    · exact List.mem_append_left _ (Option.mem_toList.mpr hpush)
  | pushBack2 p2Val =>
    rw [QueueTask.pushes?] at hpush
    split at hpush
    · cases hpush
    · exact Option.mem_toList.mpr hpush
  | staleCleanup1 p1Id p2Id p1Json p2Json =>
    rw [QueueTask.pushes?] at hpush
    split at hpush
    · rename_i hsome
      cases hpush
      rw [QueueTask.uses, if_pos hsome]
      exact List.mem_append_left _ (List.mem_singleton_self _)
    · cases hpush
  | staleCleanup2 p2Id p2Json =>
    rw [QueueTask.pushes?] at hpush
    split at hpush
    · rename_i hsome
      cases hpush
      rw [QueueTask.uses, if_pos hsome]
      exact List.mem_singleton_self _
    · cases hpush
  | hashSet _ | listRemove _ | dequeueHashDelete _ | dequeueListRemove _ | tryAcquire | listLength
  | leftPop1 | leftPop2 _ | hashGet1 _ _ | hashGet2 _ _ _ | hashDelete1 _ _ _ _ | hashDelete2 _ _ _
  | dispose => cases hpush

/-- A command raises a match of the two ids that the task has, and no other. -/
theorem run_matchFound (r : RedisQueue) (t : QueueTask) : (r.run t).1.matchFound = r.matchFound ∨
    ∃ m, t.pairIds? = some (m.player1.playerId, m.player2.playerId) ∧
      (r.run t).1.matchFound = r.matchFound ++ [m] := by
  cases t with
  | hashDelete2 p2Id p1Dto p2Dto => exact .inr ⟨⟨p1Dto.toPlayer, p2Dto.toPlayer⟩, rfl, rfl⟩
  | tryAcquire =>
    refine .inl ?_
    simp only [run]
    split <;> rfl
  | pushBack1 p1Val p2Val | pushBack2 p2Val =>
    refine .inl ?_
    simp only [run, pushBack]
    split <;> rfl
  | staleCleanup1 p1Id p2Id p1Json p2Json | staleCleanup2 p2Id p2Json =>
    refine .inl ?_
    simp only [run, staleCleanup]
    split <;> rfl
  | hashSet _ | listRemove _ | rightPush _ | dequeueHashDelete _ | dequeueListRemove _ | listLength
  | leftPop1 | leftPop2 _ | hashGet1 _ _ | hashGet2 _ _ _ | hashDelete1 _ _ _ _ | dispose =>
      exact .inl rfl

/-- The two ids that an attempt has it had before, or its second pop has just joined them. -/
theorem run_pairIds? {r : RedisQueue} {t t' : QueueTask} {p : String × String}
    (hr : ∀ id dto, r.playerDetails.get? id = some dto → dto.playerId = id) (hown : t.ReadsOwn)
    (ht' : t' ∈ (r.run t).2) (hp : t'.pairIds? = some p) :
    t.pairIds? = some p ∨ t = .leftPop2 (some p.1) ∧ r.queue.head? = some p.2 := by
  cases t with
  | hashGet1 p1Id p2Id =>
    rw [List.mem_singleton.mp ht'] at hp
    exact .inl hp
  | hashGet2 p1Id p2Id p1Json =>
    rw [List.mem_singleton.mp ht'] at hp
    split at hp
    · rename_i p1Dto p2Dto h2
      -- the details that were read carry the ids they were read under
      rw [QueueTask.pairIds?, hown p1Dto rfl, hr p2Id p2Dto h2] at hp
      exact .inl hp
    · cases hp
  | hashDelete1 p1Id p2Id p1Dto p2Dto =>
    rw [List.mem_singleton.mp ht'] at hp
    exact .inl hp
  | leftPop2 p1Val =>
    rw [List.mem_singleton.mp ht'] at hp
    split at hp
    · cases hp
    · rename_i hboth
      obtain ⟨hp1, hp2⟩ := not_or.mp (mt Bool.or_eq_true_iff.mpr hboth)
      obtain ⟨p1, rfl⟩ : ∃ p1, p1Val = some p1 := some_of_not_null hp1
      obtain ⟨p2, hhead⟩ : ∃ p2, r.queue.head? = some p2 := some_of_not_null hp2
      rw [hhead] at hp ⊢
      cases hp
      exact .inr ⟨rfl, rfl⟩
  | tryAcquire =>
    simp only [run] at ht'
    split at ht'
    · cases ht'
    · rw [List.mem_singleton.mp ht'] at hp
      cases hp
  | listLength =>
    rw [List.mem_singleton.mp ht'] at hp
    split at hp <;> cases hp
  | staleCleanup2 _ _ | hashDelete2 _ _ _ =>
    rcases List.mem_cons.mp ht' with rfl | hdispose
    · cases hp
    · rw [List.mem_singleton.mp hdispose] at hp
      cases hp
  | dequeueListRemove _ | dispose => cases ht'
  | hashSet _ | listRemove _ | rightPush _ | dequeueHashDelete _ | leftPop1 | pushBack1 _ _
  | pushBack2 _ | staleCleanup1 _ _ _ _ =>
    rw [List.mem_singleton.mp ht'] at hp
    cases hp

end RedisQueue

/-- The list and the hands of the attempts between their two pops have every id once; and what an
    attempt has popped, or has raised, are two ids. -/
structure Matchmaking.Unrepeated (s : Matchmaking) : Prop where
  /-- No id is twice in the list, or in the list and in a hand. -/
  entries : ∀ id, s.shared.queue.count id + s.total (QueueTask.holds id) ≤ 1
  /-- An attempt past both pops has two ids. -/
  popped : ∀ t ∈ s.tasks, ∀ p, t.pairIds? = some p → p.1 ≠ p.2
  /-- And so has every match it has raised. -/
  raised : ∀ m ∈ s.shared.matchFound, m.Distinct

/-- The list and the operations that may push into it have every id once. -/
def Matchmaking.Singly (s : Matchmaking) : Prop :=
  ∀ id, s.shared.queue.count id + s.total (fun t => t.uses.count id) ≤ 1

namespace Matchmaking

variable {s : Matchmaking}

/-- An operation that begins has nothing in its hand. -/
theorem Unrepeated.start (h : s.Unrepeated) {t : QueueTask} (hholds : ∀ id, t.holds id = 0)
    (hpair : t.pairIds? = none) (shared : RedisQueue) (hqueue : shared.queue = s.shared.queue)
    (hraised : shared.matchFound = s.shared.matchFound) :
    Unrepeated (Pool.start ⟨shared, s.tasks⟩ t) := by
  refine ⟨fun id => ?_, fun t' ht' p hp => ?_, fun m hm => h.raised m (hraised ▸ hm)⟩
  · rw [Pool.total_start, hholds id]
    show shared.queue.count id + Pool.total _ s ≤ 1
    rw [hqueue]
    exact h.entries id
  · rcases List.mem_append.mp ht' with hold | hnew
    · exact h.popped t' hold p hp
    · rw [List.mem_singleton.mp hnew, hpair] at hp
      cases hp

/-- An id that is pushed once is in the list once. -/
theorem Unrepeated.entries_advance (h : s.Unrepeated) {task : Nat} {t : QueueTask}
    (ht : s.tasks[task]? = some t) (honce : s.PushesOnce (.advance task)) (id : String) :
    (s.advance RedisQueue.run task).shared.queue.count id +
      (s.advance RedisQueue.run task).total (QueueTask.holds id) ≤ 1 := by
  have hentries := h.entries id
  have hrun := s.shared.count_run_queue t id
  have hholds := s.shared.run_holds t id
  have htotal := Pool.total_advance RedisQueue.run (QueueTask.holds id) ht
  have hshared : (s.advance RedisQueue.run task).shared = (s.shared.run t).1 := by
    rw [Pool.advance_some ht]
  rw [hshared]
  by_cases hpush : t.pushes? = some id
  · -- it is not there yet
    obtain ⟨hqueue, hhand⟩ := honce t (Option.mem_def.mpr ht) id (Option.mem_def.mpr hpush)
    have hnone : s.total (QueueTask.holds id) = 0 := by
      refine List.sum_eq_zero fun n hn => ?_
      obtain ⟨t', ht', rfl⟩ := List.mem_map.mp hn
      rw [QueueTask.holds, if_neg]
      rintro rfl
      exact hhand ht'
    have hzero : s.shared.queue.count id = 0 := List.count_eq_zero.mpr hqueue
    rw [hpush, Option.toList_some, List.count_singleton_self] at hrun
    omega
  · have hother : t.pushes?.toList.count id = 0 := by
      refine List.count_eq_zero.mpr fun hmem => hpush ?_
      exact Option.mem_toList.mp hmem
    omega

/-- **A step that makes no second entry** keeps everything single. -/
theorem Unrepeated.next (h : s.Unrepeated) (hk : s.Keyed) {c : QueueCall} (honce : s.PushesOnce c) :
    (s.next c).Unrepeated := by
  cases c with
  | enqueueAsync player => exact h.start (fun _ => rfl) rfl _ rfl rfl
  | dequeueAsync playerId => exact h.start (fun _ => rfl) rfl s.shared rfl rfl
  | advance task =>
    show Unrepeated (s.advance RedisQueue.run task)
    cases ht : s.tasks[task]? with
    | none =>
      rw [Pool.advance_none ht]
      exact h
    | some t =>
      have hmem : t ∈ s.tasks := List.mem_of_getElem? ht
      refine ⟨h.entries_advance ht honce, fun t' ht' p hp => ?_, fun m hm => ?_⟩
      · rcases (Pool.mem_advance_iff ht).mp ht' with hleft | hother
        · rcases RedisQueue.run_pairIds? hk.stored (hk.read t hmem) hleft hp with hold | ⟨rfl, hhead⟩
          · exact h.popped t hmem p hold
          · -- the id in the hand is not in the list, so the second pop finds another one
            intro hsame
            have hhand : QueueTask.holds p.1 (.leftPop2 (some p.1)) = 1 := if_pos rfl
            have hle := Pool.le_total (QueueTask.holds p.1) hmem
            have hone := h.entries p.1
            have hnot : p.1 ∉ s.shared.queue := List.count_eq_zero.mp (by omega)
            refine hnot ?_
            rw [hsame]
            exact List.mem_of_mem_head? (Option.mem_def.mpr hhead)
        · exact h.popped t' ((Pool.mem_tasks_iff ht).mpr (.inr hother)) p hp
      · rw [Pool.advance_some ht] at hm
        rcases s.shared.run_matchFound t with hsame | ⟨m', hpair, happ⟩
        · exact h.raised m (hsame ▸ hm)
        · have hin : m ∈ s.shared.matchFound ++ [m'] := happ ▸ hm
          rcases List.mem_append.mp hin with hold | hnew
          · exact h.raised m hold
          · rw [List.mem_singleton.mp hnew]
            exact h.popped t hmem _ hpair

/-! ## Uses that do not overlap

An EnqueueAsync clears the list of its id and is, from there to its push, the one use of it; so is
an attempt from its first pop to the details.  An id that is joined only when it is in no use is
never in two. -/

/-- An operation that begins uses no id yet: an EnqueueAsync first writes the details and clears the
    list. -/
theorem Singly.start (h : s.Singly) {t : QueueTask} (huses : t.uses = []) (shared : RedisQueue)
    (hqueue : shared.queue = s.shared.queue) : Singly (Pool.start ⟨shared, s.tasks⟩ t) := by
  intro id
  rw [Pool.total_start, huses]
  show shared.queue.count id + (Pool.total _ s + 0) ≤ 1
  rw [hqueue]
  exact h id

/-- **A step in which nobody joins beside another use** keeps the uses apart. -/
theorem Singly.next (h : s.Singly) {c : QueueCall} (halone : s.JoinsAlone c) :
    (s.next c).Singly := by
  cases c with
  | enqueueAsync player => exact h.start rfl _ rfl
  | dequeueAsync playerId => exact h.start rfl s.shared rfl
  | advance task =>
    show Singly (s.advance RedisQueue.run task)
    cases ht : s.tasks[task]? with
    | none =>
      rw [Pool.advance_none ht]
      exact h
    | some t =>
      intro id
      have hid := h id
      have hrun := s.shared.count_run_queue t id
      have huses := s.shared.run_uses t id
      have htotal := Pool.total_advance RedisQueue.run (fun t => t.uses.count id) ht
      have hshared : (s.advance RedisQueue.run task).shared = (s.shared.run t).1 := by
        rw [Pool.advance_some ht]
      rw [hshared]
      by_cases hjoins : t.rejoins? = some id
      · -- the list has been cleared of it, and nobody else is going to push it
        have hnobody : s.total (fun t => t.uses.count id) = 0 := by
          refine List.sum_eq_zero fun n hn => ?_
          obtain ⟨t', ht', rfl⟩ := List.mem_map.mp hn
          exact List.count_eq_zero.mpr
            (halone t (Option.mem_def.mpr ht) id (Option.mem_def.mpr hjoins) t' ht')
        obtain rfl : t = .listRemove id := by
          cases t <;> cases hjoins
          rfl
        have hcleared : (s.shared.run (.listRemove id)).1.queue.count id = 0 := by
          refine List.count_eq_zero.mpr fun hmem => ?_
          exact (of_decide_eq_true (List.mem_filter.mp hmem).2) rfl
        have hleft : ((s.shared.run (.listRemove id)).2.map fun t' => t'.uses.count id).sum = 1 := by
          simp [RedisQueue.run, QueueTask.uses]
        rw [hleft] at htotal
        omega
      -- an id that the command does not clear is used afterwards by no more than before
      · have hother : t.rejoins?.toList.count id = 0 := by
          refine List.count_eq_zero.mpr fun hmem => hjoins ?_
          exact Option.mem_toList.mp hmem
        omega

/-- Whoever pushes an id is alone with it. -/
theorem Singly.pushesOnce (h : s.Singly) (c : QueueCall) : s.PushesOnce c := by
  cases c with
  | enqueueAsync _ | dequeueAsync _ => trivial
  | advance task =>
    intro t ht id hpush
    replace ht : s.tasks[task]? = some t := ht
    have hown := RedisQueue.uses_of_pushes hpush
    have hid := h id
    have hsum := Pool.total_eq_others (fun t => t.uses.count id) ht
    refine ⟨List.count_eq_zero.mp (by omega), fun hhand => ?_⟩
    -- an attempt with the id in its hand would be a second use beside the one that pushes
    have hothers : QueueTask.leftPop2 (some id) ∈ s.others task := by
      refine ((Pool.mem_tasks_iff ht).mp hhand).resolve_left ?_
      rintro rfl
      cases hpush
    have hle : (QueueTask.leftPop2 (some id)).uses.count id ≤
        ((s.others task).map fun t => t.uses.count id).sum :=
      Pool.le_total (p := ⟨s.shared, s.others task⟩) (fun t => t.uses.count id) hothers
    have hone : (QueueTask.leftPop2 (some id)).uses.count id = 1 := List.count_singleton_self
    omega

/-- Both invariants hold of every state of a run. -/
theorem keyed_accounted (calls : List QueueCall) :
    ∀ s ∈ redisMatchmaking.visited redisMatchmaking.start calls, s.Keyed ∧ s.Accounted := by
  have hstep : ∀ (s : Matchmaking) (c : QueueCall), s.Keyed ∧ s.Accounted → True →
      (redisMatchmaking.next s c).Keyed ∧ (redisMatchmaking.next s c).Accounted :=
    fun s c h _ => ⟨h.1.next c, h.2.next h.1 c⟩
  have hkeyed : redisMatchmaking.start.Keyed := by
    refine ⟨fun id dto h => ?_, fun t ht => ?_⟩
    · cases h
    · cases ht
  have haccounted : redisMatchmaking.start.Accounted := fun id => Nat.zero_le _
  exact Machine.visited_of_invariant hstep ⟨hkeyed, haccounted⟩
    (Machine.steps_of_forall (fun _ _ => trivial) calls _)

end Matchmaking

open Matchmaking

/-! ## Every run -/

/-- **Who is matched.**  In every run, whatever the order of the commands, no id takes part in more
    matches than EnqueueAsync was called for it.  The two players of every match are distinct in a run
    in which no command makes a second entry of an id; and none does in a run in which no EnqueueAsync
    overlaps with another use of its id. -/
theorem pairs_distinct_once (calls : List QueueCall) :
    (∀ s ∈ redisMatchmaking.visited redisMatchmaking.start calls, ∀ id,
      s.shared.participations id ≤ s.shared.enqueued.count id) ∧
    (redisMatchmaking.Steps PushesOnce redisMatchmaking.start calls →
      ∀ s ∈ redisMatchmaking.visited redisMatchmaking.start calls,
        ∀ m ∈ s.shared.matchFound, m.player1.playerId ≠ m.player2.playerId) ∧
    (redisMatchmaking.Steps JoinsAlone redisMatchmaking.start calls →
      redisMatchmaking.Steps PushesOnce redisMatchmaking.start calls) := by
  refine ⟨fun s hs id => ?_, fun hsteps s hs m hm => ?_, fun hsteps => ?_⟩
  · have hid := (keyed_accounted calls s hs).2 id
    omega
  · have hstart : redisMatchmaking.start.Keyed ∧ redisMatchmaking.start.Unrepeated := by
      refine ⟨(keyed_accounted calls _ (Machine.self_mem_visited _ _)).1, fun id => Nat.zero_le _,
        ?_, ?_⟩
      · intro t ht
        cases ht
      · intro m hm
        cases hm
    have hboth : s.Keyed ∧ s.Unrepeated := Machine.visited_of_invariant (M := redisMatchmaking)
      (I := fun s : Matchmaking => s.Keyed ∧ s.Unrepeated)
      (fun s c h honce => ⟨h.1.next c, h.2.next h.1 honce⟩) hstart hsteps s hs
    exact hboth.2.raised m hm
  · exact Machine.steps_of_invariant (I := Singly) (fun s c h halone => h.next halone)
      (fun s c h _ => h.pushesOnce c) (fun id => Nat.zero_le _) hsteps

/-- A player joins, leaves, and joins again; then another one joins. -/
def joinedApart : List QueueCall :=
  [.enqueueAsync ⟨"p", 1000, 0, none⟩] ++ [0, 0, 0, 0, 0, 0].map .advance ++ [.dequeueAsync "p"] ++
    [0, 0].map .advance ++ [.enqueueAsync ⟨"p", 1000, 1, none⟩, .enqueueAsync ⟨"q", 1100, 1, none⟩] ++
    [0, 0, 1, 1, 0, 1, 0, 0, 0, 0, 0, 0, 0, 0].map .advance

/-- The two are matched. -/
theorem pairs_distinct_once_apart :
    let s := redisMatchmaking.after redisMatchmaking.start joinedApart
    redisMatchmaking.Steps PushesOnce redisMatchmaking.start joinedApart ∧
      s.shared.matchFound = [⟨⟨"p", 1000, 1, none⟩, ⟨"q", 1100, 1, none⟩⟩] ∧
      ∀ m ∈ s.shared.matchFound, m.player1.playerId ≠ m.player2.playerId := by
  intro s
  have halone : redisMatchmaking.Steps JoinsAlone redisMatchmaking.start joinedApart := by decide +kernel
  have hlast : s ∈ redisMatchmaking.visited redisMatchmaking.start joinedApart :=
    Machine.mem_visited_iff.mpr ⟨joinedApart, [], (List.append_nil _).symm, rfl⟩
  obtain ⟨-, hdistinct, honce⟩ := pairs_distinct_once joinedApart
  exact ⟨honce halone, by decide +kernel, hdistinct (honce halone) s hlast⟩

/-- Two calls of EnqueueAsync for one player: both remove the id, both push it, and an attempt finds
    two entries. -/
def joinedTwice : List QueueCall :=
  [.enqueueAsync ⟨"p", 1000, 0, none⟩, .enqueueAsync ⟨"p", 1000, 1, none⟩] ++
    [0, 1, 0, 1, 0, 1, 0, 0, 0, 0, 0, 0, 0, 0].map .advance

theorem matched_with_itself :
    ∃ m ∈ (redisMatchmaking.after redisMatchmaking.start joinedTwice).shared.matchFound,
      m.player1.playerId = m.player2.playerId := by
  refine ⟨⟨⟨"p", 1000, 1, none⟩, ⟨"p", 1000, 1, none⟩⟩, ?_, rfl⟩
  decide +kernel

end HexWar
