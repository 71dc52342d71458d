/-
  Who looks at the queue again.

  Every EnqueueAsync starts a match attempt, and an attempt that has popped two ids starts another.  So
  an id that waits should always have a task ahead that will read the length of the queue (`Wakes`).
  An attempt that finds the lock busy gives up at once, though, and the attempt that holds the lock may
  have read the length before the last push, or be past its own restart.  An attempt that pops an empty
  id puts the other one back and does not start again either.

  As long as whoever stops in one of these ways leaves such a task behind, or at most one entry, two
  players are never left waiting when everything has come to rest (`queue_short_when_quiet`).


  The argument counts.  `waiting` is the number of entries in the list and in somebody's hand; only
  the attempt that holds the lock has any in hand (`Exclusive`), so that when it finds the list
  short its own ids are all there are.
    1. a task that stops leaves what there was, and looks no more (`run_stops`);
    2. a task that looks and goes on leaves one that looks, or has found the list short
       (`run_goes_on`);
    3. a task that does not look makes the list no longer (`run_idle`);
    4. hence a state that is awake stays so exactly where the condition is met (`awake_next_iff`),
       which the run rule carries over a whole run.
-/
import HexWar.Matchmaking.Queue

namespace HexWar

open Lib

/-! ## The properties

DequeueAsync looks at no other player's entry and starts no attempt: it plays no part in whether the
queue is at rest. -/

/-- A part of DequeueAsync. -/
def QueueTask.isDequeue : QueueTask → Bool
  | .dequeueHashDelete _ | .dequeueListRemove _ => true
  | _ => false

/-- No EnqueueAsync and no TryMatchAsync is running or scheduled. -/
def Matchmaking.Quiet (s : Matchmaking) : Prop := ∀ t ∈ s.tasks, t.isDequeue = true

/-! ## The condition

Two things a task has at a moment: whether it will read the length of the queue, and how many ids it
holds that it may put back without reading it. -/

/-- The task goes on to read the length of the queue, itself or in an attempt that it starts. -/
def QueueTask.wakes : QueueTask → Bool
  | .hashSet _ | .listRemove _ | .rightPush _ | .tryAcquire | .listLength | .leftPop1
  | .hashGet1 _ _ | .hashGet2 _ _ _ | .staleCleanup1 _ _ _ _ | .staleCleanup2 _ _
  | .hashDelete1 _ _ _ _ | .hashDelete2 _ _ _ => true
  -- With an empty first id the attempt only puts back what it pops next.
  | .leftPop2 p1Val => !isNullOrEmpty p1Val
  | .dequeueHashDelete _ | .dequeueListRemove _ | .pushBack1 _ _ | .pushBack2 _ | .dispose => false

/-- How many popped ids a task may put back without looking at the queue again. -/
def QueueTask.inHand : QueueTask → Nat
  | .leftPop2 p1Val => if isNullOrEmpty p1Val then 0 else 1
  | .pushBack1 p1Val p2Val =>
    (if isNullOrEmpty p1Val then 0 else 1) + (if isNullOrEmpty p2Val then 0 else 1)
  | .pushBack2 p2Val => if isNullOrEmpty p2Val then 0 else 1
  | _ => 0

/-- The entries that wait, in the list or in somebody's hand. -/
def Matchmaking.waiting (s : Matchmaking) : Nat := s.shared.queue.length + s.total QueueTask.inHand

/-- An attempt that finds the lock busy, or pops an empty id, stops; the number is that of the empty
    ids which it drops. -/
def QueueTask.stops? (r : RedisQueue) : QueueTask → Option Nat
  | .tryAcquire => if r.locked then some 0 else none
  | .leftPop1 => if r.queue.head? = some "" then some 1 else none
  | .leftPop2 p1Val => if !isNullOrEmpty p1Val && r.queue.head? = some "" then some 1 else none
  | _ => none

/-- **The condition**: an attempt that stops leaves another task that looks at the queue, or at most
    one entry. -/
def LeavesAwake (s : Matchmaking) : QueueCall → Prop
  | .advance task =>
    ∀ dropped ∈ s.tasks[task]?.bind (·.stops? s.shared),
      (∃ t' ∈ s.others task, t'.wakes = true) ∨ s.waiting ≤ dropped + 1
  | .enqueueAsync _ | .dequeueAsync _ => True

instance (s : Matchmaking) : (c : QueueCall) → Decidable (LeavesAwake s c)
  | .advance task => inferInstanceAs (Decidable (∀ dropped ∈ s.tasks[task]?.bind (·.stops? s.shared),
      (∃ t' ∈ s.others task, t'.wakes = true) ∨ s.waiting ≤ dropped + 1))
  | .enqueueAsync _ | .dequeueAsync _ => .isTrue trivial

/-! ## One attempt at a time

The lock has no time limit here that an attempt could outlast: whoever takes it hands it back
through the disposal of its handle. -/

/-- Between the lock and the disposal of its handle. -/
def QueueTask.holdsLock : QueueTask → Bool
  | .listLength | .leftPop1 | .leftPop2 _ | .pushBack1 _ _ | .pushBack2 _ | .hashGet1 _ _
  | .hashGet2 _ _ _ | .staleCleanup1 _ _ _ _ | .staleCleanup2 _ _ | .hashDelete1 _ _ _ _
  | .hashDelete2 _ _ _ | .dispose => true
  | .hashSet _ | .listRemove _ | .rightPush _ | .dequeueHashDelete _ | .dequeueListRemove _
  | .tryAcquire => false

/-- One for a task that holds the lock. -/
def QueueTask.handle (t : QueueTask) : Nat := t.holdsLock.toNat

/-- The lock is held exactly while one task holds it. -/
def Matchmaking.Exclusive (s : Matchmaking) : Prop :=
  s.total QueueTask.handle = s.shared.locked.toNat

/-- Only who holds the lock has ids in hand. -/
theorem QueueTask.inHand_of_holdsLock {t : QueueTask} (h : t.holdsLock = false) : t.inHand = 0 := by
  cases t with
  | leftPop2 p1Val => cases h
  | pushBack1 p1Val p2Val => cases h
  | pushBack2 p2Val => cases h
  | _ => rfl

namespace RedisQueue

/-- A command hands the lock on: who has it afterwards had it, or took it. -/
theorem run_handle {r : RedisQueue} {t : QueueTask} (h : t.handle ≤ r.locked.toNat) :
    (r.run t).1.locked.toNat + t.handle = r.locked.toNat + ((r.run t).2.map QueueTask.handle).sum := by
  cases t with
  | tryAcquire =>
    simp only [run]
    split
    · rfl
    case isFalse hfree =>
      simp [hfree, QueueTask.handle, QueueTask.holdsLock]
  | dispose =>
    have hheld : r.locked.toNat ≤ 1 := Bool.toNat_le _
    simp only [QueueTask.handle, QueueTask.holdsLock, Bool.toNat_true] at h
    simp [run, QueueTask.handle, QueueTask.holdsLock]
    omega
  | listLength =>
    simp only [run]
    split
    · rfl
    · rfl
  | leftPop2 p1Val =>
    simp only [run]
    split
    · rfl
    · rfl
  | hashGet2 p1Id p2Id p1Json =>
    simp only [run]
    split
    · rfl
    · rfl
  | pushBack1 p1Val p2Val | pushBack2 p2Val =>
    simp only [run, pushBack]
    split
    · rfl
    · rfl
  | staleCleanup1 p1Id p2Id p1Json p2Json | staleCleanup2 p2Id p2Json =>
    simp only [run, staleCleanup]
    split
    · rfl
    · rfl
  | _ => rfl

end RedisQueue

namespace Matchmaking

/-- Every call keeps the lock with one task. -/
theorem Exclusive.next {s : Matchmaking} (h : s.Exclusive) (c : QueueCall) :
    (s.next c).Exclusive := by
  -- What a call starts has yet to ask for the lock; what a task does hands it on.
  cases c with
  | enqueueAsync player => exact (Pool.total_start _ _ _).trans h
  | dequeueAsync playerId => exact (Pool.total_start _ _ _).trans h
  | advance task =>
    show Exclusive (s.advance RedisQueue.run task)
    cases ht : s.tasks[task]? with
    | none =>
      rw [Pool.advance_none ht]
      exact h
    | some t =>
      have hle : t.handle ≤ s.shared.locked.toNat := by
        rw [← h]
        exact Pool.le_total QueueTask.handle (List.mem_of_getElem? ht)
      have hrun := RedisQueue.run_handle hle
      have htotal := Pool.total_advance RedisQueue.run QueueTask.handle ht
      have hlocked : (s.advance RedisQueue.run task).shared.locked = (s.shared.run t).1.locked := by
        rw [Pool.advance_some ht]
      rw [Exclusive] at h ⊢
      rw [hlocked]
      omega

/-- Beside the one that holds the lock nobody has ids in hand. -/
theorem Exclusive.inHand_others {s : Matchmaking} (h : s.Exclusive) {task : Nat} {t : QueueTask}
    (ht : s.tasks[task]? = some t) (hlock : t.holdsLock = true) :
    ((s.others task).map QueueTask.inHand).sum = 0 := by
  have hsum := Pool.total_eq_others QueueTask.handle ht
  have hle : s.shared.locked.toNat ≤ 1 := Bool.toNat_le _
  have hone : t.handle = 1 := by
    rw [QueueTask.handle, hlock]
    rfl
  rw [Exclusive] at h
  have hothers : ((s.others task).map QueueTask.handle).sum = 0 := by omega
  rw [List.sum_eq_zero_iff_forall_eq_nat] at hothers ⊢
  intro n hn
  obtain ⟨t', ht', rfl⟩ := List.mem_map.mp hn
  have hzero : t'.handle = 0 := hothers _ (List.mem_map_of_mem ht')
  apply QueueTask.inHand_of_holdsLock
  exact Bool.toNat_eq_zero.mp hzero

end Matchmaking

/-! ## Who stops and who goes on

The three lemmas about one command, one for each thing that a task can be: about to stop, about to
go on, and not looking at all. -/

namespace RedisQueue

/-- Popping takes one entry, when there is one. -/
theorem length_pop (r : RedisQueue) :
    r.queue.tail.length + (if r.queue.head? = none then 0 else 1) = r.queue.length := by
  cases r.queue with
  | nil => rfl
  | cons head rest => rfl

/-- Putting back adds one entry, unless the id is empty. -/
theorem length_pushBack (r : RedisQueue) (value : Option String) :
    (r.pushBack value).queue.length = r.queue.length + if isNullOrEmpty value then 0 else 1 := by
  rw [pushBack]
  split
  · rfl
  · rfl

/-- What is left of an attempt that stops does not look at the queue, and has what there was but for
    the ids that it drops. -/
theorem run_stops {r : RedisQueue} {t : QueueTask} {dropped : Nat} (h : t.stops? r = some dropped) :
    (∀ t' ∈ (r.run t).2, t'.wakes = false) ∧
      (r.run t).1.queue.length + ((r.run t).2.map QueueTask.inHand).sum + dropped =
        r.queue.length + t.inHand := by
  have hpop := r.length_pop
  cases t with
  -- An attempt that finds the lock busy returns and leaves no task.
  | tryAcquire =>
    simp only [QueueTask.stops?] at h
    split at h
    -- LockTakeAsync answers no, and the attempt returns at once.
    case isTrue hbusy =>
      cases h
      simp [run, hbusy, QueueTask.inHand]
    case isFalse => cases h
  | leftPop1 =>
    simp only [QueueTask.stops?] at h
    split at h
    -- The first id is empty: what is popped next is put back, and the empty one is dropped.
    case isTrue hhead =>
      cases h
      rw [hhead] at hpop
      refine ⟨fun t' ht' => ?_, ?_⟩
      · rw [List.mem_singleton.mp ht', hhead]
        rfl
      · simp only [run, leftPop, hhead, List.map_cons, List.map_nil, List.sum_cons, List.sum_nil]
        simp only [QueueTask.inHand, isNullOrEmpty]
        simpa using hpop
    case isFalse => cases h
  | leftPop2 p1Val =>
    simp only [QueueTask.stops?] at h
    split at h
    -- The second id is empty: the first one is put back.
    case isTrue hboth =>
      cases h
      obtain ⟨hfirst, hhead⟩ := Bool.and_eq_true_iff.mp hboth
      have hhead' : r.queue.head? = some "" := of_decide_eq_true hhead
      have hfirst' : isNullOrEmpty p1Val = false := by simpa using hfirst
      have hempty : isNullOrEmpty (some "") = true := rfl
      rw [hhead'] at hpop
      simp only [run, hhead', hfirst', hempty, Bool.or_true, if_true]
      refine ⟨fun t' ht' => ?_, ?_⟩
      · rw [List.mem_singleton.mp ht']
        rfl
      · simp only [leftPop, QueueTask.inHand, hfirst', hempty, List.map_cons, List.map_nil,
          List.sum_cons, List.sum_nil]
        simp only [reduceCtorEq, if_false, if_true, Bool.false_eq_true] at hpop ⊢
        omega
    case isFalse => cases h
  | _ => cases h

/-- What looks at the queue and does not stop leaves somebody that looks, or holds the lock and has
    found the list short. -/
theorem run_goes_on {r : RedisQueue} {t : QueueTask} (h : t.stops? r = none) (hw : t.wakes = true) :
    (∃ t' ∈ (r.run t).2, t'.wakes = true) ∨
      (t.holdsLock = true ∧
        (r.run t).1.queue.length + ((r.run t).2.map QueueTask.inHand).sum ≤ 1) := by
  have hpop := r.length_pop
  cases t with
  | hashSet _ | listRemove _ | rightPush _ | hashGet1 _ _ | staleCleanup1 _ _ _ _
  | hashDelete1 _ _ _ _ => exact Or.inl ⟨_, List.mem_singleton_self _, rfl⟩
  | staleCleanup2 _ _ | hashDelete2 _ _ _ => exact Or.inl ⟨_, List.mem_cons_self, rfl⟩
  | tryAcquire =>
    simp only [QueueTask.stops?] at h
    split at h
    case isTrue => cases h
    case isFalse hfree =>
      simp only [run, if_neg hfree]
      exact Or.inl ⟨_, List.mem_singleton_self _, rfl⟩
  | listLength =>
    simp only [run]
    split
    -- Fewer than two entries: the attempt ends, and no one else has an id in hand.
    case isTrue hshort =>
      refine Or.inr ⟨rfl, ?_⟩
      show r.queue.length + 0 ≤ 1
      omega
    case isFalse => exact Or.inl ⟨_, List.mem_singleton_self _, rfl⟩
  | leftPop1 =>
    cases hhead : r.queue.head? with
    | none =>
      -- the list is empty
      refine Or.inr ⟨rfl, ?_⟩
      rw [List.head?_eq_none_iff] at hhead
      simp [run, leftPop, hhead, QueueTask.inHand, isNullOrEmpty]
    | some p1 =>
      refine Or.inl ⟨_, List.mem_singleton_self _, ?_⟩
      simp only [QueueTask.stops?, hhead] at h
      simp only [QueueTask.wakes, hhead]
      simpa [isNullOrEmpty] using h
  | leftPop2 p1Val =>
    have hfirst : isNullOrEmpty p1Val = false := by simpa [QueueTask.wakes] using hw
    cases hhead : r.queue.head? with
    | none =>
      refine Or.inr ⟨rfl, ?_⟩
      rw [List.head?_eq_none_iff] at hhead
      simp [run, leftPop, hhead, QueueTask.inHand, isNullOrEmpty]
      split
      · omega
      · omega
    | some p2 =>
      -- with two ids in hand the attempt goes on; one empty id would have stopped it
      refine Or.inl ⟨_, List.mem_singleton_self _, ?_⟩
      have hsecond : isNullOrEmpty (some p2) = false := by
        simp only [QueueTask.stops?, hhead, hfirst] at h
        simpa [isNullOrEmpty] using h
      simp [hhead, hfirst, hsecond, QueueTask.wakes]
  | hashGet2 p1Id p2Id p1Json =>
    refine Or.inl ⟨_, List.mem_singleton_self _, ?_⟩
    split
    · rfl
    · rfl
  | dequeueHashDelete _ | dequeueListRemove _ | pushBack1 _ _ | pushBack2 _ | dispose => cases hw

/-- What does not look at the queue leaves no more entries than there were. -/
theorem run_idle {r : RedisQueue} {t : QueueTask} (hw : t.wakes = false) :
    t.stops? r = none ∧ (r.run t).1.queue.length + ((r.run t).2.map QueueTask.inHand).sum ≤
      r.queue.length + t.inHand := by
  have hpop := r.length_pop
  cases t with
  | leftPop2 p1Val =>
    have hfirst : isNullOrEmpty p1Val = true := by simpa [QueueTask.wakes] using hw
    refine ⟨by simp [QueueTask.stops?, hfirst], ?_⟩
    simp only [run, hfirst, Bool.true_or, if_true, leftPop, List.map_cons, List.map_nil, List.sum_cons,
      List.sum_nil, QueueTask.inHand]
    cases hhead : r.queue.head? with
    | none =>
      rw [List.head?_eq_none_iff] at hhead
      simp [hhead, isNullOrEmpty]
    | some p2 =>
      rw [hhead] at hpop
      simp only [reduceCtorEq, if_false] at hpop
      split
      · omega
      · omega
  | pushBack1 p1Val p2Val =>
    have hlen := r.length_pushBack p1Val
    refine ⟨rfl, ?_⟩
    simp only [run, QueueTask.inHand, List.map_cons, List.map_nil, List.sum_cons, List.sum_nil]
    omega
  | pushBack2 p2Val =>
    have hlen := r.length_pushBack p2Val
    refine ⟨rfl, ?_⟩
    simp only [run, QueueTask.inHand, List.map_cons, List.map_nil, List.sum_cons, List.sum_nil]
    omega
  | dequeueHashDelete playerId => exact ⟨rfl, Nat.le_refl _⟩
  | dequeueListRemove playerId =>
    have hle : (r.queue.filter (· ≠ playerId)).length ≤ r.queue.length := List.length_filter_le _ _
    refine ⟨rfl, ?_⟩
    simpa [run, listRemove, QueueTask.inHand] using hle
  | dispose => exact ⟨rfl, Nat.le_refl _⟩
  | hashSet _ | listRemove _ | rightPush _ | hashGet1 _ _ | hashGet2 _ _ _ | staleCleanup1 _ _ _ _
  | staleCleanup2 _ _ | hashDelete1 _ _ _ _ | hashDelete2 _ _ _ | tryAcquire | listLength
  | leftPop1 => cases hw

end RedisQueue

namespace Matchmaking

/-- Somebody will look at the queue, or there is nobody to match in it. -/
def Awake (s : Matchmaking) : Prop := (∃ t ∈ s.tasks, t.wakes = true) ∨ s.waiting ≤ 1

/-- What waits after a command. -/
theorem waiting_advance {s : Matchmaking} {task : Nat} {t : QueueTask} (ht : s.tasks[task]? = some t) :
    waiting (s.advance RedisQueue.run task) = (s.shared.run t).1.queue.length +
      (s.advance RedisQueue.run task).total QueueTask.inHand := by
  rw [waiting, Pool.advance_some ht]

/-- The last one that is awake stops: it must not leave two behind. -/
theorem awake_stops_iff {s : Matchmaking} {task : Nat} {t : QueueTask}
    (ht : s.tasks[task]? = some t) (hnone : ¬ ∃ t' ∈ s.others task, t'.wakes = true) {dropped : Nat}
    (hstop : t.stops? s.shared = some dropped) :
    Awake (s.advance RedisQueue.run task) ↔ s.waiting ≤ dropped + 1 := by
  obtain ⟨hleft, hlen⟩ := RedisQueue.run_stops hstop
  have htotal := Pool.total_advance RedisQueue.run QueueTask.inHand ht
  have hwaiting := waiting_advance ht
  have hfew : Awake (s.advance RedisQueue.run task) ↔
      waiting (s.advance RedisQueue.run task) ≤ 1 := by
    refine or_iff_right ?_
    rintro ⟨t', ht', hw⟩
    rcases (Pool.mem_advance_iff ht).mp ht' with hl | ho
    · rw [hleft t' hl] at hw
      cases hw
    · exact hnone ⟨t', ho, hw⟩
  rw [hfew, hwaiting, waiting]
  omega

/-- While the last one that is awake goes on, or nobody was, nothing is left behind. -/
theorem awake_goes_on {s : Matchmaking} (he : s.Exclusive) (h : s.Awake) {task : Nat} {t : QueueTask}
    (ht : s.tasks[task]? = some t) (hnone : ¬ ∃ t' ∈ s.others task, t'.wakes = true)
    (hstop : t.stops? s.shared = none) : Awake (s.advance RedisQueue.run task) := by
  have htotal := Pool.total_advance RedisQueue.run QueueTask.inHand ht
  have hwaiting := waiting_advance ht
  -- The task was the one that is awake, or nobody was and the queue was short already.
  cases hw : t.wakes with
  | true =>
    rcases RedisQueue.run_goes_on hstop hw with ⟨t', ht', hw'⟩ | ⟨hlock, hshort⟩
    · exact Or.inl ⟨t', (Pool.mem_advance_iff ht).mpr (Or.inl ht'), hw'⟩
    · -- the one that found the list short is the only one with ids in hand
      have hzero := he.inHand_others ht hlock
      have hsum := Pool.total_eq_others QueueTask.inHand ht
      refine Or.inr ?_
      rw [hwaiting]
      omega
  | false =>
    obtain ⟨-, hidle⟩ := RedisQueue.run_idle (r := s.shared) hw
    have hfew : s.waiting ≤ 1 := by
      refine h.resolve_left ?_
      rintro ⟨t', ht', hw'⟩
      rcases (Pool.mem_tasks_iff ht).mp ht' with rfl | ho
      · rw [hw] at hw'
        cases hw'
      · exact hnone ⟨t', ho, hw'⟩
    refine Or.inr ?_
    rw [waiting] at hfew
    rw [hwaiting]
    omega

/-- **Awake stays awake exactly where the condition is met.** -/
theorem awake_next_iff {s : Matchmaking} (he : s.Exclusive) (h : s.Awake) (c : QueueCall) :
    (s.next c).Awake ↔ LeavesAwake s c := by
  cases c with
  | enqueueAsync player =>
    refine iff_of_true (Or.inl ⟨.hashSet player, ?_, rfl⟩) trivial
    exact List.mem_append_right _ (List.mem_singleton_self _)
  | dequeueAsync playerId =>
    refine iff_of_true ?_ trivial
    rcases h with ⟨t, ht, hw⟩ | hfew
    · exact Or.inl ⟨t, List.mem_append_left _ ht, hw⟩
    · refine Or.inr ?_
      have htotal : (s.dequeueAsync playerId).total QueueTask.inHand =
          s.total QueueTask.inHand + 0 := Pool.total_start _ _ _
      show s.shared.queue.length + (s.dequeueAsync playerId).total QueueTask.inHand ≤ 1
      rw [htotal]
      exact hfew
  | advance task =>
    show Awake (s.advance RedisQueue.run task) ↔ LeavesAwake s (.advance task)
    cases ht : s.tasks[task]? with
    | none =>
      rw [Pool.advance_none ht]
      refine iff_of_true h fun dropped hdropped => ?_
      rw [ht] at hdropped
      cases hdropped
    | some t =>
      rcases em (∃ t' ∈ s.others task, t'.wakes = true) with hothers | hnone
      · -- somebody else is awake before and after
        obtain ⟨t', ht', hw⟩ := hothers
        exact iff_of_true (Or.inl ⟨t', (Pool.mem_advance_iff ht).mpr (Or.inr ht'), hw⟩)
          fun _ _ => Or.inl ⟨t', ht', hw⟩
      have hbind : s.tasks[task]?.bind (·.stops? s.shared) = t.stops? s.shared := by
        rw [ht]
        rfl
      cases hstop : t.stops? s.shared with
      | some dropped =>
        rw [hstop] at hbind
        refine (awake_stops_iff ht hnone hstop).trans ⟨fun hle dropped' hdropped => ?_, fun hc => ?_⟩
        · rw [hbind] at hdropped
          cases hdropped
          exact Or.inr hle
        · exact (hc dropped hbind).resolve_left hnone
      | none =>
        refine iff_of_true (awake_goes_on he h ht hnone hstop) fun dropped hdropped => ?_
        rw [hbind, hstop] at hdropped
        cases hdropped

/-- Without any task it is quiet. -/
theorem quiet_of_nil {s : Matchmaking} (h : s.tasks = []) : s.Quiet := by
  intro t ht
  rw [h] at ht
  cases ht

/-- The states of a run are awake exactly as long as the steps meet the condition. -/
theorem awake_run_iff (calls : List QueueCall) :
    (∀ s ∈ redisMatchmaking.visited redisMatchmaking.start calls, s.Awake) ↔
      redisMatchmaking.Steps LeavesAwake redisMatchmaking.start calls :=
  Machine.visited_iff (M := redisMatchmaking) (I := Exclusive) (fun _ c h _ => h.next c)
    (fun _ c he _ h => awake_next_iff he h c) rfl (Or.inr (Nat.zero_le 1))
    (Machine.steps_of_forall (fun _ _ => trivial) calls _)

/-- Where nobody is at work and all is awake, the list is short. -/
theorem Awake.queue_short {s : Matchmaking} (h : s.Awake) (hq : s.Quiet) :
    s.shared.queue.length ≤ 1 := by
  -- What is awake is no part of DequeueAsync, and nothing else runs.
  rcases h with ⟨t, ht, hw⟩ | hfew
  · have hdeq := hq t ht
    cases t with
    | dequeueHashDelete _ | dequeueListRemove _ => cases hw
    | _ => cases hdeq
  · rw [waiting] at hfew
    omega

end Matchmaking

open Matchmaking

/-- **No wake-up is lost** in a run in which an attempt that finds the lock busy, or pops an empty id,
    leaves another task that looks at the queue, or at most one entry: whenever no EnqueueAsync and no
    TryMatchAsync is running or scheduled, at most one entry is in the list. -/
theorem queue_short_when_quiet (calls : List QueueCall)
    (h : redisMatchmaking.Steps LeavesAwake redisMatchmaking.start calls) :
    ∀ s ∈ redisMatchmaking.visited redisMatchmaking.start calls,
      s.Quiet → s.shared.queue.length ≤ 1 :=
  fun s hs hq => ((awake_run_iff calls).mpr h s hs).queue_short hq

/-- Two players are matched, a third one waits. -/
def threeInTurn : List QueueCall :=
  [.enqueueAsync ⟨"a", 1000, 0, none⟩] ++ (List.replicate 6 0).map .advance ++
    [.enqueueAsync ⟨"b", 1000, 1, none⟩] ++ ((List.replicate 11 0) ++ [1, 0, 0, 0]).map .advance ++
    [.enqueueAsync ⟨"c", 1000, 2, none⟩] ++ (List.replicate 6 0).map .advance

theorem queue_short_when_quiet_three :
    (redisMatchmaking.after redisMatchmaking.start threeInTurn).shared.queue.length ≤ 1 := by
  apply queue_short_when_quiet threeInTurn (by decide +kernel) _ (Machine.after_mem_visited _ _)
  apply quiet_of_nil
  decide +kernel

/-- The first player's attempt has read the length of the list when the second one is pushed, and still
    holds the lock when the second one's attempt asks for it. -/
def pushedTooLate : List QueueCall :=
  [.enqueueAsync ⟨"a", 1000, 0, none⟩] ++ [0, 0, 0, 0, 0].map .advance ++
    [.enqueueAsync ⟨"b", 1000, 1, none⟩] ++ [1, 1, 1, 1, 0].map .advance

theorem two_left_waiting :
    ∃ s ∈ redisMatchmaking.visited redisMatchmaking.start pushedTooLate,
      s.Quiet ∧ 1 < s.shared.queue.length := by
  refine ⟨_, Machine.after_mem_visited _ _, quiet_of_nil ?_, ?_⟩
  · decide +kernel
  · decide +kernel

end HexWar
