/-
  The room between several executions of ExecuteOnGameRoomAsync.

  In the distributed mode an execution takes the lock of the room in Redis, loads the room, runs its
  action on the copy, saves the whole copy, and gives the lock back.  The lock runs out after five
  seconds whether or not its holder has saved by then, and saving does not ask for it.  So an execution
  that takes too long writes its copy over what others have saved in between, and their commands, which
  were answered with success, are gone.

  `SharedRoom` is the room and the lock as Redis has them, with the executions of all servers;
  `updates_kept_iff` says when no update is lost.  A turn of `Cluster` is a whole execution: that is
  right where updates are kept, and there only.

  The invariants of the proof, one for each of the questions that it asks:

  1. `Recorded`: what do the writes say about the executions?  Everyone writes once at most, every
     copy that has seen all writes is the stored room, and a chained list of writes explains the room.
  2. `Follows`: an execution that has loaded its copy will write on that copy and on no other.  With it,
     chained writes mean that no two writers were at work at the same time (`apart_of_chained`).
  3. `Meets`: who misses a write was at work together with its writer.  This is the other direction
     (`chained_of_apart`).
  4. `Kept` and `Dropped`: a command is in the room unless its save has failed.
  5. `Holds`: as long as everyone saves in time, the holder of the lock has seen all writes.

  Each is kept by `next_advanced`'s cases, so that a step of the machine is unfolded only there.
-/
import HexWar.Domain.Calls
import HexWar.Lib.Dict
import HexWar.Lib.Runs
import HexWar.Lib.SharedCell
import Mathlib.Data.List.Induction

namespace HexWar

open Lib Lib.Action GameRoom

/-! ## The machine

An execution is a program of five stages; between any two of them, others may run and time may
pass. -/

/-- How long the lock of a room lasts, in milliseconds. -/
def lockExpiry : Time := 5000

/-- Where an execution is.  A copy of the room comes with the number of writes it had seen. -/
inductive Stage where
  /-- In TryAcquireAsync. -/
  | waiting
  /-- The lock has been taken, and the room is not loaded yet. -/
  | locked
  /-- The room has been loaded, at a time when there were `base` writes. -/
  | loaded (gameRoom : GameRoom) (base : Nat)
  /-- The action has run on the copy. -/
  | acted (gameRoom : GameRoom) (base : Nat)
  /-- SaveAsync has returned, whether or not it has written. -/
  | saved
  /-- The room was not found, or the action threw. -/
  | failed
  /-- The handle is disposed of, and the caller has its answer. -/
  | returned (success : Bool)

/-- Between the load and the save. -/
def Stage.base? : Stage → Option Nat
  | .loaded _ base | .acted _ base => some base
  | .waiting | .locked | .saved | .failed | .returned _ => none

/-- The command has been carried out, as far as the execution can tell. -/
def Stage.isDone : Stage → Bool
  | .saved | .returned true => true
  | .waiting | .locked | .loaded _ _ | .acted _ _ | .failed | .returned false => false

/-- The execution is over. -/
def Stage.isReturned : Stage → Bool
  | .returned _ => true
  | .waiting | .locked | .loaded _ _ | .acted _ _ | .saved | .failed => false

/-- The copy is about to be saved. -/
def Stage.isActed : Stage → Bool
  | .acted _ _ => true
  | .waiting | .locked | .loaded _ _ | .saved | .failed | .returned _ => false

/-- Is the stage one of an execution whose copy rests on so many writes? -/
def Stage.restsOn (base : Nat) : Stage → Prop
  | .loaded _ b | .acted _ b => b = base
  | .saved | .failed | .returned _ => True
  | .waiting | .locked => False

/-- An execution of ExecuteOnGameRoomAsync. -/
structure Execution where
  action : Game Unit
  stage : Stage

/-- What an execution does to a room. -/
def Execution.effect (e : Execution) : GameRoom → GameRoom := after e.action

/-- The room and its lock in Redis, and the executions on all servers, each under its lock id. -/
structure SharedRoom where
  clock : Time
  lock : Option (Lease Nat)
  room : GameRoom
  executions : Dict Nat Execution
  /-- The writes of the room so far. -/
  writes : List (Write Nat GameRoom)

/-- A step of one of the servers, or time passing. -/
inductive ExecutionStep where
  | pass (delay : Nat)
  | execute (lockId : Nat) (action : Game Unit)
  | tryAcquire (lockId : Nat)
  | giveUp (lockId : Nat)
  | load (lockId : Nat) (found : Bool)
  | act (lockId : Nat)
  | save (lockId : Nat) (stored : Bool)
  | dispose (lockId : Nat)

namespace SharedRoom

/-- An execution comes to a stage. -/
def moveTo (s : SharedRoom) (lockId : Nat) (e : Execution) (stage : Stage) : SharedRoom :=
  { s with executions := s.executions.set lockId { e with stage } }

/-- SaveAsync: the copy is written whatever the room holds by now.  An error is logged, and the
    execution goes on as if it had been saved. -/
def save (s : SharedRoom) (lockId : Nat) (e : Execution) (gameRoom : GameRoom) (base : Nat)
    (stored : Bool) : SharedRoom :=
  if stored then { s.moveTo lockId e .saved with
    room := gameRoom, writes := s.writes ++ [⟨lockId, base, e.effect⟩] }
  else s.moveTo lockId e .saved

/-- An execution returns, and its handle is disposed of. -/
def dispose (s : SharedRoom) (lockId : Nat) (e : Execution) (success : Bool) : SharedRoom :=
  { s.moveTo lockId e (.returned success) with lock := Lease.release s.lock s.clock lockId }

/-- A step of an execution; one that is not due changes nothing. -/
def advance (s : SharedRoom) (e : Execution) : ExecutionStep → SharedRoom
  | .tryAcquire lockId =>
    match e.stage with
    | .waiting =>
      match Lease.acquire s.lock s.clock lockExpiry lockId with
      | some lease => { s.moveTo lockId e .locked with lock := some lease }
      | none => s
    | _ => s
  | .giveUp lockId =>
    match e.stage with
    | .waiting => s.moveTo lockId e (.returned false)
    | _ => s
  | .load lockId found =>
    match e.stage with
    | .locked => s.moveTo lockId e (if found then .loaded s.room s.writes.length else .failed)
    | _ => s
  | .act lockId =>
    match e.stage with
    | .loaded gameRoom base =>
      match e.action gameRoom with
      | .ok _ gameRoom => s.moveTo lockId e (.acted gameRoom base)
      | .error _ _ => s.moveTo lockId e .failed
    | _ => s
  | .save lockId stored =>
    match e.stage with
    | .acted gameRoom base => s.save lockId e gameRoom base stored
    | _ => s
  | .dispose lockId =>
    match e.stage with
    | .saved => s.dispose lockId e true
    | .failed => s.dispose lockId e false
    | _ => s
  | .pass _ | .execute _ _ => s

/-- The machine's step: time passes, an execution begins under a lock id that is new, or one goes
    on. -/
def next (s : SharedRoom) (step : ExecutionStep) : SharedRoom :=
  match step with
  | .pass delay => { s with clock := s.clock + delay }
  | .execute lockId action =>
    match s.executions.get? lockId with
    | none => s.moveTo lockId ⟨action, .waiting⟩ .waiting
    | some _ => s
  | .tryAcquire lockId | .giveUp lockId | .load lockId _ | .act lockId | .save lockId _
  | .dispose lockId =>
    match s.executions.get? lockId with
    | none => s
    | some e => s.advance e step

end SharedRoom

/-- The servers that share a room. -/
def sharedRooms (first : GameRoom) : Machine SharedRoom ExecutionStep :=
  ⟨⟨0, none, first, .empty, []⟩, SharedRoom.next, fun _ _ => True⟩

namespace SharedRoom

/-! ## The properties -/

/-- Is the execution between its load and its save? -/
def Between (s : SharedRoom) (lockId : Nat) : Prop :=
  ∃ e, s.executions.get? lockId = some e ∧ e.stage.base? ≠ none

/-- Has the execution written the room? -/
def Wrote (s : SharedRoom) (lockId : Nat) : Prop := ∃ w ∈ s.writes, w.writer = lockId

/-- Every execution has returned. -/
def Finished (s : SharedRoom) : Prop :=
  ∀ lockId e, s.executions.get? lockId = some e → e.stage.isReturned = true

/-- **No update is lost.** -/
structure Lossless (first : GameRoom) (s : SharedRoom) : Prop where
  /-- Every saved room is computed from the one saved immediately before. -/
  chained : Chained s.writes
  /-- The stored room is what the actions of the writers in turn make of the first one. -/
  stored : s.room = replay first s.writes
  /-- The commands that were answered with success are among them. -/
  present : ∀ lockId e, s.executions.get? lockId = some e → e.stage = .returned true →
    ∃ w ∈ s.writes, w.writer = lockId ∧ w.change = e.effect

/-- Is the execution about to save? -/
def Saves (s : SharedRoom) (lockId : Nat) : Prop :=
  ∃ e gameRoom base, s.executions.get? lockId = some e ∧ e.stage = .acted gameRoom base

/-- An execution is about to save when it stands at that stage. -/
theorem saves_iff {s : SharedRoom} {lockId : Nat} :
    s.Saves lockId ↔ (s.executions.get? lockId).any (·.stage.isActed) = true := by
  constructor
  · rintro ⟨e, gameRoom, base, he, hstage⟩
    rw [he, Option.any_some, hstage]
    rfl
  · intro h
    obtain ⟨e, he, hacted⟩ := (Option.any_eq_true _ _).mp h
    cases hstage : e.stage with
    | acted gameRoom base => exact ⟨e, gameRoom, base, he, hstage⟩
    | waiting => rw [hstage] at hacted; cases hacted
    | locked => rw [hstage] at hacted; cases hacted
    | loaded gameRoom base => rw [hstage] at hacted; cases hacted
    | saved => rw [hstage] at hacted; cases hacted
    | failed => rw [hstage] at hacted; cases hacted
    | returned success => rw [hstage] at hacted; cases hacted

instance (s : SharedRoom) (lockId : Nat) : Decidable
    (s.Saves lockId) := decidable_of_iff _ saves_iff.symm

/-- The execution that saves still has the lock. -/
def InTime (s : SharedRoom) : ExecutionStep → Prop
  | .save lockId _ => s.Saves lockId → ∃ lease ∈ Lease.live s.lock s.clock, lease.owner = lockId
  | .pass _ | .execute _ _ | .tryAcquire _ | .giveUp _ | .load _ _ | .act _ | .dispose _ => True

instance (s : SharedRoom) : DecidablePred s.InTime
  | .save lockId _ => inferInstanceAs
      (Decidable (s.Saves lockId → ∃ lease ∈ Lease.live s.lock s.clock, lease.owner = lockId))
  | .pass _ | .execute _ _ | .tryAcquire _ | .giveUp _ | .load _ _ | .act _ | .dispose _ =>
    .isTrue trivial

/-- A save does not fail. -/
def Stores (s : SharedRoom) : ExecutionStep → Prop
  | .save lockId stored => s.Saves lockId → stored = true
  | .pass _ | .execute _ _ | .tryAcquire _ | .giveUp _ | .load _ _ | .act _ | .dispose _ => True

instance (s : SharedRoom) : DecidablePred s.Stores
  | .save lockId stored => inferInstanceAs (Decidable (s.Saves lockId → stored = true))
  | .pass _ | .execute _ _ | .tryAcquire _ | .giveUp _ | .load _ _ | .act _ | .dispose _ =>
    .isTrue trivial

/-- Two executions that both come to write are never between load and save at the same time. -/
def Apart (first : GameRoom) (steps : List ExecutionStep) : Prop :=
  let last := (sharedRooms first).after (sharedRooms first).start steps
  ∀ t ∈ (sharedRooms first).visited (sharedRooms first).start steps, ∀ i j, i ≠ j →
    t.Between i → t.Between j → ¬ (last.Wrote i ∧ last.Wrote j)

/-! ## What a step does

Every step, with all that can come of it.  A step that is not due is idle. -/

/-- What a step makes of the shared room. -/
inductive Advanced (s : SharedRoom) : ExecutionStep → SharedRoom → Prop where
  /-- It is not due, or the lock was not to be had. -/
  | idle (step : ExecutionStep) : Advanced s step s
  | passed (delay : Nat) : Advanced s (.pass delay) { s with clock := s.clock + delay }
  | entered (lockId : Nat) (action : Game Unit) : s.executions.get? lockId = none →
      Advanced s (.execute lockId action) (s.moveTo lockId ⟨action, .waiting⟩ .waiting)
  /-- The lock was free or had run out. -/
  | locked (lockId : Nat) (e : Execution) (lease : Lease Nat) :
      s.executions.get? lockId = some e → e.stage = .waiting → lease.owner = lockId →
      Advanced s (.tryAcquire lockId) { s.moveTo lockId e .locked with lock := some lease }
  | loaded (lockId : Nat) (e : Execution) : s.executions.get? lockId = some e →
      e.stage = .locked →
      Advanced s (.load lockId true) (s.moveTo lockId e (.loaded s.room s.writes.length))
  | acted (lockId : Nat) (e : Execution) (gameRoom : GameRoom) (base : Nat) :
      s.executions.get? lockId = some e → e.stage = .loaded gameRoom base →
      Advanced s (.act lockId) (s.moveTo lockId e (.acted (e.effect gameRoom) base))
  /-- It gives up, or does not find the room, or its action throws. -/
  | fell (step : ExecutionStep) (lockId : Nat) (e : Execution) (stage : Stage) :
      s.executions.get? lockId = some e → e.stage.isDone = false →
      stage = .failed ∨ stage = .returned false → Advanced s step (s.moveTo lockId e stage)
  /-- The copy is written; nothing is asked about the lock. -/
  | stored (lockId : Nat) (e : Execution) (gameRoom : GameRoom) (base : Nat) :
      s.executions.get? lockId = some e → e.stage = .acted gameRoom base →
      Advanced s (.save lockId true) { s.moveTo lockId e .saved with
        room := gameRoom, writes := s.writes ++ [⟨lockId, base, e.effect⟩] }
  /-- The write has failed, and the execution does not notice. -/
  | dropped (lockId : Nat) (e : Execution) (gameRoom : GameRoom) (base : Nat) :
      s.executions.get? lockId = some e → e.stage = .acted gameRoom base →
      Advanced s (.save lockId false) (s.moveTo lockId e .saved)
  | disposed (lockId : Nat) (e : Execution) (success : Bool) : s.executions.get? lockId = some e →
      e.stage = (if success then .saved else .failed) →
      Advanced s (.dispose lockId) (s.dispose lockId e success)

/-- **What a step can do**, guards included. -/
theorem next_advanced (s : SharedRoom) (step : ExecutionStep) : Advanced s step (s.next step) := by
  -- a step of an execution that does not exist changes nothing
  have hnone : ∀ {lockId : Nat} {t : SharedRoom},
      (∀ e, s.executions.get? lockId = some e → Advanced s step (s.advance e step)) →
      t = (match s.executions.get? lockId with | none => s | some e => s.advance e step) →
      Advanced s step t := by
    intro lockId t h ht
    cases he : s.executions.get? lockId with
    | none =>
      rw [he] at ht
      exact ht ▸ .idle step
    | some e =>
      rw [he] at ht
      exact ht ▸ h e he
  cases step with
  | pass delay => exact .passed delay
  | execute lockId action =>
    rw [next]
    cases he : s.executions.get? lockId with
    | none => exact .entered lockId action he
    | some e => exact .idle _
  | tryAcquire lockId =>
    refine hnone (fun e he => ?_) rfl
    rw [advance]
    split
    case h_1 hstage =>
      split
      case h_1 lease hlease => exact .locked lockId e lease he hstage (Lease.owner_of_acquire hlease)
      case h_2 => exact .idle _
    case h_2 => exact .idle _
  | giveUp lockId =>
    refine hnone (fun e he => ?_) rfl
    rw [advance]
    split
    case h_1 hstage => exact .fell _ lockId e _ he (by rw [hstage]; rfl) (Or.inr rfl)
    case h_2 => exact .idle _
  | load lockId found =>
    refine hnone (fun e he => ?_) rfl
    rw [advance]
    split
    case h_1 hstage =>
      cases found with
      | true => exact .loaded lockId e he hstage
      | false => exact .fell _ lockId e _ he (by rw [hstage]; rfl) (Or.inl rfl)
    case h_2 => exact .idle _
  | act lockId =>
    refine hnone (fun e he => ?_) rfl
    rw [advance]
    split
    case h_1 gameRoom base hstage =>
      split
      case h_1 hact =>
        rw [← after_ok hact]
        exact .acted lockId e gameRoom base he hstage
      case h_2 => exact .fell _ lockId e _ he (by rw [hstage]; rfl) (Or.inl rfl)
    case h_2 => exact .idle _
  | save lockId stored =>
    refine hnone (fun e he => ?_) rfl
    rw [advance]
    split
    case h_1 gameRoom base hstage =>
      cases stored with
      | true => exact .stored lockId e gameRoom base he hstage
      | false => exact .dropped lockId e gameRoom base he hstage
    case h_2 => exact .idle _
  | dispose lockId =>
    refine hnone (fun e he => ?_) rfl
    rw [advance]
    split
    case h_1 hstage => exact .disposed lockId e true he hstage
    case h_2 hstage => exact .disposed lockId e false he hstage
    case h_3 => exact .idle _

/-- A move of one execution leaves the others where they are. -/
@[simp] theorem get?_moveTo (s : SharedRoom) (lockId i : Nat) (e : Execution) (stage : Stage) :
    (s.moveTo lockId e stage).executions.get? i =
      if lockId = i then some { e with stage } else s.executions.get? i :=
  Dict.get?_set ..

/-! ## What the writes record

The list of writes is kept beside the room and read by nothing: it says who wrote, on how many
earlier writes, and what the action was. -/

/-- The writes, the copies and the stored room agree. -/
structure Recorded (first : GameRoom) (s : SharedRoom) : Prop where
  /-- A write is of an execution that is through with it, and records its action. -/
  writers : ∀ w ∈ s.writes, ∃ e, s.executions.get? w.writer = some e ∧ e.stage.isDone = true ∧
    w.change = e.effect
  /-- Nobody writes twice. -/
  nodup : (s.writes.map (·.writer)).Nodup
  /-- No write rests on more writes than there were. -/
  grounded : Grounded s.writes
  /-- Neither does a copy. -/
  behind : ∀ i e base, s.executions.get? i = some e → e.stage.base? = some base →
    base ≤ s.writes.length
  /-- A copy that has seen all writes is the stored room. -/
  loaded : ∀ i e gameRoom, s.executions.get? i = some e →
    e.stage = .loaded gameRoom s.writes.length → gameRoom = s.room
  /-- The same once its action has run: it is what the action makes of the stored room. -/
  acted : ∀ i e gameRoom, s.executions.get? i = some e →
    e.stage = .acted gameRoom s.writes.length → gameRoom = e.effect s.room
  /-- If every write has seen all earlier ones, the room is what the actions make of the first one
      in turn. -/
  stored : Chained s.writes → s.room = replay first s.writes

/-- At the start there are no writes and no copies. -/
theorem recorded_start (first : GameRoom) : Recorded first (sharedRooms first).start where
  writers w hw := by cases hw
  nodup := List.nodup_nil
  grounded := grounded_nil
  behind i e base he := by cases he
  loaded i e gameRoom he := by cases he
  acted i e gameRoom he := by cases he
  stored _ := rfl

/-- The record speaks of the room, the executions and the writes only. -/
theorem Recorded.congr {first : GameRoom} {s t : SharedRoom} (h : Recorded first s)
    (hroom : t.room = s.room) (hexecutions : t.executions = s.executions)
    (hwrites : t.writes = s.writes) : Recorded first t := by
  cases s
  cases t
  cases hroom
  cases hexecutions
  cases hwrites
  exact ⟨h.writers, h.nodup, h.grounded, h.behind, h.loaded, h.acted, h.stored⟩

/-- An execution that is not done has not written. -/
theorem Recorded.not_wrote {first : GameRoom} {s : SharedRoom} (h : Recorded first s) {i : Nat}
    (hi : ∀ e, s.executions.get? i = some e → e.stage.isDone = false) : ¬ s.Wrote i := by
  rintro ⟨w, hw, rfl⟩
  obtain ⟨e, he, hdone, -⟩ := h.writers w hw
  rw [hi e he] at hdone
  cases hdone

/-- A move of one execution keeps the record when its new copy is right and it does not undo a
    command. -/
theorem Recorded.moveTo {first : GameRoom} {s : SharedRoom} (h : Recorded first s) {lockId : Nat}
    {e : Execution} {stage : Stage}
    (hold : ∀ e', s.executions.get? lockId = some e' → e' = e)
    (hdone : s.Wrote lockId → stage.isDone = true)
    (hbehind : ∀ base, stage.base? = some base → base ≤ s.writes.length)
    (hloaded : ∀ gameRoom, stage = .loaded gameRoom s.writes.length → gameRoom = s.room)
    (hacted : ∀ gameRoom, stage = .acted gameRoom s.writes.length → gameRoom = e.effect s.room) :
    Recorded first (s.moveTo lockId e stage) where
  writers w hw := by
    obtain ⟨e', he', hd, hchange⟩ := h.writers w hw
    rw [get?_moveTo]
    split
    case isTrue hid =>
      subst hid
      cases hold e' he'
      exact ⟨_, rfl, hdone ⟨w, hw, rfl⟩, hchange⟩
    case isFalse => exact ⟨e', he', hd, hchange⟩
  nodup := h.nodup
  grounded := h.grounded
  behind i e' base he' hbase := by
    rw [get?_moveTo] at he'
    split at he'
    case isTrue =>
      cases he'
      exact hbehind base hbase
    case isFalse => exact h.behind i e' base he' hbase
  loaded i e' gameRoom he' hstage := by
    rw [get?_moveTo] at he'
    split at he'
    case isTrue =>
      cases he'
      exact hloaded gameRoom hstage
    case isFalse => exact h.loaded i e' gameRoom he' hstage
  acted i e' gameRoom he' hstage := by
    rw [get?_moveTo] at he'
    split at he'
    case isTrue =>
      cases he'
      exact hacted gameRoom hstage
    case isFalse => exact h.acted i e' gameRoom he' hstage
  stored := h.stored

/-- A move to a stage without a copy. -/
theorem Recorded.moveOn {first : GameRoom} {s : SharedRoom} (h : Recorded first s) {lockId : Nat}
    {e : Execution} {stage : Stage} (he : s.executions.get? lockId = some e)
    (hdone : e.stage.isDone = true → stage.isDone = true) (hcopy : stage.base? = none) :
    Recorded first (s.moveTo lockId e stage) := by
  refine h.moveTo (fun e' he' => Option.some.inj (he'.symm.trans he)) (fun hw => ?_) ?_ ?_ ?_
  · obtain ⟨w, hmem, rfl⟩ := hw
    obtain ⟨e', he', hd, -⟩ := h.writers w hmem
    rw [he] at he'
    cases he'
    exact hdone hd
  · intro base hbase
    rw [hcopy] at hbase
    cases hbase
  · rintro gameRoom rfl
    cases hcopy
  · rintro gameRoom rfl
    cases hcopy

/-- A save that goes through. -/
theorem Recorded.save {first : GameRoom} {s : SharedRoom} (h : Recorded first s) {lockId : Nat}
    {e : Execution} {gameRoom : GameRoom} {base : Nat} (he : s.executions.get? lockId = some e)
    (hstage : e.stage = .acted gameRoom base) :
    Recorded first { s.moveTo lockId e .saved with
      room := gameRoom, writes := s.writes ++ [⟨lockId, base, e.effect⟩] } := by
  have hbase : base ≤ s.writes.length := h.behind lockId e base he (by rw [hstage]; rfl)
  have hnew : ¬ s.Wrote lockId := h.not_wrote fun e' he' => by
    rw [he] at he'
    cases he'
    rw [hstage]
    rfl
  -- the copies of the others have not seen this write
  have hold : ∀ i e' base', (s.moveTo lockId e .saved).executions.get? i = some e' →
      e'.stage.base? = some base' → base' ≤ s.writes.length := by
    intro i e' base' he' hb
    rw [get?_moveTo] at he'
    split at he'
    case isTrue =>
      cases he'
      cases hb
    case isFalse => exact h.behind i e' base' he' hb
  have hlen : (s.writes ++ [(⟨lockId, base, e.effect⟩ : Write Nat GameRoom)]).length =
      s.writes.length + 1 := List.length_append
  constructor
  case writers =>
    intro w hw
    rcases List.mem_append.mp hw with hmem | hmem
    · obtain ⟨e', he', hd, hchange⟩ := h.writers w hmem
      have hne : lockId ≠ w.writer := fun heq => hnew ⟨w, hmem, heq.symm⟩
      exact ⟨e', by rw [get?_moveTo, if_neg hne]; exact he', hd, hchange⟩
    · cases List.mem_singleton.mp hmem
      exact ⟨{ e with stage := .saved }, by rw [get?_moveTo, if_pos rfl], rfl, rfl⟩
  case nodup =>
    rw [List.map_append]
    refine h.nodup.append (List.nodup_singleton _) (List.disjoint_singleton.mpr fun hmem => ?_)
    obtain ⟨w, hw, heq⟩ := List.mem_map.mp hmem
    exact hnew ⟨w, hw, heq⟩
  case grounded => exact h.grounded.concat hbase
  case behind =>
    intro i e' base' he' hb
    have hle := hold i e' base' he' hb
    rw [hlen]
    omega
  case loaded =>
    intro i e' r he' hs
    have hle := hold i e' _ he' (by rw [hs]; rfl)
    rw [hlen] at hle
    omega
  case acted =>
    intro i e' r he' hs
    have hle := hold i e' _ he' (by rw [hs]; rfl)
    rw [hlen] at hle
    omega
  -- the new write is chained exactly if the copy had seen all writes, and then it is right
  case stored =>
    intro hchained
    obtain ⟨hbefore, rfl⟩ := chained_concat.mp hchained
    rw [replay_concat, ← h.stored hbefore]
    exact h.acted lockId e gameRoom he hstage

/-- **Every step keeps the record.** -/
theorem Recorded.next {first : GameRoom} {s : SharedRoom} (h : Recorded first s)
    (step : ExecutionStep) : Recorded first (s.next step) := by
  have same : ∀ {e e' : Execution} {lockId : Nat}, s.executions.get? lockId = some e →
      s.executions.get? lockId = some e' → e' = e :=
    fun he he' => Option.some.inj (he'.symm.trans he)
  have hnext := next_advanced s step
  generalize s.next step = t at hnext ⊢
  cases hnext with
  | idle => exact h
  | passed delay => exact h.congr rfl rfl rfl
  | entered lockId action he =>
    refine h.moveTo (fun e' he' => ?_) (fun hw => ?_) ?_ ?_ ?_
    · rw [he] at he'
      cases he'
    · refine absurd hw (h.not_wrote fun e' he' => ?_)
      rw [he] at he'
      cases he'
    · intro base hbase
      cases hbase
    · intro gameRoom hstage
      cases hstage
    · intro gameRoom hstage
      cases hstage
  | locked lockId e lease he hstage =>
    refine (h.moveOn he ?_ rfl).congr rfl rfl rfl
    rw [hstage]
    exact id
  | loaded lockId e he hstage =>
    refine h.moveTo (fun _ => same he) (fun hw => ?_) ?_ ?_ ?_
    · refine absurd hw (h.not_wrote fun e' he' => ?_)
      rw [same he he', hstage]
      rfl
    · intro base hbase
      cases hbase
      exact Nat.le_refl _
    · intro gameRoom hs
      cases hs
      rfl
    · intro gameRoom hs
      cases hs
  | acted lockId e gameRoom base he hstage =>
    refine h.moveTo (fun _ => same he) (fun hw => ?_) ?_ ?_ ?_
    · refine absurd hw (h.not_wrote fun e' he' => ?_)
      rw [same he he', hstage]
      rfl
    · intro b hb
      cases hb
      exact h.behind lockId e base he (by rw [hstage]; rfl)
    · intro r hs
      cases hs
    · intro r hs
      cases hs
      rw [h.loaded lockId e gameRoom he hstage]
  | fell step lockId e stage he hdone hstage =>
    refine h.moveOn he (fun hd => ?_) ?_
    · rw [hdone] at hd
      cases hd
    · rcases hstage with rfl | rfl <;> rfl
  | stored lockId e gameRoom base he hstage => exact h.save he hstage
  | dropped lockId e gameRoom base he hstage => exact h.moveOn he (fun _ => rfl) rfl
  | disposed lockId e success he hstage =>
    refine (h.moveOn he (fun hd => ?_) rfl).congr rfl rfl rfl
    cases success with
    | true => rfl
    | false =>
      rw [hstage] at hd
      cases hd

/-! ## Who rests on what

From the moment of its load an execution rests on so many writes; that number cannot change any
more. -/

/-- An execution that had loaded its copy when there were `seen` writes. -/
structure Follows (i base seen : Nat) (s : SharedRoom) : Prop where
  count : seen ≤ s.writes.length
  stage : ∃ e, s.executions.get? i = some e ∧ e.stage.restsOn base
  /-- It writes once, later, and on that copy. -/
  written : ∀ (k : Nat) (w : Write Nat GameRoom), s.writes[k]? = some w → w.writer = i →
    w.base = base ∧ seen ≤ k

/-- A move of another execution leaves this one following its copy. -/
theorem Follows.moveTo {i base seen : Nat} {s : SharedRoom} (h : Follows i base seen s) {lockId : Nat}
    {e : Execution} {stage : Stage} (hstage : lockId = i → stage.restsOn base) :
    Follows i base seen (s.moveTo lockId e stage) where
  count := h.count
  stage := by
    rw [get?_moveTo]
    split
    case isTrue hid => exact ⟨_, rfl, hstage hid⟩
    case isFalse => exact h.stage
  written := h.written

/-- Once loaded, an execution follows its copy to the end. -/
theorem Follows.next {i base seen : Nat} {s : SharedRoom} (h : Follows i base seen s)
    (step : ExecutionStep) : Follows i base seen (s.next step) := by
  obtain ⟨e₀, he₀, hrests⟩ := h.stage
  -- what is known of the stage of execution `i`
  have known : ∀ {lockId : Nat} {e : Execution}, s.executions.get? lockId = some e → lockId = i →
      e.stage.restsOn base := by
    rintro lockId e he rfl
    rw [Option.some.inj (he.symm.trans he₀)]
    exact hrests
  have hnext := next_advanced s step
  generalize s.next step = t at hnext ⊢
  cases hnext with
  | idle => exact h
  | passed delay => exact ⟨h.count, h.stage, h.written⟩
  | entered lockId action he =>
    refine h.moveTo fun hid => ?_
    rw [hid, he₀] at he
    cases he
  | locked lockId e lease he hstage =>
    have hmoved : Follows i base seen (s.moveTo lockId e .locked) := h.moveTo fun hid => by
      have hwaiting := known he hid
      rw [hstage] at hwaiting
      exact hwaiting
    exact ⟨hmoved.count, hmoved.stage, hmoved.written⟩
  | loaded lockId e he hstage =>
    refine h.moveTo fun hid => ?_
    have hlocked := known he hid
    rw [hstage] at hlocked
    exact hlocked.elim
  | acted lockId e gameRoom b he hstage =>
    refine h.moveTo fun hid => ?_
    have hloaded := known he hid
    rw [hstage] at hloaded
    exact hloaded
  | fell step lockId e stage he hdone hstage =>
    refine h.moveTo fun _ => ?_
    rcases hstage with rfl | rfl <;> trivial
  | stored lockId e gameRoom b he hstage =>
    have hmoved : Follows i base seen (s.moveTo lockId e .saved) := h.moveTo fun _ => trivial
    refine ⟨?_, hmoved.stage, fun k w hw hwriter => ?_⟩
    · show seen ≤ (s.writes ++ [_]).length
      rw [List.length_append]
      exact Nat.le_add_right_of_le h.count
    · rcases getElem?_concat_eq_some hw with hold | ⟨rfl, rfl⟩
      · exact h.written k w hold hwriter
      · have hacted := known he hwriter
        rw [hstage] at hacted
        exact ⟨hacted, h.count⟩
  | dropped lockId e gameRoom b he hstage => exact h.moveTo fun _ => trivial
  | disposed lockId e success he hstage =>
    have hmoved : Follows i base seen (s.moveTo lockId e (.returned success)) :=
      h.moveTo fun _ => trivial
    exact ⟨hmoved.count, hmoved.stage, hmoved.written⟩

/-- From between load and save on, an execution follows its copy. -/
theorem Between.follows {first : GameRoom} {s : SharedRoom} (hs : Recorded first s) {i : Nat}
    (h : s.Between i) : ∃ base ≤ s.writes.length, Follows i base s.writes.length s := by
  obtain ⟨e, he, hcopy⟩ := h
  obtain ⟨base, hbase⟩ := Option.ne_none_iff_exists'.mp hcopy
  have hrests : e.stage.restsOn base ∧ e.stage.isDone = false := by
    cases hstage : e.stage with
    | loaded gameRoom b =>
      rw [hstage] at hbase
      exact ⟨Option.some.inj hbase, rfl⟩
    | acted gameRoom b =>
      rw [hstage] at hbase
      exact ⟨Option.some.inj hbase, rfl⟩
    | waiting => rw [hstage] at hcopy; exact absurd rfl hcopy
    | locked => rw [hstage] at hcopy; exact absurd rfl hcopy
    | saved => rw [hstage] at hcopy; exact absurd rfl hcopy
    | failed => rw [hstage] at hcopy; exact absurd rfl hcopy
    | returned success => rw [hstage] at hcopy; exact absurd rfl hcopy
  have hnew : ¬ s.Wrote i := hs.not_wrote fun e' he' => by
    rw [Option.some.inj (he'.symm.trans he)]
    exact hrests.2
  refine ⟨base, hs.behind i e base he hbase, Nat.le_refl _, ⟨e, he, hrests.1⟩, ?_⟩
  intro k w hw hwriter
  exact absurd ⟨w, List.mem_of_getElem? hw, hwriter⟩ hnew

/-- The record is right after any steps. -/
theorem recorded_after (first : GameRoom) (steps : List ExecutionStep) :
    Recorded first ((sharedRooms first).after (sharedRooms first).start steps) :=
  Machine.after_of_invariant (C := fun _ _ => True) (fun _ step h _ => h.next step)
    (recorded_start first) (Machine.steps_of_forall (fun _ _ => trivial) _ _)

/-- **Where every write rests on the one before, no two writers were at work at the same time.** -/
theorem apart_of_chained {first : GameRoom} {steps : List ExecutionStep}
    (h : Chained ((sharedRooms first).after (sharedRooms first).start steps).writes) :
    Apart first steps := by
  intro t ht i j hij hi hj
  rintro ⟨⟨v, hv, hvi⟩, ⟨w, hw, hwj⟩⟩
  let last := (sharedRooms first).after (sharedRooms first).start steps
  obtain ⟨cs, ds, hsplit, ht⟩ := Machine.mem_visited_iff.mp ht
  have hlast : last = (sharedRooms first).after t ds := by
    rw [← ht, ← Machine.after_append, ← hsplit]
  have hrecorded : Recorded first t := ht ▸ recorded_after first cs
  have later : ∀ {i base seen : Nat}, Follows i base seen t → Follows i base seen last := by
    intro i base seen hf
    rw [hlast]
    exact Machine.after_of_invariant (C := fun _ _ => True) (fun _ step hf _ => hf.next step) hf
      (Machine.steps_of_forall (fun _ _ => trivial) _ _)
  -- each of the two wrote right after the writes that there were when they met
  have here : ∀ {i : Nat} {w : Write Nat GameRoom} {k : Nat}, t.Between i → w.writer = i →
      last.writes[k]? = some w → k = t.writes.length := by
    intro i w k hbetween hwriter hk
    obtain ⟨base, hbase, hf⟩ := hbetween.follows hrecorded
    obtain ⟨hwbase, hseen⟩ := (later hf).written k w hk hwriter
    have hkbase := h k w hk
    omega
  obtain ⟨k, hk⟩ := List.getElem?_of_mem hv
  obtain ⟨l, hl⟩ := List.getElem?_of_mem hw
  rw [here hi hvi hk] at hk
  rw [here hj hwj hl, hk] at hl
  cases hl
  exact hij (hvi.symm.trans hwj)

/-! ## Who met whom

The other direction: a write that misses another one was loaded before that one was written and
saved after it, so the two were at work together. -/

/-- A copy that misses a write, and a write that misses another, have met its writer. -/
structure Meets (met : Nat → Nat → Prop) (s : SharedRoom) : Prop where
  /-- A copy that misses a write has met the writer. -/
  copies : ∀ i e base, s.executions.get? i = some e → e.stage.base? = some base →
    ∀ (k : Nat) (w : Write Nat GameRoom), base ≤ k → s.writes[k]? = some w → met w.writer i
  /-- And so has a write that misses one. -/
  written : ∀ (j k : Nat) (v w : Write Nat GameRoom), j < k → s.writes[j]? = some v →
    s.writes[k]? = some w → w.base ≤ j → met v.writer w.writer

/-- At the start there is nobody to meet. -/
theorem meets_start (first : GameRoom) (met : Nat → Nat → Prop) :
    Meets met (sharedRooms first).start where
  copies i e base he := by cases he
  written j k v w _ hv := by cases hv

/-- Meeting more changes nothing that is known. -/
theorem Meets.mono {met met' : Nat → Nat → Prop} {s : SharedRoom} (h : Meets met s)
    (hle : ∀ i j, met i j → met' i j) : Meets met' s :=
  ⟨fun i e base he hb k w hk hw => hle _ _ (h.copies i e base he hb k w hk hw),
    fun j k v w hjk hv hw hb => hle _ _ (h.written j k v w hjk hv hw hb)⟩

/-- A move of one execution: what its new copy misses has to be accounted for. -/
theorem Meets.moveTo {met : Nat → Nat → Prop} {s : SharedRoom} (h : Meets met s) {lockId : Nat}
    {e : Execution} {stage : Stage}
    (hstage : ∀ base, stage.base? = some base →
      ∀ (k : Nat) (w : Write Nat GameRoom), base ≤ k → s.writes[k]? = some w → met w.writer lockId) :
    Meets met (s.moveTo lockId e stage) where
  copies i e' base he' hb k w hk hw := by
    rw [get?_moveTo] at he'
    split at he'
    case isTrue hid =>
      cases he'
      exact hid ▸ hstage base hb k w hk hw
    case isFalse => exact h.copies i e' base he' hb k w hk hw
  written := h.written

/-- A move to a stage without a copy. -/
theorem Meets.moveOn {met : Nat → Nat → Prop} {s : SharedRoom} (h : Meets met s) (lockId : Nat)
    (e : Execution) {stage : Stage} (hcopy : stage.base? = none) :
    Meets met (s.moveTo lockId e stage) :=
  h.moveTo fun base hb => by
    rw [hcopy] at hb
    cases hb

/-- A step keeps the account, if whoever is between load and save now is counted as having met. -/
theorem Meets.next {met : Nat → Nat → Prop} {s : SharedRoom} (h : Meets met s)
    (hnow : ∀ i j, s.Between i → s.Between j → met i j) (step : ExecutionStep) :
    Meets met (s.next step) := by
  have hnext := next_advanced s step
  generalize s.next step = t at hnext ⊢
  cases hnext with
  | idle => exact h
  | passed delay => exact ⟨h.copies, h.written⟩
  | entered lockId action he => exact h.moveOn lockId _ rfl
  | locked lockId e lease he hstage =>
    have hmoved : Meets met (s.moveTo lockId e .locked) := h.moveOn lockId e rfl
    exact ⟨hmoved.copies, hmoved.written⟩
  | loaded lockId e he hstage =>
    refine h.moveTo fun base hb k w hk hw => ?_
    cases hb
    rw [List.getElem?_eq_none hk] at hw
    cases hw
  | acted lockId e gameRoom base he hstage =>
    refine h.moveTo fun b hb k w hk hw => ?_
    exact h.copies lockId e b he (by rw [hstage]; exact hb) k w hk hw
  | fell step lockId e stage he hdone hstage =>
    refine h.moveOn lockId e ?_
    rcases hstage with rfl | rfl <;> rfl
  | stored lockId e gameRoom base he hstage =>
    have hbase : e.stage.base? = some base := by rw [hstage]; rfl
    have hbetween : s.Between lockId := ⟨e, he, by rw [hbase]; exact Option.some_ne_none _⟩
    refine ⟨fun i e' b he' hb k w hk hw => ?_, fun j k v w hjk hv hw hb => ?_⟩
    · replace he' : (s.moveTo lockId e .saved).executions.get? i = some e' := he'
      rw [get?_moveTo] at he'
      split at he'
      case isTrue =>
        cases he'
        cases hb
      case isFalse =>
        rcases getElem?_concat_eq_some hw with hold | ⟨rfl, rfl⟩
        · exact h.copies i e' b he' hb k w hk hold
        · -- it misses this very write
          exact hnow lockId i hbetween ⟨e', he', by rw [hb]; exact Option.some_ne_none _⟩
    · rcases getElem?_concat_eq_some hw with hold | ⟨rfl, rfl⟩
      · rcases getElem?_concat_eq_some hv with hold' | ⟨rfl, rfl⟩
        · exact h.written j k v w hjk hold' hold hb
        · obtain ⟨hlt, -⟩ := List.getElem?_eq_some_iff.mp hold
          omega
      · rcases getElem?_concat_eq_some hv with hold' | ⟨rfl, rfl⟩
        · exact h.copies lockId e base he hbase j v hb hold'
        · omega
  | dropped lockId e gameRoom base he hstage => exact h.moveOn lockId e rfl
  | disposed lockId e success he hstage =>
    have hmoved : Meets met (s.moveTo lockId e (.returned success)) := h.moveOn lockId e rfl
    exact ⟨hmoved.copies, hmoved.written⟩

/-- The two were between load and save at the same time. -/
def Met (first : GameRoom) (steps : List ExecutionStep) (i j : Nat) : Prop :=
  ∃ t ∈ (sharedRooms first).visited (sharedRooms first).start steps, t.Between i ∧ t.Between j

/-- After a run, the account holds with exactly the meetings of the run. -/
theorem meets_after (first : GameRoom) (steps : List ExecutionStep) :
    Meets (Met first steps) ((sharedRooms first).after (sharedRooms first).start steps) := by
  induction steps using List.reverseRecOn with
  | nil => exact meets_start first _
  | append_singleton steps step ih =>
    rw [Machine.after_append]
    refine Meets.next (ih.mono ?_) ?_ step
    · rintro i j ⟨t, ht, hmeet⟩
      exact ⟨t, Machine.visited_append ht, hmeet⟩
    · intro i j hi hj
      exact ⟨_, Machine.visited_append (Machine.after_mem_visited _ _), hi, hj⟩

/-- **Where no two writers were at work at the same time, every write rests on the one before.** -/
theorem chained_of_apart {first : GameRoom} {steps : List ExecutionStep} (h : Apart first steps) :
    Chained ((sharedRooms first).after (sharedRooms first).start steps).writes := by
  have hrecorded := recorded_after first steps
  refine (chained_iff hrecorded.grounded).mpr fun j k w hjk hw => ?_
  by_contra hlate
  have hklen := (List.getElem?_eq_some_iff.mp hw).1
  have hv := List.getElem?_eq_getElem (Nat.lt_trans hjk hklen)
  -- the later of the two misses the earlier, so they met, and the earlier writer is another one
  obtain ⟨t, ht, hi, hj⟩ := (meets_after first steps).written j k _ w hjk hv hw (by omega)
  refine h t ht _ w.writer (fun heq => ?_) hi hj
    ⟨⟨_, List.mem_of_getElem? hv, rfl⟩, ⟨w, List.mem_of_getElem? hw, rfl⟩⟩
  have := index_eq_of_writer hrecorded.nodup hv hw heq
  omega

/-! ## Saves that go through

SaveAsync logs its error and returns.  So a command may be answered with success and not be in the
room, without any other execution's doing. -/

/-- Every command that is carried out, as far as its execution can tell, has been written. -/
def Kept (s : SharedRoom) : Prop := ∀ i e, s.executions.get? i = some e → e.stage.isDone = true →
  ∃ w ∈ s.writes, w.writer = i ∧ w.change = e.effect

/-- A move to a stage that is not done makes no promise. -/
theorem Kept.moveTo {s : SharedRoom} (h : Kept s) {lockId : Nat} {e : Execution} {stage : Stage}
    (hdone : stage.isDone = true → ∃ w ∈ s.writes, w.writer = lockId ∧ w.change = e.effect) :
    Kept (s.moveTo lockId e stage) := by
  intro i e' he' hd
  rw [get?_moveTo] at he'
  split at he'
  case isTrue hid =>
    cases he'
    exact hid ▸ hdone hd
  case isFalse => exact h i e' he' hd

/-- A step whose save does not fail keeps every command that is done in the room. -/
theorem Kept.next {s : SharedRoom} (h : Kept s) {step : ExecutionStep} (hstores : s.Stores step) :
    Kept (s.next step) := by
  have hnext := next_advanced s step
  generalize s.next step = t at hnext ⊢
  cases hnext with
  | idle => exact h
  | passed delay => exact h
  | entered lockId action he =>
    refine h.moveTo fun hd => ?_
    cases hd
  | locked lockId e lease he hstage =>
    have hmoved : Kept (s.moveTo lockId e .locked) := h.moveTo fun hd => by cases hd
    exact hmoved
  | loaded lockId e he hstage =>
    refine h.moveTo fun hd => ?_
    cases hd
  | acted lockId e gameRoom base he hstage =>
    refine h.moveTo fun hd => ?_
    cases hd
  | fell step lockId e stage he hdone hstage =>
    refine h.moveTo fun hd => ?_
    rcases hstage with rfl | rfl <;> cases hd
  | stored lockId e gameRoom base he hstage =>
    intro i e' he' hd
    replace he' : (s.moveTo lockId e .saved).executions.get? i = some e' := he'
    rw [get?_moveTo] at he'
    split at he'
    case isTrue hid =>
      cases he'
      exact ⟨_, List.mem_append_right _ (List.mem_singleton_self _), hid, rfl⟩
    case isFalse =>
      obtain ⟨w, hw, hwi⟩ := h i e' he' hd
      exact ⟨w, List.mem_append_left _ hw, hwi⟩
  | dropped lockId e gameRoom base he hstage =>
    have hstored : false = true := hstores ⟨e, gameRoom, base, he, hstage⟩
    cases hstored
  | disposed lockId e success he hstage =>
    have hmoved : Kept (s.moveTo lockId e (.returned success)) := h.moveTo fun hd => by
      cases success with
      | true => exact h lockId e he (by rw [hstage]; rfl)
      | false => cases hd
    exact hmoved

/-- A command whose save has failed. -/
structure Dropped (i : Nat) (s : SharedRoom) : Prop where
  done : ∃ e, s.executions.get? i = some e ∧ e.stage.isDone = true
  unwritten : ¬ s.Wrote i

/-- A dropped command stays dropped while others move. -/
theorem Dropped.moveTo {i : Nat} {s : SharedRoom} (h : Dropped i s) {lockId : Nat} {e : Execution}
    {stage : Stage} (hdone : lockId = i → stage.isDone = true) :
    Dropped i (s.moveTo lockId e stage) where
  done := by
    rw [get?_moveTo]
    split
    case isTrue hid => exact ⟨_, rfl, hdone hid⟩
    case isFalse => exact h.done
  unwritten := h.unwritten

/-- It is never written later: a save comes once. -/
theorem Dropped.next {i : Nat} {s : SharedRoom} (h : Dropped i s) (step : ExecutionStep) :
    Dropped i (s.next step) := by
  obtain ⟨e₀, he₀, hdone₀⟩ := h.done
  -- an execution at another stage is another one
  have other : ∀ {lockId : Nat} {e : Execution}, s.executions.get? lockId = some e →
      e.stage.isDone = false → lockId ≠ i := by
    rintro lockId e he hdone rfl
    rw [Option.some.inj (he.symm.trans he₀), hdone₀] at hdone
    cases hdone
  have hnext := next_advanced s step
  generalize s.next step = t at hnext ⊢
  cases hnext with
  | idle => exact h
  | passed delay => exact ⟨h.done, h.unwritten⟩
  | entered lockId action he =>
    refine h.moveTo fun hid => ?_
    rw [hid, he₀] at he
    cases he
  | locked lockId e lease he hstage =>
    have hmoved : Dropped i (s.moveTo lockId e .locked) :=
      h.moveTo fun hid => absurd hid (other he (by rw [hstage]; rfl))
    exact ⟨hmoved.done, hmoved.unwritten⟩
  | loaded lockId e he hstage =>
    exact h.moveTo fun hid => absurd hid (other he (by rw [hstage]; rfl))
  | acted lockId e gameRoom base he hstage =>
    exact h.moveTo fun hid => absurd hid (other he (by rw [hstage]; rfl))
  | fell step lockId e stage he hdone hstage =>
    exact h.moveTo fun hid => absurd hid (other he hdone)
  | stored lockId e gameRoom base he hstage =>
    have hne : lockId ≠ i := other he (by rw [hstage]; rfl)
    have hmoved : Dropped i (s.moveTo lockId e .saved) := h.moveTo fun _ => rfl
    refine ⟨hmoved.done, ?_⟩
    rintro ⟨w, hw, hwi⟩
    rcases List.mem_append.mp hw with hmem | hmem
    · exact h.unwritten ⟨w, hmem, hwi⟩
    · cases List.mem_singleton.mp hmem
      exact hne hwi
  | dropped lockId e gameRoom base he hstage => exact h.moveTo fun _ => rfl
  | disposed lockId e success he hstage =>
    have hmoved : Dropped i (s.moveTo lockId e (.returned success)) := h.moveTo fun hid => by
      cases success with
      | true => rfl
      | false => exact absurd hid (other he (by rw [hstage]; rfl))
    exact ⟨hmoved.done, hmoved.unwritten⟩

/-- A failed save leaves a command that is not in the room. -/
theorem dropped_of_not_stores {first : GameRoom} {s : SharedRoom} (hs : Recorded first s)
    {step : ExecutionStep} (h : ¬ s.Stores step) : ∃ i, Dropped i (s.next step) := by
  cases step with
  | save lockId stored =>
    have hsaves : s.Saves lockId ∧ stored ≠ true := Classical.not_imp.mp h
    obtain ⟨⟨e, gameRoom, base, he, hstage⟩, hstored⟩ := hsaves
    refine ⟨lockId, ?_⟩
    have hnext : s.next (.save lockId stored) = s.moveTo lockId e .saved := by
      simp [next, he, advance, hstage, save, hstored]
    have hnew : ¬ s.Wrote lockId := hs.not_wrote fun e' he' => by
      rw [Option.some.inj (he'.symm.trans he), hstage]
      rfl
    rw [hnext]
    exact ⟨⟨_, by rw [get?_moveTo, if_pos rfl], rfl⟩, hnew⟩
  | pass delay => exact absurd trivial h
  | execute lockId action => exact absurd trivial h
  | tryAcquire lockId => exact absurd trivial h
  | giveUp lockId => exact absurd trivial h
  | load lockId found => exact absurd trivial h
  | act lockId => exact absurd trivial h
  | dispose lockId => exact absurd trivial h

/-! ## The holder of the lock

Here the lock matters.  The invariant is about its holder alone, and a save in time is one by its
holder. -/

/-- The writes are chained, and the copy of the one who has the lock has seen them all. -/
structure Holds (s : SharedRoom) : Prop where
  chained : Chained s.writes
  holder : ∀ lease, s.lock = some lease → ∀ e, s.executions.get? lease.owner = some e →
    ∀ base, e.stage.base? = some base → base = s.writes.length

/-- A move of one execution: if it holds the lock, its copy has to have seen all writes. -/
theorem Holds.moveTo {s : SharedRoom} (h : Holds s) {lockId : Nat} {e : Execution} {stage : Stage}
    (hstage : ∀ lease, s.lock = some lease → lease.owner = lockId →
      ∀ base, stage.base? = some base → base = s.writes.length) :
    Holds (s.moveTo lockId e stage) where
  chained := h.chained
  holder lease hlease e' he' base hb := by
    rw [get?_moveTo] at he'
    split at he'
    case isTrue hid =>
      cases he'
      exact hstage lease hlease hid.symm base hb
    case isFalse => exact h.holder lease hlease e' he' base hb

/-- A move to a stage without a copy. -/
theorem Holds.moveOn {s : SharedRoom} (h : Holds s) (lockId : Nat) (e : Execution) {stage : Stage}
    (hcopy : stage.base? = none) : Holds (s.moveTo lockId e stage) :=
  h.moveTo fun _ _ _ base hb => by
    rw [hcopy] at hb
    cases hb

/-- **A step in which everyone saves in time keeps the writes chained.** -/
theorem Holds.next {s : SharedRoom} (h : Holds s) {step : ExecutionStep} (hintime : s.InTime step) :
    Holds (s.next step) := by
  have hnext := next_advanced s step
  generalize s.next step = t at hnext ⊢
  cases hnext with
  | idle => exact h
  | passed delay => exact ⟨h.chained, h.holder⟩
  | entered lockId action he => exact h.moveOn lockId _ rfl
  | locked lockId e lease he hstage howner =>
    -- whoever takes the lock has no copy yet
    refine ⟨h.chained, fun lease' hlease e' he' base hb => ?_⟩
    cases hlease
    replace he' : (s.moveTo lockId e .locked).executions.get? lease.owner = some e' := he'
    rw [get?_moveTo, if_pos howner.symm] at he'
    cases he'
    cases hb
  | loaded lockId e he hstage =>
    refine h.moveTo fun lease hlease howner base hb => ?_
    cases hb
    rfl
  | acted lockId e gameRoom base he hstage =>
    refine h.moveTo fun lease hlease howner b hb => ?_
    exact h.holder lease hlease e (howner ▸ he) b (by rw [hstage]; exact hb)
  | fell step lockId e stage he hdone hstage =>
    refine h.moveOn lockId e ?_
    rcases hstage with rfl | rfl <;> rfl
  | stored lockId e gameRoom base he hstage =>
    obtain ⟨lease, hlive, howner⟩ := hintime ⟨e, gameRoom, base, he, hstage⟩
    -- it saves in time, so it is the holder, and its copy has seen all writes
    have hlease : s.lock = some lease := Lease.of_live hlive
    have hbase : base = s.writes.length :=
      h.holder lease hlease e (howner ▸ he) base (by rw [hstage]; rfl)
    refine ⟨chained_concat.mpr ⟨h.chained, hbase⟩, fun lease' hlease' e' he' base' hb => ?_⟩
    cases Option.some.inj (hlease.symm.trans hlease')
    replace he' : (s.moveTo lockId e .saved).executions.get? lease.owner = some e' := he'
    rw [get?_moveTo, if_pos howner.symm] at he'
    cases he'
    cases hb
  | dropped lockId e gameRoom base he hstage => exact h.moveOn lockId e rfl
  | disposed lockId e success he hstage =>
    have hmoved : Holds (s.moveTo lockId e (.returned success)) := h.moveOn lockId e rfl
    exact ⟨hmoved.chained, fun lease hlease => hmoved.holder lease (Lease.of_release hlease)⟩

/-- Nothing is written and nobody holds the lock. -/
theorem holds_start (first : GameRoom) : Holds (sharedRooms first).start where
  chained := chained_nil
  holder lease hlease := by cases hlease

/-- Nothing has been carried out yet. -/
theorem kept_start (first : GameRoom) : Kept (sharedRooms first).start := by
  intro i e he
  cases he

/-- Chained writes and commands that are written are all there is to it. -/
theorem lossless_of_chained {first : GameRoom} {s : SharedRoom} (hrecorded : Recorded first s)
    (hchained : Chained s.writes) (hkept : Kept s) : s.Lossless first where
  chained := hchained
  stored := hrecorded.stored hchained
  present i e he hstage := hkept i e he (by rw [hstage]; rfl)

/-- Where every execution has returned and every command is there, no save has failed. -/
theorem stores_of_lossless {first : GameRoom} {steps : List ExecutionStep}
    (hfin : ((sharedRooms first).after (sharedRooms first).start steps).Finished)
    (h : ((sharedRooms first).after (sharedRooms first).start steps).Lossless first) :
    (sharedRooms first).Steps Stores (sharedRooms first).start steps := by
  refine Machine.steps_of_splits fun cs step ds hsplit => ?_
  by_contra hfails
  obtain ⟨i, hdropped⟩ := dropped_of_not_stores (recorded_after first cs) hfails
  -- what was dropped on the way is missing at the end
  have hlast : Dropped i ((sharedRooms first).after (sharedRooms first).start steps) := by
    rw [hsplit, Machine.after_append]
    have hrest : Dropped i ((sharedRooms first).after
        (((sharedRooms first).after (sharedRooms first).start cs).next step) ds) :=
      Machine.after_of_invariant (C := fun _ _ => True) (fun _ step hd _ => hd.next step) hdropped
        (Machine.steps_of_forall (fun _ _ => trivial) _ _)
    exact hrest
  obtain ⟨e, he, hdone⟩ := hlast.done
  have hstage : e.stage = .returned true := by
    have hreturned := hfin i e he
    cases hs : e.stage with
    | returned success =>
      cases success with
      | true => rfl
      | false => rw [hs] at hdone; cases hdone
    | waiting => rw [hs] at hdone; cases hdone
    | locked => rw [hs] at hdone; cases hdone
    | loaded gameRoom base => rw [hs] at hdone; cases hdone
    | acted gameRoom base => rw [hs] at hdone; cases hdone
    | saved => rw [hs] at hreturned; cases hreturned
    | failed => rw [hs] at hdone; cases hdone
  obtain ⟨w, hw, hwriter, -⟩ := h.present i e he hstage
  exact hlast.unwritten ⟨w, hw, hwriter⟩

/-- **When updates are kept.** -/
theorem updates_kept_iff (first : GameRoom) (steps : List ExecutionStep) :
    let servers := sharedRooms first
    let last := servers.after servers.start steps
    (Chained last.writes ↔ Apart first steps) ∧
      (last.Finished →
        (last.Lossless first ↔ Apart first steps ∧ servers.Steps Stores servers.start steps)) ∧
      (servers.Steps InTime servers.start steps → servers.Steps Stores servers.start steps →
        ∀ t ∈ servers.visited servers.start steps, t.Lossless first) := by
  intro servers last
  refine ⟨⟨apart_of_chained, chained_of_apart⟩, fun hfin => ?_, fun hintime hstores t ht => ?_⟩
  · constructor
    · exact fun h => ⟨apart_of_chained h.chained, stores_of_lossless hfin h⟩
    · rintro ⟨hapart, hstores⟩
      have hkept : Kept last :=
        Machine.after_of_invariant (fun _ _ h hs => h.next hs) (kept_start first) hstores
      exact lossless_of_chained (recorded_after first steps) (chained_of_apart hapart) hkept
  · have hholds : Holds t :=
      Machine.visited_of_invariant (fun _ _ h hs => h.next hs) (holds_start first) hintime t ht
    have hkept : Kept t :=
      Machine.visited_of_invariant (fun _ _ h hs => h.next hs) (kept_start first) hstores t ht
    have hrecorded : Recorded first t :=
      Machine.visited_of_invariant (C := fun _ _ => True) (fun _ step h _ => h.next step)
        (recorded_start first) (Machine.steps_of_forall (fun _ _ => trivial) _ _) t ht
    exact lossless_of_chained hrecorded hholds.chained hkept

/-- The room of a game that has just begun. -/
def begunRoom : GameRoom :=
  after (addPlayer ⟨"bob"⟩ none 0) (after (addPlayer ⟨"alice"⟩ none 0) (initialRoom "room"))

/-- A side reserves a move of its three units. -/
def moveAction (side : PlayerSide) (fromNode toNode : NodeId) : Game Unit := do
  let _ ← moveUnits side ⟨fromNode, toNode, 3⟩

/-- The form in which it can be read off the dictionary. -/
theorem finished_iff_entries {s : SharedRoom} :
    s.Finished ↔ ∀ e ∈ s.executions.entries, e.2.stage.isReturned = true := by
  constructor
  · exact fun h e he => h e.1 e.2 (Dict.mem_iff_get?.mp he)
  · exact fun h i e he => h (i, e) (Dict.mem_iff_get?.mpr he)

/-- Both sides reserve a move; the second finds the lock taken at first. -/
def inTurnSteps : List ExecutionStep :=
  [.execute 1 (moveAction .a ⟨1⟩ ⟨2⟩), .tryAcquire 1, .load 1 true, .act 1,
    .execute 2 (moveAction .b ⟨5⟩ ⟨3⟩), .tryAcquire 2, .pass 400, .save 1 true, .dispose 1,
    .tryAcquire 2, .load 2 true, .act 2, .save 2 true, .dispose 2]

/-- Two commands one after the other: both are in the room. -/
theorem updates_kept_inTurn :
    let servers := sharedRooms begunRoom
    let last := servers.after servers.start inTurnSteps
    last.Finished ∧ last.Lossless begunRoom ∧ Apart begunRoom inTurnSteps ∧
      last.room.getPendingMoves .a = [⟨⟨1⟩, ⟨2⟩, 3⟩] ∧
      last.room.getPendingMoves .b = [⟨⟨5⟩, ⟨3⟩, 3⟩] := by
  intro servers last
  have hfin : last.Finished := finished_iff_entries.mpr (by decide +kernel)
  have hintime : servers.Steps InTime servers.start inTurnSteps := by decide +kernel
  have hstores : servers.Steps Stores servers.start inTurnSteps := by decide +kernel
  obtain ⟨-, hexact, hkept⟩ := updates_kept_iff begunRoom inTurnSteps
  have hlossless : last.Lossless begunRoom :=
    hkept hintime hstores last (Machine.after_mem_visited _ _)
  exact ⟨hfin, hlossless, ((hexact hfin).mp hlossless).1, by decide +kernel, by decide +kernel⟩

/-- The first execution takes five seconds, and the second has its turn meanwhile. -/
def slowHolderSteps : List ExecutionStep :=
  [.execute 1 (moveAction .a ⟨1⟩ ⟨2⟩), .tryAcquire 1, .load 1 true, .act 1, .pass 5000,
    .execute 2 (moveAction .b ⟨5⟩ ⟨3⟩), .tryAcquire 2, .load 2 true, .act 2, .save 2 true,
    .dispose 2, .save 1 true, .dispose 1]

/-- The move of side B was answered with success, and is gone. -/
theorem update_lost :
    let servers := sharedRooms begunRoom
    let last := servers.after servers.start slowHolderSteps
    last.Finished ∧ (∀ e ∈ last.executions.entries, e.2.stage.isDone = true) ∧
      last.room.getPendingMoves .a = [⟨⟨1⟩, ⟨2⟩, 3⟩] ∧ last.room.getPendingMoves .b = [] ∧
      ¬ Chained last.writes ∧ ¬ last.Lossless begunRoom := by
  intro servers last
  have hfin : last.Finished := finished_iff_entries.mpr (by decide +kernel)
  have hlate : ¬ Chained last.writes := fun h => by
    have hsecond : last.writes[1]?.map (·.base) = some 0 := by decide +kernel
    obtain ⟨w, hw, hbase⟩ := Option.map_eq_some_iff.mp hsecond
    rw [h 1 w hw] at hbase
    cases hbase
  exact ⟨hfin, by decide +kernel, by decide +kernel, by decide +kernel, hlate,
    fun h => hlate h.chained⟩

end SharedRoom
end HexWar
