/-
  Whether the stored room is the one that was told.

  A command sends, buffers and publishes its events before it saves the room, and it answers as if the
  save had gone through: SaveAsync logs a failed write and returns.  A message about a decision that
  cannot be sent stops the command after the event is in the replay buffer, and before the save.

  So what was told is what is stored exactly if a command that does something to the room can save it,
  and can send that message (`stored_as_told_iff`): every such command leaves a room that differs from
  the one it has loaded (`next_changes`), and a command that does nothing has nothing to tell.

  The two commands that look for a round to resolve once they have let go of the lock do so as a
  command of its own.
-/
import HexWar.Session.Outbox

namespace HexWar

open Lib Lib.Action GameRoom

/-! ## What changes the room -/

/-- Does a turn do something to its room? -/
def Host.acts (h : Host) : SessionCall → Bool
  | .addPlayer playerId _ => (h.room.joinRefusal playerId).isNone
  | call => h.raises call

theorem acts_of_does {h : Host} {call : SessionCall} {room : GameRoom} (hdoes : Does h call room) :
    h.acts call = true := by
  cases hdoes with
  | join hr =>
    rw [Host.acts, hr]
    rfl
  | @move side command hconn hr =>
    show h.raises (.moveUnits side command) = true
    rw [Host.raises, hconn, hr]
    rfl
  | @decide side edgeId decision hconn hr =>
    show h.raises (.encounterDecision side edgeId decision) = true
    rw [Host.raises, hconn, hr]
    rfl
  | resolve hres =>
    have hmay : call.mayResolve = true := by cases hres <;> rfl
    have hraises := (raises_iff_resolves hmay).mpr ⟨_, _, hres⟩
    cases hres <;> exact hraises
  | abandon hphase hwinner => simp [Host.acts, Host.raises, hphase, hwinner]

theorem acts_idle {h : Host} {call : SessionCall} (hidle : Idle h call) : h.acts call = false := by
  cases call with
  | addPlayer playerId now =>
    rw [Bool.eq_false_iff]
    intro hacts
    exact hidle.nothing _ (.join (Option.isNone_iff_eq_none.mp hacts))
  | onPlayerConnected _ _ | onPlayerDisconnected _ | forceGameOver | moveUnits _ _
  | encounterDecision _ _ _ | checkAndResolveIfReady _ | planningTimeout _ _
  | backupPlanningTimeout _ _ | getGameState _ | reconnectSync _ _ => exact raises_idle hidle

/-- Changing the first match into something else, or dropping it, changes the list. -/
theorem modifyFirst_ne {α : Type} {p : α → Bool} {f : α → Option α} {l : List α} {x : α}
    (hfind : l.find? p = some x) (hf : f x ≠ some x) : modifyFirst p f l ≠ l := by
  induction l with
  | nil => cases hfind
  | cons z l ih =>
    by_cases hz : p z = true
    · rw [List.find?_cons_of_pos hz] at hfind
      rw [modifyFirst, if_pos hz, Option.some.inj hfind]
      rcases hfx : f x with _ | y
      · intro heq
        have hlen := congrArg List.length heq
        simp at hlen
      · intro heq
        exact hf (hfx.trans (congrArg some (List.cons.inj heq).1))
    · rw [List.find?_cons_of_neg hz] at hfind
      rw [modifyFirst, if_neg hz]
      intro heq
      exact ih hfind (List.cons.inj heq).2

/-- A decision is marked, or its encounter is gone. -/
theorem encounters_decided_ne {room : GameRoom} {edgeId : EdgeId} {side : PlayerSide}
    {decision : EncounterDecision} (hr : room.decisionRefusal edgeId side decision = none) :
    (room.decideEncounter edgeId side decision).pendingEncounters ≠ room.pendingEncounters := by
  obtain ⟨-, pending, e, hpending, hopen, he, -⟩ := decisionRefusal_none hr
  rw [decideEncounter_eq hpending he]
  refine modifyFirst_ne hpending fun heq => ?_
  split at heq
  · cases heq
  · have hmarked : (marked e pending side decision).hasDecided side = true := by
      rw [marked, hasDecided_markDecided, if_pos rfl]
    rw [Option.some.inj heq, hopen] at hmarked
    cases hmarked

/-- **What a turn does shows in the room.** -/
theorem next_changes {h : Host} (hroom : InSession h.room) (hquiet : h.room.domainEvents = [])
    {call : SessionCall} {room : GameRoom} (hdoes : Does h call room) :
    (h.next call).room ≠ h.room := by
  intro heq
  have hsaved := (room_of_does hroom hquiet hdoes).symm.trans heq
  -- each kind of turn has a field of the room that it alone changes
  cases hdoes with
  | join hr =>
    have hplayers := congrArg GameRoom.players hsaved
    exact players_joined_ne hroom.sound hr _ hplayers
  | @move side command hconn hr =>
    obtain ⟨-, hpos, -⟩ := moveRefusal_none (moveRefusal_of_session hr).2.2
    have hused := congrArg (fun r => r.unitUsedThisRound.get side) hsaved
    simp only [reserve, PerSide.get_update_same] at hused
    omega
  | decide hconn hr =>
    have hencounters := congrArg GameRoom.pendingEncounters hsaved
    exact encounters_decided_ne hr hencounters
  | resolve hres =>
    have hcount := currentRound_of_resolves hroom hres
    rw [heq] at hcount
    omega
  | abandon hphase hwinner => exact hphase (congrArg GameRoom.phase hsaved).symm

/-! ## What was told -/

/-- Did the command return success? -/
def DistributedExecution.succeeds (x : DistributedExecution) (call : SessionCall) (f : Faults) : Bool :=
  match Distributed.perform f call x with
  | .ok success _ => success
  | .error _ _ => false

/-- Was a client, the replay buffer, another server or the caller told something? -/
def DistributedExecution.Tells (x : DistributedExecution) (call : SessionCall) (f : Faults) : Prop :=
  (x.next (.perform call f)).sent ≠ x.sent ∨ (x.next (.perform call f)).buffered ≠ x.buffered ∨
    (x.next (.perform call f)).published ≠ x.published ∨ x.succeeds call f = true

/-- If something was told, the stored room is the one after the command; otherwise it is the one
    before. -/
structure StoredAsTold (x : DistributedExecution) (call : SessionCall) (f : Faults) : Prop where
  reflected : x.Tells call f → (x.next (.perform call f)).stored = (x.server.next call).room
  unchanged : ¬ x.Tells call f → (x.next (.perform call f)).stored = x.stored

theorem Stored.told_iff {x : DistributedExecution} (hx : Stored x) (call : SessionCall) (f : Faults) :
    StoredAsTold x call f ↔ (x.server.acts call = true →
      f.saveFails = false ∧ (call.isDecision = true → f.sendFails x.sends = none)) := by
  cases hx.performed f call with
  | idle hnothing hsame =>
    -- nothing is written, and nothing should be
    have hidle : Idle x.server call := by
      rcases next_does (h := x.server) hx.room hx.quiet call with ⟨room, hdone⟩ | hidle
      · exact absurd hdone.does (hnothing room)
      · exact hidle
    refine iff_of_true ⟨fun _ => ?_, fun _ => hsame.stored⟩ fun hacts => ?_
    · exact hsame.stored.trans hidle.kept.symm
    · rw [acts_idle hidle] at hacts
      cases hacts
  | carried hdoes hsend hreturns hcarried =>
    -- the command has returned success, whatever became of the write
    obtain ⟨y, hok⟩ := hreturns
    have htells : x.Tells call f := by
      refine .inr (.inr (.inr ?_))
      rw [DistributedExecution.succeeds, hok]
    have hnext := room_of_does (h := x.server) hx.room hx.quiet hdoes
    have hstored := hcarried.stored
    constructor
    · intro h _
      refine ⟨?_, hsend⟩
      by_contra hfails
      -- the stored room is still the one before, and the turn has changed it
      rw [if_pos (Bool.not_eq_false _ ▸ hfails)] at hstored
      exact next_changes (h := x.server) hx.room hx.quiet hdoes
        ((h.reflected htells).symm.trans hstored)
    · intro h
      obtain ⟨hsaves, -⟩ := h (acts_of_does hdoes)
      rw [hsaves] at hstored
      exact ⟨fun _ => hstored.trans hnext.symm, fun hno => absurd htells hno⟩
  | brokenOff hdoes hfails _ hbroken =>
    -- the decision is buffered before its message fails, and the copy is thrown away
    have htells : x.Tells call f := by
      obtain ⟨told, d, rest, -, hbuffered, -⟩ := hbroken.told
      refine .inr (.inl fun heq => ?_)
      have hlen := congrArg List.length (hbuffered.symm.trans heq)
      simp only [List.length_append, List.length_cons] at hlen
      omega
    refine iff_of_false (fun h => ?_) fun h => hfails.2 ((h (acts_of_does hdoes)).2 hfails.1)
    exact next_changes (h := x.server) hx.room hx.quiet hdoes
      ((h.reflected htells).symm.trans hbroken.stored)

variable {roomId serverId : String} {hasEventPublisher : Bool} {planningTimeout : Time}

theorem stored_of_reachable {x : DistributedExecution}
    (hreach : (sharedRoom roomId serverId hasEventPublisher planningTimeout).Reachable x) :
    Stored x :=
  hreach.invariant (stored_initial _ _ _ _) fun _ c hx _ => hx.next c

/-- **What clients were told is what is stored exactly if a command that does something to the room
    can save it**, and can send the message about a decision. -/
theorem stored_as_told_iff {x : DistributedExecution}
    (hreach : (sharedRoom roomId serverId hasEventPublisher planningTimeout).Reachable x)
    (call : SessionCall) (f : Faults) :
    StoredAsTold x call f ↔ (x.server.acts call = true →
      f.saveFails = false ∧ (call.isDecision = true → f.sendFails x.sends = none)) :=
  (stored_of_reachable hreach).told_iff call f

/-- The first round of a game between two connected players. -/
def firstRound : DistributedExecution :=
  (sharedRoom "room" "s1" true 30).after (sharedRoom "room" "s1" true 30).start
    ([SessionCall.addPlayer ⟨"p"⟩ 0, .addPlayer ⟨"q"⟩ 0, .onPlayerConnected .a 0,
      .onPlayerConnected .b 0].map (.perform · .none))

theorem firstRound_reachable : (sharedRoom "room" "s1" true 30).Reachable firstRound :=
  ⟨_, Machine.steps_of_forall (fun _ _ => trivial) _ _, rfl⟩

theorem stored_as_told_iff_move :
    StoredAsTold firstRound (.moveUnits .a ⟨⟨1⟩, ⟨5⟩, 1⟩) .none ↔
      (firstRound.server.acts (.moveUnits .a ⟨⟨1⟩, ⟨5⟩, 1⟩) = true →
        Faults.none.saveFails = false ∧
          (SessionCall.isDecision (.moveUnits .a ⟨⟨1⟩, ⟨5⟩, 1⟩) = true →
          Faults.none.sendFails firstRound.sends = none)) :=
  stored_as_told_iff firstRound_reachable _ _

/-- A move whose save fails is answered with success, and not stored. -/
theorem told_and_not_stored :
    ¬ ∀ x, (sharedRoom "room" "s1" true 30).Reachable x → ∀ call f, StoredAsTold x call f := by
  intro h
  let lost : Faults := ⟨fun _ => none, true⟩
  have hmove := h firstRound firstRound_reachable (.moveUnits .a ⟨⟨1⟩, ⟨5⟩, 1⟩) lost
  have hsuccess : firstRound.succeeds (.moveUnits .a ⟨⟨1⟩, ⟨5⟩, 1⟩) lost =
    true := by decide +kernel
  have hstored := hmove.reflected (.inr (.inr (.inr hsuccess)))
  have hused := congrArg (fun room => room.unitUsedThisRound.get .a) hstored
  revert hused
  decide +kernel

end HexWar
