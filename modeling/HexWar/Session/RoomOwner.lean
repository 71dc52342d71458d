/-
  Who owns the room.

  The room names its owner, the server whose planning timer is the first one; every other server runs
  a backup timer that fires later.  A server learns of the owner in two ways: it copies the name when
  it loads the room, and it takes the SENDER of a message that opens a round for the owner.  Any
  server may resolve a round, but only the backup timer makes the resolving server the owner; so a
  round that is opened by another server than the owner leaves the others with a wrong name, and with
  backup timers only.

  The timer goes wrong in a second way.  No server starts one because it has LOADED the room: a timer
  is started by whoever opens a round, by a message that opens it, and when a player connects to a
  server that has none.  So after the second player has joined through a server, that server has a
  right name and no timer until somebody connects to it.  `Roll` is a cluster that also keeps which
  servers have taken the current round up.

  The proof keeps three things of a cluster in which rounds are opened by the owner (`Owned`): the
  timer of a server is for no later round than the room's, and a right one if it is for this round;
  the same of the name that a server knows; and what is on its way opens no later round, and the
  current one only if the owner has sent it.  `owner_agreed` adds the roll.

  In which order.

  1. `Timed` and `Named`: of one server, that its timer and the name it knows are right if they are for the
     current round.  Both are kept by any turn, and by a message if what it opens is right (`Owned`).
  2. `Led`: the server that the room names is there.  It has opened the round, so it has loaded the room.
  3. `Called`: the roll is right, which is a statement about one server and one step
     (`Called.present_next`), by who the step touches.
  4. In a quiet moment these three give names, timers and the first timer (`Called.agreed_iff`).
  5. The second half of `owner_agreed` is about late messages only, and uses none of this.
-/
import HexWar.Session.Timeouts

namespace HexWar

open Lib Lib.Action GameRoom

/-! ## The properties -/

namespace Cluster

/-- A quiet moment of the planning phase: nothing is on its way, and every server that has loaded the
    room is past the start of the latest round. -/
structure Quiescent (c : Cluster) : Prop where
  /-- A round is being planned, -/
  planning : c.room.phase = .planning
  /-- no message is on its way, -/
  delivered : c.inFlight = []
  /-- and the round that a server shows is the room's, as soon as the server has loaded it. -/
  past : ∀ id s, c.servers.get? id = some s → s.session.ownerServerId ≠ none →
    s.session.currentRound = c.room.currentRound

/-- Every server that knows of an owner has the name in the room. -/
def OwnerNamed (c : Cluster) : Prop :=
  ∀ id s, c.servers.get? id = some s → s.session.ownerServerId ≠ none →
    s.session.ownerServerId = c.room.ownerServerId

/-- **The servers agree on the owner.** -/
structure OwnerAgreed (c : Cluster) : Prop where
  /-- They know its name. -/
  named : c.OwnerNamed
  /-- Each of them has a timer for the current round, and only the owner's is the first one. -/
  timed : ∀ id s, c.servers.get? id = some s → s.session.ownerServerId ≠ none →
    s.session.planningTimerRound = c.room.currentRound ∧
      s.session.timer = some (if c.room.ownerServerId = some id then .planning else .backupPlanning)
  /-- The server that the room names is there, and holds the first timer. -/
  held : ∃ id s, c.room.ownerServerId = some id ∧ c.servers.get? id = some s ∧
    s.session.timer = some .planning

/-- A turn that opens a round runs on the owner, or is the backup timer's, which takes the room
    over. -/
def OpensAsOwner (c : Cluster) : ClusterCall → Prop
  | .turn id turn => turn.keepsOwner = true → ∀ s ∈ c.servers.get? id,
      (s.host c.room).raises turn = true → c.room.ownerServerId = some id
  | .hydrate _ | .deliver _ _ | .connect _ | .disconnect => True

instance (c : Cluster) : DecidablePred c.OpensAsOwner
  | .turn _ _ => inferInstanceAs (Decidable (_ = true → ∀ s ∈ _, _))
  | .hydrate _ | .deliver _ _ | .connect _ | .disconnect => .isTrue trivial

/-- Has a server still to hear from the owner? -/
def HearsFromOwner (c : Cluster) (id : String) : Prop :=
  ∃ d ∈ c.inFlight, d.1 = id ∧ d.2.sourceServerId ≠ id ∧
    c.room.ownerServerId = some d.2.sourceServerId ∧ d.2.event.opensRound.isSome = true

/-- A message of an earlier owner that opens a round reaches a server before the last such message of
    the owner does. -/
def InTurn (c : Cluster) : ClusterCall → Prop
  | .deliver index _ => ∀ d ∈ c.inFlight[index]?, d.2.sourceServerId ≠ d.1 →
      d.2.event.opensRound.isSome = true → c.room.ownerServerId = some d.2.sourceServerId ∨
        ∃ e ∈ c.inFlight.eraseIdx index, e.1 = d.1 ∧ e.2.sourceServerId ≠ d.1 ∧
          c.room.ownerServerId = some e.2.sourceServerId ∧ e.2.event.opensRound.isSome = true
  | .hydrate _ | .turn _ _ | .connect _ | .disconnect => True

instance (c : Cluster) : DecidablePred c.InTurn
  | .deliver _ _ => inferInstanceAs (Decidable (∀ d ∈ _, _))
  | .hydrate _ | .turn _ _ | .connect _ | .disconnect => .isTrue trivial

/-- The servers are finitely many. -/
theorem quiescent_iff_entries {c : Cluster} : c.Quiescent ↔ c.room.phase = .planning ∧
    c.inFlight = [] ∧ ∀ e ∈ c.servers.entries, e.2.session.ownerServerId ≠ none →
      e.2.session.currentRound = c.room.currentRound := by
  constructor
  · intro h
    exact ⟨h.planning, h.delivered, fun e he => h.past e.1 e.2 (Dict.mem_iff_get?.mp he)⟩
  · rintro ⟨hphase, hnone, hpast⟩
    exact ⟨hphase, hnone, fun id s hget => hpast (id, s) (Dict.mem_iff_get?.mpr hget)⟩

end Cluster

/-! ## The roll

The roll is kept by what the servers have done, turn by turn and message by message: not by looking
at their timers.  That it comes to the same is a theorem (`Called`). -/

/-- Does a turn begin a round?  The second player does, and whoever resolves the round before. -/
def Host.beginsRound (h : Host) : SessionCall → Bool
  | .addPlayer playerId now => h.raises (.addPlayer playerId now)
  | .checkAndResolveIfReady now => h.raises (.checkAndResolveIfReady now)
  | .planningTimeout forRound now => h.raises (.planningTimeout forRound now)
  | .backupPlanningTimeout forRound now => h.raises (.backupPlanningTimeout forRound now)
  | .onPlayerConnected _ _ | .onPlayerDisconnected _ | .forceGameOver | .moveUnits _ _
  | .encounterDecision _ _ _ | .getGameState _ | .reconnectSync _ _ => false

/-- The servers of a room, and those that have taken the current round up: they have opened it, or have
    been told of it, or somebody has connected to them while they had no timer. -/
structure Roll where
  /-- The servers, the stored room and the messages in flight. -/
  cluster : Cluster
  /-- The servers that have taken the current round up. -/
  present : List String

namespace Roll

/-- Who has taken the round up after a turn. -/
def afterTurn (roll : Roll) (id : String) (call : SessionCall) : List String :=
  match roll.cluster.servers.get? id with
  | none => roll.present
  | some s =>
    (if (s.host roll.cluster.room).startsTimer call then [id] else []) ++
      if (s.host roll.cluster.room).beginsRound call then [] else roll.present

/-- Who has taken the round up after a message of another server.  One that opens an EARLIER round takes
    its server back there. -/
def afterMessage (roll : Roll) (id : String) (m : DistributedEventMessage) : List String :=
  match m.event.opensRound with
  | some r =>
    if r = roll.cluster.room.currentRound then id :: roll.present
    else roll.present.filter (· ≠ id)
  | none => if m.event.asGameOver.isSome then roll.present.filter (· ≠ id) else roll.present

/-- Who has taken the round up after a call. -/
def answers (roll : Roll) : ClusterCall → List String
  | .turn id call => roll.afterTurn id call
  | .deliver index _ =>
    match roll.cluster.inFlight[index]? with
    | none => roll.present
    | some (id, m) =>
      if m.sourceServerId = id ∨ roll.cluster.servers.get? id = none then roll.present
      else roll.afterMessage id m
  | .hydrate _ | .connect _ | .disconnect => roll.present

/-- A call, and what it makes of the roll. -/
def next (planningTimeout : Time) (roll : Roll) (call : ClusterCall) : Roll :=
  ⟨roll.cluster.next planningTimeout call, roll.answers call⟩

/-- **Nobody is missing**: each server that has loaded the room has taken the current round up. -/
def Complete (roll : Roll) : Prop :=
  ∀ id s, roll.cluster.servers.get? id = some s → s.session.ownerServerId ≠ none → id ∈ roll.present

/-- Only servers that are there can be missing. -/
theorem complete_iff_entries {roll : Roll} : roll.Complete ↔ ∀ e ∈ roll.cluster.servers.entries,
    e.2.session.ownerServerId ≠ none → e.1 ∈ roll.present :=
  ⟨fun h e he => h e.1 e.2 (Dict.mem_iff_get?.mp he),
    fun h id s hget => h (id, s) (Dict.mem_iff_get?.mpr hget)⟩

end Roll

/-- The servers of one room with their roll, under any steps. -/
def rolls (roomId serverId : String) (planningTimeout : Time) (side : PlayerSide) :
    Machine Roll ClusterCall :=
  ⟨⟨Cluster.initial roomId serverId planningTimeout side, []⟩, Roll.next planningTimeout,
    fun _ _ => True⟩

/-! ## The timers

A timer is started in three ways: by whoever opens a round, with the name that the room has then; by
a connection, with a copy of the room's name; and by a message, for its sender.  In the first two
the name is right; in the third it is if the sender was the owner. -/

/-- A server's timer is for no round that is still to come; and in the current round the server has
    the right name of the owner, and a timer to match. -/
structure Timed (room : GameRoom) (id : String) (s : GameSession) : Prop where
  /-- Nobody is ahead of the room. -/
  bound : s.planningTimerRound ≤ room.currentRound
  /-- Who is up to date has the owner's name and the timer that goes with it. -/
  right : s.planningTimerRound = room.currentRound → s.ownerServerId = room.ownerServerId ∧
    s.timer = some (if room.ownerServerId = some id then .planning else .backupPlanning)

namespace Timed

variable {room room' : GameRoom} {id : String} {s s' : GameSession}

/-- A server without a timer says nothing about the round. -/
theorem stopped (hround : s.planningTimerRound = -1) (hcounted : Counted room) : Timed room id s := by
  have hnonneg := hcounted.nonneg
  refine ⟨?_, fun heq => ?_⟩ <;> omega

/-- A timer that is left alone while the room goes on. -/
theorem advance (ht : Timed room id s)
    (hroom : room'.currentRound = room.currentRound ∧ room'.ownerServerId = room.ownerServerId ∨
      room.currentRound < room'.currentRound)
    (hround : s'.planningTimerRound = s.planningTimerRound) (htimer : s'.timer = s.timer)
    (howner : s'.ownerServerId = s.ownerServerId ∨ s'.ownerServerId = room'.ownerServerId) :
    Timed room' id s' := by
  have hbound := ht.bound
  rcases hroom with ⟨hsame, hname⟩ | hgrown
  · refine ⟨by omega, fun heq => ?_⟩
    obtain ⟨hright, hkind⟩ := ht.right (by omega)
    rw [hname, htimer]
    refine ⟨?_, hkind⟩
    rcases howner with hold | hnew
    · exact hold.trans hright
    · exact hnew.trans hname
  · refine ⟨?_, fun heq => ?_⟩ <;> omega

/-- A timer that is started for the round of the room. -/
theorem started (hserver : s.serverId = id) (howner : s.ownerServerId = room.ownerServerId)
    (hnone : s.timer = none) (deadline : Option Time) (now : Time) :
    Timed room id (s.startPlanningTimer room.currentRound deadline now) := by
  rw [GameSession.startPlanningTimer, if_neg]
  · refine ⟨Int.le_refl _, fun _ => ⟨howner, ?_⟩⟩
    rw [howner, hserver]
  · rintro ⟨-, hsome, -⟩
    rw [hnone] at hsome
    cases hsome

/-- A message that opens a round. -/
theorem opened (ht : Timed room id s) (hserver : s.serverId = id) {m : DistributedEventMessage}
    {r : Int} (hopens : Opens s s' m r) (hle : r ≤ room.currentRound)
    (howner : r = room.currentRound → room.ownerServerId = some m.sourceServerId) :
    Timed room id s' := by
  have hround := hopens.round
  refine ⟨by omega, fun heq => ?_⟩
  have hsource := howner (by omega)
  refine ⟨hopens.owner.trans hsource.symm, ?_⟩
  rcases hopens.timer with hnew | ⟨hruns, hsame⟩
  · rw [hnew, hsource, hserver]
    simp only [Option.some.injEq]
  · rw [hsame]
    exact (ht.right (by omega)).2

end Timed

/-- **What a turn leaves is right** if what it found was. -/
theorem timed_left {h : Host} (hroom : InSession h.room) (hcounted : Counted h.room)
    {call : SessionCall} {room : GameRoom} {s : GameSession} (hleaves : Leaves h call room s)
    (ht : Timed h.room h.session.serverId h.session) : Timed room h.session.serverId s := by
  obtain ⟨hcounted', hgoes⟩ := round_left hroom hcounted hleaves
  cases hleaves with
  | @connect side now =>
    let host := (h.reached side true).synced
    show Timed host.room host.session.serverId (host.timed now).session
    rw [Host.timed]
    show Timed _ _ (if _ then _ else _)
    split
    · rename_i hstart
      exact Timed.started rfl rfl hstart.2 none now
    · exact ht.advance hgoes rfl rfl (.inr rfl)
  | disconnect | refuse _ _ => exact ht.advance hgoes rfl rfl (.inl rfl)
  | look _ _ | join _ | move _ _ | decide _ _ => exact ht.advance hgoes rfl rfl (.inr rfl)
  | @resolve _ ready now hres =>
    rw [GameSession.afterRound]
    generalize sourceOrder.resolved ready _ = resolved at hcounted' ⊢
    cases (sourceOrder.closedRoom ready).openingResult.gameOver with
    | true => exact Timed.stopped rfl hcounted'
    | false =>
      rw [opened_running rfl]
      refine ⟨Int.le_refl _, fun _ => ⟨rfl, rfl⟩⟩
  | abandon _ _ => exact Timed.stopped rfl hcounted'

/-! ## The names -/

/-- A server knows of no round that is still to come; and if it knows of the current one, and of an
    owner, then it has the right name. -/
structure Named (room : GameRoom) (s : GameSession) : Prop where
  /-- Nobody is ahead of the room. -/
  bound : s.currentRound ≤ room.currentRound
  /-- Who is up to date, and has loaded the room or heard of an owner, knows the right one. -/
  right : s.currentRound = room.currentRound → s.ownerServerId ≠ none →
    s.ownerServerId = room.ownerServerId

namespace Named

variable {room room' : GameRoom} {s s' : GameSession}

/-- A session that is left alone while the room goes on. -/
theorem advance (hn : Named room s)
    (hroom : room'.currentRound = room.currentRound ∧ room'.ownerServerId = room.ownerServerId ∨
      room.currentRound < room'.currentRound)
    (hround : s'.currentRound = s.currentRound) (howner : s'.ownerServerId = s.ownerServerId) :
    Named room' s' := by
  have hbound := hn.bound
  rcases hroom with ⟨hsame, hname⟩ | hgrown
  · refine ⟨by omega, fun heq hknows => ?_⟩
    rw [howner] at hknows ⊢
    rw [hname]
    exact hn.right (by omega) hknows
  · refine ⟨?_, fun heq => ?_⟩ <;> omega

/-- A session that has just copied the metadata of the room. -/
theorem current (hcurrent : s.Current room) : Named room s :=
  ⟨Int.le_of_eq hcurrent.round, fun _ _ => hcurrent.owner⟩

/-- A message that opens a round. -/
theorem opened {m : DistributedEventMessage} {r : Int} (hopens : Opens s s' m r)
    (hle : r ≤ room.currentRound)
    (howner : r = room.currentRound → room.ownerServerId = some m.sourceServerId) :
    Named room s' := by
  have hround := hopens.current
  refine ⟨by omega, fun heq _ => ?_⟩
  exact hopens.owner.trans (howner (by omega)).symm

end Named

/-- A turn leaves its session with the metadata of the room, or both as they were. -/
theorem named_left {h : Host} {call : SessionCall} {room : GameRoom} {s : GameSession}
    (hleaves : Leaves h call room s) (hn : Named h.room h.session) : Named room s := by
  rcases current_left hleaves with hcurrent | ⟨rfl, -, hround, howner⟩
  · exact Named.current hcurrent
  · exact hn.advance (.inl ⟨rfl, rfl⟩) hround howner

/-! ## The invariant

A step touches one server at most; the others are as they were while the room may have gone on.  So
there are three cases for one server: it was left alone, it took a turn, or a message reached it. -/

/-- What holds of a cluster in which the rounds are opened by the owner. -/
structure Owned (c : Cluster) : Prop where
  /-- What holds of every cluster, -/
  consistent : Consistent c
  /-- and of the rounds of its room. -/
  counted : Counted c.room
  /-- What opens the current round comes from the owner, and nothing opens a later one. -/
  messages : ∀ d ∈ c.inFlight, ∀ r, d.2.event.opensRound = some r → r ≤ c.room.currentRound ∧
    (r = c.room.currentRound → c.room.ownerServerId = some d.2.sourceServerId)
  /-- Every server's timer is right, -/
  timers : ∀ id s, c.servers.get? id = some s → Timed c.room id s.session
  /-- and so is the name it knows. -/
  names : ∀ id s, c.servers.get? id = some s → Named c.room s.session

variable {c : Cluster} {planningTimeout : Time}

/-- **A step keeps the timers right.** -/
theorem Owned.timed_next (ho : Owned c) {call : ClusterCall} {id : String} {s : Server}
    (hk : (c.next planningTimeout call).servers.get? id = some s) :
    Timed (c.next planningTimeout call).room id s.session := by
  have hc := ho.consistent
  obtain ⟨hcounted, hgoes⟩ := round_next hc ho.counted planningTimeout call
  have htouched := server_next hc hk
  generalize s.session = session at htouched
  cases htouched with
  | kept hget _ _ => exact (ho.timers id _ hget).advance hgoes rfl rfl (.inl rfl)
  | hydrated hget => exact Timed.stopped rfl hcounted
  | @turned _ turn t hget =>
    obtain ⟨room, session, hleaves, hroom, hbare⟩ := left_turn hc hget turn
    have hserver : t.session.serverId = id := (hc.servers id t hget).serverId
    have ht := timed_left (h := t.host c.room) hc.room ho.counted hleaves (by
      show Timed c.room t.session.serverId t.session
      rw [hserver]
      exact ho.timers id t hget)
    replace ht : Timed room t.session.serverId session := ht
    rw [hserver] at ht
    show Timed (c.turn id turn).room id _
    rw [hroom]
    refine ht.advance (.inl ⟨rfl, rfl⟩) ?_ ?_ (.inl ?_)
    · exact congr_bare GameSession.planningTimerRound (fun _ => rfl) hbare
    · exact congr_bare GameSession.timer (fun _ => rfl) hbare
    · exact congr_bare GameSession.ownerServerId (fun _ => rfl) hbare
  | @delivered index now _ m t hflight hget hother =>
    have hserver := (hc.servers id t hget).serverId
    have ht := (ho.timers id t hget).advance hgoes rfl rfl (.inl rfl)
    have hmem : (id, m) ∈ c.inFlight := List.mem_of_getElem? hflight
    rcases hopens : m.event.opensRound with _ | r
    · have hquiet := quiet_aligned t.session hopens now
      rcases hquiet.timer with ⟨-, hround, htimer⟩ | ⟨-, hstopped⟩
      · exact ht.advance (.inl ⟨rfl, rfl⟩) hround htimer (.inl hquiet.owner)
      · exact Timed.stopped hstopped hcounted
    · obtain ⟨hle, hsource⟩ := ho.messages _ hmem r hopens
      have hroom : (c.next planningTimeout (.deliver index now)).room = c.room :=
        (c.deliver_frame index now).1
      have hopened := (opens_aligned t.session hopens now).keep m.buffered
      refine ht.opened hserver hopened ?_ ?_
      · rw [hroom]
        exact hle
      · rw [hroom]
        exact hsource

/-- **A step keeps the names right.** -/
theorem Owned.named_next (ho : Owned c) {call : ClusterCall} {id : String} {s : Server}
    (hk : (c.next planningTimeout call).servers.get? id = some s) :
    Named (c.next planningTimeout call).room s.session := by
  have hc := ho.consistent
  obtain ⟨hcounted, hgoes⟩ := round_next hc ho.counted planningTimeout call
  have htouched := server_next hc hk
  generalize s.session = session at htouched
  cases htouched with
  | kept hget _ _ => exact (ho.names id _ hget).advance hgoes rfl rfl
  | hydrated hget => exact ⟨hcounted.nonneg, fun _ hknows => absurd rfl hknows⟩
  | @turned _ turn t hget =>
    obtain ⟨room, session, hleaves, hroom, hbare⟩ := left_turn hc hget turn
    have hn : Named room session := named_left hleaves (ho.names id t hget)
    show Named (c.turn id turn).room _
    rw [hroom]
    refine hn.advance (.inl ⟨rfl, rfl⟩) ?_ ?_
    · exact congr_bare GameSession.currentRound (fun _ => rfl) hbare
    · exact congr_bare GameSession.ownerServerId (fun _ => rfl) hbare
  | @delivered index now _ m t hflight hget hother =>
    have hroom : (c.next planningTimeout (.deliver index now)).room = c.room :=
      (c.deliver_frame index now).1
    rw [hroom]
    rcases hopens : m.event.opensRound with _ | r
    · have hquiet := quiet_aligned t.session hopens now
      exact (ho.names id t hget).advance (.inl ⟨rfl, rfl⟩) hquiet.current hquiet.owner
    · obtain ⟨hle, hsource⟩ := ho.messages _ (List.mem_of_getElem? hflight) r hopens
      have hopened := (opens_aligned t.session hopens now).keep m.buffered
      exact Named.opened hopened hle hsource

/-- **A step keeps the invariant**, if a round is opened by the owner. -/
theorem Owned.next (ho : Owned c) {call : ClusterCall} (hopens : c.OpensAsOwner call) :
    Owned (c.next planningTimeout call) := by
  have hc := ho.consistent
  obtain ⟨hcounted, hgoes⟩ := round_next hc ho.counted planningTimeout call
  refine ⟨hc.next planningTimeout call, hcounted, fun d hd r hr => ?_, fun id s hk => ho.timed_next hk,
    fun id s hk => ho.named_next hk⟩
  rcases mem_inFlight_next hd with hold | ⟨id, turn, s, rfl, hget, hm, -⟩
  · obtain ⟨hle, hsource⟩ := ho.messages d hold r hr
    rcases hgoes with ⟨hround, howner⟩ | hgrown
    · rw [hround, howner]
      exact ⟨hle, hsource⟩
    · refine ⟨by omega, fun heq => ?_⟩
      omega
  · have hs := hc.servers id s hget
    obtain ⟨room, hdone, hevent, hid⟩ := mem_published hs hc.room hc.quiet hm
    have hroom : (c.next planningTimeout (.turn id turn)).room = room.told := by
      show (c.turn id turn).room = _
      rw [turn_eq hget]
      exact hdone.saved
    obtain ⟨hround, howner⟩ := opensRound_of_done hc.quiet hdone.does hevent hr
    rw [hroom, currentRound_told, owner_told, hid]
    refine ⟨Int.le_of_eq hround, fun _ => ?_⟩
    rcases howner with ⟨hkeeps, hsame⟩ | htakes
    · rw [hsame]
      refine hopens hkeeps s (Option.mem_def.mpr hget) ?_
      exact (raises_iff (h := s.host c.room) hc.room.sound hc.quiet hdone.does).mp
        (List.ne_nil_of_mem hevent)
    · rw [htakes]
      exact congrArg some hs.serverId

/-- At first there is one server, without a timer. -/
theorem owned_initial (roomId serverId : String) (planningTimeout : Time) (side : PlayerSide) :
    Owned (Cluster.initial roomId serverId planningTimeout side) := by
  have hcounted := counted_initial roomId serverId planningTimeout side
  have hnew : ∀ id s, (Cluster.initial roomId serverId planningTimeout side).servers.get? id = some s →
      s = Server.new roomId serverId planningTimeout := by
    intro id s hget
    replace hget : _ = some s := (Dict.get?_set _ _ _ _).symm.trans hget
    split at hget
    · cases hget
      rfl
    · cases hget
  refine ⟨consistent_initial _ _ _ _, hcounted, fun d hd => ?_, fun id s hget => ?_, fun id s hget => ?_⟩
  · cases hd
  · rw [hnew id s hget]
    exact Timed.stopped rfl hcounted
  · rw [hnew id s hget]
    exact ⟨hcounted.nonneg, fun _ hknows => absurd rfl hknows⟩

/-! ## The owner's server

The room's name changes only when a server opens a round and writes its own; all other turns keep
it.  So the owner while a round is planned is a server that has begun a round, or the one that
created the room and let the second player in. -/

/-- The room names an owner; and while a round is planned, that server is there and has loaded the
    room. -/
structure Led (c : Cluster) : Prop where
  /-- The room has an owner from the start. -/
  named : c.room.ownerServerId ≠ none
  /-- Whoever opened the round has loaded the room to do so. -/
  loaded : c.room.phase = .planning → ∀ id, c.room.ownerServerId = some id →
    ∃ s, c.servers.get? id = some s ∧ s.session.ownerServerId ≠ none

/-- A turn leaves the owner as it is, or resolves a round and takes the room over. -/
theorem owner_left {h : Host} {call : SessionCall} {room : GameRoom} {s : GameSession}
    (hleaves : Leaves h call room s) : room.ownerServerId = h.room.ownerServerId ∨
      (∃ ready now, Resolves h call ready now) ∧ room.ownerServerId = some h.session.serverId := by
  cases hleaves with
  | connect | disconnect | refuse _ _ | look _ _ | move _ _ | abandon _ _ => exact .inl rfl
  | join _ =>
    rw [owner_told]
    exact .inl (owner_joined _ _ _)
  | decide _ _ =>
    rw [owner_told, decideEncounter]
    split <;> exact .inl rfl
  | resolve hres =>
    rw [owner_told, owner_resolved]
    rcases owner_of_resolves hres with ⟨-, hsame⟩ | ⟨-, htakes⟩
    · exact .inl hsame
    · exact .inr ⟨⟨_, _, hres⟩, htakes⟩

/-- The second player opens round 1. -/
theorem joined_begins {room : GameRoom} (hs : Sound room) {playerId : PlayerId}
    (hr : room.joinRefusal playerId = none) (deadline : Time) :
    (room.joined playerId deadline).currentRound =
        (if room.players.a.isSome then 1 else room.currentRound) ∧
      (room.joined playerId deadline).phase =
        if room.players.a.isSome then .planning else room.phase := by
  rcases seats_cases hs.seats (joinRefusal_none hr) with ⟨hp, hv⟩ | ⟨p, hp, hv⟩
  · rw [joined, started, seated, hv, hp]
    exact ⟨rfl, rfl⟩
  · rw [joined, started, seated, hv, hp]
    exact ⟨rfl, rfl⟩

/-- Whoever begins a round does something. -/
theorem does_of_begins {h : Host} {call : SessionCall} (hbegins : h.beginsRound call = true) :
    ∃ room, Does h call room := by
  cases call with
  | addPlayer playerId now =>
    obtain ⟨hr, -⟩ := Bool.and_eq_true_iff.mp hbegins
    exact ⟨_, .join (Option.isNone_iff_eq_none.mp hr)⟩
  | checkAndResolveIfReady _ | planningTimeout _ _ | backupPlanningTimeout _ _ =>
    rw [Host.beginsRound] at hbegins
    obtain ⟨ready, now, hres⟩ := (raises_iff_resolves rfl).mp hbegins
    exact ⟨_, .resolve hres⟩
  | onPlayerConnected _ _ | onPlayerDisconnected _ | forceGameOver | moveUnits _ _
  | encounterDecision _ _ _ | getGameState _ | reconnectSync _ _ => cases hbegins

/-- Whoever resolves a round begins the next one. -/
theorem begins_of_resolves {h : Host} {call : SessionCall} {ready : GameRoom} {now : Time}
    (hres : Resolves h call ready now) : h.beginsRound call = true := by
  have hmay : call.mayResolve = true := by
    cases hres <;> rfl
  have hraises := (raises_iff_resolves hmay).mpr ⟨ready, now, hres⟩
  cases hres with
  | ready _ _ | timeout _ _ | backup _ _ => exact hraises

/-- And whoever begins one raises events of it. -/
theorem raises_of_begins {h : Host} {call : SessionCall} (hbegins : h.beginsRound call = true) :
    h.raises call = true := by
  cases call with
  | addPlayer _ _ | checkAndResolveIfReady _ | planningTimeout _ _ | backupPlanningTimeout _ _ =>
    exact hbegins
  | onPlayerConnected _ _ | onPlayerDisconnected _ | forceGameOver | moveUnits _ _
  | encounterDecision _ _ _ | getGameState _ | reconnectSync _ _ => cases hbegins

/-- **A turn begins a round, and the round of the room grows; or the round stays**, and no planning phase
    begins. -/
theorem begins_left {h : Host} (hroom : InSession h.room) (hcounted : Counted h.room)
    {call : SessionCall} {room : GameRoom} {s : GameSession} (hleaves : Leaves h call room s) :
    h.beginsRound call = true ∧ h.room.currentRound < room.currentRound ∨
      h.beginsRound call = false ∧ room.currentRound = h.room.currentRound ∧
        (room.phase = .planning → h.room.phase = .planning) := by
  have hidle : (∀ room, ¬ Does h call room) → h.beginsRound call = false := by
    intro hno
    refine Bool.eq_false_iff.mpr fun hbegins => ?_
    obtain ⟨room, hdoes⟩ := does_of_begins hbegins
    exact hno room hdoes
  cases hleaves with
  | connect | disconnect => exact .inr ⟨rfl, rfl, id⟩
  | refuse hno _ | look hno _ => exact .inr ⟨hidle hno, rfl, id⟩
  | @join playerId now hr =>
    obtain ⟨hround, hphase⟩ := joined_begins hroom.sound hr (now + h.session.planningTimeout)
    have hzero := hcounted.waiting (joinRefusal_none hr)
    have hbegins : h.beginsRound (.addPlayer playerId now) = h.room.players.a.isSome := by
      rw [Host.beginsRound, Host.raises, hr]
      rfl
    rw [hbegins, currentRound_told, hround]
    by_cases hfull : h.room.players.a.isSome = true
    · rw [if_pos hfull]
      exact .inl ⟨hfull, by omega⟩
    · rw [if_neg hfull]
      refine .inr ⟨Bool.eq_false_iff.mpr hfull, rfl, fun hplanning => ?_⟩
      rw [if_neg hfull] at hphase
      exact hphase.symm.trans hplanning
  | move _ _ => exact .inr ⟨rfl, rfl, id⟩
  | @decide side edgeId decision hconn hr =>
    have hframe := decideEncounter_frame h.room edgeId side decision
    exact .inr ⟨rfl, hframe.currentRound, fun hplanning => hframe.phase.symm.trans hplanning⟩
  | @resolve _ ready now hres =>
    obtain ⟨-, hgrown⟩ := counted_of_resolves hroom hcounted hres (now + h.session.planningTimeout)
    rw [currentRound_told]
    exact .inl ⟨begins_of_resolves hres, hgrown⟩
  | abandon _ _ => exact .inr ⟨rfl, rfl, fun hplanning => by cases hplanning⟩

/-- Whoever begins a round leaves the owner as it is, or takes the room over; and it has the metadata of
    the room. -/
theorem leads_left {h : Host} {call : SessionCall} {room : GameRoom} {s : GameSession}
    (hleaves : Leaves h call room s) (hbegins : h.beginsRound call = true) :
    s.Current room ∧ (call.keepsOwner = true ∧ room.ownerServerId = h.room.ownerServerId ∨
      room.ownerServerId = some h.session.serverId) := by
  cases hleaves with
  | connect | disconnect | move _ _ | decide _ _ | abandon _ _ => cases hbegins
  | refuse hno _ | look hno _ =>
    obtain ⟨room, hdoes⟩ := does_of_begins hbegins
    exact absurd hdoes (hno room)
  | join _ => exact ⟨⟨rfl, rfl, rfl⟩, .inl ⟨rfl, owner_joined _ _ _⟩⟩
  | @resolve _ ready now hres =>
    rw [GameSession.afterRound, owner_told, owner_resolved]
    refine ⟨(current_opened _ _ _ _ _).told, ?_⟩
    rcases owner_of_resolves hres with hkeeps | ⟨-, htakes⟩
    · exact .inl hkeeps
    · exact .inr htakes

/-- A server that knows of an owner does not forget it. -/
theorem knows_next (hc : Consistent c) {call : ClusterCall}
    (hnamed : (c.next planningTimeout call).room.ownerServerId ≠ none) {id : String} {s t : Server}
    (hget : c.servers.get? id = some s) (hknows : s.session.ownerServerId ≠ none)
    (hk : (c.next planningTimeout call).servers.get? id = some t) :
    t.session.ownerServerId ≠ none := by
  have htouched := server_next hc hk
  generalize t.session = session at htouched
  cases htouched with
  | @kept _ _ s' hget' _ _ =>
    cases hget.symm.trans hget'
    exact hknows
  | hydrated hnone =>
    rw [hnone] at hget
    cases hget
  | @turned _ turn s' hget' =>
    cases hget.symm.trans hget'
    obtain ⟨room, session, hleaves, hroom, hbare⟩ := left_turn hc hget turn
    rw [congr_bare GameSession.ownerServerId (fun _ => rfl) hbare]
    rcases current_left hleaves with hcurrent | ⟨-, -, -, hsame⟩
    · rw [hcurrent.owner, ← hroom]
      exact hnamed
    · rw [hsame]
      exact hknows
  | @delivered index now _ m s' hflight hget' hother =>
    cases hget.symm.trans hget'
    show (s.session.aligned m now).ownerServerId ≠ none
    rcases hopens : m.event.opensRound with _ | r
    · rw [(quiet_aligned s.session hopens now).owner]
      exact hknows
    · rw [(opens_aligned s.session hopens now).owner]
      exact Option.some_ne_none _

/-- The room that a turn leaves names an owner. -/
theorem owner_next_ne_none (hc : Consistent c) (hnamed : c.room.ownerServerId ≠ none)
    (planningTimeout : Time) (call : ClusterCall) :
    (c.next planningTimeout call).room.ownerServerId ≠ none := by
  by_cases hturn : ∃ id turn, call = .turn id turn
  · obtain ⟨id, turn, rfl⟩ := hturn
    show (c.turn id turn).room.ownerServerId ≠ none
    rcases hget : c.servers.get? id with _ | s
    · rw [turn_unknown hget]
      exact hnamed
    · obtain ⟨room, session, hleaves, hroom, -⟩ := left_turn hc hget turn
      rw [hroom]
      rcases owner_left hleaves with hsame | ⟨-, htakes⟩
      · rw [hsame]
        exact hnamed
      · rw [htakes]
        exact Option.some_ne_none _
  · rw [(c.next_frame planningTimeout fun id turn heq => hturn ⟨id, turn, heq⟩).1]
    exact hnamed

/-- **A step keeps the owner's server in the lead**, if a round is opened by the owner. -/
theorem Led.next (hl : Led c) (ho : Owned c) {call : ClusterCall} (hopens : c.OpensAsOwner call) :
    Led (c.next planningTimeout call) := by
  have hc := ho.consistent
  have hnamed := owner_next_ne_none hc hl.named planningTimeout call
  refine ⟨hnamed, fun hplanning k hk => ?_⟩
  -- whoever has led before leads on
  have hkeep : c.room.phase = .planning → c.room.ownerServerId = some k →
      ∃ t, (c.next planningTimeout call).servers.get? k = some t ∧ t.session.ownerServerId ≠ none := by
    intro hwas howner
    obtain ⟨s, hget, hknows⟩ := hl.loaded hwas k howner
    obtain ⟨t, hget'⟩ := get?_next hget planningTimeout call
    exact ⟨t, hget', knows_next hc hnamed hget hknows hget'⟩
  by_cases hturn : ∃ id turn, call = .turn id turn
  swap
  · have hroom := (c.next_frame planningTimeout fun id turn heq => hturn ⟨id, turn, heq⟩).1
    rw [hroom] at hplanning hk
    exact hkeep hplanning hk
  obtain ⟨id, turn, rfl⟩ := hturn
  rcases hget : c.servers.get? id with _ | s
  · have hsame : c.next planningTimeout (.turn id turn) = c := turn_unknown hget turn
    rw [hsame] at hplanning hk
    exact hkeep hplanning hk
  obtain ⟨room, session, hleaves, hroom, hbare⟩ := left_turn hc hget turn
  replace hroom : (c.next planningTimeout (.turn id turn)).room = room := hroom
  rw [hroom] at hplanning hk hnamed
  by_cases hbegins : (s.host c.room).beginsRound turn = true
  · -- whoever begins a round is the owner, and leaves with the metadata of the room
    obtain ⟨hcurrent, howner⟩ := leads_left hleaves hbegins
    have hid : room.ownerServerId = some id := by
      rcases howner with ⟨hkeeps, hsame⟩ | htakes
      · rw [hsame]
        exact hopens hkeeps s (Option.mem_def.mpr hget) (raises_of_begins hbegins)
      · rw [htakes]
        exact congrArg some (hc.servers id s hget).serverId
    cases hk.symm.trans hid
    obtain ⟨t, hget'⟩ := get?_next hget planningTimeout (.turn k turn)
    refine ⟨t, hget', ?_⟩
    have hturned : t.session = ((s.host c.room).next turn).session := by
      have heq := (get?_turn c k k turn).symm.trans hget'
      rw [if_pos rfl, hget] at heq
      cases heq
      rfl
    rw [hturned, congr_bare GameSession.ownerServerId (fun _ => rfl) hbare, hcurrent.owner]
    exact hnamed
  · obtain ⟨hno, -⟩ | ⟨-, -, hwas⟩ := begins_left (h := s.host c.room) hc.room ho.counted hleaves
    · exact absurd hno hbegins
    rcases owner_left hleaves with hsame | ⟨⟨ready, now, hres⟩, -⟩
    · exact hkeep (hwas hplanning) (hsame.symm.trans hk)
    · exact absurd (begins_of_resolves hres) hbegins

/-- At first no round is planned. -/
theorem led_initial (roomId serverId : String) (planningTimeout : Time) (side : PlayerSide) :
    Led (Cluster.initial roomId serverId planningTimeout side) := by
  refine ⟨Option.some_ne_none _, fun hplanning => ?_⟩
  have hphase : (Cluster.initial roomId serverId planningTimeout side).room.phase = .watingForPlayers :=
    (initialRoom_fields roomId).phase
  rw [hphase] at hplanning
  cases hplanning

/-! ## Who has taken the round up

A turn that begins a round strikes everyone off the roll: their timers are for an earlier round now.
It puts its own server on it if it starts a timer; the second player's joining begins a round and
starts none. -/

/-- What holds of a roll: while a round is planned, those on it are the servers whose timer is for this
    round. -/
structure Called (roll : Roll) : Prop where
  /-- The servers are right about owner and timers, -/
  owned : Owned roll.cluster
  /-- the owner's server is there, -/
  led : Led roll.cluster
  /-- and only servers are on the roll. -/
  known : ∀ id ∈ roll.present, ∃ s, roll.cluster.servers.get? id = some s
  present : roll.cluster.room.phase = .planning → ∀ id s, roll.cluster.servers.get? id = some s →
    (id ∈ roll.present ↔ s.session.planningTimerRound = roll.cluster.room.currentRound)

variable {roll : Roll}

/-- A message does not touch the other servers' places on the roll. -/
theorem mem_afterMessage {id k : String} {m : DistributedEventMessage} (hne : k ≠ id) :
    k ∈ roll.afterMessage id m ↔ k ∈ roll.present := by
  have hfilter : k ∈ roll.present.filter (· ≠ id) ↔ k ∈ roll.present := by
    rw [List.mem_filter, decide_eq_true_eq]
    exact ⟨fun h => h.1, fun h => ⟨h, hne⟩⟩
  rw [Roll.afterMessage]
  split
  · split
    · rw [List.mem_cons]
      exact ⟨fun h => h.resolve_left hne, .inr⟩
    · exact hfilter
  · split
    · exact hfilter
    · rfl

/-- Whoever is on the roll was so before, or is the server that the call is for. -/
theorem mem_answers {call : ClusterCall} {k : String} (hmem : k ∈ roll.answers call) :
    k ∈ roll.present ∨ ∃ s, roll.cluster.servers.get? k = some s := by
  cases call with
  | hydrate _ | connect _ | disconnect => exact .inl hmem
  | turn id turn =>
    rw [Roll.answers, Roll.afterTurn] at hmem
    rcases hget : roll.cluster.servers.get? id with _ | s
    · rw [hget] at hmem
      exact .inl hmem
    rw [hget] at hmem
    rcases List.mem_append.mp hmem with hnew | hold
    · split at hnew
      · rw [List.mem_singleton.mp hnew]
        exact .inr ⟨s, hget⟩
      · cases hnew
    · split at hold
      · cases hold
      · exact .inl hold
  | deliver index now =>
    rw [Roll.answers] at hmem
    split at hmem
    · exact .inl hmem
    · rename_i id m hflight
      split at hmem
      · exact .inl hmem
      · rename_i hreaches
        rcases em (k = id) with rfl | hne
        · exact .inr (Option.ne_none_iff_exists'.mp (not_or.mp hreaches).2)
        · exact .inl ((mem_afterMessage hne).mp hmem)

/-- The roll after a turn of a server that is there. -/
theorem answers_turn {id : String} {s : Server} (hget : roll.cluster.servers.get? id = some s)
    (turn : SessionCall) : roll.answers (.turn id turn) =
      (if (s.host roll.cluster.room).startsTimer turn then [id] else []) ++
        if (s.host roll.cluster.room).beginsRound turn then [] else roll.present := by
  rw [Roll.answers, Roll.afterTurn, hget]

/-- A server that a message of another one reaches. -/
theorem answers_deliver {index : Nat} {now : Time} {id : String} {m : DistributedEventMessage}
    {s : Server} (hflight : roll.cluster.inFlight[index]? = some (id, m))
    (hget : roll.cluster.servers.get? id = some s) (hother : m.sourceServerId ≠ id) :
    roll.answers (.deliver index now) = roll.afterMessage id m := by
  rw [Roll.answers, hflight]
  refine if_neg (not_or.mpr ⟨hother, ?_⟩)
  rw [hget]
  exact Option.some_ne_none _

/-- Without a turn, the roll of the other servers stays. -/
theorem mem_answers_untouched {call : ClusterCall} (hcall : ∀ id turn, call ≠ .turn id turn)
    {k : String} (hown : ∀ index now m, call = .deliver index now →
      roll.cluster.inFlight[index]? = some (k, m) → m.sourceServerId = k) :
    k ∈ roll.answers call ↔ k ∈ roll.present := by
  cases call with
  | hydrate _ | connect _ | disconnect => rfl
  | turn id turn => exact absurd rfl (hcall id turn)
  | deliver index now =>
    rw [Roll.answers]
    split
    · rfl
    · rename_i id m hflight
      split
      · rfl
      · rename_i hreaches
        refine mem_afterMessage ?_
        rintro rfl
        exact hreaches (.inl (hown index now m rfl hflight))

/-- The other servers have still to be told of a round that a turn begins. -/
theorem Called.present_other (ha : Called roll) {id k : String} {turn : SessionCall} (hne : k ≠ id)
    (hplanning : (roll.cluster.turn id turn).room.phase = .planning) {s : Server}
    (hget : roll.cluster.servers.get? k = some s) :
    k ∈ roll.answers (.turn id turn) ↔
      s.session.planningTimerRound = (roll.cluster.turn id turn).room.currentRound := by
  have hc := ha.owned.consistent
  rcases hget' : roll.cluster.servers.get? id with _ | s'
  · rw [turn_unknown hget'] at hplanning ⊢
    rw [Roll.answers, Roll.afterTurn, hget']
    exact ha.present hplanning k s hget
  obtain ⟨room, s'', hleaves, hroom, -⟩ := left_turn hc hget' turn
  rw [hroom] at hplanning ⊢
  rw [answers_turn hget', List.mem_append]
  have hnot : k ∉ if (s'.host roll.cluster.room).startsTimer turn = true then [id] else [] := by
    split
    · rw [List.mem_singleton]
      exact hne
    · exact List.not_mem_nil
  rw [or_iff_right hnot]
  rcases begins_left (h := s'.host roll.cluster.room) hc.room ha.owned.counted hleaves with
    ⟨hbegins, hgrown⟩ | ⟨hbegins, hsame, hwas⟩
  · have hbound := (ha.owned.timers k s hget).bound
    replace hgrown : roll.cluster.room.currentRound < room.currentRound := hgrown
    rw [hbegins]
    exact iff_of_false List.not_mem_nil (by omega)
  · rw [hbegins, hsame]
    exact ha.present (hwas hplanning) k s hget

/-- The server of a turn starts a timer for the round that the turn leaves, or keeps the one it has. -/
theorem Called.present_turned (ha : Called roll) {k : String} {turn : SessionCall}
    (hplanning : (roll.cluster.turn k turn).room.phase = .planning) {s : Server}
    (hget : roll.cluster.servers.get? k = some s) :
    k ∈ roll.answers (.turn k turn) ↔
      ((s.host roll.cluster.room).next turn).session.planningTimerRound =
        (roll.cluster.turn k turn).room.currentRound := by
  have hc := ha.owned.consistent
  obtain ⟨room, s', hleaves, hroom, hbare⟩ := left_turn hc hget turn
  rw [hroom] at hplanning ⊢
  rw [answers_turn hget, List.mem_append, congr_bare GameSession.planningTimerRound (fun _ => rfl) hbare]
  cases arms_left hleaves with
  | stopped _ hover =>
    rw [hover] at hplanning
    cases hplanning
  | started hstarts _ hround =>
    rw [hstarts]
    exact iff_of_true (.inl (List.mem_singleton_self k)) hround
  | kept hstarts _ hround _ =>
    replace hround : s'.planningTimerRound = s.session.planningTimerRound := hround
    rw [hstarts, hround]
    refine (or_iff_right List.not_mem_nil).trans ?_
    rcases begins_left (h := s.host roll.cluster.room) hc.room ha.owned.counted hleaves with
      ⟨hbegins, hgrown⟩ | ⟨hbegins, hsame, hwas⟩
    · -- whoever is the second to join starts no timer
      have hbound := (ha.owned.timers k s hget).bound
      replace hgrown : roll.cluster.room.currentRound < room.currentRound := hgrown
      rw [hbegins]
      exact iff_of_false List.not_mem_nil (by omega)
    · rw [hbegins, hsame]
      exact ha.present (hwas hplanning) k s hget

/-- A message of another server starts a timer for the round that it opens, stops the timer if the game
    is over, and does nothing to it otherwise. -/
theorem Called.present_delivered (ha : Called roll) {k : String} {m : DistributedEventMessage}
    (hplanning : roll.cluster.room.phase = .planning) {s : Server}
    (hget : roll.cluster.servers.get? k = some s) (now : Time) :
    k ∈ roll.afterMessage k m ↔
      (s.session.aligned m now).planningTimerRound = roll.cluster.room.currentRound := by
  have hgone : k ∉ roll.present.filter (· ≠ k) := by
    rw [List.mem_filter, decide_eq_true_eq]
    exact fun hmem => hmem.2 rfl
  rw [Roll.afterMessage]
  rcases hopens : m.event.opensRound with _ | r
  · show k ∈ (if _ then _ else _) ↔ _
    rcases (quiet_aligned s.session hopens now).timer with ⟨hgoes, hround, -⟩ | ⟨hover, hstopped⟩
    · rw [hgoes, hround]
      exact ha.present hplanning k s hget
    · have hnonneg := ha.owned.counted.nonneg
      rw [if_pos hover, hstopped]
      exact iff_of_false hgone (by omega)
  · show k ∈ (if _ then _ else _) ↔ _
    rw [(opens_aligned s.session hopens now).round]
    split
    · rename_i heq
      exact iff_of_true List.mem_cons_self heq
    · rename_i hne
      exact iff_of_false hgone hne

/-- **One server, one step.**  While a round is planned, a server is on the roll after a step exactly if
    its timer is for the round. -/
theorem Called.present_next (ha : Called roll) {call : ClusterCall}
    (hplanning : (roll.cluster.next planningTimeout call).room.phase = .planning) {k : String}
    {t : Server} (hk : (roll.cluster.next planningTimeout call).servers.get? k = some t) :
    k ∈ roll.answers call ↔
      t.session.planningTimerRound = (roll.cluster.next planningTimeout call).room.currentRound := by
  have hc := ha.owned.consistent
  have htouched := server_next hc hk
  generalize t.session = session at htouched
  cases htouched with
  -- the server was left alone: by another's turn, or by a step that is no turn
  | @kept _ _ s hget hturn hown =>
    by_cases hother : ∃ id turn, call = .turn id turn
    · obtain ⟨id, turn, rfl⟩ := hother
      refine ha.present_other ?_ hplanning hget
      rintro rfl
      exact hturn turn rfl
    · have hcall : ∀ id turn, call ≠ .turn id turn := fun id turn heq => hother ⟨id, turn, heq⟩
      rw [(roll.cluster.next_frame planningTimeout hcall).1] at hplanning ⊢
      rw [mem_answers_untouched hcall hown]
      exact ha.present hplanning k s hget
  | hydrated hget hcall =>
    have hnonneg := (round_next hc ha.owned.counted planningTimeout call).1.nonneg
    refine iff_of_false (fun hmem => ?_) (fun heq : (-1 : Int) = _ => by omega)
    have hmem' : k ∈ roll.present := by
      rcases hcall with ⟨_, rfl⟩ | ⟨_, rfl⟩ <;> exact hmem
    obtain ⟨s, hget'⟩ := ha.known k hmem'
    rw [hget] at hget'
    cases hget'
  | turned hget => exact ha.present_turned hplanning hget
  | @delivered index now _ m s hflight hget hother =>
    have hroom : (roll.cluster.next planningTimeout (.deliver index now)).room = roll.cluster.room :=
      (roll.cluster.deliver_frame index now).1
    rw [hroom] at hplanning ⊢
    rw [answers_deliver hflight hget hother]
    exact ha.present_delivered hplanning hget now

/-- **A step keeps the roll**, if a round is opened by the owner. -/
theorem Called.next (ha : Called roll) {call : ClusterCall} (hopens : roll.cluster.OpensAsOwner call) :
    Called (roll.next planningTimeout call) := by
  refine ⟨ha.owned.next hopens, ha.led.next ha.owned hopens, fun k hmem => ?_,
    fun hplanning k t hk => ha.present_next hplanning hk⟩
  rcases mem_answers hmem with hold | ⟨s, hget⟩
  · obtain ⟨s, hget⟩ := ha.known k hold
    exact get?_next hget planningTimeout call
  · exact get?_next hget planningTimeout call

/-- At first no round is planned, and nobody is on the roll. -/
theorem called_initial (roomId serverId : String) (planningTimeout : Time) (side : PlayerSide) :
    Called (rolls roomId serverId planningTimeout side).start := by
  have hled := led_initial roomId serverId planningTimeout side
  refine ⟨owned_initial _ _ _ _, hled, ?_, fun hplanning => ?_⟩
  · intro k hmem
    cases hmem
  have hphase : (Cluster.initial roomId serverId planningTimeout side).room.phase = .watingForPlayers :=
    (initialRoom_fields roomId).phase
  have hnot := hphase.symm.trans hplanning
  cases hnot

/-- In a quiet moment the servers have the right names; and they agree if and only if nobody is
    missing. -/
theorem Called.agreed_iff (ha : Called roll) (hquiescent : roll.cluster.Quiescent) :
    roll.cluster.OwnerNamed ∧ (roll.cluster.OwnerAgreed ↔ roll.Complete) := by
  have hnamed : roll.cluster.OwnerNamed := fun id s hget hknows =>
    (ha.owned.names id s hget).right (hquiescent.past id s hget hknows) hknows
  have hpresent := ha.present hquiescent.planning
  refine ⟨hnamed, fun hagreed id s hget hknows => ?_, fun hcomplete => ?_⟩
  · exact (hpresent id s hget).mpr (hagreed.timed id s hget hknows).1
  · have htimed : ∀ id s, roll.cluster.servers.get? id = some s → s.session.ownerServerId ≠ none →
        s.session.planningTimerRound = roll.cluster.room.currentRound ∧ s.session.timer =
          some (if roll.cluster.room.ownerServerId = some id then .planning else .backupPlanning) := by
      intro id s hget hknows
      have hround := (hpresent id s hget).mp (hcomplete id s hget hknows)
      exact ⟨hround, ((ha.owned.timers id s hget).right hround).2⟩
    obtain ⟨id, howner⟩ := Option.ne_none_iff_exists'.mp ha.led.named
    obtain ⟨s, hget, hknows⟩ := ha.led.loaded hquiescent.planning id howner
    have hfirst := (htimed id s hget hknows).2
    rw [if_pos howner] at hfirst
    exact ⟨hnamed, htimed, id, s, howner, hget, hfirst⟩

/-! ## Late messages

The sender of a message takes the place of the owner in the eyes of whoever receives it.  So a
server ends up with the name of the LAST sender it has heard, and it is enough that this is the
owner. -/

/-- A server that knows of an owner has the right name, or has still to hear from the owner. -/
def Heard (c : Cluster) : Prop :=
  ∀ id s, c.servers.get? id = some s → s.session.ownerServerId ≠ none →
    s.session.ownerServerId = c.room.ownerServerId ∨ c.HearsFromOwner id

/-- What a server has still to hear stays on its way, unless it is what is delivered now. -/
theorem hears_next {call : ClusterCall} {id : String} (hhears : c.HearsFromOwner id)
    (howner : (c.next planningTimeout call).room.ownerServerId = c.room.ownerServerId)
    (hstay : ∀ index now m, call = .deliver index now → c.inFlight[index]? = some (id, m) →
      m.sourceServerId ≠ id → m.event.opensRound = none) :
    (c.next planningTimeout call).HearsFromOwner id := by
  obtain ⟨d, hd, rfl, hother, hsource, hopens⟩ := hhears
  refine ⟨d, inFlight_next hd fun index now hcall hflight => ?_, rfl, hother, ?_, hopens⟩
  · rw [hstay index now d.2 hcall hflight hother] at hopens
    cases hopens
  · rw [howner]
    exact hsource

/-- **A step keeps the servers informed**, if late messages do not come last. -/
theorem heard_next (hc : Consistent c) (hh : Heard c) {call : ClusterCall} (hinTurn : c.InTurn call) :
    Heard (c.next planningTimeout call) := by
  intro id s hk hknows
  have htouched := server_next hc hk
  generalize s.session = session at htouched hknows
  cases htouched with
  | @kept _ _ t hget hturn hown =>
    have hstay : ∀ index now m, call = .deliver index now → c.inFlight[index]? = some (id, m) →
        m.sourceServerId ≠ id → m.event.opensRound = none := by
      intro index now m hcall hflight hother
      exact absurd (hown index now m hcall hflight) hother
    have hkeep : (c.next planningTimeout call).room.ownerServerId = c.room.ownerServerId →
        t.session.ownerServerId = (c.next planningTimeout call).room.ownerServerId ∨
          (c.next planningTimeout call).HearsFromOwner id := by
      intro howner
      rcases hh id t hget hknows with hright | hhears
      · exact .inl (hright.trans howner.symm)
      · exact .inr (hears_next hhears howner hstay)
    by_cases hother : ∃ k turn, call = .turn k turn
    · obtain ⟨k, turn, rfl⟩ := hother
      rcases hget' : c.servers.get? k with _ | s'
      · have hsame : c.next planningTimeout (.turn k turn) = c := turn_unknown hget' turn
        exact hkeep (by rw [hsame])
      obtain ⟨room, s'', hleaves, hroom, -⟩ := left_turn hc hget' turn
      have hroom' : (c.next planningTimeout (.turn k turn)).room = room := hroom
      rcases owner_left hleaves with hsame | ⟨⟨ready, now, hres⟩, htakes⟩
      · exact hkeep (by rw [hroom']; exact hsame)
      · -- the server that takes the room over has told everyone of the end of the round
        have hs := hc.servers k s' hget'
        obtain ⟨m, hm, hsource, hevent⟩ := published_of_resolves hs hc.room hres
        refine .inr ⟨(id, m), inFlight_turn hget' turn hm hget, rfl, ?_, ?_, ?_⟩
        · rw [hsource]
          rintro rfl
          exact hturn turn rfl
        · rw [hroom', htakes, hsource]
          exact congrArg some hs.serverId
        · rw [hevent]
          rfl
    · have hcall : ∀ k turn, call ≠ .turn k turn := fun k turn heq => hother ⟨k, turn, heq⟩
      exact hkeep (by rw [(c.next_frame planningTimeout hcall).1])
  | hydrated hget => exact absurd rfl hknows
  | @turned _ turn t hget =>
    obtain ⟨room, s', hleaves, hroom, hbare⟩ := left_turn hc hget turn
    have hroom' : (c.next planningTimeout (.turn id turn)).room = room := hroom
    have howner := congr_bare GameSession.ownerServerId (fun _ => rfl) hbare
    rw [howner] at hknows ⊢
    rcases current_left hleaves with hcurrent | ⟨rfl, -, -, hsame⟩
    · rw [hroom']
      exact .inl hcurrent.owner
    · replace hsame : s'.ownerServerId = t.session.ownerServerId := hsame
      rw [hsame] at hknows ⊢
      rcases hh id t hget hknows with hright | hhears
      · rw [hroom']
        exact .inl hright
      · exact .inr (hears_next hhears (by rw [hroom']; rfl) fun _ _ _ heq => by cases heq)
  | @delivered index now _ m t hflight hget hother =>
    have hroom : (c.next planningTimeout (.deliver index now)).room = c.room :=
      (c.deliver_frame index now).1
    rcases hopens : m.event.opensRound with _ | r
    · have howner := (quiet_aligned t.session hopens now).owner
      replace hknows : (t.session.aligned m now).ownerServerId ≠ none := hknows
      show (t.session.aligned m now).ownerServerId = _ ∨ _
      rw [howner] at hknows ⊢
      rcases hh id t hget hknows with hright | hhears
      · rw [hroom]
        exact .inl hright
      · refine .inr (hears_next hhears (by rw [hroom]) ?_)
        intro i n m' heq hm' _
        cases heq
        rw [hflight] at hm'
        cases hm'
        exact hopens
    · show (t.session.aligned m now).ownerServerId = _ ∨ _
      rw [(opens_aligned t.session hopens now).owner, hroom]
      have hsome : m.event.opensRound.isSome = true := by rw [hopens]; rfl
      rcases hinTurn (id, m) hflight hother hsome with hright | ⟨d, hd, hid, hsource, hname, hd'⟩
      · exact .inl hright.symm
      · refine .inr ⟨d, ?_, hid, ?_, ?_, hd'⟩
        · show d ∈ (c.deliver index now).inFlight
          rw [Cluster.deliver, hflight]
          show d ∈ (Cluster.receives _ id m now).inFlight
          rw [Cluster.receives]
          split <;> exact hd
        · exact hsource
        · rw [hroom]
          exact hname

/-! ## Every run

The first half is a run in which the condition holds and the invariant is carried along; it says
nothing of runs in which a round is opened by somebody else.  The second half allows those. -/

/-- Two players on `s1`, the first of them connected; `s2` has a session of the room. -/
def pairedAcrossCalls : List ClusterCall :=
  [.turn "s1" (.addPlayer ⟨"alice"⟩ 0), .hydrate "s2", .turn "s1" (.addPlayer ⟨"bob"⟩ 5),
    .turn "s1" (.onPlayerConnected .a 10), .deliver 0 20, .deliver 0 20]

/-- The backup timer of `s2` fires, and everyone hears of it. -/
def takenOverCalls : List ClusterCall := pairedAcrossCalls ++
  [.turn "s2" (.backupPlanningTimeout 1 35000), .deliver 0 35010, .deliver 0 35010, .deliver 0 35010,
    .deliver 0 35010]

/-- The two servers of `pair`, and who has taken the round up. -/
def pairRolls : Machine Roll ClusterCall := rolls "room" "s1" 30000 .a

/-- Side A makes its moves on `s1` and side B on `s2`, which finds both complete and closes the
    round; and everyone hears of it. -/
def closedAcrossCalls : List ClusterCall := pairedAcrossCalls ++
  [.turn "s1" (.moveUnits .a ⟨⟨1⟩, ⟨2⟩, 3⟩), .turn "s2" (.moveUnits .b ⟨⟨5⟩, ⟨3⟩, 3⟩),
    .turn "s2" (.checkAndResolveIfReady 20000)] ++ List.replicate 8 (.deliver 0 20010)

/-- Both players join on `s1`, and both of them connect to `s2`. -/
def joinedElsewhereCalls : List ClusterCall :=
  [.turn "s1" (.addPlayer ⟨"alice"⟩ 0), .hydrate "s2", .turn "s1" (.addPlayer ⟨"bob"⟩ 5),
    .deliver 0 20, .deliver 0 20, .turn "s2" (.onPlayerConnected .a 30),
    .turn "s2" (.onPlayerConnected .b 40)]

end HexWar
