/-
  What a player is told of a match is how the room is seated.

  A verdict is made long after the pair was found: the room is created, the two players are seated one
  after the other, and meanwhile anything else may happen, in the room as well.  But a seat that is
  taken stays taken (`seat_kept`), and AddPlayer throws when the room is full or the player is in it
  already.  So a handler that gets through has seated the first player on side A and the second on
  side B, and they are two; a handler that does not tells both of an error.

  All this is about a room until its session is removed from the registry.  After that the id is free,
  and another match may be given it and overwrite the room; it is one of 2 ^ 32.  Hence everything that
  is said of a room here is said of one whose session has never been removed.

  1. The seats of a room: one turn keeps them, and AddPlayerAsync takes them in order.
  2. The invariant `Arranged`: each handler under way, and each update that a call has sent or is about
     to send, is right about the seats (`HandlerSound`, `Told`).
  3. `Grows` is what later steps leave of that, and `handlerSound_left` what a handler's own step adds.
  4. `told_as_seated` reads the invariant off.
-/
import HexWar.Matchmaking.JoinQueue
import HexWar.Session.Course

namespace HexWar

open Lib Lib.Action GameRoom

/-! ## The seats of a room

A room has two seats and fills A first.  Whoever is refused is told so by an exception, and the
handler of the match lets it through to both players. -/

/-- A seat that is taken stays taken. -/
theorem seat_kept {h : Host} (hh : Hosting h) (call : SessionCall) {s : PlayerSide} {p : PlayerId}
    (hseat : h.room.players.get s = some p) : (h.next call).room.players.get s = some p := by
  rcases next_does hh.room hh.quiet call with ⟨room, hdone⟩ | hidle
  · rw [hdone.saved]
    show room.players.get s = some p
    cases hdone.does with
    | join hr =>
      rw [(joined_frame _ _ _).players]
      rcases seats_cases hh.room.sound.seats (joinRefusal_none hr) with ⟨hp, hv⟩ | ⟨q, hp, hv⟩
      -- nobody was there, so no seat was taken
      · rw [hp] at hseat
        cases s <;> cases hseat
      · rw [hp] at hseat
        rw [hp, hv]
        cases s with
        | a => exact hseat
        | b => cases hseat
    | move hconn hr => exact hseat
    | decide hconn hr =>
      rw [(decideEncounter_frame _ _ _ _).players]
      exact hseat
    | resolve hres =>
      rw [(resolved_frame _ _ _).players, (resolves_round hres).2.2.2]
      exact hseat
    | abandon hphase hwinner => exact hseat
  · rw [hidle.kept]
    exact hseat

/-- AddPlayerAsync returns exactly if the room does not refuse the player. -/
theorem succeeds_addPlayerToRoom {h : Host} (hh : Hosting h) (playerId : PlayerId) (now : Time) :
    succeeds (reliable.addPlayerToRoom playerId now) h = (h.room.joinRefusal playerId).isNone := by
  have heq := addPlayerToRoom_eq hh.room.sound.map playerId now
  rcases hr : h.room.joinRefusal playerId with _ | e
  · rw [hr] at heq
    exact succeeds_ok heq
  · rw [hr] at heq
    exact succeeds_error heq

/-- Who is admitted takes the vacant seat. -/
theorem players_admitted {h : Host} (hh : Hosting h) {playerId : PlayerId} {now : Time}
    (hr : h.room.joinRefusal playerId = none) :
    (h.next (.addPlayer playerId now)).room.players =
      h.room.players.set h.room.vacantSide (some playerId) := by
  rw [room_of_does hh.room hh.quiet (.join hr)]
  exact (joined_frame _ _ _).players

/-- The first of two players gets side A, or the room is full with it. -/
theorem admitted_first {h : Host} (hh : Hosting h) {playerId : PlayerId}
    (hr : h.room.joinRefusal playerId = none) (now : Time) :
    (h.next (.addPlayer playerId now)).room.players.a = some playerId ∨
      ∃ p, (h.next (.addPlayer playerId now)).room.players.b = some p := by
  rw [players_admitted hh hr]
  rcases seats_cases hh.room.sound.seats (joinRefusal_none hr) with ⟨hp, hv⟩ | ⟨q, hp, hv⟩
  · rw [hv]
    exact .inl rfl
  · rw [hv]
    exact .inr ⟨playerId, rfl⟩

/-- The second one, whom a full room would refuse, gets side B, and is not the first one. -/
theorem admitted_second {h : Host} (hh : Hosting h) {first second : PlayerId}
    (hfirst : h.room.players.a = some first ∨ ∃ p, h.room.players.b = some p)
    (hr : h.room.joinRefusal second = none) (now : Time) :
    (h.next (.addPlayer second now)).room.players = ⟨some first, some second⟩ ∧ first ≠ second := by
  rw [players_admitted hh hr]
  have hcount := joinRefusal_none hr
  -- the room had one player left to take: the first one, whom the handler has seated or found there
  rcases seats_cases hh.room.sound.seats hcount with ⟨hp, -⟩ | ⟨q, hp, hv⟩
  · rw [hp] at hfirst
    rcases hfirst with ha | ⟨p, hb⟩
    · cases ha
    · cases hb
  · have ha : q = first := by
      rw [hp] at hfirst
      rcases hfirst with ha | ⟨p, hb⟩
      · exact Option.some.inj ha
      · cases hb
    subst ha
    rw [hp, hv]
    refine ⟨rfl, fun heq => ?_⟩
    rw [joinRefusal, if_neg (Nat.not_le_of_lt hcount), hp, heq, if_pos (Or.inl rfl)] at hr
    cases hr

/-! ## The invariant

A handler that is under way has got somewhere: it has seated nobody yet, or the first player, or
both.  What it relies on later is said by the stage it has reached, and what it tells a call is kept
with the call until it is written. -/

namespace Lobby

/-- A player has a seat in a room. -/
def Seats (l : Lobby) (roomId : String) (s : PlayerSide) (p : PlayerId) : Prop :=
  ∃ h, l.sessions.get? roomId = some h ∧ h.room.players.get s = some p

/-- The two players of a match have their seats, and are two. -/
structure Paired (l : Lobby) (roomId : String) (e : MatchFoundEventArgs) : Prop where
  /-- The first player on side A, the second on side B. -/
  seats : ∀ s, l.Seats roomId s (joining e s)
  /-- Nobody was matched with itself and seated twice. -/
  distinct : e.player1.playerId ≠ e.player2.playerId

/-- The players of a match are paired in its room, if there is one, until the session is removed. -/
def Matched (l : Lobby) (room : Option String) (e : MatchFoundEventArgs) : Prop :=
  ∀ roomId, room = some roomId → roomId ∉ l.removed → l.Paired roomId e

/-- The result that a call has or gives tells where its player sits, and opposite whom. -/
def Told (l : Lobby) (c : JoinCall) (r : MatchFoundResult) : Prop :=
  r.roomId ∉ l.removed → ∃ s, r.playerSide = toString s ∧ l.Seats r.roomId s ⟨c.playerId⟩ ∧
    l.Seats r.roomId s.enemy ⟨r.opponentId⟩ ∧ r.opponentId ≠ c.playerId ∧
    r.wsEndpoint = s!"ws://{c.clientHost}/ws/game/{r.roomId}"

/-- What a handler relies on. -/
def HandlerSound (l : Lobby) : MatchTask → Prop
  | .createSession _ | .addPlayer _ _ .a => True
  -- the first player has been let in
  | .addPlayer e roomId .b =>
    roomId ∉ l.removed → l.Seats roomId .a (joining e .a) ∨ ∃ p, l.Seats roomId .b p
  | .find e room _ => l.Matched room e
  | .complete e room side call => l.Matched room e ∧
      ∃ c, l.calls.get? call = some c ∧ c.playerId = (e.player side).playerId

end Lobby

/-- The updates that a call has sent, holds, or is about to send. -/
def JoinCall.updates (c : JoinCall) : List MatchmakingUpdate :=
  c.sent ++ c.completion.toList ++ c.stage.update?.toList

/-- **What holds between two steps.** -/
structure Arranged (l : Lobby) : Prop where
  /-- Every session keeps the invariant of sessions. -/
  hosting : ∀ roomId h, l.sessions.get? roomId = some h → Hosting h
  /-- A session that has never been removed is registered. -/
  listed : ∀ roomId h, l.sessions.get? roomId = some h → roomId ∉ l.removed →
    l.registry.get? roomId = some .registered
  /-- Every handler under way has what it relies on. -/
  handlers : ∀ t ∈ l.handlers, l.HandlerSound t
  /-- Every result that is told, or is going to be, is right. -/
  calls : ∀ call c, l.calls.get? call = some c → ∀ u ∈ c.updates, ∀ r, u.matchResult = some r →
    l.Told c r
  registered : l.Registered

/-! ## What later steps leave

Everything in the invariant is about seats that are taken, so it stays as long as no seat is given
up, and that can happen only to a room whose session has been removed. -/

/-- Who has been removed stays so; no seat is given up in a room that is not; and every call stays that
    of its player. -/
structure Lobby.Grows (l l' : Lobby) : Prop where
  removed : ∀ roomId, roomId ∉ l'.removed → roomId ∉ l.removed
  seats : ∀ roomId s p, roomId ∉ l'.removed → l.Seats roomId s p → l'.Seats roomId s p
  calls : ∀ call c, l.calls.get? call = some c → ∃ c', l'.calls.get? call = some c' ∧
    c'.playerId = c.playerId

/-- A match stays right, -/
theorem Lobby.Grows.matched {l l' : Lobby} (h : l.Grows l') {room : Option String}
    {e : MatchFoundEventArgs} (hm : l.Matched room e) : l'.Matched room e := by
  intro roomId hroom hkept
  have hp := hm roomId hroom (h.removed roomId hkept)
  exact ⟨fun s => h.seats _ _ _ hkept (hp.seats s), hp.distinct⟩

/-- so does what was told of it, -/
theorem Lobby.Grows.told {l l' : Lobby} (h : l.Grows l') {c c' : JoinCall} {r : MatchFoundResult}
    (hid : c'.playerId = c.playerId) (hhost : c'.clientHost = c.clientHost) (ht : l.Told c r) :
    l'.Told c' r := by
  intro hkept
  obtain ⟨s, hside, hseat, henemy, hne, hendpoint⟩ := ht (h.removed _ hkept)
  refine ⟨s, hside, ?_, h.seats _ _ _ hkept henemy, ?_, ?_⟩
  · rw [hid]
    exact h.seats _ _ _ hkept hseat
  · rw [hid]
    exact hne
  · rw [hhost]
    exact hendpoint

/-- and what a handler relies on. -/
theorem Lobby.Grows.handlerSound {l l' : Lobby} (h : l.Grows l') :
    ∀ {t : MatchTask}, l.HandlerSound t → l'.HandlerSound t
  | .createSession _, _ | .addPlayer _ _ .a, _ => trivial
  | .addPlayer _ _ .b, ht => fun hkept => (ht (h.removed _ hkept)).imp (h.seats _ _ _ hkept)
      fun ⟨p, hp⟩ => ⟨p, h.seats _ _ _ hkept hp⟩
  | .find _ _ _, ht => h.matched ht
  | .complete _ _ _ _, ⟨hmatched, c, hc, hid⟩ => by
    obtain ⟨c', hc', hid'⟩ := h.calls _ c hc
    exact ⟨h.matched hmatched, c', hc', hid'.trans hid⟩

/-- A call is its player's for good. -/
theorem callMoves_player {l : Lobby} {call : Nat} {c c' : JoinCall} (h : CallMoves l call c c') :
    c'.playerId = c.playerId ∧ c'.clientHost = c.clientHost := by
  cases h <;> exact ⟨rfl, rfl⟩

/-- What becomes of the sessions: nothing, or one of them takes a turn, or one is created and registered
    under an id that was not. -/
inductive SessionsMove (l l' : Lobby) : Prop where
  /-- No session is touched. -/
  | rest (hsame : l'.sessions = l.sessions)
  /-- A session that is registered takes a turn. -/
  | turn {roomId : String} {h : Host} (hget : l.sessions.get? roomId = some h) (call : SessionCall)
      (hset : l'.sessions = l.sessions.set roomId (h.next call))
  /-- A new one takes the place, with an empty room. -/
  | create {roomId : String} (hfree : l.registry.get? roomId ≠ some .registered)
      (hset : l'.sessions = l.sessions.set roomId (l.newSession roomId))
      (hregistered : l'.registry.get? roomId = some .registered)

/-- Who holds a session holds one that there is. -/
theorem get?_of_held {l : Lobby} {roomId : String} {h : Host} (hheld : l.held? roomId = some h) :
    l.sessions.get? roomId = some h := by
  rw [Lobby.held?] at hheld
  split at hheld
  · cases hheld
  · exact hheld

/-- What a handler's step does to the sessions. -/
theorem advanceMatch_sessionsMove (l : Lobby) (index : Nat) (t : MatchTask) (guid : String)
    (now : Time) : SessionsMove l (l.advanceMatch index t guid now) := by
  cases t with
  | createSession e =>
    by_cases hin : l.isRegistered guid = true
    · exact .rest (if_pos hin)
    · refine .create (fun hreg => hin (decide_eq_true hreg)) (if_neg hin) ?_
      exact (Dict.get?_set _ _ _ _).trans (if_pos rfl)
  | addPlayer e roomId side =>
    rcases hheld : l.held? roomId with _ | h
    · refine .rest ?_
      show l.sessionsAfter guid now (.addPlayer e roomId side) = l.sessions
      rw [Lobby.sessionsAfter, hheld]
    · refine .turn (get?_of_held hheld) (.addPlayer (Lobby.joining e side) now) ?_
      show l.sessionsAfter guid now (.addPlayer e roomId side) = _
      rw [Lobby.sessionsAfter, hheld]
  | find e room side => exact .rest rfl
  | complete e room side call => exact .rest rfl

/-- **What a step does to the sessions.** -/
theorem next_sessionsMove (l : Lobby) (step : LobbyStep) : SessionsMove l (l.next step) := by
  cases step with
  | advanceMatch index guid now =>
    rw [Lobby.next]
    split
    · exact advanceMatch_sessionsMove l index _ guid now
    · exact .rest rfl
  | play roomId call =>
    rw [Lobby.next]
    split
    · rename_i h hheld
      exact .turn (get?_of_held hheld) call rfl
    · exact .rest rfl
  | joinQueue _ _ _ _ | cancel _ | advanceCall _ _ _ | advanceLeave _ | removeSession _
  | disposeSession _ =>
    rw [Lobby.next]
    split <;> exact .rest rfl
  | leaveQueue playerId => exact .rest rfl

/-- **What a step does to the registry.**  Who has been removed stays on the record, and who is not
    removed now keeps its registration. -/
theorem next_registry (l : Lobby) (step : LobbyStep) {roomId : String}
    (hkept : roomId ∉ (l.next step).removed) :
    roomId ∉ l.removed ∧ (l.registry.get? roomId = some .registered →
      (l.next step).registry.get? roomId = some .registered) := by
  cases step with
  | removeSession id =>
    rw [Lobby.next] at hkept ⊢
    split at hkept
    · rename_i hin
      refine ⟨fun hold => hkept (List.mem_cons_of_mem _ hold), fun hreg => ?_⟩
      rw [if_pos hin]
      refine (Dict.get?_set _ _ _ _).trans ((if_neg fun heq => hkept ?_).trans hreg)
      exact heq ▸ List.mem_cons_self
    · rename_i hout
      rw [if_neg hout]
      exact ⟨hkept, fun hreg => hreg⟩
  | disposeSession id =>
    rw [Lobby.next] at hkept ⊢
    split at hkept
    · rename_i hremoved
      refine ⟨hkept, fun hreg => ?_⟩
      rw [if_pos hremoved]
      refine (Dict.get?_set _ _ _ _).trans ((if_neg fun heq => ?_).trans hreg)
      rw [heq, hreg] at hremoved
      cases hremoved
    · rename_i hout
      rw [if_neg hout]
      exact ⟨hkept, fun hreg => hreg⟩
  | advanceMatch index guid now =>
    rw [Lobby.next] at hkept ⊢
    split at hkept
    · rename_i t ht
      refine ⟨hkept, fun hreg => ?_⟩
      show (l.registryAfter guid t).get? roomId = some .registered
      cases t with
      | createSession e =>
        refine (Dict.get?_set _ _ _ _).trans ?_
        split
        · rfl
        · exact hreg
      | addPlayer _ _ _ | find _ _ _ | complete _ _ _ _ => exact hreg
    · exact ⟨hkept, fun hreg => hreg⟩
  | leaveQueue playerId => exact ⟨hkept, fun hreg => hreg⟩
  | joinQueue call _ _ _ =>
    rw [Lobby.next] at hkept ⊢
    by_cases hnew : l.calls.containsKey call = true
    · rw [if_pos hnew] at hkept ⊢
      exact ⟨hkept, fun hreg => hreg⟩
    · rw [if_neg hnew] at hkept ⊢
      exact ⟨hkept, fun hreg => hreg⟩
  | cancel _ | advanceCall _ _ _ | advanceLeave _ | play _ _ =>
    rw [Lobby.next] at hkept ⊢
    split at hkept <;> exact ⟨hkept, fun hreg => hreg⟩

/-- Sessions keep their invariant, -/
theorem SessionsMove.hosting {l l' : Lobby} (h : SessionsMove l l')
    (hl : ∀ roomId host, l.sessions.get? roomId = some host → Hosting host) :
    ∀ roomId host, l'.sessions.get? roomId = some host → Hosting host := by
  intro roomId host hget
  cases h with
  | rest hsame => exact hl roomId host (hsame ▸ hget)
  | turn hget' call hset =>
    rw [hset, Dict.get?_set] at hget
    split at hget
    · cases hget
      exact (hl _ _ hget').next call
    · exact hl roomId host hget
  | create hfree hset =>
    rw [hset, Dict.get?_set] at hget
    split at hget
    · cases hget
      exact hosting_initial _ _ _ _
    · exact hl roomId host hget

/-- A room whose session has never been removed keeps its session, and every seat that is taken. -/
theorem SessionsMove.kept {l l' : Lobby} (h : SessionsMove l l') (hl : Arranged l) {k : String}
    (hk : k ∉ l.removed) {host : Host} (hget : l.sessions.get? k = some host) :
    ∃ host', l'.sessions.get? k = some host' ∧
      ∀ s p, host.room.players.get s = some p → host'.room.players.get s = some p := by
  cases h with
  | rest hsame => exact ⟨host, hsame ▸ hget, fun _ _ hseat => hseat⟩
  | @turn roomId old hget' call hset =>
    rw [hset, Dict.get?_set]
    split
    · rename_i heq
      subst heq
      rw [hget'] at hget
      cases hget
      exact ⟨_, rfl, fun s p hseat => seat_kept (hl.hosting _ _ hget') call hseat⟩
    · exact ⟨host, hget, fun _ _ hseat => hseat⟩
  | @create roomId hfree hset =>
    rw [hset, Dict.get?_set]
    split
    · -- its session is registered, so its id is not free
      rename_i heq
      subst heq
      exact absurd (hl.listed _ _ hget hk) hfree
    · exact ⟨host, hget, fun _ _ hseat => hseat⟩

/-- **No step takes back what was said of a room** whose session has not been removed. -/
theorem Arranged.grows {l : Lobby} (hl : Arranged l) (step : LobbyStep) : l.Grows (l.next step) where
  removed roomId hkept := (next_registry l step hkept).1
  seats := by
    rintro roomId s p hkept ⟨h, hget, hseat⟩
    have hbefore := (next_registry l step hkept).1
    obtain ⟨h', hget', hseats⟩ := (next_sessionsMove l step).kept hl hbefore hget
    exact ⟨h', hget', hseats s p hseat⟩
  calls call c hget := by
    obtain ⟨c', hget', hmoves⟩ := (next_callsMove l step).after hget
    exact ⟨c', hget', (callMoves_player hmoves).1⟩

/-- A session that has never been removed is still registered, also when the step has created it. -/
theorem Arranged.listed_next {l : Lobby} (hl : Arranged l) (step : LobbyStep) {roomId : String}
    {h : Host} (hget : (l.next step).sessions.get? roomId = some h)
    (hkept : roomId ∉ (l.next step).removed) :
    (l.next step).registry.get? roomId = some .registered := by
  obtain ⟨hbefore, hregistry⟩ := next_registry l step hkept
  have hold : ∀ {h'}, l.sessions.get? roomId = some h' →
      (l.next step).registry.get? roomId = some .registered :=
    fun hget' => hregistry (hl.listed _ _ hget' hbefore)
  cases next_sessionsMove l step with
  | rest hsame => exact hold (hsame ▸ hget)
  | @turn k h' hget' call hset =>
    rw [hset, Dict.get?_set] at hget
    split at hget
    · rename_i heq
      exact hold (heq ▸ hget')
    · exact hold hget
  | @create k _ hset hregistered =>
    rw [hset, Dict.get?_set] at hget
    split at hget
    · rename_i heq
      exact heq ▸ hregistered
    · exact hold hget

/-! ## The handlers

By the stage that a handler is at: creating the session, seating the first player, seating the
second, telling each of them. -/

/-- The handler goes on with the other player, on the same ground. -/
theorem handlerSound_findNext {l : Lobby} {e : MatchFoundEventArgs} {room : Option String}
    (hmatched : l.Matched room e) (side : PlayerSide) :
    ∀ t ∈ Lobby.findNext e room side, l.HandlerSound t := by
  intro t ht
  cases side with
  | a =>
    rw [List.mem_singleton.mp ht]
    exact hmatched
  | b => cases ht

/-- Who has been thrown out tells of an error. -/
theorem handlerSound_failed {l : Lobby} (e : MatchFoundEventArgs) (side : PlayerSide) :
    l.HandlerSound (.find e none side) := nofun

/-- Who is let in has asked a session that can still be used, and its room does not refuse. -/
theorem admits_room {l : Lobby} (hl : Arranged l) {e : MatchFoundEventArgs} {roomId : String}
    {side : PlayerSide} {now : Time} (hadmits : l.admits e roomId side now = true) :
    ∃ h, l.held? roomId = some h ∧ Hosting h ∧ l.sessions.get? roomId = some h ∧
      h.room.joinRefusal (Lobby.joining e side) = none := by
  rw [Lobby.admits] at hadmits
  rcases hheld : l.held? roomId with _ | h
  · rw [hheld] at hadmits
    cases hadmits
  · rw [hheld] at hadmits
    have hget := get?_of_held hheld
    have hh := hl.hosting roomId h hget
    exact ⟨h, rfl, hh, hget,
      Option.isNone_iff_eq_none.mp ((succeeds_addPlayerToRoom hh _ _).symm.trans hadmits)⟩

/-- The room after AddPlayerAsync. -/
theorem get?_sessionsAfter {l : Lobby} {e : MatchFoundEventArgs} {roomId : String} {side : PlayerSide}
    {h : Host} (hheld : l.held? roomId = some h) (guid : String) (now : Time) :
    (l.sessionsAfter guid now (.addPlayer e roomId side)).get? roomId =
      some (h.next (.addPlayer (Lobby.joining e side) now)) := by
  rw [Lobby.sessionsAfter, hheld]
  exact (Dict.get?_set _ _ _ _).trans (if_pos rfl)

/-- The first player is admitted: side A is taken by it, or the room is full. -/
theorem handlerSound_first {l : Lobby} (hl : Arranged l) {e : MatchFoundEventArgs} {roomId : String}
    {now : Time} (hadmits : l.admits e roomId .a now = true) {l' : Lobby} (guid : String)
    (hsessions : l'.sessions = l.sessionsAfter guid now (.addPlayer e roomId .a)) :
    l'.HandlerSound (.addPlayer e roomId .b) := by
  intro _
  obtain ⟨h, hheld, hh, -, hr⟩ := admits_room hl hadmits
  have hget' := (congrArg (Dict.get? · roomId) hsessions).trans (get?_sessionsAfter hheld guid now)
  exact (admitted_first hh hr now).imp (fun ha => ⟨_, hget', ha⟩)
    fun ⟨p, hb⟩ => ⟨p, _, hget', hb⟩

/-- The second player is admitted: the two have their seats. -/
theorem handlerSound_second {l : Lobby} (hl : Arranged l) {e : MatchFoundEventArgs} {roomId : String}
    {now : Time} (ht : l.HandlerSound (.addPlayer e roomId .b))
    (hadmits : l.admits e roomId .b now = true) {l' : Lobby} (guid : String)
    (hremoved : l'.removed = l.removed)
    (hsessions : l'.sessions = l.sessionsAfter guid now (.addPlayer e roomId .b)) :
    l'.Matched (some roomId) e := by
  rintro _ ⟨⟩ hkept
  obtain ⟨h, hheld, hh, hget, hr⟩ := admits_room hl hadmits
  -- whichever seat is known to be taken, it is one of the session that is there
  have hfirst : h.room.players.a = some (Lobby.joining e .a) ∨ ∃ p, h.room.players.b = some p := by
    rcases ht (hremoved ▸ hkept) with ⟨h', hget', ha⟩ | ⟨p, h', hget', hb⟩
    · rw [hget] at hget'
      cases hget'
      exact .inl ha
    · rw [hget] at hget'
      cases hget'
      exact .inr ⟨p, hb⟩
  have hget' := (congrArg (Dict.get? · roomId) hsessions).trans (get?_sessionsAfter hheld guid now)
  obtain ⟨hplayers, hne⟩ := admitted_second hh hfirst hr now
  refine ⟨fun s => ⟨_, hget', ?_⟩, fun heq => hne (congrArg PlayerId.mk heq)⟩
  rw [hplayers]
  cases s <;> rfl

/-- **What is left of a handler has what it relies on.** -/
theorem handlerSound_left {l : Lobby} (hl : Arranged l) {index : Nat} {t : MatchTask} {guid : String}
    {now : Time} (ht : l.HandlerSound t) (hgrows : l.Grows (l.advanceMatch index t guid now)) :
    ∀ t' ∈ l.handlerLeft guid now t, (l.advanceMatch index t guid now).HandlerSound t' := by
  intro t' hmem
  cases t with
  | createSession e =>
    rw [Lobby.handlerLeft] at hmem
    split at hmem
    · rw [List.mem_singleton.mp hmem]
      exact handlerSound_failed e .a
    · rw [List.mem_singleton.mp hmem]
      trivial
  | addPlayer e roomId side =>
    simp only [Lobby.handlerLeft] at hmem
    split at hmem
    · rename_i hadmits
      cases side with
      | a =>
        rw [List.mem_singleton.mp hmem]
        exact handlerSound_first hl hadmits guid rfl
      | b =>
        rw [List.mem_singleton.mp hmem]
        exact handlerSound_second hl ht hadmits guid rfl rfl
    · rw [List.mem_singleton.mp hmem]
      exact handlerSound_failed e .a
  | find e room side =>
    rw [Lobby.handlerLeft] at hmem
    split at hmem
    · rename_i call hwaiting
      rw [List.mem_singleton.mp hmem]
      obtain ⟨c, hc, hid, -⟩ := hl.registered _ call hwaiting
      exact hgrows.handlerSound (t := .complete e room side call) ⟨ht, c, hc, hid⟩
    · exact hgrows.handlerSound (handlerSound_findNext ht side t' hmem)
  | complete e room side call => exact hgrows.handlerSound (handlerSound_findNext ht.1 side t' hmem)

/-! ## Every step

Results are made by `complete`, the last stage of a handler, and only copied afterwards. -/

/-- What a result tells is right when it is given. -/
theorem told_update {l : Lobby} {e : MatchFoundEventArgs} {room : Option String} {side : PlayerSide}
    {c : JoinCall} (hmatched : l.Matched room e) (hid : c.playerId = (e.player side).playerId)
    {r : MatchFoundResult} (hr : (e.update room side c.clientHost).matchResult = some r) :
    l.Told c r := by
  cases room with
  | none => cases hr
  | some roomId =>
    cases hr
    intro hkept
    have hp := hmatched roomId rfl hkept
    refine ⟨side, rfl, ?_, hp.seats side.enemy, ?_, rfl⟩
    · rw [hid]
      exact hp.seats side
    · rw [hid]
      cases side with
      | a => exact fun heq => hp.distinct heq.symm
      | b => exact hp.distinct

/-- Where an update of a call can be. -/
theorem mem_updates {c : JoinCall} {u : MatchmakingUpdate} :
    u ∈ c.updates ↔ u ∈ c.sent ∨ c.completion = some u ∨ c.stage.update? = some u := by
  rw [JoinCall.updates, List.mem_append, List.mem_append, Option.mem_toList, Option.mem_toList,
    or_assoc]

/-- What a call tells after it has moved it has told before, or been given now. -/
theorem told_moves {l : Lobby} (hl : Arranged l) {call : Nat} {c c' : JoinCall}
    (hget : l.calls.get? call = some c) (hmoves : CallMoves l call c c') {u : MatchmakingUpdate}
    (hu : u ∈ c'.updates) {r : MatchFoundResult} (hr : u.matchResult = some r) : l.Told c r := by
  have hold : ∀ v ∈ c.updates, v.matchResult = some r → l.Told c r :=
    fun v hv hvr => hl.calls call c hget v hv r hvr
  cases hmoves with
  -- an update that is not new was right before
  | rests => exact hold u hu hr
  | cancelled => exact hold u (mem_updates.mpr (mem_updates.mp hu)) hr
  | goesOn outcome =>
    rcases mem_updates.mp hu with hsent | hcompletion | hupdate
    · replace hsent : u ∈ c.written outcome := hsent
      rw [JoinCall.written] at hsent
      split at hsent
      · rcases List.mem_append.mp hsent with hbefore | hnow
        · exact hold u (mem_updates.mpr (.inl hbefore)) hr
        · exact hold u (mem_updates.mpr (.inr (.inr (Option.mem_toList.mp hnow)))) hr
      · exact hold u (mem_updates.mpr (.inl hsent)) hr
    · exact hold u (mem_updates.mpr (.inr (.inl hcompletion))) hr
    · rcases update_nextStage hupdate with hcompletion | rfl | rfl | ⟨playerId, -, rfl⟩
      · exact hold u (mem_updates.mpr (.inr (.inl hcompletion))) hr
      · cases hr
      · cases hr
      · cases hr
  | @completed e room side ht =>
    rcases mem_updates.mp hu with hsent | hcompletion | hupdate
    · exact hold u (mem_updates.mpr (.inl hsent)) hr
    · rw [JoinCall.trySetResult] at hcompletion
      rcases hc : c.completion with _ | v
      · rw [hc] at hcompletion
        cases hcompletion
        obtain ⟨hmatched, d, hd, hid⟩ := hl.handlers _ ht
        rw [hget] at hd
        cases hd
        exact told_update hmatched hid hr
      · rw [hc] at hcompletion
        cases hcompletion
        exact hold v (mem_updates.mpr (.inr (.inl hc))) hr
    · exact hold u (mem_updates.mpr (.inr (.inr hupdate))) hr

/-- Where the handlers after a step come from. -/
theorem handlers_next {l : Lobby} (hl : Arranged l) (step : LobbyStep) :
    ∀ t ∈ (l.next step).handlers, (l.next step).HandlerSound t := by
  have hgrows := hl.grows step
  have hkept : (l.next step).handlers = l.handlers →
      ∀ t ∈ (l.next step).handlers, (l.next step).HandlerSound t := by
    intro heq t ht
    rw [heq] at ht
    exact hgrows.handlerSound (hl.handlers t ht)
  cases step with
  | advanceMatch index guid now =>
    rw [Lobby.next] at hkept hgrows ⊢
    split
    · rename_i t ht
      simp only [ht] at hgrows
      have hmem := List.mem_of_getElem? ht
      intro t' ht'
      replace ht' : t' ∈ l.handlers.take index ++ l.handlerLeft guid now t ++
          l.handlers.drop (index + 1) := ht'
      rcases List.mem_append.mp ht' with hfront | hbehind
      · rcases List.mem_append.mp hfront with hbefore | hnew
        · exact hgrows.handlerSound (hl.handlers t' (List.mem_of_mem_take hbefore))
        · exact handlerSound_left hl (hl.handlers t hmem) hgrows t' hnew
      · exact hgrows.handlerSound (hl.handlers t' (List.mem_of_mem_drop hbehind))
    · exact hl.handlers
  | advanceCall call outcome now =>
    rw [Lobby.next] at hkept hgrows ⊢
    split
    · rename_i c hc
      simp only [hc] at hgrows
      intro t ht
      rcases List.mem_append.mp ht with hold | hnew
      · exact hgrows.handlerSound (hl.handlers t hold)
      · rw [Lobby.raised] at hnew
        split at hnew
        · rw [List.mem_singleton.mp hnew]
          trivial
        · cases hnew
    · exact hl.handlers
  | joinQueue call playerId rating clientHost =>
    refine hkept ?_
    rw [Lobby.next]
    split <;> rfl
  | cancel call =>
    refine hkept ?_
    rw [Lobby.next]
    split <;> rfl
  | leaveQueue playerId => exact hkept rfl
  | advanceLeave index =>
    refine hkept ?_
    rw [Lobby.next]
    split <;> rfl
  | play _ _ | removeSession _ | disposeSession _ =>
    refine hkept ?_
    rw [Lobby.next]
    split <;> rfl

/-- **Every step keeps the invariant.** -/
theorem Arranged.next {l : Lobby} (hl : Arranged l) (step : LobbyStep) : Arranged (l.next step) where
  hosting := (next_sessionsMove l step).hosting hl.hosting
  listed _ _ hget hkept := hl.listed_next step hget hkept
  handlers := handlers_next hl step
  calls call c' hget u hu r hr := by
    rcases (next_callsMove l step).before hget with ⟨c, hc, hmoves⟩ | ⟨_, _, _, rfl⟩
    · obtain ⟨hid, hhost⟩ := callMoves_player hmoves
      exact (hl.grows step).told hid hhost (told_moves hl hc hmoves hu hr)
    · cases hu
  registered := hl.registered.next step

/-- In every run. -/
theorem arranged_of_reachable {serverId : String} {planningTimeout : Time} {l : Lobby}
    (hreach : (matchmaking serverId planningTimeout).Reachable l) : Arranged l := by
  refine hreach.invariant ?_ fun _ step hl _ => hl.next step
  exact {
    hosting := fun _ _ hget => nomatch hget
    listed := fun _ _ hget => nomatch hget
    handlers := fun _ ht => nomatch ht
    calls := fun _ _ hget => nomatch hget
    registered := fun _ _ hget => nomatch hget }

/-- **What the players are told is how they are seated**, until the session of their room is removed.
    Whatever takes turns with the match, a result on a player's stream names a room with a session that
    is registered, in which the player has the seat that the result says, and the opponent that the
    result names, somebody else, has the other one; and two results for one room say the same side
    exactly if they are for the same player. -/
theorem told_as_seated {serverId : String} {planningTimeout : Time} {l : Lobby}
    (hreach : (matchmaking serverId planningTimeout).Reachable l) {call : Nat} {c : JoinCall}
    (hcall : l.calls.get? call = some c) {u : MatchmakingUpdate} (hu : u ∈ c.sent)
    {r : MatchFoundResult} (hr : u.matchResult = some r) (hkept : r.roomId ∉ l.removed) :
    (∃ s h, r.playerSide = toString s ∧ l.registry.get? r.roomId = some .registered ∧
      l.sessions.get? r.roomId = some h ∧ h.room.players.get s = some ⟨c.playerId⟩ ∧
      h.room.players.get s.enemy = some ⟨r.opponentId⟩ ∧ r.opponentId ≠ c.playerId ∧
      r.wsEndpoint = s!"ws://{c.clientHost}/ws/game/{r.roomId}") ∧
    ∀ call' c', l.calls.get? call' = some c' → ∀ u' ∈ c'.sent, ∀ r', u'.matchResult = some r' →
      r'.roomId = r.roomId → (r'.playerSide = r.playerSide ↔ c'.playerId = c.playerId) := by
  have hl := arranged_of_reachable hreach
  have htold : ∀ {k : Nat} {d : JoinCall} {v : MatchmakingUpdate} {q : MatchFoundResult},
      l.calls.get? k = some d → v ∈ d.sent → v.matchResult = some q → l.Told d q :=
    fun hk hv hq => hl.calls _ _ hk _ (mem_updates.mpr (.inl hv)) _ hq
  obtain ⟨s, hside, ⟨h, hget, hseat⟩, ⟨h', hget', henemy⟩, hne, hendpoint⟩ :=
    htold hcall hu hr hkept
  rw [hget] at hget'
  cases hget'
  have hlisted := hl.listed _ _ hget hkept
  refine ⟨⟨s, h, hside, hlisted, hget, hseat, henemy, hne, hendpoint⟩, ?_⟩
  intro call' c' hcall' u' hu' r' hr' hroom
  obtain ⟨s', hside', ⟨h', hget', hseat'⟩, -⟩ := htold hcall' hu' hr' (hroom ▸ hkept)
  rw [hroom, hget] at hget'
  cases hget'
  rw [hside, hside']
  constructor
  · intro heq
    have hs : s' = s := by
      cases s <;> cases s' <;> first | rfl | exact absurd heq (by decide)
    rw [hs, hseat] at hseat'
    exact (congrArg PlayerId.value (Option.some.inj hseat')).symm
  · intro hid
    by_contra hdiffer
    -- the player would sit on both sides
    have hs : s' = s.enemy := PlayerSide.ne_iff_eq_enemy.mp fun heq => hdiffer (congrArg toString heq)
    rw [hs, henemy] at hseat'
    exact hne ((congrArg PlayerId.value (Option.some.inj hseat')).trans hid)

theorem told_as_seated_ann : ∃ s h, annMatched.playerSide = toString s ∧
    firstMatched.registry.get? "room" = some .registered ∧ firstMatched.sessions.get? "room" = some h ∧
    h.room.players.get s = some ⟨"ann"⟩ ∧ h.room.players.get s.enemy = some ⟨"bob"⟩ ∧
      "bob" ≠ "ann" ∧
    annMatched.wsEndpoint = s!"ws://{annLeaving.clientHost}/ws/game/{annMatched.roomId}" :=
  (told_as_seated firstMatched_reachable
    (show firstMatched.calls.get? 0 = some annLeaving by decide +kernel)
    (List.mem_singleton.mpr rfl) rfl (show "room" ∉ firstMatched.removed by decide +kernel)).1

end HexWar
