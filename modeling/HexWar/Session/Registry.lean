/-
  The sessions of a server, and the handlers of their rooms' remote events.

  A session subscribes to its room's channel when it is made, and unsubscribes when it is disposed of.
  The publisher has one handler for a room, though: who comes second is ignored, and whoever
  unsubscribes takes away the handler of the room, whichever session it belongs to.

  So the handlers follow the sessions (`Wired`) as long as a session goes when it is taken out of the
  registry, and only then.  The removal a minute after the end of a game takes the session out and
  leaves its handler behind; CleanupAsync disposes of a session that RemoveSession has disposed of
  already, and takes away the handler of one that was hydrated in between (`handlers_follow_iff`).


  The condition is about two steps only, and speaks of the registry alone: is a session of the room
  stored at that moment?  With none stored, there is no handler to lose.
-/
import HexWar.Lib.Dict
import HexWar.Lib.Runs

namespace HexWar

open Lib

/-! ## The registry, the publisher and the cleanup service

One server, with the three parts of it that know of sessions.  A session is known by its index, so
that two sessions of one room can be told apart. -/

/-- A GameSession object, as far as its subscription goes. -/
structure SessionObject where
  roomId : String
  /-- Has Dispose been called? -/
  disposed : Bool
deriving DecidableEq, Repr

/-- Where CleanupAsync is. -/
inductive CleanupStage where
  /-- It waits for its next turn. -/
  | resting
  /-- The sessions it has still to look at. -/
  | scanning (sessions : List Nat)
  /-- It has called RemoveSession for the first one and holds it. -/
  | removed (session : Nat) (sessions : List Nat)
deriving DecidableEq, Repr

/-- A server. -/
structure SessionRegistry where
  /-- All sessions that were ever made; they are known by their index. -/
  objects : List SessionObject
  /-- `_sessions`. -/
  sessions : Dict String Nat
  /-- `_subscriptions`: the session whose handler is registered for a room. -/
  subscriptions : Dict String Nat
  /-- The rooms whose channels are subscribed. -/
  channels : List String
  /-- The removals that wait for their minute to pass. -/
  delayed : List String
  cleanup : CleanupStage

/-- The operations, each of them at the granularity of its awaits. -/
inductive RegistryCall where
  /-- CreateSessionAsync, which makes a session of its own. -/
  | createSessionAsync (roomId : String)
  /-- Does the repository have the room? -/
  | getOrCreateSessionAsync (roomId : String) (found : Bool)
  /-- RemoveSession, which has no await inside. -/
  | removeSession (roomId : String)
  /-- A session raises OnGameOver. -/
  | gameOver (session : Nat)
  /-- The minute after an OnGameOver has passed. -/
  | delayedRemoval (roomId : String)
  /-- CleanupAsync takes the active sessions. -/
  | getActiveSessions
  /-- CleanupAsync goes on to the next one: is it to be cleaned up? -/
  | removeStale (shouldCleanup : Bool)
  /-- CleanupAsync disposes of the session that it holds. -/
  | disposeStale
deriving DecidableEq, Repr

namespace SessionRegistry

/-- RedisEventPublisher.Subscribe: ignored if the room has a handler. -/
def subscribe (s : SessionRegistry) (roomId : String) (session : Nat) : SessionRegistry :=
  if s.subscriptions.containsKey roomId then s
  else { s with
    subscriptions := s.subscriptions.set roomId session
    channels := s.channels ++ [roomId] }

/-- RedisEventPublisher.Unsubscribe. -/
def unsubscribe (s : SessionRegistry) (roomId : String) : SessionRegistry :=
  { s with
    channels := s.channels.filter (· ≠ roomId)
    subscriptions := s.subscriptions.remove roomId }

/-- GameSession.Dispose. -/
def dispose (s : SessionRegistry) (session : Nat) : SessionRegistry :=
  match s.objects[session]? with
  | none => s
  | some object =>
    { s.unsubscribe object.roomId with
      objects := s.objects.set session { object with disposed := true } }

/-- A session is made, which subscribes it, and stored. -/
def store (s : SessionRegistry) (roomId : String) : SessionRegistry :=
  { s.subscribe roomId s.objects.length with
    objects := s.objects ++ [⟨roomId, false⟩]
    sessions := s.sessions.set roomId s.objects.length }

/-- The session is taken out of the dictionary, and nothing else. -/
def tryRemove (s : SessionRegistry) (roomId : String) : SessionRegistry :=
  { s with sessions := s.sessions.remove roomId }

/-- The session is taken out, and disposed of. -/
def removeSession (s : SessionRegistry) (roomId : String) : SessionRegistry :=
  match s.sessions.get? roomId with
  | none => s
  | some session => (s.tryRemove roomId).dispose session

/-- The handlers of OnGameOver are gone from a session that is disposed of. -/
def gameOver (s : SessionRegistry) (session : Nat) : SessionRegistry :=
  match s.objects[session]? with
  | none => s
  | some object => if object.disposed then s else { s with delayed := s.delayed ++ [object.roomId] }

/-- The next session of CleanupAsync. -/
def removeStale (s : SessionRegistry) (shouldCleanup : Bool) : SessionRegistry :=
  match s.cleanup with
  | .scanning (session :: rest) =>
    if shouldCleanup then
      match s.objects[session]? with
      | none => s
      | some object => { s.removeSession object.roomId with cleanup := .removed session rest }
    else { s with cleanup := .scanning rest }
  | .scanning [] => { s with cleanup := .resting }
  | .resting | .removed _ _ => s

/-- Dispose is called on the session that CleanupAsync holds, whatever has happened since. -/
def disposeStale (s : SessionRegistry) : SessionRegistry :=
  match s.cleanup with
  | .removed session rest => { s.dispose session with cleanup := .scanning rest }
  | .resting | .scanning _ => s

/-- One operation. -/
def next (s : SessionRegistry) : RegistryCall → SessionRegistry
  | .createSessionAsync roomId =>
    -- throws if there is one
    if s.sessions.containsKey roomId then s else s.store roomId
  | .getOrCreateSessionAsync roomId found =>
    if s.sessions.containsKey roomId then s else if found then s.store roomId else s
  | .removeSession roomId => s.removeSession roomId
  | .gameOver session => s.gameOver session
  | .delayedRemoval roomId =>
    if roomId ∈ s.delayed then { s.tryRemove roomId with delayed := s.delayed.erase roomId } else s
  | .getActiveSessions =>
    match s.cleanup with
    | .resting => { s with cleanup := .scanning s.sessions.values }
    | .scanning _ | .removed _ _ => s
  | .removeStale shouldCleanup => s.removeStale shouldCleanup
  | .disposeStale => s.disposeStale

end SessionRegistry

/-- The operations of a server, in any order. -/
def sessionRegistry : Machine SessionRegistry RegistryCall :=
  ⟨⟨[], .empty, .empty, [], [], .resting⟩, SessionRegistry.next, fun _ _ => True⟩

/-! ## The properties -/

/-- **The handlers follow the sessions.** -/
structure SessionRegistry.Wired (s : SessionRegistry) : Prop where
  /-- A stored session receives its room's events. -/
  receives : ∀ roomId session, s.sessions.get? roomId = some session →
    s.subscriptions.get? roomId = some session ∧ roomId ∈ s.channels
  /-- A session that is not stored has no handler. -/
  released : ∀ roomId session, s.subscriptions.get? roomId = some session →
    s.sessions.get? roomId = some session

/-- **The condition**: when a delayed removal fires, or CleanupAsync disposes of the session that it
    holds, no session of the room is stored. -/
def Tidy (s : SessionRegistry) : RegistryCall → Prop
  | .delayedRemoval roomId => roomId ∈ s.delayed → s.sessions.get? roomId = none
  | .disposeStale => ∀ session rest object, s.cleanup = .removed session rest →
      s.objects[session]? = some object → s.sessions.get? object.roomId = none
  | .createSessionAsync _ | .getOrCreateSessionAsync _ _ | .removeSession _ | .gameOver _
  | .getActiveSessions | .removeStale _ => True

namespace SessionRegistry

/-! ## What always holds

Two facts that the steps keep whether or not they meet the condition. -/

/-- A channel is subscribed where there is a handler, and a stored session is one of its room. -/
structure Kept (s : SessionRegistry) : Prop where
  /-- The channels are those of the rooms with a handler. -/
  subscribed : ∀ roomId, roomId ∈ s.channels ↔ ∃ session, s.subscriptions.get? roomId = some session
  /-- Under a room there is a session of that room. -/
  stored : ∀ roomId session, s.sessions.get? roomId = some session →
    ∃ object, s.objects[session]? = some object ∧ object.roomId = roomId

/-- The fields that a handler depends on are all that `Kept` and `Wired` speak of. -/
theorem Kept.congr {s s' : SessionRegistry} (h : s.Kept) (hobjects : s'.objects = s.objects)
    (hsessions : s'.sessions = s.sessions) (hsubs : s'.subscriptions = s.subscriptions)
    (hchannels : s'.channels = s.channels) : s'.Kept := by
  refine ⟨?_, ?_⟩
  · rw [hchannels, hsubs]
    exact h.subscribed
  · rw [hsessions, hobjects]
    exact h.stored

/-- A step that leaves these fields leaves the server wired, -/
theorem Wired.congr {s s' : SessionRegistry} (h : s.Wired) (hsessions : s'.sessions = s.sessions)
    (hsubs : s'.subscriptions = s.subscriptions) (hchannels : s'.channels = s.channels) :
    s'.Wired := by
  refine ⟨?_, ?_⟩
  · rw [hsessions, hsubs, hchannels]
    exact h.receives
  · rw [hsessions, hsubs]
    exact h.released

/-- and a server is wired whatever the other fields are. -/
theorem wired_congr {s s' : SessionRegistry} (hsessions : s'.sessions = s.sessions)
    (hsubs : s'.subscriptions = s.subscriptions) (hchannels : s'.channels = s.channels) :
    s'.Wired ↔ s.Wired :=
  ⟨fun h => h.congr hsessions.symm hsubs.symm hchannels.symm,
    fun h => h.congr hsessions hsubs hchannels⟩

/-! ### A session is stored -/

/-- A new session of any room is one of its room. -/
theorem Kept.store {s : SessionRegistry} (h : s.Kept) (roomId : String) : (s.store roomId).Kept := by
  refine ⟨fun room => ?_, fun room session hget => ?_⟩
  · show room ∈ (s.subscribe roomId s.objects.length).channels ↔
      ∃ session, (s.subscribe roomId s.objects.length).subscriptions.get? room = some session
    rw [subscribe]
    split
    · exact h.subscribed room
    · show room ∈ s.channels ++ [roomId] ↔
        ∃ session, (s.subscriptions.set roomId s.objects.length).get? room = some session
      rw [List.mem_append, List.mem_singleton, h.subscribed room, Dict.get?_set]
      rcases em (roomId = room) with rfl | hne
      · simp
      · rw [if_neg hne]
        exact or_iff_left fun heq => hne heq.symm
  · have hset : (s.sessions.set roomId s.objects.length).get? room = some session := hget
    rw [Dict.get?_set] at hset
    split at hset
    case isTrue heq =>
      cases hset
      exact ⟨⟨roomId, false⟩, List.getElem?_concat_length, heq⟩
    case isFalse =>
      obtain ⟨object, hobject, hroom⟩ := h.stored room session hset
      refine ⟨object, ?_, hroom⟩
      obtain ⟨hlt, -⟩ := List.getElem?_eq_some_iff.mp hobject
      show (s.objects ++ [⟨roomId, false⟩])[session]? = some object
      rw [List.getElem?_append_left hlt]
      exact hobject

/-- A new session of a room that has none finds no handler in its way. -/
theorem Wired.store {s : SessionRegistry} (h : s.Wired) {roomId : String}
    (hnone : s.sessions.get? roomId = none) : (s.store roomId).Wired := by
  have hfree : s.subscriptions.get? roomId = none := by
    cases hsub : s.subscriptions.get? roomId with
    | none => rfl
    | some session =>
      rw [h.released roomId session hsub] at hnone
      cases hnone
  have hkey : s.subscriptions.containsKey roomId = false := by
    rw [Dict.containsKey, hfree]
    rfl
  have hsubs : (s.store roomId).subscriptions = s.subscriptions.set roomId s.objects.length := by
    rw [SessionRegistry.store, subscribe, hkey]
    rfl
  have hchannels : (s.store roomId).channels = s.channels ++ [roomId] := by
    rw [SessionRegistry.store, subscribe, hkey]
    rfl
  have hsessions : (s.store roomId).sessions = s.sessions.set roomId s.objects.length := rfl
  refine ⟨fun room session hget => ?_, fun room session hget => ?_⟩
  · rw [hsessions, Dict.get?_set] at hget
    rw [hsubs, hchannels, Dict.get?_set]
    split at hget
    case isTrue heq =>
      subst heq
      exact ⟨by rw [if_pos rfl]; exact hget, List.mem_append_right _ (List.mem_singleton_self _)⟩
    case isFalse hne =>
      obtain ⟨hsub, hchannel⟩ := h.receives room session hget
      exact ⟨by rw [if_neg hne]; exact hsub, List.mem_append_left _ hchannel⟩
  · rw [hsubs, Dict.get?_set] at hget
    rw [hsessions, Dict.get?_set]
    split at hget
    case isTrue heq =>
      rw [if_pos heq]
      exact hget
    case isFalse hne =>
      rw [if_neg hne]
      exact h.released room session hget

/-! ### A session is disposed of -/

/-- Disposing of a session takes nothing out of the registry. -/
theorem dispose_sessions (s : SessionRegistry) (session : Nat) :
    (s.dispose session).sessions = s.sessions := by
  rw [dispose]
  split
  · rfl
  · rfl

/-- Disposing of a session takes its room's handler and channel. -/
theorem dispose_subscriptions {s : SessionRegistry} {session : Nat} {object : SessionObject}
    (h : s.objects[session]? = some object) :
    (s.dispose session).subscriptions = s.subscriptions.remove object.roomId ∧
      (s.dispose session).channels = s.channels.filter (· ≠ object.roomId) := by
  rw [dispose, h]
  exact ⟨rfl, rfl⟩

/-- The channel goes with the handler. -/
theorem Kept.dispose {s : SessionRegistry} (h : s.Kept) (session : Nat) : (s.dispose session).Kept := by
  cases hobject : s.objects[session]? with
  | none =>
    have hsame : s.dispose session = s := by rw [SessionRegistry.dispose, hobject]
    rw [hsame]
    exact h
  | some object =>
    obtain ⟨hsubs, hchannels⟩ := dispose_subscriptions hobject
    refine ⟨fun room => ?_, fun room other hget => ?_⟩
    · rw [hsubs, hchannels, List.mem_filter, h.subscribed room, Dict.get?_remove]
      rcases em (object.roomId = room) with rfl | hne
      · simp
      · rw [if_neg hne]
        exact and_iff_left (decide_eq_true fun heq => hne heq.symm)
    · rw [dispose_sessions] at hget
      obtain ⟨other', hother, hroom⟩ := h.stored room other hget
      have hobjects : (s.dispose session).objects =
          s.objects.set session { object with disposed := true } := by
        rw [SessionRegistry.dispose, hobject]
      rw [hobjects]
      obtain ⟨hlt, -⟩ := List.getElem?_eq_some_iff.mp hobject
      -- the object that is marked as disposed of keeps its room
      rcases em (session = other) with rfl | hne
      · rw [hobject] at hother
        cases hother
        exact ⟨{ object with disposed := true }, List.getElem?_set_self hlt, hroom⟩
      · exact ⟨other', (List.getElem?_set_ne hne).trans hother, hroom⟩

/-- Disposing of a session of a room that has none stored takes nobody's handler. -/
theorem Wired.dispose {s : SessionRegistry} (h : s.Wired) {session : Nat} {object : SessionObject}
    (hobject : s.objects[session]? = some object) (hnone : s.sessions.get? object.roomId = none) :
    (s.dispose session).Wired := by
  obtain ⟨hsubs, hchannels⟩ := dispose_subscriptions hobject
  refine ⟨fun room other hget => ?_, fun room other hget => ?_⟩
  · rw [dispose_sessions] at hget
    have hne : ¬ object.roomId = room := by
      rintro rfl
      rw [hnone] at hget
      cases hget
    obtain ⟨hsub, hchannel⟩ := h.receives room other hget
    rw [hsubs, hchannels, Dict.get?_remove, if_neg hne]
    exact ⟨hsub, List.mem_filter.mpr ⟨hchannel, decide_eq_true fun heq => hne heq.symm⟩⟩
  · rw [dispose_sessions]
    rw [hsubs, Dict.get?_remove] at hget
    split at hget
    · cases hget
    · exact h.released room other hget

/-! ### A session is taken out -/

/-- What is still stored was stored before. -/
theorem Kept.tryRemove {s : SessionRegistry} (h : s.Kept) (roomId : String) :
    (s.tryRemove roomId).Kept := by
  refine ⟨h.subscribed, fun room session hget => ?_⟩
  have hold : (s.sessions.remove roomId).get? room = some session := hget
  rw [Dict.get?_remove] at hold
  split at hold
  · cases hold
  · exact h.stored room session hold

/-- Taking a session out and disposing of it keeps both facts. -/
theorem Kept.removeSession {s : SessionRegistry} (h : s.Kept) (roomId : String) :
    (s.removeSession roomId).Kept := by
  rw [SessionRegistry.removeSession]
  split
  · exact h
  · exact (h.tryRemove roomId).dispose _

/-- RemoveSession takes the session and its handler together. -/
theorem Wired.removeSession {s : SessionRegistry} (hk : s.Kept) (h : s.Wired) (roomId : String) :
    (s.removeSession roomId).Wired := by
  cases hget : s.sessions.get? roomId with
  | none =>
    have hsame : s.removeSession roomId = s := by rw [SessionRegistry.removeSession, hget]
    rw [hsame]
    exact h
  | some session =>
    obtain ⟨object, hobject, rfl⟩ := hk.stored roomId session hget
    have hsame : s.removeSession object.roomId = (s.tryRemove object.roomId).dispose session := by
      rw [SessionRegistry.removeSession, hget]
    have hobject' : (s.tryRemove object.roomId).objects[session]? = some object := hobject
    obtain ⟨hsubs, hchannels⟩ := dispose_subscriptions hobject'
    have hsessions : (s.removeSession object.roomId).sessions = s.sessions.remove object.roomId := by
      rw [hsame, dispose_sessions]
      rfl
    rw [hsame] at hsessions ⊢
    refine ⟨fun room other hget => ?_, fun room other hget => ?_⟩
    · rw [hsessions, Dict.get?_remove] at hget
      split at hget
      case isTrue => cases hget
      case isFalse hne =>
        obtain ⟨hsub, hchannel⟩ := h.receives room other hget
        rw [hsubs, hchannels]
        refine ⟨?_, List.mem_filter.mpr ⟨hchannel, decide_eq_true fun heq => hne heq.symm⟩⟩
        show (s.subscriptions.remove object.roomId).get? room = some other
        rw [Dict.get?_remove, if_neg hne]
        exact hsub
    · have hold : (s.subscriptions.remove object.roomId).get? room = some other := hsubs ▸ hget
      rw [Dict.get?_remove] at hold
      rw [hsessions, Dict.get?_remove]
      split at hold
      case isTrue => cases hold
      case isFalse hne =>
        rw [if_neg hne]
        exact h.released room other hold

/-- **A delayed removal leaves the handler behind.** -/
theorem wired_tryRemove_iff {s : SessionRegistry} (h : s.Wired) (roomId : String) :
    (s.tryRemove roomId).Wired ↔ s.sessions.get? roomId = none := by
  constructor
  · intro hw
    cases hget : s.sessions.get? roomId with
    | none => rfl
    | some session =>
      -- its handler is still there, and belongs to nobody
      obtain ⟨hsub, -⟩ := h.receives roomId session hget
      have hgone : (s.sessions.remove roomId).get? roomId = some session :=
        hw.released roomId session hsub
      rw [Dict.get?_remove, if_pos rfl] at hgone
      cases hgone
  · intro hnone
    have hsame : ∀ room, (s.sessions.remove roomId).get? room = s.sessions.get? room := by
      intro room
      rw [Dict.get?_remove]
      split
      case isTrue heq => rw [← heq, hnone]
      case isFalse => rfl
    refine ⟨fun room session hget => ?_, fun room session hget => ?_⟩
    · exact h.receives room session ((hsame room).symm.trans hget)
    · exact (hsame room).trans (h.released room session hget)

/-- **Unsubscribing takes away the handler of whoever is stored.** -/
theorem wired_dispose_iff {s : SessionRegistry} (h : s.Wired) {session : Nat} {object : SessionObject}
    (hobject : s.objects[session]? = some object) :
    (s.dispose session).Wired ↔ s.sessions.get? object.roomId = none := by
  refine ⟨fun hw => ?_, h.dispose hobject⟩
  cases hget : s.sessions.get? object.roomId with
  | none => rfl
  | some other =>
    -- the handlers go by the room, so the one of `other` is gone too
    have hstill : (s.dispose session).sessions.get? object.roomId = some other := by
      rw [dispose_sessions]
      exact hget
    obtain ⟨hsub, -⟩ := hw.receives object.roomId other hstill
    rw [(dispose_subscriptions hobject).1, Dict.get?_remove, if_pos rfl] at hsub
    cases hsub

/-! ### Call by call -/

/-- A room that is not in the dictionary has no session. -/
theorem get?_of_not_containsKey {s : SessionRegistry} {roomId : String}
    (h : ¬ s.sessions.containsKey roomId = true) : s.sessions.get? roomId = none := by
  rw [Dict.containsKey] at h
  exact Option.not_isSome_iff_eq_none.mp h

/-- A step of CleanupAsync is a RemoveSession, or moves it on. -/
theorem Kept.removeStale {s : SessionRegistry} (h : s.Kept) (shouldCleanup : Bool) :
    (s.removeStale shouldCleanup).Kept := by
  rw [SessionRegistry.removeStale]
  split
  · split
    · split
      · exact h
      case h_2 object _ => exact (h.removeSession object.roomId).congr rfl rfl rfl rfl
    · exact h.congr rfl rfl rfl rfl
  · exact h.congr rfl rfl rfl rfl
  · exact h
  · exact h

/-- The first half of the removal of a stale session is a RemoveSession like any other. -/
theorem Wired.removeStale {s : SessionRegistry} (hk : s.Kept) (h : s.Wired) (shouldCleanup : Bool) :
    (s.removeStale shouldCleanup).Wired := by
  rw [SessionRegistry.removeStale]
  split
  · split
    · split
      · exact h
      case h_2 object _ => exact (h.removeSession hk object.roomId).congr rfl rfl rfl
    · exact h.congr rfl rfl rfl
  · exact h.congr rfl rfl rfl
  · exact h
  · exact h

/-- Every operation keeps both facts. -/
theorem Kept.next {s : SessionRegistry} (h : s.Kept) (c : RegistryCall) : (s.next c).Kept := by
  cases c with
  | createSessionAsync roomId =>
    simp only [SessionRegistry.next]
    split
    · exact h
    · exact h.store roomId
  | getOrCreateSessionAsync roomId found =>
    simp only [SessionRegistry.next]
    split
    · exact h
    · split
      · exact h.store roomId
      · exact h
  | removeSession roomId => exact h.removeSession roomId
  | gameOver session =>
    simp only [SessionRegistry.next, gameOver]
    split
    · exact h
    · split
      · exact h
      · exact h.congr rfl rfl rfl rfl
  | delayedRemoval roomId =>
    simp only [SessionRegistry.next]
    split
    · exact (h.tryRemove roomId).congr rfl rfl rfl rfl
    · exact h
  | getActiveSessions =>
    simp only [SessionRegistry.next]
    split
    · exact h.congr rfl rfl rfl rfl
    · exact h
    · exact h
  | removeStale shouldCleanup => exact h.removeStale shouldCleanup
  | disposeStale =>
    simp only [SessionRegistry.next, disposeStale]
    split
    · exact (h.dispose _).congr rfl rfl rfl rfl
    · exact h
    · exact h

/-- The second half of the removal of a stale session: the room must have no other session by now. -/
theorem wired_disposeStale_iff {s : SessionRegistry} (h : s.Wired) :
    s.disposeStale.Wired ↔ ∀ session rest object, s.cleanup = .removed session rest →
      s.objects[session]? = some object → s.sessions.get? object.roomId = none := by
  rw [disposeStale]
  split
  case h_1 session rest hstage =>
    have hsame : { s.dispose session with cleanup := .scanning rest }.Wired ↔
        (s.dispose session).Wired := wired_congr rfl rfl rfl
    rw [hsame]
    cases hobject : s.objects[session]? with
    | none =>
      have hsame : s.dispose session = s := by rw [dispose, hobject]
      rw [hsame]
      refine iff_of_true h fun session' rest' object heq hobject' => ?_
      rw [hstage] at heq
      cases heq
      rw [hobject] at hobject'
      cases hobject'
    | some object =>
      rw [wired_dispose_iff h hobject]
      constructor
      · intro hnone session' rest' object' heq hobject'
        rw [hstage] at heq
        cases heq
        rw [hobject] at hobject'
        cases hobject'
        exact hnone
      · intro hc
        exact hc session rest object hstage hobject
  case h_2 hstage =>
    refine iff_of_true h fun session rest object heq => ?_
    rw [hstage] at heq
    cases heq
  case h_3 hstage =>
    refine iff_of_true h fun session rest object heq => ?_
    rw [hstage] at heq
    cases heq

/-- A step from a wired server leads to one exactly if it meets the condition. -/
theorem wired_next_iff {s : SessionRegistry} (hk : s.Kept) (h : s.Wired) (c : RegistryCall) :
    (s.next c).Wired ↔ Tidy s c := by
  cases c with
  | createSessionAsync roomId =>
    refine iff_of_true ?_ trivial
    simp only [SessionRegistry.next]
    split
    case isTrue => exact h
    case isFalse hnew => exact h.store (get?_of_not_containsKey hnew)
  | getOrCreateSessionAsync roomId found =>
    refine iff_of_true ?_ trivial
    simp only [SessionRegistry.next]
    split
    case isTrue => exact h
    case isFalse hnew =>
      split
      · exact h.store (get?_of_not_containsKey hnew)
      · exact h
  | removeSession roomId => exact iff_of_true (h.removeSession hk roomId) trivial
  | gameOver session =>
    refine iff_of_true ?_ trivial
    simp only [SessionRegistry.next, gameOver]
    split
    · exact h
    · split
      · exact h
      · exact h.congr rfl rfl rfl
  | delayedRemoval roomId =>
    show (if roomId ∈ s.delayed then _ else s).Wired ↔ (roomId ∈ s.delayed → _)
    rcases em (roomId ∈ s.delayed) with hwaits | hnot
    · have hsame : ∀ delayed : List String,
          { s.tryRemove roomId with delayed := delayed }.Wired ↔ (s.tryRemove roomId).Wired :=
        fun delayed => wired_congr rfl rfl rfl
      rw [if_pos hwaits, hsame, wired_tryRemove_iff h]
      exact ⟨fun hnone _ => hnone, fun hc => hc hwaits⟩
    · rw [if_neg hnot]
      exact iff_of_true h fun hwaits => absurd hwaits hnot
  | getActiveSessions =>
    refine iff_of_true ?_ trivial
    simp only [SessionRegistry.next]
    split
    · exact h.congr rfl rfl rfl
    · exact h
    · exact h
  | removeStale shouldCleanup => exact iff_of_true (h.removeStale hk shouldCleanup) trivial
  | disposeStale => exact wired_disposeStale_iff h

end SessionRegistry

/-- **When a live session receives its room's events.**  In every run of the operations the handler of a
    stored session's room is its own, its channel is subscribed, and no other session has a handler,
    exactly as long as no session of the room is stored when a delayed removal fires or when
    CleanupAsync disposes of the session that it holds. -/
theorem handlers_follow_iff (calls : List RegistryCall) :
    (∀ s ∈ sessionRegistry.visited sessionRegistry.start calls, s.Wired) ↔
      sessionRegistry.Steps Tidy sessionRegistry.start calls := by
  have hkept : sessionRegistry.start.Kept := by
    refine ⟨fun roomId => ?_, fun roomId session h => ?_⟩
    · constructor
      · intro h
        cases h
      · rintro ⟨session, h⟩
        cases h
    · cases h
  have hwired : sessionRegistry.start.Wired := by
    refine ⟨fun roomId session h => ?_, fun roomId session h => ?_⟩
    · cases h
    · cases h
  exact Machine.visited_iff (M := sessionRegistry) (I := SessionRegistry.Kept)
    (fun _ c h _ => h.next c) (fun _ c hk _ h => SessionRegistry.wired_next_iff hk h c) hkept hwired
    (Machine.steps_of_forall (fun _ _ => trivial) calls _)

/-- A game is over, its session is taken out a minute later, and a player comes back to the room. -/
def comeBack : List RegistryCall :=
  [.createSessionAsync "r", .gameOver 0, .delayedRemoval "r", .getOrCreateSessionAsync "r" true]

/-- The new session is stored, the room's handler is that of the old one. -/
theorem handler_left_behind :
    ∃ s ∈ sessionRegistry.visited sessionRegistry.start comeBack,
      s.sessions.get? "r" = some 1 ∧ s.subscriptions.get? "r" = some 0 ∧ ¬ s.Wired := by
  have hsession : (sessionRegistry.after sessionRegistry.start comeBack).sessions.get? "r" = some 1 := by
    decide +kernel
  have hhandler : (sessionRegistry.after sessionRegistry.start comeBack).subscriptions.get? "r" =
      some 0 := by decide +kernel
  refine ⟨_, Machine.after_mem_visited _ _, hsession, hhandler, fun hw => ?_⟩
  obtain ⟨hsub, -⟩ := hw.receives "r" 1 hsession
  rw [hhandler] at hsub
  cases hsub

end HexWar
