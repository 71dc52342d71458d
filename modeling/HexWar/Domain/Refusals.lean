/-
  A command that throws leaves the room as it was.

  Nothing in the code rolls a room back: `next` keeps whatever had been written when the exception was
  thrown.  The three commands of the planning phase check everything before they write.  A resolution
  does not: it writes the phase first and departs, advances and delivers step by step, and each step
  could throw.  That none of them does is the soundness of the room (`Sound.resolvable`).

  The repository in memory hands out the room itself, so a half-done command would be stored at once.
-/
import HexWar.Domain.Soundness

namespace HexWar

open Lib Lib.Action GameRoom

variable {room : GameRoom}

/-- What a refused command leaves, when it refuses before it writes. -/
theorem after_of_refused {α : Type} {x : Game α} {room' : GameRoom} {refusal : Option GameError}
    {value : α} (h : x room = verdict refusal value room room') (hr : succeeds x room = false) :
    after x room = room := by
  rw [succeeds_verdict h] at hr
  rw [after_verdict h]
  cases refusal with
  | none => cases hr
  | some e => rfl

/-- **A resolution of a sound room throws at its first check or not at all.** -/
theorem Sound.resolveRound_refused (h : Sound room) {deadline : Option Time} {now : Time}
    (hr : room.accepts (.resolveRound deadline now) = false) : room.phase ≠ .planning := by
  intro hphase
  have hok := resolveRound_ok (h.resolvable hphase) deadline now
  have haccepts : room.accepts (.resolveRound deadline now) = true := succeeds_ok hok
  rw [haccepts] at hr
  cases hr

/-- **A refused call leaves a sound room as it was.** -/
theorem Sound.next_of_refused (h : Sound room) {call : Call} (hr : room.accepts call = false) :
    room.next call = room := by
  cases call with
  | addPlayer playerId deadline now =>
    obtain ⟨node, hnode⟩ := h.map.start room.vacantSide
    exact after_of_refused (addPlayer_eq hnode playerId deadline now) hr
  | moveUnits side command => exact after_of_refused (moveUnits_eq room side command) hr
  | resolveEncounter edgeId side decision =>
    exact after_of_refused (resolveEncounter_eq room edgeId side decision) hr
  | resolveRound deadline now =>
    exact next_resolveRound_refused (h.resolveRound_refused hr) deadline now
  | forceGameOver winner reason => cases hr

/-! ## The repository in memory -/

/-- The rooms of the process, by their id. -/
structure InMemoryGameRoomRepository where
  rooms : Dict String GameRoom

namespace InMemoryGameRoomRepository

def getById (repository : InMemoryGameRoomRepository) (roomId : String) : Option GameRoom :=
  repository.rooms.get? roomId

/-- A call on the room that was handed out: the repository shares the object. -/
def invoke (repository : InMemoryGameRoomRepository) (roomId : String) (call : Call) :
    InMemoryGameRoomRepository :=
  match repository.getById roomId with
  | none => repository
  | some room => { repository with rooms := repository.rooms.set roomId (room.next call) }

/-- A room that is written back as it was leaves the repository as it was. -/
theorem set_self {repository : InMemoryGameRoomRepository} {roomId : String}
    (h : repository.getById roomId = some room) :
    { repository with rooms := repository.rooms.set roomId room } = repository := by
  have hsame : repository.rooms.set roomId room = repository.rooms := by
    refine Dict.ext ?_
    have hmap := map_assign (f := id) (v := room) (w := room) h rfl
    rwa [List.map_id, List.map_id] at hmap
  rw [hsame]

end InMemoryGameRoomRepository

/-- **Rejected commands change nothing.**  Whatever has been called before, a call that throws leaves
    the room as it was, and with it the repository that shares the room. -/
theorem rejected_changes_nothing {roomId : String} (hreach : (rooms roomId).Reachable room)
    {call : Call} (hr : room.accepts call = false) :
    room.next call = room ∧
      ∀ repository : InMemoryGameRoomRepository, repository.getById roomId = some room →
        repository.invoke roomId call = repository := by
  have hsame := (sound_of_reachable hreach).next_of_refused hr
  refine ⟨hsame, fun repository hstored => ?_⟩
  rw [InMemoryGameRoomRepository.invoke, hstored]
  show { repository with rooms := repository.rooms.set roomId (room.next call) } = repository
  rw [hsame]
  exact InMemoryGameRoomRepository.set_self hstored

/-- With three units reserved, the smallest number that is asked for is refused like any other. -/
theorem rejected_minimum :
    ((rooms "room").after (rooms "room").start [.addPlayer ⟨"p1"⟩ none 0, .addPlayer ⟨"p2"⟩ none 0,
      .moveUnits .a ⟨⟨1⟩, ⟨5⟩, 2⟩]).next (.moveUnits .a ⟨⟨1⟩, ⟨1⟩, -2147483648⟩) =
    (rooms "room").after (rooms "room").start [.addPlayer ⟨"p1"⟩ none 0, .addPlayer ⟨"p2"⟩ none 0,
      .moveUnits .a ⟨⟨1⟩, ⟨5⟩, 2⟩] :=
  (rejected_changes_nothing ⟨_, show (rooms "room").Run [.addPlayer ⟨"p1"⟩ none 0,
    .addPlayer ⟨"p2"⟩ none 0, .moveUnits .a ⟨⟨1⟩, ⟨5⟩, 2⟩] from ⟨trivial, trivial,
    trivial, trivial⟩,
    rfl⟩ (by decide +kernel)).1

end HexWar
