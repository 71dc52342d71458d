/-
  The planning phase does not depend on who is quicker.

  In the planning phase the two sides reserve moves and decide encounters, and the server carries out
  their calls in the order in which they come in.  Here two orders that keep the order of each side's
  own calls are compared.

  A side's moves touch its own reservations only.  Its decisions touch an encounter and an edge that
  the other side's decisions touch too, but another field of the encounter and other groups of the
  edge; whoever decides last also takes the encounter off the list, and then the other side can no
  more decide it twice than before.  So the sides are independent (`sides_independent`) up to the
  order of the groups in one bucket and of the events (`SameButOrder`), and
  `Lib.Independent.confluent` says the rest.

  The obligations of `Lib.Independent`, in the order in which they are met:

  1. A call of one side does not change what the other is answered (`grants_plan`).
  2. Two calls of different sides can be swapped (`plan_swap`).  There are three kinds of pairs, two
     moves, a move and a decision, two decisions; the last splits again by whether they are about
     the same encounter.
  3. Rooms that differ in the order only answer alike and go on differing in the order only
     (`grants_same`, `plan_same`).

  That a room is one of a session is needed for the second: it says that an edge has at most one pending
  encounter, so that a decision cannot be mistaken for one about another.
-/
import HexWar.Domain.Encounters
import HexWar.Lib.Interleaving

namespace HexWar

open Lib Lib.Action GameRoom

variable {room room' : GameRoom}

/-! ## The calls of the planning phase -/

/-- A call that a side makes in the planning phase. -/
inductive PlanningCall where
  | moveUnits (side : PlayerSide) (command : MoveCommand)
  | resolveEncounter (edgeId : EdgeId) (side : PlayerSide) (decision : EncounterDecision)
deriving DecidableEq

namespace PlanningCall

/-- The call of the room that a call of the planning phase is. -/
def toCall : PlanningCall → Call
  | moveUnits side command => .moveUnits side command
  | resolveEncounter edgeId side decision => .resolveEncounter edgeId side decision

/-- The side that makes the call. -/
def side : PlanningCall → PlayerSide
  | moveUnits side _ => side
  | resolveEncounter _ side _ => side

end PlanningCall

/-- The room after a call of the planning phase. -/
def GameRoom.plan (room : GameRoom) (c : PlanningCall) : GameRoom := room.next c.toCall

/-- Is the call accepted? -/
def GameRoom.grants (room : GameRoom) (c : PlanningCall) : Bool := room.accepts c.toCall

/-- The rooms are the same, up to the order of the groups in a bucket and of the events. -/
structure SameButOrder (room room' : GameRoom) : Prop where
  /-- But for the edges and the log, the rooms are equal. -/
  base : { room with edges := room'.edges, domainEvents := room'.domainEvents } = room'
  /-- The edges are the same edges, in the same order. -/
  shapes : room.edges.mapValues edgeShape = room'.edges.mapValues edgeShape
  /-- Bucket by bucket they hold the same groups. -/
  groups : ∀ id e e', room.edges.get? id = some e → room'.edges.get? id = some e' →
    ∀ k, (e.bucket k).Perm (e'.bucket k)
  /-- The same events have been raised. -/
  events : room.domainEvents.Perm room'.domainEvents

namespace SameButOrder

/-- Two edges found under one identifier of one room are one edge. -/
theorem refl (room : GameRoom) : SameButOrder room room :=
  ⟨rfl, rfl, fun _ _ _ h h' _ => by cases h.symm.trans h'; exact List.Perm.refl _, List.Perm.refl _⟩

/-- Nothing in the relation has a direction. -/
theorem symm (h : SameButOrder room room') : SameButOrder room' room := by
  refine ⟨?_, h.shapes.symm, fun id e e' he he' k => (h.groups id e' e he' he k).symm, h.events.symm⟩
  rw [← h.base]

/-- An edge of one room is an edge of the other. -/
theorem edge (h : SameButOrder room room') {id : EdgeId} {e : Edge}
    (he : room.edges.get? id = some e) :
    ∃ e', room'.edges.get? id = some e' ∧ edgeShape e' = edgeShape e := by
  have hshape := congrArg (fun d => d.get? id) h.shapes
  rw [Dict.get?_mapValues, Dict.get?_mapValues, he] at hshape
  obtain ⟨e', he', heq⟩ := Option.map_eq_some_iff.mp hshape.symm
  exact ⟨e', he', heq⟩

/-- The edge in between is found by its shape. -/
theorem trans {room'' : GameRoom} (h : SameButOrder room room') (h' : SameButOrder room' room'') :
    SameButOrder room room'' := by
  refine ⟨?_, h.shapes.trans h'.shapes, fun id e e'' he he'' k => ?_, h.events.trans h'.events⟩
  · rw [← h'.base, ← h.base]
  · obtain ⟨e', he', -⟩ := h.edge he
    exact (h.groups id e e' he he' k).trans (h'.groups id e' e'' he' he'' k)

/-- The relation up to which the planning phase is confluent is an equivalence. -/
theorem equivalence : Equivalence SameButOrder := ⟨refl, symm, trans⟩

/-- The other room is this one with other edges and events. -/
theorem exists_eq (h : SameButOrder room room') :
    ∃ edges events, room' = { room with edges := edges, domainEvents := events } :=
  ⟨room'.edges, room'.domainEvents, h.base.symm⟩

end SameButOrder

/-! ## What is accepted

Refusals are the room's own; a call that is refused changes nothing, so the pairs in which one call
is refused are done at once. -/

/-- A refused call leaves the room as it is. -/
theorem plan_of_refused {c : PlanningCall} (h : room.grants c = false) : room.plan c = room := by
  cases c with
  | moveUnits side command =>
    have href := (accepts_move room side command).symm.trans h
    unfold plan PlanningCall.toCall
    rw [next_moveUnits]
    rcases hr : room.moveRefusal side command with _ | e
    · rw [hr] at href
      cases href
    · rfl
  | resolveEncounter edgeId side decision =>
    have href := (accepts_decision room edgeId side decision).symm.trans h
    unfold plan PlanningCall.toCall
    rw [next_resolveEncounter]
    rcases hr : room.decisionRefusal edgeId side decision with _ | e
    · rw [hr] at href
      cases href
    · rfl

/-- A move is accepted when there is no reason to refuse it. -/
theorem grants_moveUnits (room : GameRoom) (side : PlayerSide) (command : MoveCommand) :
    room.grants (.moveUnits side command) = (room.moveRefusal side command).isNone :=
  accepts_move room side command

/-- An accepted move is reserved. -/
theorem plan_moveUnits {side : PlayerSide} {command : MoveCommand}
    (h : room.grants (.moveUnits side command) = true) :
    room.plan (.moveUnits side command) = room.reserve side command := by
  rw [grants_moveUnits, Option.isNone_iff_eq_none] at h
  unfold plan PlanningCall.toCall
  rw [next_moveUnits, h]
  rfl

/-- In a session a decision is accepted when the encounter waits for the side. -/
theorem grants_resolveEncounter (h : InSession room) (edgeId : EdgeId) (side : PlayerSide)
    (decision : EncounterDecision) :
    room.grants (.resolveEncounter edgeId side decision) = true ↔ room.phase = .planning ∧
      ∃ p, room.encounterOn edgeId = some p ∧ p.hasDecided side = false := by
  have hgrants : room.grants (.resolveEncounter edgeId side decision) =
      (room.decisionRefusal edgeId side decision).isNone :=
    accepts_decision room edgeId side decision
  rw [hgrants, Option.isNone_iff_eq_none]
  constructor
  · intro hok
    obtain ⟨hphase, p, -, hp, hund, -⟩ := decisionRefusal_none hok
    exact ⟨hphase, p, hp, hund⟩
  · rintro ⟨hphase, p, hp, hund⟩
    obtain ⟨hmem, hpid⟩ := encounterOn_mem hp
    have hsound := h.sound.encounters p hmem
    obtain ⟨e, he⟩ := hsound.edge
    rw [hpid] at he
    unfold decisionRefusal
    rw [if_neg (not_not_intro hphase), hp]
    simp only
    rw [if_neg (by rw [hund]; decide), he]
    -- the group heads for an end of the edge, so it can retreat
    cases decision with
    | advance => rfl
    | retreat =>
      have hend : e.id.IsEnd (p.groupOf side).destination := by
        rw [h.sound.map.keyed _ _ he, ← hpid]
        exact (hsound.groups side).destination
      simp only [retreatRefusal]
      rw [getOppositeNode_eq, if_pos hend]

/-- An accepted decision is entered in the encounter that was found, on the edge that was found. -/
theorem plan_resolveEncounter {edgeId : EdgeId} {side : PlayerSide} {decision : EncounterDecision}
    (hok : room.grants (.resolveEncounter edgeId side decision) = true) :
    ∃ p e, room.encounterOn edgeId = some p ∧ p.hasDecided side = false ∧
      room.edges.get? edgeId = some e ∧
      room.plan (.resolveEncounter edgeId side decision) =
        room.decideOn e p edgeId side decision := by
  have hgrants : room.grants (.resolveEncounter edgeId side decision) =
      (room.decisionRefusal edgeId side decision).isNone :=
    accepts_decision room edgeId side decision
  rw [hgrants, Option.isNone_iff_eq_none] at hok
  exact next_decided hok

/-- A move is refused or granted by the phase, the map and the side's own reservations. -/
theorem moveRefusal_congr {side : PlayerSide} (command : MoveCommand)
    (hphase : room'.phase = room.phase) (hnodes : room'.nodes = room.nodes)
    (hkeys : ∀ id, room'.edges.containsKey id = room.edges.containsKey id)
    (hused : room'.unitUsedThisRound.get side = room.unitUsedThisRound.get side)
    (hmoves : room'.pendingMoves.get side = room.pendingMoves.get side) :
    room'.moveRefusal side command = room.moveRefusal side command ∧
      room'.granted side command = room.granted side command := by
  have hgrant : room'.granted side command = room.granted side command := by
    unfold granted
    rw [hused]
  refine ⟨?_, hgrant⟩
  unfold moveRefusal availableAt
  rw [hphase, hused, hgrant, hkeys, hnodes, hmoves]

/-! ## The list of pending encounters

A decision changes the first encounter on its edge or takes it off the list.  `modifyFirst` is that
operation on any list; these are the ways in which two of them can meet. -/

/-- Changes of elements that cannot be mistaken for each other commute. -/
theorem modifyFirst_comm {α : Type} {p q : α → Bool} {f g : α → Option α}
    (hpq : ∀ x, p x = true → q x = false) (hf : ∀ x y, f x = some y → p y = true)
    (hg : ∀ x y, g x = some y → q y = true) (l : List α) :
    modifyFirst p f (modifyFirst q g l) = modifyFirst q g (modifyFirst p f l) := by
  have hqp : ∀ x, q x = true → p x = false := by
    intro x hx
    rcases hp : p x with _ | _
    · rfl
    · rw [hpq x hp] at hx
      cases hx
  -- both changes are at this element, at most one of them, or further on
  induction l with
  | nil => rfl
  | cons x xs ih =>
    rcases hp : p x with _ | _
    · rcases hq : q x with _ | _
      · simp only [modifyFirst, hp, hq, Bool.false_eq_true, if_false, ih]
      · rcases hgx : g x with _ | y
        · simp [modifyFirst, hp, hq, hgx]
        · simp [modifyFirst, hp, hq, hgx, hqp y (hg x y hgx)]
    · have hq := hpq x hp
      rcases hfx : f x with _ | y
      · simp [modifyFirst, hp, hq, hfx]
      · simp [modifyFirst, hp, hq, hfx, hpq y (hf x y hfx)]

/-- Changing an element and then removing it is removing it. -/
theorem modifyFirst_remove {α : Type} {p : α → Bool} {y : α} (hy : p y = true) (l : List α) :
    modifyFirst p (fun _ => none) (modifyFirst p (fun _ => some y) l) =
      modifyFirst p (fun _ => none) l := by
  induction l with
  | nil => rfl
  | cons x xs ih =>
    rcases hp : p x with _ | _
    · simp only [modifyFirst, hp, Bool.false_eq_true, if_false, ih]
    · simp [modifyFirst, hp, hy]

/-- An element that is changed cannot be mistaken for another one that is looked for. -/
theorem find?_modifyFirst_other {α : Type} {p q : α → Bool} {f : α → Option α}
    (hpq : ∀ x, p x = true → q x = false) (hf : ∀ x y, f x = some y → p y = true) (l : List α) :
    (modifyFirst p f l).find? q = l.find? q := by
  induction l with
  | nil => rfl
  | cons x xs ih =>
    rcases hp : p x with _ | _
    · simp only [modifyFirst, hp, Bool.false_eq_true, if_false, List.find?_cons, ih]
    · rcases hfx : f x with _ | y
      · simp [modifyFirst, hp, hfx, hpq x hp]
      · simp [modifyFirst, hp, hfx, hpq x hp, hpq y (hf x y hfx)]

/-- Where at most one element satisfies `p`, the changed one is found in its place. -/
theorem find?_modifyFirst_same {α : Type} {p : α → Bool} {o : Option α}
    (ho : ∀ y, o = some y → p y = true) {l : List α}
    (hl : l.Pairwise fun x x' => p x = true → p x' = false) (hsome : (l.find? p).isSome) :
    (modifyFirst p (fun _ => o) l).find? p = o := by
  induction l with
  | nil => cases hsome
  | cons x xs ih =>
    obtain ⟨hx, hxs⟩ := List.pairwise_cons.mp hl
    rcases hp : p x with _ | _
    · rw [List.find?_cons, hp] at hsome
      simp only [modifyFirst, hp, Bool.false_eq_true, if_false, List.find?_cons]
      exact ih hxs hsome
    · have hnone : xs.find? p = none := by
        rw [List.find?_eq_none]
        intro y hy hpy
        rw [hx y hy hp] at hpy
        cases hpy
      rcases ho' : o with _ | y
      · simp [modifyFirst, hp, hnone]
      · simp [modifyFirst, hp, ho y ho']

/-- The encounters that are found after a decision. -/
theorem encounterOn_decideOn (hu : (room.pendingEncounters.map (·.edgeId)).Nodup) {edgeId : EdgeId}
    {p : PendingEncounter} (hp : room.encounterOn edgeId = some p) (e : Edge) (side : PlayerSide)
    (decision : EncounterDecision) (id : EdgeId) :
    (room.decideOn e p edgeId side decision).encounterOn id =
      if id = edgeId then
        if (marked e p side decision).bothDecided then none else some (marked e p side decision)
      else room.encounterOn id := by
  have hmid : (marked e p side decision).edgeId = edgeId := (encounterOn_mem hp).2
  have hout : ∀ y, (if (marked e p side decision).bothDecided then none
      else some (marked e p side decision)) = some y → y.edgeId = edgeId := by
    intro y hy
    split at hy
    · cases hy
    · cases hy
      exact hmid
  split
  · next hid =>
    subst hid
    apply find?_modifyFirst_same
    · exact fun y hy => decide_eq_true (hout y hy)
    · have hpair := List.pairwise_map.mp hu
      refine hpair.imp ?_
      intro x x' hne hx
      apply decide_eq_false
      intro hx'
      exact hne ((of_decide_eq_true hx).trans hx'.symm)
    · exact Option.isSome_iff_exists.mpr ⟨p, hp⟩
  · next hid =>
    apply find?_modifyFirst_other
    · intro x hx
      apply decide_eq_false
      rw [of_decide_eq_true hx]
      exact Ne.symm hid
    · exact fun _ y hy => decide_eq_true (hout y hy)

/-- A session's room stays one under the calls of the planning phase. -/
theorem InSession.plan (h : InSession room) (c : PlanningCall) : InSession (room.plan c) := by
  unfold GameRoom.plan
  apply h.next
  cases c with
  | moveUnits side command => exact trivial
  | resolveEncounter edgeId side decision => exact trivial

/-! ## The answers

A move is refused by what the side has reserved, by the nodes and by the edges that exist; a
decision is refused by the encounter and by whether the side has made it.  A call of the other side
changes none of these. -/

/-- Deciding keeps the edges of the map. -/
theorem containsKey_decideOn {edgeId : EdgeId} {p : PendingEncounter} {e : Edge}
    (hid : e.id = edgeId) (he : room.edges.get? edgeId = some e) (side : PlayerSide)
    (decision : EncounterDecision) (id : EdgeId) :
    (room.decideOn e p edgeId side decision).edges.containsKey id = room.edges.containsKey id := by
  have hget : (room.decideOn e p edgeId side decision).edges.get? id = _ :=
    get?_edgesAfter decision hid he id
  unfold Dict.containsKey
  rw [hget]
  split
  · next heq => rw [← heq, he]; rfl
  · rfl

/-- Once a side has decided, it depends on the other whether the encounter is over. -/
theorem bothDecided_marked {p : PendingEncounter} {side : PlayerSide} (e : Edge)
    (decision : EncounterDecision) :
    (marked e p side decision).bothDecided = p.hasDecided side.enemy := by
  unfold PendingEncounter.bothDecided marked
  rw [hasDecided_markDecided, hasDecided_markDecided]
  cases side with
  | a => simp [PlayerSide.enemy]
  | b => simp [PlayerSide.enemy]

/-- **A call of one side does not change what the other side is answered.** -/
theorem grants_plan (h : InSession room) {c d : PlanningCall} (hne : c.side ≠ d.side) :
    (room.plan d).grants c = room.grants c := by
  -- if the other call is refused nothing has changed at all
  rcases hd : room.grants d with _ | _
  · rw [plan_of_refused hd]
  have hafter := h.plan d
  cases c with
  | moveUnits s command =>
    rw [grants_moveUnits, grants_moveUnits]
    cases d with
    | moveUnits t command' =>
      have hst : s ≠ t := hne
      rw [plan_moveUnits hd]
      have hcongr := @moveRefusal_congr room (room.reserve t command') s command rfl rfl
        (fun _ => rfl) (PerSide.get_update_of_ne _ hst _) (PerSide.get_update_of_ne _ hst _)
      rw [hcongr.1]
    | resolveEncounter edgeId t decision =>
      obtain ⟨p, e, -, -, he, hplan⟩ := plan_resolveEncounter hd
      have hkeys := containsKey_decideOn (p := p) (h.sound.map.keyed _ _ he) he t decision
      have hcongr := @moveRefusal_congr room (room.decideOn e p edgeId t decision) s command rfl rfl
        hkeys rfl rfl
      rw [hplan, hcongr.1]
  | resolveEncounter id s decision =>
    rw [Bool.eq_iff_iff, grants_resolveEncounter hafter, grants_resolveEncounter h]
    cases d with
    | moveUnits t command =>
      rw [plan_moveUnits hd]
      exact Iff.rfl
    | resolveEncounter edgeId t decision' =>
      have hts : s = t.enemy := PlayerSide.ne_iff_eq_enemy.mp hne
      obtain ⟨p, e, hp, -, he, hplan⟩ := plan_resolveEncounter hd
      rw [hplan, encounterOn_decideOn h.orderly.unique hp]
      refine and_congr Iff.rfl ?_
      split
      · next hid =>
        -- the same encounter: the mark of the one side leaves the other's open
        subst hid
        rw [hp, bothDecided_marked, ← hts]
        constructor
        · rintro ⟨q, hq, hund⟩
          split at hq
          · cases hq
          · next hopen => exact ⟨p, rfl, Bool.eq_false_iff.mpr hopen⟩
        · rintro ⟨q, hq, hund⟩
          cases hq
          refine ⟨marked e p t decision', ?_, ?_⟩
          · rw [if_neg (by rw [hund]; decide)]
          · unfold marked
            have hst : s ≠ t := hne
            rw [hasDecided_markDecided, if_neg hst]
            exact hund
      · exact Iff.rfl

/-! ## The rooms

The room after both calls, in either order.  What a decision changes of an edge is compared bucket
by bucket, and what both calls raise as a permutation of the log. -/

/-- Rooms of a session are the same but for the order when these parts of them are. -/
theorem SameButOrder.of (h : InSession room) (h' : InSession room')
    (hencs : room.pendingEncounters = room'.pendingEncounters)
    (hmoves : room.pendingMoves = room'.pendingMoves)
    (hused : room.unitUsedThisRound = room'.unitUsedThisRound)
    (hrest : { room with
      edges := room'.edges
      domainEvents := room'.domainEvents
      pendingEncounters := room'.pendingEncounters
      pendingMoves := room'.pendingMoves
      unitUsedThisRound := room'.unitUsedThisRound } = room')
    (hgroups : ∀ id e e', room.edges.get? id = some e → room'.edges.get? id = some e' →
      ∀ k, (e.bucket k).Perm (e'.bucket k))
    (hevents : room.domainEvents.Perm room'.domainEvents) : SameButOrder room room' := by
  refine ⟨?_, h.sound.map.edges.trans h'.sound.map.edges.symm, hgroups, hevents⟩
  rw [← hencs, ← hmoves, ← hused] at hrest
  exact hrest

/-- Two additions to the log in either order. -/
theorem log_perm {α : Type} (log xs ys : List α) : (log ++ xs ++ ys).Perm (log ++ ys ++ xs) := by
  rw [List.append_assoc, List.append_assoc]
  exact List.perm_append_comm.append_left log

/-- What is changed for one side and what is changed for the other. -/
theorem update_comm {α : Type} (p : PerSide α) {s t : PlayerSide} (h : s ≠ t) (f g : α → α) :
    (p.update s f).update t g = (p.update t g).update s f := by
  cases s <;> cases t
  · exact absurd rfl h
  · rfl
  · rfl
  · exact absurd rfl h

/-- Two moves: each side's list and each side's account get their own entry. -/
theorem reserve_reserve {s t : PlayerSide} {command command' : MoveCommand} (hst : s ≠ t)
    (h : InSession ((room.reserve s command).reserve t command'))
    (h' : InSession ((room.reserve t command').reserve s command)) :
    SameButOrder ((room.reserve s command).reserve t command')
      ((room.reserve t command').reserve s command) := by
  -- the grant is computed from the side's own reservations, so it is the same before and after
  have hs := @moveRefusal_congr room (room.reserve t command') s command rfl rfl
    (fun _ => rfl) (PerSide.get_update_of_ne _ hst _) (PerSide.get_update_of_ne _ hst _)
  have ht := @moveRefusal_congr room (room.reserve s command) t command' rfl rfl
    (fun _ => rfl) (PerSide.get_update_of_ne _ (Ne.symm hst) _)
    (PerSide.get_update_of_ne _ (Ne.symm hst) _)
  have hgs : (room.reserve t command').grantedMove s command = room.grantedMove s command := by
    unfold grantedMove
    rw [hs.2]
  have hgt : (room.reserve s command).grantedMove t command' = room.grantedMove t command' := by
    unfold grantedMove
    rw [ht.2]
  apply SameButOrder.of h h' rfl
  · show (room.pendingMoves.update s _).update t (· ++ [(room.reserve s command).grantedMove t _]) =
      (room.pendingMoves.update t _).update s (· ++ [(room.reserve t command').grantedMove s _])
    rw [hgs, hgt]
    exact update_comm _ hst _ _
  · show (room.unitUsedThisRound.update s _).update t (· + (room.reserve s command).granted t _) =
      (room.unitUsedThisRound.update t _).update s (· + (room.reserve t command').granted s _)
    rw [hs.2, ht.2]
    exact update_comm _ hst _ _
  · rfl
  · intro id e e' he he' k
    cases he.symm.trans he'
    exact List.Perm.refl _
  · show (room.domainEvents ++ [_] ++
        [DomainEvent.unitsDeparted ⟨_, _, _, (room.reserve s command).granted t _, _⟩]).Perm
      (room.domainEvents ++ [_] ++
        [DomainEvent.unitsDeparted ⟨_, _, _, (room.reserve t command').granted s _, _⟩])
    rw [hs.2, ht.2]
    exact log_perm _ _ _

/-- A move and a decision write different fields of the room. -/
theorem reserve_decideOn {s t : PlayerSide} {command : MoveCommand} {edgeId : EdgeId}
    {p : PendingEncounter} {e : Edge} {decision : EncounterDecision}
    (h : InSession ((room.reserve s command).decideOn e p edgeId t decision))
    (h' : InSession ((room.decideOn e p edgeId t decision).reserve s command)) :
    SameButOrder ((room.reserve s command).decideOn e p edgeId t decision)
      ((room.decideOn e p edgeId t decision).reserve s command) := by
  apply SameButOrder.of h h' rfl rfl rfl rfl
  · intro id e₁ e₂ he₁ he₂ k
    cases he₁.symm.trans he₂
    exact List.Perm.refl _
  · show (room.domainEvents ++ [_] ++ [_, _] ++ _).Perm (room.domainEvents ++ [_, _] ++ _ ++ [_])
    rw [List.append_assoc (room.domainEvents ++ [_]), List.append_assoc room.domainEvents [_, _]]
    exact log_perm _ _ _

/-- Two decisions about different encounters: different elements of the list, and different edges. -/
theorem decideOn_decideOn_other {s t : PlayerSide} {id id' : EdgeId} {p p' : PendingEncounter}
    {e e' : Edge} {d d' : EncounterDecision} (hne : id ≠ id') (hp : p.edgeId = id)
    (hp' : p'.edgeId = id') (hid : e.id = id) (hid' : e'.id = id')
    (he : room.edges.get? id = some e) (he' : room.edges.get? id' = some e')
    (h : InSession ((room.decideOn e p id s d).decideOn e' p' id' t d'))
    (h' : InSession ((room.decideOn e' p' id' t d').decideOn e p id s d)) :
    SameButOrder ((room.decideOn e p id s d).decideOn e' p' id' t d')
      ((room.decideOn e' p' id' t d').decideOn e p id s d) := by
  have hafter : ∀ k, (room.decideOn e p id s d).edges.get? k =
      if id = k then some (edgeAfter e p s d) else room.edges.get? k := get?_edgesAfter d hid he
  have hafter' : ∀ k, (room.decideOn e' p' id' t d').edges.get? k =
      if id' = k then some (edgeAfter e' p' t d') else room.edges.get? k :=
    get?_edgesAfter d' hid' he'
  have he₁ : (room.decideOn e' p' id' t d').edges.get? id = some e := by
    rw [hafter', if_neg (Ne.symm hne)]
    exact he
  have he₁' : (room.decideOn e p id s d).edges.get? id' = some e' := by
    rw [hafter, if_neg hne]
    exact he'
  refine SameButOrder.of h h' ?_ rfl rfl rfl ?_ ?_
  · apply modifyFirst_comm
    · intro x hx
      apply decide_eq_false
      rw [of_decide_eq_true hx]
      exact Ne.symm hne
    · intro _ y hy
      split at hy
      · cases hy
      · cases hy
        exact decide_eq_true hp'
    · intro _ y hy
      split at hy
      · cases hy
      · cases hy
        exact decide_eq_true hp
  -- an edge is the one of the first decision, or of the second, or neither
  · intro k e₁ e₂ hget hget' j
    have hleft : ((room.decideOn e p id s d).decideOn e' p' id' t d').edges.get? k = _ :=
      get?_edgesAfter d' hid' he₁' k
    have hright : ((room.decideOn e' p' id' t d').decideOn e p id s d).edges.get? k = _ :=
      get?_edgesAfter d hid he₁ k
    rw [hleft, hafter] at hget
    rw [hright, hafter'] at hget'
    rcases em (id = k) with hk | hk
    · have hk' : ¬ id' = k := fun hk' => hne (hk.trans hk'.symm)
      rw [if_neg hk', if_pos hk] at hget
      rw [if_pos hk] at hget'
      cases hget.symm.trans hget'
      exact List.Perm.refl _
    · rw [if_neg hk] at hget hget'
      cases hget.symm.trans hget'
      exact List.Perm.refl _
  · show (room.domainEvents ++ [_, _] ++ _ ++ [_, _] ++ _).Perm
      (room.domainEvents ++ [_, _] ++ _ ++ [_, _] ++ _)
    rw [List.append_assoc room.domainEvents [_, _], List.append_assoc room.domainEvents [_, _],
      List.append_assoc (room.domainEvents ++ _) [_, _],
      List.append_assoc (room.domainEvents ++ _) [_, _]]
    exact log_perm _ _ _

/-- Where a decision sends the group does not depend on what the other side has decided. -/
theorem outcomeOf_after (e : Edge) (p : PendingEncounter) (s t : PlayerSide)
    (d d' : EncounterDecision) :
    outcomeOf (edgeAfter e p s d) (marked e p s d) t d' = outcomeOf e p t d' := by
  cases d <;> cases d' <;> rfl

/-- Two sides' marks can be set in either order. -/
theorem marked_comm (e : Edge) (p : PendingEncounter) {s t : PlayerSide} (hst : s ≠ t)
    (d d' : EncounterDecision) :
    marked (edgeAfter e p s d) (marked e p s d) t d' =
      marked (edgeAfter e p t d') (marked e p t d') s d := by
  have hleft : marked (edgeAfter e p s d) (marked e p s d) t d' =
      (marked e p s d).markDecided t d' (outcomeOf e p t d') := by
    rw [← outcomeOf_after e p s t d d']
    rfl
  have hright : marked (edgeAfter e p t d') (marked e p t d') s d =
      (marked e p t d').markDecided s d (outcomeOf e p s d) := by
    rw [← outcomeOf_after e p t s d' d]
    rfl
  rw [hleft, hright]
  unfold marked PendingEncounter.markDecided
  rw [PendingEncounter.mk.injEq]
  exact ⟨rfl, rfl, rfl, rfl, PerSide.set_comm _ _ _ hst, PerSide.set_comm _ _ _ hst⟩

/-- The groups of the edge after both have decided. -/
theorem bucket_after_after (e : Edge) (p : PendingEncounter) {s t : PlayerSide} (hst : s ≠ t)
    (d d' : EncounterDecision) (k : Int) :
    ((edgeAfter (edgeAfter e p s d) (marked e p s d) t d').bucket k).Perm
      ((edgeAfter (edgeAfter e p t d') (marked e p t d') s d).bucket k) := by
  cases d with
  | advance => exact List.Perm.refl _
  | retreat =>
    cases d' with
    | advance => exact List.Perm.refl _
    | retreat =>
      rw [bucket_retreat, bucket_retreat, bucket_retreat, bucket_retreat]
      show (List.filter _ (_ ++ if k = e.distance.roundsRequired then _ else _) ++
          if k = e.distance.roundsRequired then _ else _).Perm
        (List.filter _ (_ ++ if k = e.distance.roundsRequired then _ else _) ++
          if k = e.distance.roundsRequired then _ else _)
      rw [List.filter_append, List.filter_append, List.filter_comm]
      rcases em (k = e.distance.roundsRequired) with hk | hk
      · -- neither side takes the other's group off the edge
        rw [if_pos hk, if_pos hk, if_pos hk, if_pos hk,
          List.filter_cons_of_pos (by simpa using hst),
          List.filter_cons_of_pos (by simpa using Ne.symm hst)]
        exact log_perm _ _ _
      · rw [if_neg hk, if_neg hk, if_neg hk, if_neg hk]
        exact List.Perm.refl _

/-- An encounter that only one side has decided is not announced as resolved. -/
theorem resolvedEvent_open {p : PendingEncounter} (h : p.bothDecided = false) :
    resolvedEvent room p = none := by
  unfold PendingEncounter.bothDecided PendingEncounter.hasDecided at h
  unfold resolvedEvent
  rcases ha : p.decision.a with _ | x
  · rfl
  · rcases hb : p.decision.b with _ | y
    · rfl
    · rw [Bool.and_eq_false_iff] at h
      rcases h with h | h
      · have : p.decision.get .a = some x := ha
        rw [this] at h
        cases h
      · have : p.decision.get .b = some y := hb
        rw [this] at h
        cases h

/-- Two decisions about the same encounter.  Whoever is second closes it, and it does not matter
    who: the marks are the same, the encounter leaves the list, and the edge holds what both
    decisions made of it. -/
theorem decideOn_decideOn_same {s t : PlayerSide} {id : EdgeId} {p : PendingEncounter} {e : Edge}
    {d d' : EncounterDecision} (hst : s ≠ t) (hp : p.edgeId = id) (hid : e.id = id)
    (he : room.edges.get? id = some e) (hs : p.hasDecided s = false) (ht : p.hasDecided t = false)
    (h : InSession ((room.decideOn e p id s d).decideOn (edgeAfter e p s d) (marked e p s d) id t d'))
    (h' : InSession
      ((room.decideOn e p id t d').decideOn (edgeAfter e p t d') (marked e p t d') id s d)) :
    SameButOrder
      ((room.decideOn e p id s d).decideOn (edgeAfter e p s d) (marked e p s d) id t d')
      ((room.decideOn e p id t d').decideOn (edgeAfter e p t d') (marked e p t d') id s d) := by
  have hts : t = s.enemy := PlayerSide.ne_iff_eq_enemy.mp (Ne.symm hst)
  have hst' : s = t.enemy := PlayerSide.ne_iff_eq_enemy.mp hst
  -- after one decision the encounter is open, after two it is not
  have hopen : (marked e p s d).bothDecided = false := by
    rw [bothDecided_marked, ← hts]
    exact ht
  have hopen' : (marked e p t d').bothDecided = false := by
    rw [bothDecided_marked, ← hst']
    exact hs
  have hclosed : (marked (edgeAfter e p s d) (marked e p s d) t d').bothDecided = true := by
    rw [bothDecided_marked, ← hst']
    unfold marked
    rw [hasDecided_markDecided, if_pos rfl]
  have hmark := marked_comm e p hst d d'
  have hafter : ∀ (u : PlayerSide) (f : EncounterDecision), (edgeAfter e p u f).id = id := by
    intro u f
    cases f with
    | advance => exact hid
    | retreat => exact hid
  have hget : ∀ (u : PlayerSide) (f : EncounterDecision) (k : EdgeId),
      (room.decideOn e p id u f).edges.get? k =
        if id = k then some (edgeAfter e p u f) else room.edges.get? k :=
    fun u f => get?_edgesAfter f hid he
  refine SameButOrder.of h h' ?_ rfl rfl rfl ?_ ?_
  · show modifyFirst (·.edgeId = id) (fun _ => if (marked _ (marked e p s d) t d').bothDecided
        then none else some _) (modifyFirst (·.edgeId = id) (fun _ => if (marked e p s d).bothDecided
          then none else some _) room.pendingEncounters) =
      modifyFirst (·.edgeId = id) (fun _ => if (marked _ (marked e p t d') s d).bothDecided
        then none else some _) (modifyFirst (·.edgeId = id) (fun _ =>
          if (marked e p t d').bothDecided then none else some _) room.pendingEncounters)
    -- changed once and then removed, it is removed
    have hremove : ∀ q : PendingEncounter, q.edgeId = id →
        modifyFirst (·.edgeId = id) (fun _ => none)
          (modifyFirst (·.edgeId = id) (fun _ => some q) room.pendingEncounters) =
        modifyFirst (·.edgeId = id) (fun _ => none) room.pendingEncounters := fun q hq =>
      modifyFirst_remove (p := fun x : PendingEncounter => decide (x.edgeId = id))
        (decide_eq_true hq) _
    rw [← hmark, hclosed, hopen, hopen']
    exact (hremove (marked e p s d) hp).trans (hremove (marked e p t d') hp).symm
  · intro k e₁ e₂ he₁ he₂ j
    have hleft : ((room.decideOn e p id s d).decideOn (edgeAfter e p s d) (marked e p s d) id t
        d').edges.get? k = _ :=
      get?_edgesAfter d' (hafter s d) (by rw [hget, if_pos rfl]) k
    have hright : ((room.decideOn e p id t d').decideOn (edgeAfter e p t d') (marked e p t d') id s
        d).edges.get? k = _ :=
      get?_edgesAfter d (hafter t d') (by rw [hget, if_pos rfl]) k
    rw [hleft, hget] at he₁
    rw [hright, hget] at he₂
    rcases em (id = k) with hk | hk
    · rw [if_pos hk] at he₁ he₂
      cases he₁
      cases he₂
      exact bucket_after_after e p hst d d' j
    · rw [if_neg hk, if_neg hk] at he₁ he₂
      cases he₁.symm.trans he₂
      exact List.Perm.refl _
  · show (room.domainEvents ++ [_, _] ++ (resolvedEvent room (marked e p s d)).toList ++ [_, _] ++
        (resolvedEvent room (marked _ (marked e p s d) t d')).toList).Perm
      (room.domainEvents ++ [_, _] ++ (resolvedEvent room (marked e p t d')).toList ++ [_, _] ++
        (resolvedEvent room (marked _ (marked e p t d') s d)).toList)
    -- the last event, of the resolved encounter, is raised by the second decision in both orders
    rw [resolvedEvent_open hopen, resolvedEvent_open hopen', ← hmark, Option.toList_none,
      List.append_nil, List.append_nil]
    exact (log_perm _ _ _).append_right _

/-- **Calls of the two sides commute**, up to the order of groups and events. -/
theorem plan_swap (h : InSession room) {c d : PlanningCall} (hne : c.side ≠ d.side) :
    SameButOrder ((room.plan c).plan d) ((room.plan d).plan c) := by
  have hcd := grants_plan h hne
  have hdc := grants_plan h (Ne.symm hne)
  rcases hc : room.grants c with _ | _
  · rw [plan_of_refused hc, plan_of_refused (hcd.trans hc)]
    exact SameButOrder.refl _
  rcases hd : room.grants d with _ | _
  · rw [plan_of_refused hd, plan_of_refused (hdc.trans hd)]
    exact SameButOrder.refl _
  -- both accepted; in each order the second call finds what the first one left
  have hin := (h.plan c).plan d
  have hin' := (h.plan d).plan c
  have hc' := hcd.trans hc
  have hd' := hdc.trans hd
  cases c with
  | moveUnits s command =>
    cases d with
    | moveUnits t command' =>
      rw [plan_moveUnits hc] at hin hd' ⊢
      rw [plan_moveUnits hd] at hin' hc' ⊢
      rw [plan_moveUnits hd'] at hin ⊢
      rw [plan_moveUnits hc'] at hin' ⊢
      exact reserve_reserve hne hin hin'
    | resolveEncounter id t decision =>
      obtain ⟨p, e, hp, -, he, hplan⟩ := plan_resolveEncounter hd
      obtain ⟨q, e', hq, -, he', hplan'⟩ := plan_resolveEncounter hd'
      rw [hplan'] at hin ⊢
      rw [plan_moveUnits hc] at hin hq he' ⊢
      cases hp.symm.trans hq
      cases he.symm.trans he'
      rw [hplan] at hin' hc' ⊢
      rw [plan_moveUnits hc'] at hin' ⊢
      exact reserve_decideOn hin hin'
  | resolveEncounter id s decision =>
    obtain ⟨p, e, hp, hund, he, hplan⟩ := plan_resolveEncounter hc
    cases d with
    | moveUnits t command =>
      obtain ⟨q, e', hq, -, he', hplan'⟩ := plan_resolveEncounter hc'
      rw [hplan'] at hin' ⊢
      rw [plan_moveUnits hd] at hin' hq he' ⊢
      cases hp.symm.trans hq
      cases he.symm.trans he'
      rw [hplan] at hin hd' ⊢
      rw [plan_moveUnits hd'] at hin ⊢
      exact (reserve_decideOn hin' hin).symm
    | resolveEncounter id' t decision' =>
      obtain ⟨p', e', hp', hund', he', hplan'⟩ := plan_resolveEncounter hd
      obtain ⟨q, f, hq, -, hf, hplanc⟩ := plan_resolveEncounter hc'
      obtain ⟨q', f', hq', -, hf', hpland⟩ := plan_resolveEncounter hd'
      have hst : s ≠ t := hne
      have hid := h.sound.map.keyed _ _ he
      have hid' := h.sound.map.keyed _ _ he'
      have hget := @get?_edgesAfter room e p s decision id hid he
      have hget' := @get?_edgesAfter room e' p' t decision' id' hid' he'
      have hleft : (room.decideOn e p id s decision).edges.get? id' = _ := hget id'
      have hright : (room.decideOn e' p' id' t decision').edges.get? id = _ := hget' id
      rw [hpland] at hin ⊢
      rw [hplanc] at hin' ⊢
      rw [hplan] at hin hq' hf' ⊢
      rw [hplan'] at hin' hq hf ⊢
      rw [encounterOn_decideOn h.orderly.unique hp] at hq'
      rw [encounterOn_decideOn h.orderly.unique hp'] at hq
      rw [hleft] at hf'
      rw [hright] at hf
      rcases em (id = id') with heq | hother
      · -- both decide the same encounter
        subst heq
        cases hp.symm.trans hp'
        cases he.symm.trans he'
        rw [if_pos rfl] at hq hq' hf hf'
        cases hf
        cases hf'
        split at hq
        · cases hq
        · split at hq'
          · cases hq'
          · cases hq
            cases hq'
            exact decideOn_decideOn_same hst (encounterOn_mem hp).2 hid he hund hund' hin hin'
      -- different encounters: each decision finds its own as it was
      · rw [if_neg (Ne.symm hother)] at hq' hf
        rw [if_neg hother] at hq hf'
        cases hq.symm.trans hp
        cases hq'.symm.trans hp'
        cases hf.symm.trans he
        cases hf'.symm.trans he'
        exact decideOn_decideOn_other hother (encounterOn_mem hp).2 (encounterOn_mem hp').2 hid hid'
          he he' hin hin'

/-! ## Rooms that are the same but for the order

The steps of the induction meet rooms that are related only, so answers and next rooms have to
respect the relation. -/

/-- Rooms that are the same but for the order answer a call alike. -/
theorem grants_same (h : InSession room) (h' : InSession room') (hsame : SameButOrder room room')
    (c : PlanningCall) : room.grants c = room'.grants c := by
  obtain ⟨edges, events, rfl⟩ := hsame.exists_eq
  cases c with
  | moveUnits s command =>
    have hkeys : ∀ id, edges.containsKey id = room.edges.containsKey id := by
      intro id
      unfold Dict.containsKey
      rw [← Dict.isSome_get?_mapValues edgeShape, ← Dict.isSome_get?_mapValues edgeShape, hsame.shapes]
    have hcongr := @moveRefusal_congr room { room with edges := edges, domainEvents := events } s
      command rfl rfl hkeys rfl rfl
    rw [grants_moveUnits, grants_moveUnits, hcongr.1]
  | resolveEncounter id s decision =>
    rw [Bool.eq_iff_iff, grants_resolveEncounter h, grants_resolveEncounter h']
    exact Iff.rfl

/-- A decision on an edge with the same groups in another order. -/
theorem edgeAfter_same {e e' : Edge} (hshape : edgeShape e' = edgeShape e)
    (hgroups : ∀ k, (e.bucket k).Perm (e'.bucket k)) (p : PendingEncounter) (s : PlayerSide)
    (d : EncounterDecision) :
    marked e p s d = marked e' p s d ∧
      ∀ k, ((edgeAfter e p s d).bucket k).Perm ((edgeAfter e' p s d).bucket k) := by
  have hid : e'.id = e.id := congrArg Prod.fst hshape
  have hdist : e'.distance = e.distance := congrArg (fun x => x.2.2.2) hshape
  cases d with
  | advance => exact ⟨rfl, hgroups⟩
  | retreat =>
    constructor
    · unfold marked outcomeOf
      rw [hid, hdist]
    · intro k
      rw [bucket_retreat, bucket_retreat, hid, hdist]
      exact ((hgroups k).filter _).append_right _

/-- Rooms that are the same but for the order stay so. -/
theorem plan_same (h : InSession room) (h' : InSession room') (hsame : SameButOrder room room')
    (c : PlanningCall) : SameButOrder (room.plan c) (room'.plan c) := by
  have hanswer := grants_same h h' hsame c
  rcases hc : room.grants c with _ | _
  · rw [plan_of_refused hc, plan_of_refused (hanswer.symm.trans hc)]
    exact hsame
  have hc' := hanswer.symm.trans hc
  have hin := h.plan c
  have hin' := h'.plan c
  cases c with
  | moveUnits s command =>
    rw [plan_moveUnits hc] at hin ⊢
    rw [plan_moveUnits hc'] at hin' ⊢
    obtain ⟨edges, events, rfl⟩ := hsame.exists_eq
    exact SameButOrder.of hin hin' rfl rfl rfl rfl hsame.groups (hsame.events.append_right _)
  | resolveEncounter id s decision =>
    obtain ⟨p, e, hp, -, he, hplan⟩ := plan_resolveEncounter hc
    obtain ⟨p', e', hp', -, he', hplan'⟩ := plan_resolveEncounter hc'
    rw [hplan] at hin ⊢
    rw [hplan'] at hin' ⊢
    have hid := h.sound.map.keyed _ _ he
    have hid' := h'.sound.map.keyed _ _ he'
    obtain ⟨e₁, he₁, hshape⟩ := hsame.edge he
    cases he₁.symm.trans he'
    obtain ⟨edges, events, rfl⟩ := hsame.exists_eq
    cases hp.symm.trans hp'
    -- the encounter is the same one, and so the mark is; of the edge only the order may differ
    obtain ⟨hmark, hgroups⟩ := edgeAfter_same hshape (hsame.groups id e e' he he') p s decision
    refine SameButOrder.of hin hin' ?_ rfl rfl rfl ?_ ?_
    · show modifyFirst _ (fun _ => if (marked e p s decision).bothDecided then none else some _) _ =
        modifyFirst _ (fun _ => if (marked e' p s decision).bothDecided then none else some _) _
      rw [hmark]
    · intro k e₁ e₂ hget hget' j
      have hleft : (room.decideOn e p id s decision).edges.get? k = _ :=
        get?_edgesAfter decision hid he k
      have hright : (GameRoom.decideOn { room with edges := edges, domainEvents := events } e' p id s
          decision).edges.get? k = _ := get?_edgesAfter decision hid' he' k
      rw [hleft] at hget
      rw [hright] at hget'
      rcases em (id = k) with hk | hk
      · rw [if_pos hk] at hget hget'
        cases hget
        cases hget'
        exact hgroups j
      · rw [if_neg hk] at hget hget'
        exact hsame.groups k e₁ e₂ hget hget' j
    · show (room.domainEvents ++ [_, _] ++ (resolvedEvent room (marked e p s decision)).toList).Perm
        (events ++ [_, _] ++ (resolvedEvent room (marked e' p s decision)).toList)
      rw [hmark]
      exact (hsame.events.append_right _).append_right _

/-! ## Confluence

The library's theorem at these definitions, read back for the runs of a session. -/

/-- **The sides are independent in the planning phase.** -/
theorem sides_independent :
    Independent GameRoom.plan GameRoom.grants PlanningCall.side InSession SameButOrder where
  equivalence := SameButOrder.equivalence
  keeps c h := h.plan c
  same_answer c h h' hsame := grants_same h h' hsame c
  same_next c h h' hsame := plan_same h h' hsame c
  swap_answer h hne := grants_plan h hne
  swap_next h hne := plan_swap h hne

/-- An interleaving of side A's calls and side B's. -/
structure Interleaves (callsA callsB calls : List PlanningCall) : Prop where
  ofA : calls.filter (·.side = .a) = callsA
  ofB : calls.filter (·.side = .b) = callsB

/-- The calls of a side, each with whether it is accepted. -/
def answersTo (room : GameRoom) (s : PlayerSide) (calls : List PlanningCall) :
    List (PlanningCall × Bool) :=
  (answers GameRoom.plan GameRoom.grants room calls).filter fun a => a.1.side = s

/-- **Confluence of the planning phase.**  From every state of a session, two interleavings of the
    same calls of the two sides accept the same calls of each side and leave the same room, up to the
    order of the groups in a bucket and of the events. -/
theorem planning_confluent {roomId : String} (h : (session roomId).Reachable room)
    {callsA callsB calls calls' : List PlanningCall} (hi : Interleaves callsA callsB calls)
    (hi' : Interleaves callsA callsB calls') :
    (∀ s, answersTo room s calls = answersTo room s calls') ∧
      SameButOrder ((session roomId).after room (calls.map (·.toCall)))
        ((session roomId).after room (calls'.map (·.toCall))) := by
  have hsame : SameForEach PlanningCall.side calls calls' := by
    intro s
    cases s with
    | a => exact hi.ofA.trans hi'.ofA.symm
    | b => exact hi.ofB.trans hi'.ofB.symm
  have hagree := sides_independent.confluent calls hsame (inSession_of_reachable h)
  have hafter : ∀ calls : List PlanningCall, (session roomId).after room (calls.map (·.toCall)) =
      calls.foldl GameRoom.plan room := fun calls => List.foldl_map
  refine ⟨hagree.answers, ?_⟩
  rw [hafter, hafter]
  exact hagree.states

/-- A unit of each side starts on the long edge between the start nodes, and they meet. -/
def headOnCalls : List Call :=
  [.addPlayer ⟨"p1"⟩ none 0, .addPlayer ⟨"p2"⟩ none 0, .moveUnits .a ⟨⟨1⟩, ⟨5⟩, 1⟩,
    .moveUnits .b ⟨⟨5⟩, ⟨1⟩, 1⟩, .resolveRound none 0]

/-- The room in which the two units have met. -/
def headOnRoom : GameRoom := (session "room").after (session "room").start headOnCalls

/-- What side A does next: it retreats, and then tries to retreat again. -/
def secondThoughts : List PlanningCall :=
  [.resolveEncounter (.of ⟨1⟩ ⟨5⟩) .a .retreat, .resolveEncounter (.of ⟨1⟩ ⟨5⟩) .a .retreat]

/-- What side B does next: it advances, and reserves a move. -/
def pursuit : List PlanningCall :=
  [.resolveEncounter (.of ⟨1⟩ ⟨5⟩) .b .advance, .moveUnits .b ⟨⟨5⟩, ⟨1⟩, 2⟩]

/-- Side A gives two calls and side B two, in two orders, where an encounter waits for both. -/
theorem planning_confluent_headOn :
    (session "room").Reachable headOnRoom ∧ headOnRoom.phase = .planning ∧
      (∀ s, answersTo headOnRoom s (secondThoughts ++ pursuit) =
        answersTo headOnRoom s (pursuit ++ secondThoughts)) ∧
      SameButOrder
        ((session "room").after headOnRoom ((secondThoughts ++ pursuit).map (·.toCall)))
        ((session "room").after headOnRoom ((pursuit ++ secondThoughts).map (·.toCall))) := by
  have hrun : (session "room").Run headOnCalls ∧ headOnRoom.phase = .planning := by
    decide +kernel
  have hreach : (session "room").Reachable headOnRoom := ⟨headOnCalls, hrun.1, rfl⟩
  have hfirst : Interleaves secondThoughts pursuit (secondThoughts ++ pursuit) :=
    ⟨by decide, by decide⟩
  have hsecond : Interleaves secondThoughts pursuit (pursuit ++ secondThoughts) :=
    ⟨by decide, by decide⟩
  exact ⟨hreach, hrun.2, planning_confluent hreach hfirst hsecond⟩

/-- Side A's first retreat is accepted, the second is not; side B's calls are. -/
example : answersTo headOnRoom .a (pursuit ++ secondThoughts) = secondThoughts.zip [true, false] ∧
    answersTo headOnRoom .b (pursuit ++ secondThoughts) = pursuit.zip [true, true] := by
  decide +kernel

end HexWar
