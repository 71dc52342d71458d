/-
  Units that pass each other on an edge.

  A group with `k` rounds to go has `k` steps of its edge before it, so it is as many steps from the
  end it came from as the edge is longer than `k`.  Two groups that head for opposite ends pass each
  other in a round if the one is short of the other before the advance and no longer is after it.

  The detection does not compare positions: it looks, after the advance, for groups of both sides with
  the same number of rounds to go, and names one group of each side.  On the map, with edges of one
  step and of two, it sees exactly the two groups that start from both ends of a long edge in the same
  round.  It does not see those that change places: on a short edge both have then arrived, and on a
  long one the one that started earlier has.
-/
import HexWar.Domain.Reports

namespace HexWar

open Lib Lib.Action GameRoom

variable {room : GameRoom}

/-! ## Passing -/

/-- How far a group with `k` rounds to go is from the end it came from. -/
def Edge.progress (e : Edge) (k : Int) : Int := e.distance.roundsRequired - k

/-- Two groups that head for opposite ends, with `kA` and `kB` rounds to go, pass each other in the
    next round.  Measured from where the first came from, it is short of the second before the
    advance, and after the advance it is not. -/
def Edge.Passes (e : Edge) (kA kB : Int) : Prop :=
  e.progress kA < e.distance.roundsRequired - e.progress kB ∧
    e.distance.roundsRequired - e.progress (kB - 1) ≤ e.progress (kA - 1)

instance (e : Edge) (kA kB : Int) : Decidable (e.Passes kA kB) := inferInstanceAs (Decidable (_ ∧ _))

/-- A group of side A and a group of side B that pass each other, with the rounds they have to go. -/
structure Crossing where
  groupA : TravelingGroup
  roundsA : Int
  groupB : TravelingGroup
  roundsB : Int
deriving DecidableEq, Repr

def Crossing.pair (c : Crossing) : TravelingGroup × TravelingGroup := (c.groupA, c.groupB)

/-- The groups that pass each other on an edge when a batch of moves has started, each pair once: a
    value that stands for two groups is listed for both. -/
def crossings (moves : List SideMove) (e : Edge) : List Crossing :=
  e.keys.dedup.flatMap fun kA => (e.keys.dedup.filter (e.Passes kA ·)).flatMap fun kB =>
    (groupsOf .a (groupsAt moves e kA)).flatMap fun gA =>
      ((groupsOf .b (groupsAt moves e kB)).filter (gA.destination ≠ ·.destination)).map fun gB =>
        ⟨gA, kA, gB, kB⟩

/-- The pairs of groups that the encounters registered since `room` name on an edge. -/
def meetingsOn (room room' : GameRoom) (id : EdgeId) : List (TravelingGroup × TravelingGroup) :=
  (room'.pendingEncounters.filter fun p => p.edgeId = id ∧ p ∉ room.pendingEncounters).map fun p =>
    (p.groupOf .a, p.groupOf .b)

/-- A resolution registers, for each pair of groups that pass each other on an edge, an encounter of
    the two on that edge. -/
def Noticed (room : GameRoom) : Call → Prop
  | .resolveRound deadline now => ∀ e ∈ room.edges.values,
    ((crossings room.reservedMoves e).map Crossing.pair).Subperm
      (meetingsOn room (room.next (.resolveRound deadline now)) e.id)
  | _ => True

instance (room : GameRoom) : ∀ call, Decidable (Noticed room call)
  | .resolveRound _ _ => List.decidableBAll _ _
  | .addPlayer _ _ _ | .moveUnits _ _ | .resolveEncounter _ _ _ | .forceGameOver _ _ => .isTrue trivial

/-- At most one pair passes on the edge, and it is one that is seen: the two have the same number of
    rounds to go, two or more, and each is the first of its side with that number. -/
def PassesSeen (moves : List SideMove) (e : Edge) : Prop :=
  (crossings moves e).length ≤ 1 ∧ ∀ c ∈ crossings moves e,
    c.roundsA = c.roundsB ∧ 2 ≤ c.roundsA ∧
      Edge.firstOf .a (groupsAt moves e c.roundsA) = some c.groupA ∧
      Edge.firstOf .b (groupsAt moves e c.roundsB) = some c.groupB

instance (moves : List SideMove) (e : Edge) : Decidable (PassesSeen moves e) :=
  inferInstanceAs (Decidable (_ ∧ _))

/-- The resolutions in which whoever passes is seen, and every other call. -/
def AllSeen (room : GameRoom) : Call → Prop
  | .resolveRound _ _ => ∀ e ∈ room.edges.values, PassesSeen room.reservedMoves e
  | _ => True

instance (room : GameRoom) : ∀ call, Decidable (AllSeen room call)
  | .resolveRound _ _ => List.decidableBAll _ _
  | .addPlayer _ _ _ | .moveUnits _ _ | .resolveEncounter _ _ _ | .forceGameOver _ _ => .isTrue trivial

/-! ## On one edge -/

/-- Two groups pass each other when they have between them one step or two more to go than the edge
    is long. -/
theorem Edge.passes_iff {e : Edge} {kA kB : Int} :
    e.Passes kA kB ↔ e.distance.roundsRequired < kA + kB ∧
      kA + kB ≤ e.distance.roundsRequired + 2 := by
  rw [Passes, progress, progress, progress, progress]
  omega

theorem mem_crossings {moves : List SideMove} {e : Edge} {c : Crossing} :
    c ∈ crossings moves e ↔ c.groupA ∈ groupsOf .a (groupsAt moves e c.roundsA) ∧
      c.groupB ∈ groupsOf .b (groupsAt moves e c.roundsB) ∧
      c.groupA.destination ≠ c.groupB.destination ∧ e.Passes c.roundsA c.roundsB := by
  rw [crossings]
  constructor
  · intro hc
    obtain ⟨kA, -, hc⟩ := List.mem_flatMap.mp hc
    obtain ⟨kB, hkB, hc⟩ := List.mem_flatMap.mp hc
    obtain ⟨gA, hgA, hc⟩ := List.mem_flatMap.mp hc
    obtain ⟨gB, hgB, rfl⟩ := List.mem_map.mp hc
    obtain ⟨hmB, hne⟩ := List.mem_filter.mp hgB
    exact ⟨hgA, hmB, of_decide_eq_true hne, of_decide_eq_true (List.mem_filter.mp hkB).2⟩
  · rintro ⟨hgA, hgB, hne, hpass⟩
    have hkA := List.mem_dedup.mpr (mem_keys (mem_groupsOf.mp hgA).1)
    have hkB := List.mem_dedup.mpr (mem_keys (mem_groupsOf.mp hgB).1)
    refine List.mem_flatMap.mpr ⟨c.roundsA, hkA, List.mem_flatMap.mpr
      ⟨c.roundsB, List.mem_filter.mpr ⟨hkB, decide_eq_true hpass⟩, List.mem_flatMap.mpr
        ⟨c.groupA, hgA, List.mem_map.mpr ⟨c.groupB, ?_, rfl⟩⟩⟩⟩
    exact List.mem_filter.mpr ⟨hgB, decide_eq_true hne⟩

/-- Into a list of at most one element fits a list of at most one element, if it is in there. -/
theorem subperm_one_iff {α : Type} {xs ys : List α} (hone : ys.length ≤ 1) :
    xs.Subperm ys ↔ xs.length ≤ 1 ∧ ∀ x ∈ xs, x ∈ ys := by
  constructor
  · intro h
    exact ⟨Nat.le_trans h.length_le hone, fun x hx => h.subset hx⟩
  · rintro ⟨hlen, hmem⟩
    rcases xs with _ | ⟨x, _ | ⟨x', xs⟩⟩
    · exact List.nil_subperm
    · exact List.singleton_subperm_iff.mpr (hmem x List.mem_cons_self)
    · exact absurd hlen (by rw [List.length_cons, List.length_cons]; omega)

/-- Of a list without repetitions under `f`, at most one element is sent to `a`. -/
theorem filter_length_le_one {α β : Type} [DecidableEq β] {f : α → β} {l : List α}
    (h : (l.map f).Nodup) (a : β) (p : α → Prop) [DecidablePred p] :
    (l.filter fun x => f x = a ∧ p x).length ≤ 1 := by
  have hsub : ((l.filter fun x => f x = a ∧ p x).map f).Nodup :=
    h.sublist (List.filter_sublist.map f)
  have hall : (l.filter fun x => f x = a ∧ p x).map f =
      List.replicate (l.filter fun x => f x = a ∧ p x).length a := by
    refine List.eq_replicate_iff.mpr ⟨List.length_map f, fun b hb => ?_⟩
    obtain ⟨x, hx, rfl⟩ := List.mem_map.mp hb
    exact (of_decide_eq_true (List.mem_filter.mp hx).2).1
  rw [hall] at hsub
  exact List.nodup_replicate.mp hsub

/-! ## One resolution -/

/-- What a resolution of a ready room registers on an edge: the first groups of the two sides with the
    same number of rounds to go, two or more. -/
theorem Sound.mem_meetingsOn (h : Sound room) (hnone : room.pendingEncounters = []) (deadline : Time)
    {id : EdgeId} {e : Edge} (he : room.edges.get? id = some e) (gA gB : TravelingGroup) :
    (gA, gB) ∈ meetingsOn room (sourceOrder.resolved room deadline) id ↔
      ∃ k, 2 ≤ k ∧ Edge.firstOf .a (groupsAt room.reservedMoves e k) = some gA ∧
        Edge.firstOf .b (groupsAt room.reservedMoves e k) = some gB := by
  rw [meetingsOn, pendingEncounters_resolved hnone, hnone, List.mem_map]
  constructor
  · rintro ⟨p, hp, hpair⟩
    obtain ⟨hmem, hon⟩ := List.mem_filter.mp hp
    obtain ⟨enc, henc, rfl⟩ := List.mem_map.mp hmem
    obtain ⟨id', e', k, gA', gB', he', hk, hA, hB, rfl⟩ := (h.mem_encounters_iff sourceOrder).mp henc
    obtain ⟨rfl, -⟩ := of_decide_eq_true hon
    cases he.symm.trans he'
    rw [groupOf_toPending (Edge.firstOf_mem hA).2, groupOf_toPending (Edge.firstOf_mem hA).2] at hpair
    cases hpair
    exact ⟨k, hk, hA, hB⟩
  · rintro ⟨k, hk, hA, hB⟩
    have henc : (⟨id, gA, gB, k - 1⟩ : EncounterInfo) ∈ sourceOrder.encounters room :=
      (h.mem_encounters_iff sourceOrder).mpr ⟨id, e, k, gA, gB, he, hk, hA, hB, rfl⟩
    refine ⟨_, List.mem_filter.mpr ⟨List.mem_map_of_mem henc,
      decide_eq_true ⟨rfl, List.not_mem_nil⟩⟩, ?_⟩
    rw [groupOf_toPending (Edge.firstOf_mem hA).2, groupOf_toPending (Edge.firstOf_mem hA).2]

/-- **Whoever passes on an edge is noticed** exactly if at most one pair passes on it, and one that is
    seen. -/
theorem InSession.noticed_on_iff (h : InSession room) (hready : room.isReadyForResolution = true)
    (deadline : Option Time) (now : Time) {id : EdgeId} {e : Edge}
    (he : room.edges.get? id = some e) :
    ((crossings room.reservedMoves e).map Crossing.pair).Subperm
        (meetingsOn room (room.next (.resolveRound deadline now)) id) ↔
      PassesSeen room.reservedMoves e := by
  have hs := h.sound
  obtain ⟨hphase, hnone⟩ := h.orderly.ready hs hready
  have hone : (meetingsOn room (room.next (.resolveRound deadline now)) id).length ≤ 1 := by
    have hunique := (@InSession.next room h (.resolveRound deadline now) hready).orderly.unique
    rw [meetingsOn, List.length_map]
    exact filter_length_le_one hunique id _
  have hid : e.id = id := hs.map.keyed _ _ he
  have hdist := hs.map.distance he
  -- every group has at least one round to go, and no more than the edge is long
  have hrounds : ∀ {s k g}, g ∈ groupsOf s (groupsAt room.reservedMoves e k) →
      1 ≤ k ∧ k ≤ e.distance.roundsRequired := by
    intro s k g hg
    rcases List.mem_append.mp (mem_groupsOf.mp hg).1 with hold | hnew
    · exact (hs.edges id e he).inTransit.of_mem hold
    · split at hnew
      · omega
      · cases hnew
  have hmet := hs.mem_meetingsOn hnone (deadline.getD (now + defaultPlanning)) he
  rw [subperm_one_iff hone, List.length_map, PassesSeen, next_resolveRound hs hphase]
  refine and_congr_right fun hfew => ⟨fun hall c hc => ?_, fun hall x hx => ?_⟩
  · obtain ⟨k, hk, hA, hB⟩ := (hmet _ _).mp (hall c.pair (List.mem_map_of_mem hc))
    obtain ⟨hcA, hcB, hne, -⟩ := mem_crossings.mp hc
    have hkA := hrounds (mem_groupsOf.mpr (Edge.firstOf_mem hA))
    have hpass : e.Passes k k := Edge.passes_iff.mpr (by omega)
    -- the two that are named pass each other, so they are the pair that passes
    have hnamed : (⟨c.groupA, k, c.groupB, k⟩ : Crossing) ∈ crossings room.reservedMoves e :=
      mem_crossings.mpr ⟨mem_groupsOf.mpr (Edge.firstOf_mem hA),
        mem_groupsOf.mpr (Edge.firstOf_mem hB), hne, hpass⟩
    have hsame : c = ⟨c.groupA, k, c.groupB, k⟩ := by
      rcases hl : crossings room.reservedMoves e with _ | ⟨x, _ | ⟨y, rest⟩⟩
      · rw [hl] at hc
        cases hc
      · rw [hl] at hc hnamed
        exact (List.mem_singleton.mp hc).trans (List.mem_singleton.mp hnamed).symm
      · rw [hl, List.length_cons, List.length_cons] at hfew
        omega
    rw [hsame]
    exact ⟨rfl, hk, hA, hB⟩
  · obtain ⟨c, hc, rfl⟩ := List.mem_map.mp hx
    obtain ⟨hsame, hk, hA, hB⟩ := hall c hc
    exact (hmet _ _).mpr ⟨c.roundsA, hk, hA, hsame ▸ hB⟩

/-! ## Every run -/

theorem InSession.noticed_iff (h : InSession room) {call : Call} (hlegal : room.SessionLegal call) :
    Noticed room call ↔ AllSeen room call := by
  cases call with
  | resolveRound deadline now =>
    refine forall₂_congr fun e he => ?_
    obtain ⟨id, hid⟩ := Dict.mem_values.mp he
    rw [h.sound.map.keyed _ _ hid]
    exact h.noticed_on_iff hlegal deadline now hid
  | addPlayer _ _ _ | moveUnits _ _ | resolveEncounter _ _ _ | forceGameOver _ _ => exact Iff.rfl

/-- **Passing units.**  In a session's run nobody passes an enemy unnoticed exactly if, in each of its
    resolutions, on every edge at most one pair of groups passes each other, and it is one that is
    seen. -/
theorem passing_noticed_iff {roomId : String} {calls : List Call}
    (hrun : (session roomId).Run calls) :
    (session roomId).Steps Noticed (session roomId).start calls ↔
      (session roomId).Steps AllSeen (session roomId).start calls :=
  Machine.steps_iff (I := InSession) (fun _ _ h hlegal => h.next hlegal)
    (fun _ _ h hlegal => h.noticed_iff hlegal) (inSession_initial roomId) hrun

/-- Side A goes to node 6 and on to node 5 while side B goes from node 5 to node 6. -/
def shortEdgeCalls : List Call :=
  [.addPlayer ⟨"p1"⟩ none 0, .addPlayer ⟨"p2"⟩ none 0, .moveUnits .a ⟨⟨1⟩, ⟨6⟩, 1⟩,
    .resolveRound none 0, .moveUnits .a ⟨⟨6⟩, ⟨5⟩, 1⟩, .moveUnits .b ⟨⟨5⟩, ⟨6⟩, 1⟩,
    .resolveRound none 0]

/-- They change places on the short edge, and no encounter is registered. -/
theorem changed_places_unnoticed :
    (session "room").Run shortEdgeCalls ∧
      ¬ (session "room").Steps Noticed (session "room").start shortEdgeCalls := by
  decide +kernel

/-- Two units that start from both ends of a long edge are noticed, and pass once. -/
theorem passing_noticed_headOn :
    (session "room").Steps Noticed (session "room").start decidedCalls :=
  (passing_noticed_iff (by decide +kernel)).mpr (by decide +kernel)

end HexWar
