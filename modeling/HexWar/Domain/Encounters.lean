/-
  The pending encounters of a session.

  A session resolves a round only when every pending encounter has been decided by both sides, and an
  encounter leaves the list with its second decision.  So a round starts from an EMPTY list, and the
  list it leaves holds at most one encounter for each edge, since every group on an advanced edge has
  one round left.  `Orderly` says this, and what a side that has still to decide can rely on: its
  recorded group is where it was met, and nothing of it has started on that edge again.

  The invariant is not one of the room alone: a driver that resolves earlier leaves old encounters
  behind and registers new ones for the same edge.

  The plan:
    1. what a decision does to the list: the first encounter of its edge is marked or, with the
       second decision, taken out (`mem_decideOn`), and what it does to the edge (`bucket_retreat`);
    2. an open encounter survives the other side's decision (`Meeting.marked`), hence so does the
       order of the list (`Orderly.decided`);
    3. a resolution that a session starts begins with nothing pending (`Orderly.ready`) and leaves
       one encounter at most for each edge (`Orderly.resolved`);
    4. so every state of a session is in order (`inSession_of_reachable`).
-/
import HexWar.Domain.Soundness

namespace HexWar

open Lib Lib.Action GameRoom

variable {room : GameRoom}

/-- A pending encounter that waits for a decision, on the edge where its groups met. -/
structure Meeting (p : PendingEncounter) (e : Edge) : Prop where
  /-- Only on a road of two rounds can the groups that met still be under way. -/
  distance : e.distance.roundsRequired = 2
  /-- The round they met in was the first of the two. -/
  remaining : p.remainingRounds = 1
  /-- An encounter both sides have decided is no longer in the list. -/
  undecided : p.bothDecided = false
  /-- The recorded group of a side that has still to decide is on the edge, where it was met. -/
  present : ∀ s, p.hasDecided s = false → p.groupOf s ∈ e.bucket 1
  /-- And nothing of that side has set out on this edge since. -/
  fresh : ∀ s, p.hasDecided s = false → ∀ g ∈ e.bucket 2, g.side ≠ s

/-- At most one pending encounter for each edge, each of them waiting for a decision. -/
structure Orderly (room : GameRoom) : Prop where
  /-- A decision takes the first encounter of its edge, so it has to be the only one. -/
  unique : (room.pendingEncounters.map (·.edgeId)).Nodup
  /-- Each of them still waits, and its edge is as the meeting left it. -/
  meeting : ∀ p ∈ room.pendingEncounters, ∀ e, room.edges.get? p.edgeId = some e → Meeting p e

/-- Without pending encounters there is nothing to keep in order. -/
theorem orderly_of_nil (h : room.pendingEncounters = []) : Orderly room where
  unique := by
    rw [h]
    exact List.nodup_nil
  meeting p hp := by
    rw [h] at hp
    cases hp

/-! ## Decisions

A decision marks the encounter and lets the deciding side's group go on or turn round.  A retreating
group leaves the bucket of its last round and starts anew, with the full distance before it; the
other side's groups are not touched. -/

/-- After a side's decision that side has decided, and the other has if it had before. -/
theorem hasDecided_markDecided (p : PendingEncounter) (s t : PlayerSide) (d : EncounterDecision)
    (o : EncounterOutcome) :
    (p.markDecided s d o).hasDecided t = if t = s then true else p.hasDecided t := by
  rcases em (t = s) with rfl | h
  · rw [if_pos rfl, PendingEncounter.hasDecided, PendingEncounter.markDecided, PerSide.get_set_same]
    rfl
  · rw [if_neg h, PendingEncounter.hasDecided, PendingEncounter.markDecided,
      PerSide.get_set_of_ne _ h]
    rfl

/-- Changing the first element keeps the image of the list, or drops one element of it. -/
theorem map_modifyFirst {α β : Type} {p : α → Bool} {f : α → Option α} {g : α → β} {l : List α}
    (h : ∀ x ∈ l, p x → ∀ y, f x = some y → g y = g x) :
    ((modifyFirst p f l).map g).Sublist (l.map g) := by
  induction l with
  | nil => exact List.Sublist.refl _
  | cons x xs ih =>
    rw [modifyFirst]
    split
    · next hx =>
      rcases hf : f x with _ | y
      · exact List.sublist_cons_self _ _
      · have hy := h x List.mem_cons_self hx y hf
        show List.Sublist (g y :: xs.map g) (g x :: xs.map g)
        rw [hy]
    · exact (ih fun x' hx' => h x' (List.mem_cons_of_mem _ hx')).cons_cons _

/-- After a decision, another edge's encounters are as before, and the encounter itself is marked or
    gone. -/
theorem mem_decideOn {p q : PendingEncounter} {e : Edge} {edgeId : EdgeId} {side : PlayerSide}
    {decision : EncounterDecision} (hu : (room.pendingEncounters.map (·.edgeId)).Nodup)
    (hp : room.encounterOn edgeId = some p)
    (hq : q ∈ (room.decideOn e p edgeId side decision).pendingEncounters) :
    (q ∈ room.pendingEncounters ∧ q.edgeId ≠ edgeId) ∨
      (q = marked e p side decision ∧ q.bothDecided = false) := by
  -- Stated for any list that starts with what `FirstOrDefault` finds, for the induction.
  have hlist : ∀ l : List PendingEncounter, (l.map (·.edgeId)).Nodup →
      l.find? (·.edgeId = edgeId) = some p →
      q ∈ modifyFirst (·.edgeId = edgeId) (fun _ => if (marked e p side decision).bothDecided
        then none else some (marked e p side decision)) l →
      (q ∈ l ∧ q.edgeId ≠ edgeId) ∨ (q = marked e p side decision ∧ q.bothDecided = false) := by
    intro l
    induction l with
    | nil => exact fun _ _ h => (nomatch h)
    | cons x xs ih =>
      intro hnd hfind hmem
      obtain ⟨hnot, hrest⟩ := List.nodup_cons.mp hnd
      rw [modifyFirst] at hmem
      -- The head is the encounter looked for, and the rest holds none of this edge; or the search
      -- goes on, and the head is of another edge.
      rcases em (x.edgeId = edgeId) with hx | hx
      · rw [if_pos (by simpa using hx)] at hmem
        rcases List.mem_append.mp hmem with hnew | hold
        -- Gone when this was the second decision, marked otherwise.
        · split at hnew
          · cases hnew
          · next hopen =>
            rw [Option.toList_some, List.mem_singleton] at hnew
            exact Or.inr ⟨hnew, hnew ▸ Bool.eq_false_iff.mpr hopen⟩
        · refine Or.inl ⟨List.mem_cons_of_mem _ hold, fun hqe => hnot ?_⟩
          exact List.mem_map.mpr ⟨q, hold, hqe.trans hx.symm⟩
      · rw [if_neg (by simpa using hx)] at hmem
        rw [List.find?_cons_of_neg (by simpa using hx)] at hfind
        rcases List.mem_cons.mp hmem with rfl | hmem
        · exact Or.inl ⟨List.mem_cons_self, hx⟩
        · exact (ih hrest hfind hmem).imp_left fun h => ⟨List.mem_cons_of_mem _ h.1, h.2⟩
  exact hlist _ hu hp hq

/-- The buckets of an edge of distance 2 after a retreat: the side is gone from the first, and back
    in the second with its recorded group. -/
theorem bucket_retreat (e : Edge) (p : PendingEncounter) (s : PlayerSide) (k : Int) :
    (edgeAfter e p s .retreat).bucket k = (e.bucket k).filter (·.side ≠ s) ++
      if k = e.distance.roundsRequired then
        [⟨s, (p.groupOf s).unitCount, oppositeEnd e.id (p.groupOf s).destination⟩] else [] := by
  show ((e.removeTravelingGroup s).startTravel s _ _).bucket k = _
  rw [Edge.bucket_startTravel, Edge.bucket_removeTravelingGroup]
  rfl

/-- The side that has not decided finds the edge as it was after the other's decision. -/
theorem Meeting.marked {p : PendingEncounter} {e : Edge} (h : Meeting p e) {side : PlayerSide}
    {decision : EncounterDecision} (hside : ∀ s, (p.groupOf s).side = s)
    (hopen : (marked e p side decision).bothDecided = false) :
    Meeting (HexWar.GameRoom.marked e p side decision) (edgeAfter e p side decision) := by
  -- Who has not decided afterwards is the other side, and had not decided before.
  have hund : ∀ s, (HexWar.GameRoom.marked e p side decision).hasDecided s = false →
      s ≠ side ∧ p.hasDecided s = false := by
    intro s hs
    rw [HexWar.GameRoom.marked, hasDecided_markDecided] at hs
    split at hs
    · cases hs
    · next hne => exact ⟨hne, hs⟩
  -- Advancing leaves the edge alone; retreating moves the deciding side's groups, never the
  -- other's.
  cases decision with
  | advance =>
    exact ⟨h.distance, h.remaining, hopen, fun s hs => h.present s (hund s hs).2,
      fun s hs => h.fresh s (hund s hs).2⟩
  | retreat =>
    refine ⟨h.distance, h.remaining, hopen, fun s hs => ?_, fun s hs g hg => ?_⟩
    · rw [bucket_retreat, h.distance, if_neg (by decide), List.append_nil]
      refine List.mem_filter.mpr ⟨h.present s (hund s hs).2, ?_⟩
      have hne : (p.groupOf s).side ≠ side := (hside s).symm ▸ (hund s hs).1
      exact decide_eq_true hne
    · rw [bucket_retreat, h.distance, if_pos rfl] at hg
      rcases List.mem_append.mp hg with hold | hnew
      · exact h.fresh s (hund s hs).2 g (List.mem_of_mem_filter hold)
      · rw [List.mem_singleton.mp hnew]
        exact fun heq => (hund s hs).1 heq.symm

/-- An accepted decision leaves the pending encounters in order. -/
theorem Orderly.decided (h : Orderly room) (hs : Sound room) {edgeId : EdgeId} {side : PlayerSide}
    {decision : EncounterDecision} (hok : room.decisionRefusal edgeId side decision = none) :
    Orderly (room.decideEncounter edgeId side decision) := by
  obtain ⟨-, p, e, hp, -, he, -⟩ := decisionRefusal_none hok
  obtain ⟨hmem, hpid⟩ := encounterOn_mem hp
  rw [decideEncounter_eq hp he]
  have hid : e.id = edgeId := hs.map.keyed _ _ he
  refine ⟨?_, fun q hq e' he' => ?_⟩
  · refine (map_modifyFirst fun x _ hx y hy => ?_).nodup h.unique
    split at hy
    · cases hy
    · cases hy
      have hxid : x.edgeId = edgeId := by simpa using hx
      exact hpid.trans hxid.symm
  -- The decision changes its own edge; the encounters of other edges find theirs as it was.
  · have hedge : (room.decideOn e p edgeId side decision).edges.get? q.edgeId = _ :=
      get?_edgesAfter decision hid he q.edgeId
    rw [hedge] at he'
    rcases mem_decideOn h.unique hp hq with ⟨hold, hne⟩ | ⟨rfl, hopen⟩
    · rw [if_neg fun heq => hne heq.symm] at he'
      exact h.meeting q hold e' he'
    · have hqid : (marked e p side decision).edgeId = edgeId := hpid
      rw [if_pos hqid.symm] at he'
      cases he'
      exact (h.meeting p hmem e (hpid ▸ he)).marked (hs.encounters p hmem).side hopen

/-! ## Resolution

A round advances every edge by one.  No road is longer than two rounds, so after the advance all
that is still under way has one round left: there is one bucket, and in it one encounter at most. -/

/-- When a session resolves a round, nothing is pending. -/
theorem Orderly.ready (h : Orderly room) (hs : Sound room)
    (hready : room.isReadyForResolution = true) :
    room.phase = .planning ∧ room.pendingEncounters = [] := by
  rw [isReadyForResolution] at hready
  split at hready
  · cases hready
  next hphase =>
  refine ⟨not_not.mp hphase, List.eq_nil_iff_forall_not_mem.mpr fun p hp => ?_⟩
  obtain ⟨e, he⟩ := (hs.encounters p hp).edge
  have hopen := (h.meeting p hp e he).undecided
  have hboth := List.all_eq_true.mp hready p hp
  rw [hopen] at hboth
  cases hboth

/-- On an edge of distance 2 or less, the groups left after a round have one round to go. -/
theorem advanced_key {e : Edge} (he : e.InTransit) (hd : e.distance.roundsRequired ≤ 2)
    {kvp : Int × List TravelingGroup} (hk : kvp ∈ e.advanceRound.2.travelingUnits.entries) :
    kvp.1 = 1 ∧ e.distance.roundsRequired = 2 := by
  have hkey := Edge.key_advanceRound he kvp hk
  omega

/-- An advanced edge has at most one encounter. -/
theorem length_findAllEncounters_le {e : Edge} (he : e.InTransit)
    (hd : e.distance.roundsRequired ≤ 2) :
    e.advanceRound.2.findAllEncounters.length ≤ 1 := by
  have hlen : e.advanceRound.2.travelingUnits.entries.length ≤ 1 := by
    have hsorted : Ascending e.advanceRound.2.travelingUnits.entries :=
      e.advanceRound.2.travelingUnits.sorted
    have hkey : ∀ kvp ∈ e.advanceRound.2.travelingUnits.entries, kvp.1 = 1 :=
      fun kvp hk => (advanced_key he hd hk).1
    generalize e.advanceRound.2.travelingUnits.entries = entries at hsorted hkey
    -- Two entries would have different keys, and every key is 1.
    rcases entries with _ | ⟨x, _ | ⟨y, rest⟩⟩
    · exact Nat.zero_le 1
    · exact Nat.le_refl 1
    · have hx := hkey x List.mem_cons_self
      have hy := hkey y (List.mem_cons_of_mem _ List.mem_cons_self)
      have hlt := (List.pairwise_cons.mp hsorted).1 y List.mem_cons_self
      omega
  exact Nat.le_trans (List.length_filterMap_le _ _) hlen

/-- Lists that put at most the element's own label in a row are labelled without repetition. -/
theorem sublist_flatMap_labels {α β γ : Type} {f : α → List β} {g : β → γ} {label : α → γ}
    {l : List α} (h : ∀ a ∈ l, ((f a).map g).Sublist [label a]) :
    ((l.flatMap f).map g).Sublist (l.map label) := by
  induction l with
  | nil => exact List.Sublist.refl _
  | cons a as ih =>
    rw [List.flatMap_cons, List.map_append]
    exact (h a List.mem_cons_self).append (ih fun a' ha' => h a' (List.mem_cons_of_mem _ ha'))

variable (o : ProcessingOrder)

/-- A loaded edge of the resolution, with what it was before. -/
theorem Sound.advanced_of (h : Sound room) {id : EdgeId} {e : Edge}
    (he : (o.advancedEdges room).get? id = some e) :
    ∃ e₁ : Edge, e = e₁.advanceRound.2 ∧ EdgeSound e₁ ∧ e₁.distance.roundsRequired ≤ 2 ∧
      e₁.id = id := by
  rw [get?_advanced o h.map.keyed] at he
  obtain ⟨e₀, he₀, rfl⟩ := Option.map_eq_some_iff.mp he
  have hid : e₀.id = id := h.map.keyed _ _ he₀
  have hdist := h.map.distance he₀
  obtain ⟨hid', -, -, hd'⟩ := Edge.loadAll_frame (HexWar.loads (o.executed room) id) e₀
  refine ⟨_, rfl, ?_, ?_, hid'.trans hid⟩
  · exact edgeSound_loadAll (h.edges _ _ he₀) hdist.1 fun g hg => hid ▸ h.loads o hg
  · rw [hd']
    exact hdist.2

/-- The encounters of a round are on different edges. -/
theorem Sound.encounters_nodup (h : Sound room) :
    ((o.encounters room).map (·.edgeId)).Nodup := by
  have hkeys : ((o.advancedEdges room).values.map (·.id)) =
      (o.advancedEdges room).entries.map Prod.fst := by
    rw [Dict.values, List.map_map]
    refine List.map_congr_left fun kv hkv => ?_
    exact (h.advanced o (Dict.mem_iff_get?.mp hkv)).2
  have hnd : ((o.advancedEdges room).values.map (·.id)).Nodup := by
    rw [hkeys]
    exact (o.advancedEdges room).nodup
  refine (sublist_flatMap_labels fun e he => ?_).nodup hnd
  obtain ⟨id, hget⟩ := Dict.mem_values.mp he
  obtain ⟨e₁, rfl, hsound, hd, -⟩ := h.advanced_of o hget
  have hle := length_findAllEncounters_le hsound.inTransit hd
  -- No encounter, one with the edge's own identifier, or more, which the bound excludes.
  rcases hfound : e₁.advanceRound.2.findAllEncounters with _ | ⟨enc, _ | ⟨enc', rest⟩⟩
  · exact List.nil_sublist _
  · have hmem : enc ∈ e₁.advanceRound.2.findAllEncounters := hfound ▸ List.mem_cons_self
    obtain ⟨k, gA, gB, -, -, rfl⟩ := Edge.mem_findAllEncounters.mp hmem
    exact List.Sublist.refl _
  · rw [hfound] at hle
    exact absurd hle (by simp)

/-- After a round of a session, the pending encounters are in order. -/
theorem Orderly.resolved (h : Orderly room) (hs : Sound room)
    (hready : room.isReadyForResolution = true) (deadline : Time) :
    Orderly (o.resolved room deadline) := by
  have hnew := pendingEncounters_resolved (o := o) (h.ready hs hready).2 deadline
  refine ⟨?_, fun p hp e he => ?_⟩
  · rw [hnew, List.map_map]
    exact hs.encounters_nodup o
  · rw [(resolved_frame o room deadline).edges] at he
    rw [hnew] at hp
    obtain ⟨enc, henc, rfl⟩ := List.mem_map.mp hp
    -- The encounter comes from an advanced edge; that edge is the one the pending encounter names.
    obtain ⟨id, e', k, gA, gB, he', hA, hB, rfl⟩ := (mem_encounters o).mp henc
    have hid : e'.id = id := (hs.advanced o he').2
    have heq : e' = e := by
      have hsame : (o.advancedEdges room).get? e'.id = some e := he
      rw [hid, he'] at hsame
      exact Option.some.inj hsame
    subst heq
    obtain ⟨e₁, rfl, hsound, hd, -⟩ := hs.advanced_of o he'
    obtain ⟨hmA, hsA⟩ := Edge.firstOf_mem hA
    obtain ⟨hmB, hsB⟩ := Edge.firstOf_mem hB
    obtain ⟨gs, hgs, -⟩ := Edge.mem_bucket.mp hmA
    obtain ⟨hk, hd2⟩ := advanced_key hsound.inTransit hd hgs
    have hk1 : k = 1 := hk
    subst hk1
    -- The groups recorded are the first of their sides in the bucket; a bucket of two rounds left
    -- does not exist after the advance.
    refine ⟨hd2, rfl, rfl, fun s _ => ?_, fun s _ g hg => ?_⟩
    · rw [groupOf_toPending hsA]
      cases s with
      | a => exact hmA
      | b => exact hmB
    · obtain ⟨gs', hgs', -⟩ := Edge.mem_bucket.mp hg
      have hkey : (2 : Int) = 1 := (advanced_key hsound.inTransit hd hgs').1
      omega

/-! ## Every run of a session

The calls a session makes at their legal moments keep both invariants: only an accepted decision and
a resolution touch the list of pending encounters. -/

/-- What holds of the room in every state of a session. -/
structure InSession (room : GameRoom) : Prop where
  sound : Sound room
  orderly : Orderly room

/-- Every call that a session makes keeps what holds of the room. -/
theorem InSession.next (h : InSession room) {call : Call} (hlegal : room.SessionLegal call) :
    InSession (room.next call) := by
  refine ⟨h.sound.next call, ?_⟩
  have hs := h.sound
  have ho := h.orderly
  cases call with
  | addPlayer playerId deadline now =>
    rw [next_addPlayer hs.map]
    rcases hr : room.joinRefusal playerId with _ | e
    · refine orderly_of_nil ?_
      refine (joined_frame room playerId _).encounters.trans ?_
      exact (hs.waiting (joinRefusal_none hr)).encounters
    · exact ho
  | moveUnits side command =>
    rw [next_moveUnits]
    rcases hr : room.moveRefusal side command with _ | e
    · exact ⟨ho.unique, ho.meeting⟩
    · exact ho
  | resolveEncounter edgeId side decision =>
    rw [next_resolveEncounter]
    rcases hr : room.decisionRefusal edgeId side decision with _ | e
    · exact ho.decided hs hr
    · exact ho
  | resolveRound deadline now =>
    rw [next_resolveRound hs (ho.ready hs hlegal).1]
    exact ho.resolved sourceOrder hs hlegal _
  | forceGameOver winner reason =>
    rw [next_forceGameOver]
    exact ⟨ho.unique, ho.meeting⟩

/-- It holds of the room before the first player. -/
theorem inSession_initial (roomId : String) : InSession (initialRoom roomId) :=
  ⟨sound_initial roomId, orderly_of_nil (initialRoom_fields roomId).encounters⟩

/-- Every state of a session is sound, and its encounters are in order. -/
theorem inSession_of_reachable {roomId : String} (h : (session roomId).Reachable room) :
    InSession room :=
  h.invariant (inSession_initial roomId) fun _ _ hs hlegal => hs.next hlegal

end HexWar
