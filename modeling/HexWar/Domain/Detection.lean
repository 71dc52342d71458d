/-
  What the detection of encounters accounts for.

  `findAllEncounters` looks at every bucket of an edge, and reports a bucket that holds groups of
  both sides once (`findAllEncounters_keys`).  But a report names ONE group of each side, the first,
  and the pending encounter and the record that are made from it count that group only.  A bucket
  can hold more: a player who splits a move into two commands has two groups in it.

  So the report accounts for all units exactly when, in every bucket that both sides share, the
  groups of a side after its first one have no units between them (`accountsForAll_iff`); with groups
  of one unit or more, when there are no such groups (`units_later_eq_zero_iff`).
-/
import HexWar.Domain.Encounters

namespace HexWar

open Lib Lib.Action

/-- The groups of a side in a bucket. -/
def groupsOf (s : PlayerSide) (gs : List TravelingGroup) : List TravelingGroup :=
  gs.filter (·.side = s)

theorem mem_groupsOf {s : PlayerSide} {gs : List TravelingGroup} {g : TravelingGroup} :
    g ∈ groupsOf s gs ↔ g ∈ gs ∧ g.side = s := by
  rw [groupsOf, List.mem_filter, decide_eq_true_eq]

/-- The groups of a side after its first one. -/
def laterGroups (s : PlayerSide) (gs : List TravelingGroup) : List TravelingGroup :=
  (groupsOf s gs).tail

/-- Both sides have a group in the bucket. -/
def BothSides (gs : List TravelingGroup) : Prop := ∀ s, groupsOf s gs ≠ []

instance (gs : List TravelingGroup) : Decidable (BothSides gs) :=
  decidable_of_iff (groupsOf .a gs ≠ [] ∧ groupsOf .b gs ≠ [])
    ⟨fun h s => by cases s; exacts [h.1, h.2], fun h => ⟨h .a, h .b⟩⟩

/-- The group that an encounter names for a side. -/
def EncounterInfo.groupOf (enc : EncounterInfo) : PlayerSide → TravelingGroup
  | .a => enc.groupA
  | .b => enc.groupB

/-- What a registered encounter says: the record of the round and the pending encounter both count
    the given units of the two sides. -/
structure Registers (enc : EncounterInfo) (units : PlayerSide → Int) (room : GameRoom)
    (record : EncounterRecord) (room' : GameRoom) : Prop where
  recordA : record.participantAUnits = units .a
  recordB : record.participantBUnits = units .b
  pending : ∃ p, room'.pendingEncounters = room.pendingEncounters ++ [p] ∧
    p.edgeId = enc.edgeId ∧ p.remainingRounds = enc.remainingRounds ∧
    ∀ s, (p.groupOf s).side = s ∧ (p.groupOf s).unitCount = units s

namespace Edge

/-- The encounters of an edge account for everything that met on it. -/
structure AccountsForAll (e : Edge) : Prop where
  /-- One encounter for each bucket with groups of both sides, and none for another. -/
  once : e.findAllEncounters.map (·.remainingRounds) =
    (e.travelingUnits.entries.filter fun kvp => BothSides kvp.2).map (·.1)
  /-- Each of them counts all the units of the two sides in its bucket. -/
  counts : ∀ enc ∈ e.findAllEncounters, enc.edgeId = e.id ∧
    ∀ s, (enc.groupOf s).unitCount = unitsIn s (e.bucket enc.remainingRounds)
  /-- So do the record and the pending encounter made from it. -/
  registers : ∀ enc ∈ e.findAllEncounters, ∀ room record room',
    registerEncounter enc room = .ok record room' →
      Registers enc (fun s => unitsIn s (e.bucket enc.remainingRounds)) room record room'

/-! ## The first group of a side -/

theorem firstOf_eq_head? (s : PlayerSide) (gs : List TravelingGroup) :
    firstOf s gs = (groupsOf s gs).head? := by
  rw [firstOf, groupsOf, List.head?_filter]

theorem firstOf_eq_none {s : PlayerSide} {gs : List TravelingGroup} :
    firstOf s gs = none ↔ groupsOf s gs = [] := by
  rw [firstOf_eq_head?, List.head?_eq_none_iff]

/-- A side's units are those of its first group and those of the later ones. -/
theorem unitsIn_first {s : PlayerSide} {gs : List TravelingGroup} {g : TravelingGroup}
    (h : firstOf s gs = some g) : unitsIn s gs = g.unitCount + unitsIn s (laterGroups s gs) := by
  rw [firstOf_eq_head?] at h
  have hall : unitsIn s gs = unitsIn s (groupsOf s gs) := by
    unfold unitsIn groupsOf
    rw [List.filter_filter]
    simp
  have hmem : g ∈ groupsOf s gs := List.mem_of_mem_head? h
  have hside : g.side = s := by simpa [groupsOf] using (List.mem_filter.mp hmem).2
  unfold laterGroups
  rw [hall]
  generalize groupsOf s gs = own at h
  cases own with
  | nil => cases h
  | cons x rest =>
    cases h
    rw [unitsIn_cons, if_pos hside, List.tail_cons]

/-! ## One report for each shared bucket -/

theorem encounterAt_isSome {e : Edge} {k : Int} {gs : List TravelingGroup}
    (hk : (k, gs) ∈ e.travelingUnits.entries) :
    (e.encounterAt k).isSome ↔ BothSides gs := by
  have hbucket : e.bucket k = gs := by rw [bucket, SortedList.mem_iff_get?.mp hk]; rfl
  rw [Option.isSome_iff_exists]
  constructor
  · rintro ⟨enc, henc⟩ s hnone
    obtain ⟨gA, gB, hA, hB, -⟩ := encounterAt_eq_some.mp henc
    rw [hbucket] at hA hB
    rw [← firstOf_eq_none] at hnone
    cases s with
    | a => rw [hnone] at hA; cases hA
    | b => rw [hnone] at hB; cases hB
  · intro hboth
    obtain ⟨gA, hA⟩ := Option.ne_none_iff_exists'.mp fun h => hboth .a (firstOf_eq_none.mp h)
    obtain ⟨gB, hB⟩ := Option.ne_none_iff_exists'.mp fun h => hboth .b (firstOf_eq_none.mp h)
    exact ⟨_, encounterAt_eq_some.mpr ⟨gA, gB, hbucket ▸ hA, hbucket ▸ hB, rfl⟩⟩

/-- Every bucket with groups of both sides is reported, once, and no other bucket is. -/
theorem findAllEncounters_keys (e : Edge) :
    e.findAllEncounters.map (·.remainingRounds) =
      (e.travelingUnits.entries.filter fun kvp => BothSides kvp.2).map (·.1) := by
  have hloop : ∀ entries : List (Int × List TravelingGroup),
      (∀ kvp ∈ entries, kvp ∈ e.travelingUnits.entries) →
      (entries.filterMap fun kvp => e.encounterAt kvp.1).map (·.remainingRounds) =
        (entries.filter fun kvp => BothSides kvp.2).map (·.1) := by
    intro entries
    induction entries with
    | nil => intro _; rfl
    | cons kvp rest ih =>
      intro hmem
      have hhere := encounterAt_isSome (hmem kvp List.mem_cons_self)
      have hrest := ih fun x hx => hmem x (List.mem_cons_of_mem _ hx)
      by_cases hboth : BothSides kvp.2
      · obtain ⟨enc, henc⟩ := Option.isSome_iff_exists.mp (hhere.mpr hboth)
        obtain ⟨gA, gB, -, -, rfl⟩ := encounterAt_eq_some.mp henc
        rw [List.filterMap_cons, henc, List.filter_cons_of_pos (by simpa using hboth),
          List.map_cons, List.map_cons, hrest]
      · have hnone : e.encounterAt kvp.1 = none := by
          rw [← Option.not_isSome_iff_eq_none]
          exact fun h => hboth (hhere.mp h)
        rw [List.filterMap_cons, hnone, List.filter_cons_of_neg (by simpa using hboth), hrest]
  exact hloop _ fun _ h => h

/-! ## What a report counts -/

/-- A registered encounter counts the two groups it names. -/
theorem registers_groups {enc : EncounterInfo} (hA : enc.groupA.side = .a)
    (hB : enc.groupB.side = .b) {room : GameRoom} {record : EncounterRecord} {room' : GameRoom}
    (h : registerEncounter enc room = .ok record room') :
    Registers enc (fun s => (enc.groupOf s).unitCount) room record room' := by
  rcases he : room.edges.get? enc.edgeId with _ | edge
  · rw [registerEncounter, bind_of_error (getEdge_absent he)] at h
    cases h
  rw [registerEncounter, bind_of_ok (getEdge_ok he), bind_of_ok (modify_apply _ room),
    pure_apply] at h
  cases h
  refine ⟨rfl, rfl, enc.toPending, rfl, rfl, rfl, ?_⟩
  intro s
  -- the pending encounter finds its group by the side, not by the place in the report
  rw [groupOf_toPending hA]
  cases s with
  | a => exact ⟨hA, rfl⟩
  | b => exact ⟨hB, rfl⟩

/-- **The detection accounts for all units** exactly when, in every bucket that both sides share, the
    groups of a side after the first have no units between them. -/
theorem accountsForAll_iff (e : Edge) :
    e.AccountsForAll ↔
      ∀ kvp ∈ e.travelingUnits.entries, BothSides kvp.2 →
        ∀ s, unitsIn s (laterGroups s kvp.2) = 0 := by
  have hread : ∀ {k gs}, (k, gs) ∈ e.travelingUnits.entries → e.bucket k = gs := by
    intro k gs hk
    rw [bucket, SortedList.mem_iff_get?.mp hk]
    rfl
  -- what an encounter of the edge is, and how it counts a side
  have hcount : ∀ {k gA gB}, firstOf .a (e.bucket k) = some gA → firstOf .b (e.bucket k) = some gB →
      ∀ s, unitsIn s (e.bucket k) =
        ((⟨e.id, gA, gB, k⟩ : EncounterInfo).groupOf s).unitCount +
          unitsIn s (laterGroups s (e.bucket k)) := by
    intro k gA gB hA hB s
    cases s with
    | a => exact unitsIn_first hA
    | b => exact unitsIn_first hB
  constructor
  · rintro ⟨-, hcounts, -⟩ ⟨k, gs⟩ hk hboth s
    obtain ⟨enc, henc⟩ := Option.isSome_iff_exists.mp ((encounterAt_isSome hk).mpr hboth)
    obtain ⟨gA, gB, hA, hB, rfl⟩ := encounterAt_eq_some.mp henc
    -- the report counts the first group and the bucket holds the later ones too
    have hsame := (hcounts _ (mem_findAllEncounters.mpr ⟨k, gA, gB, hA, hB, rfl⟩)).2 s
    have hsplit := hcount hA hB s
    rw [hread hk] at hsplit hsame
    dsimp only at hsame ⊢
    omega
  · intro hlater
    have hcounts : ∀ enc ∈ e.findAllEncounters, enc.edgeId = e.id ∧ enc.groupA.side = .a ∧
        enc.groupB.side = .b ∧
        ∀ s, (enc.groupOf s).unitCount = unitsIn s (e.bucket enc.remainingRounds) := by
      intro enc henc
      obtain ⟨k, gA, gB, hA, hB, rfl⟩ := mem_findAllEncounters.mp henc
      obtain ⟨hmA, hsA⟩ := firstOf_mem hA
      obtain ⟨gs, hk, -⟩ := mem_bucket.mp hmA
      refine ⟨rfl, hsA, (firstOf_mem hB).2, ?_⟩
      intro s
      have hboth : BothSides gs :=
        (encounterAt_isSome hk).mp (Option.isSome_iff_exists.mpr
          ⟨_, encounterAt_eq_some.mpr ⟨gA, gB, hA, hB, rfl⟩⟩)
      have hsplit := hcount hA hB s
      have hnone : unitsIn s (laterGroups s gs) = 0 := hlater _ hk hboth s
      rw [← hread hk] at hnone
      dsimp only
      omega
    refine ⟨findAllEncounters_keys e, fun enc henc => ?_, fun enc henc room record room' hreg => ?_⟩
    · obtain ⟨hid, -, -, hunits⟩ := hcounts enc henc
      exact ⟨hid, hunits⟩
    · obtain ⟨-, hA, hB, hunits⟩ := hcounts enc henc
      have hsame : (fun s => (enc.groupOf s).unitCount) =
          fun s => unitsIn s (e.bucket enc.remainingRounds) := funext hunits
      exact hsame ▸ registers_groups hA hB hreg

end Edge

/-! ## A split move -/

/-- Side A sends two units from node 1 to node 5 by two commands, and side B sends one the other way:
    both groups of A meet the group of B. -/
def splitCalls : List Call :=
  [.addPlayer ⟨"p1"⟩ none 0, .addPlayer ⟨"p2"⟩ none 0,
    .moveUnits .a ⟨⟨1⟩, ⟨5⟩, 1⟩, .moveUnits .a ⟨⟨1⟩, ⟨5⟩, 1⟩,
    .moveUnits .b ⟨⟨5⟩, ⟨1⟩, 1⟩,
    .resolveRound none 0]

/-- Two units of side A met the enemy; the pending encounter counts one of them. -/
theorem split_move_undercounted :
    (session "room").Run splitCalls ∧
      ∃ e, ((session "room").after (session "room").start splitCalls).edges.get?
          (EdgeId.of ⟨1⟩ ⟨5⟩) = some e ∧
        ¬ e.AccountsForAll ∧ unitsIn .a (e.bucket 1) = 2 ∧
        ((session "room").after (session "room").start splitCalls).pendingEncounters.map
          (fun p => (p.groupOf .a).unitCount) = [1] := by
  refine ⟨by decide +kernel, ?_⟩
  have hread : (((session "room").after (session "room").start splitCalls).edges.get?
      (EdgeId.of ⟨1⟩ ⟨5⟩)).map (fun e =>
        (decide (∃ enc ∈ e.findAllEncounters,
          (enc.groupOf .a).unitCount ≠ unitsIn .a (e.bucket enc.remainingRounds)),
          unitsIn .a (e.bucket 1))) = some (true, 2) := by
    decide +kernel
  have hpending : ((session "room").after (session "room").start splitCalls).pendingEncounters.map
      (fun p => (p.groupOf .a).unitCount) = [1] := by
    decide +kernel
  obtain ⟨e, he, hvalues⟩ := Option.map_eq_some_iff.mp hread
  obtain ⟨hless, htwo⟩ := Prod.mk.inj hvalues
  obtain ⟨enc, henc, hne⟩ := of_decide_eq_true hless
  exact ⟨e, he, fun hall => hne ((hall.counts enc henc).2 .a), htwo, hpending⟩

end HexWar
