/-
  Whether a round is resolved the same in every order of its batches.

  The source executes side A's moves before side B's and delivers the arrivals edge by edge.  The
  mobile units of a node do not depend on that order, and neither does the owner of an ordinary node.
  Two things do.

  * The holder of a supply line: every passage weighs the node again with the garrison that the
    passage before it has left, so whoever leaves last or arrives first gains (`Scale.Settled`).
  * Which arrivals are held back: of several groups that a side starts on an edge only the first
    meets the enemy, and an arrival is held back for looking like that one (`MeetingSettled`).

  `EvenHanded` says of the room before the round that neither matters, and it is exact
  (`simultaneous_iff`).

  One direction is an induction that has been made already: settled batches move a scale the same in every
  order, and settled edges deliver the same arrivals.  The other needs an order that shows the difference.

  - For a supply line it is the order that favours a side.  Favouring A ends highest, favouring B lowest,
    and if the two agree then so does everything in between (`Simultaneous.supplyLines`).
  - For an edge it is the order that starts one of two unlike groups first, which is then the one that is
    held back (`Simultaneous.meetings`).  That the node it does not reach gets fewer units takes a count,
    in which three units for a side are enough to leave no other way out.
-/
import HexWar.Domain.Conquest

namespace HexWar

open Lib Lib.Action GameRoom

variable {room : GameRoom}

/-! ## What a round decides about a node

Units, owner and garrison; the departure history is cleared in every order, and the rest of a node
never changes. -/

/-- The owner of a node, and the mobile units and the garrison of each side. -/
def Node.standing (n : Node) : NodeOwnership × PerSide (Int × Int) :=
  (n.ownership, ⟨(n.getMobileCount .a, n.getGarrisonCount .a),
    (n.getMobileCount .b, n.getGarrisonCount .b)⟩)

/-- On every node the round gives the same units and the same owner, in whatever order its moves are
    executed and its arrivals delivered. -/
def Simultaneous (room : GameRoom) : Prop :=
  ∀ (o : ProcessingOrder) (deadline : Option Time) (now : Time),
    succeeds (resolveRoundIn o deadline now) room = true ∧
      (after (resolveRoundIn o deadline now) room).nodes.mapValues Node.standing =
        (room.next (.resolveRound deadline now)).nodes.mapValues Node.standing

/-- A sound node is its mobile units and, on a supply line, its holder. -/
theorem NodeSound.standing_eq {n n' : Node} (h : NodeSound n) (h' : NodeSound n')
    (ht : n'.type = n.type) (hm : ∀ s, n'.getMobileCount s = n.getMobileCount s)
    (hh : n.type = .supplyLine → n'.scale.holder = n.scale.holder) : n'.standing = n.standing := by
  have hown : n'.ownership = n.ownership := by
    have ho := h.owned
    have ho' := h'.owned
    unfold Node.Owned at ho ho'
    rw [ht] at ho'
    -- the owner by kind: counted, counted, held or nobody's
    rcases hty : n.type with _ | _ | _ | _
    · rw [hty] at ho ho'
      rw [ho, ho', hm, hm]
    · rw [hty] at ho ho'
      rw [ho, ho', hm, hm]
    · rw [hty] at ho ho'
      rw [ho.1, ho'.1, hm, hm, hh hty]
    · rw [hty] at ho ho'
      rw [ho, ho']
  have hgar : ∀ s, n'.getGarrisonCount s = n.getGarrisonCount s := by
    intro s
    rw [h.garrisoned s, h'.garrisoned s, ht, hown]
  unfold Node.standing
  rw [hown, hm, hm, hgar, hgar]

/-- The standing shows the mobile units and the holder. -/
theorem standing_inj {n n' : Node} (h : n.standing = n'.standing) :
    (∀ s, n.getMobileCount s = n'.getMobileCount s) ∧ n.scale.holder = n'.scale.holder := by
  unfold Node.standing at h
  rw [Prod.mk.injEq, PerSide.mk.injEq, Prod.mk.injEq, Prod.mk.injEq] at h
  obtain ⟨-, ⟨hma, hga⟩, hmb, hgb⟩ := h
  constructor
  · intro s
    cases s with
    | a => exact hma
    | b => exact hmb
  · unfold Node.scale
    rw [hga, hgb]

/-! ## Orders that favour somebody

They are orders of a whole round: each is a rearrangement of the moves and one of the arrivals, with
a proof that it is one. -/

/-- A list with the elements that satisfy `p` moved to the front. -/
def putFirst {α : Type} (p : α → Bool) (l : List α) : List α :=
  l.filter p ++ l.filter fun x => !p x

/-- Nothing is added or left out. -/
theorem putFirst_perm {α : Type} (p : α → Bool) (l : List α) : (putFirst p l).Perm l :=
  List.filter_append_perm p l

namespace ProcessingOrder

/-- The side leaves after the other one, and arrives before it. -/
def favouring (s : PlayerSide) : ProcessingOrder where
  moves := putFirst fun m => m.1 = s.enemy
  arrivals := putFirst fun a => a.side = s
  moves_perm := putFirst_perm _
  arrivals_perm := putFirst_perm _

/-- One move is executed before the others. -/
def leading (m : SideMove) : ProcessingOrder where
  moves := putFirst fun m' => m' = m
  arrivals := id
  moves_perm := putFirst_perm _
  arrivals_perm := fun as => List.Perm.refl as

end ProcessingOrder

/-! ## Which arrivals are held back

Only the moves can make a difference here: the groups that are on the edges already stand in their
buckets whatever the order.  So what is settled is said of the groups that start. -/

/-- The edge's encounter does not hold back an arrival in one order of the moves and let it pass in
    another.  When a side starts several groups against an enemy, the one that meets it is the one
    that starts first; then they are alike, or none of them looks like a group that arrives. -/
def MeetingSettled (moves : List SideMove) (e : Edge) : Prop :=
  2 ≤ e.distance.roundsRequired → ∀ s,
    Edge.firstOf s (e.bucket e.distance.roundsRequired) = none →
    (Edge.firstOf s.enemy (groupsAt moves e e.distance.roundsRequired)).isSome →
    ∀ g ∈ loads moves e.id, ∀ g' ∈ loads moves e.id, g.side = s → g'.side = s →
      g ∈ e.bucket 1 → g' = g

instance (moves : List SideMove) (e : Edge) : Decidable (MeetingSettled moves e) :=
  inferInstanceAs (Decidable (_ → ∀ _ : PlayerSide, _ → _ → ∀ g ∈ _, ∀ g' ∈ _, _ → _ →
    _ → _))

/-- The order of the moves is the order in which the groups are loaded, -/
theorem loads_perm {ms ms' : List SideMove} (h : ms'.Perm ms) (id : EdgeId) :
    (loads ms' id).Perm (loads ms id) := (h.filter _).map _

/-- and that of a bucket with the new groups behind the old. -/
theorem groupsAt_perm {ms ms' : List SideMove} (h : ms'.Perm ms) (e : Edge) (k : Int) :
    (groupsAt ms' e k).Perm (groupsAt ms e k) := by
  unfold groupsAt
  apply List.Perm.append_left
  split
  · exact loads_perm h e.id
  · exact List.Perm.refl _

/-- Whether a side has a group does not depend on the order; which is its first does. -/
theorem firstOf_isSome_perm {gs gs' : List TravelingGroup} (h : gs'.Perm gs) (s : PlayerSide) :
    (Edge.firstOf s gs').isSome = (Edge.firstOf s gs).isSome := by
  have hiff : (Edge.firstOf s gs').isSome ↔ (Edge.firstOf s gs).isSome := by
    unfold Edge.firstOf
    rw [List.find?_isSome, List.find?_isSome]
    constructor
    · rintro ⟨g, hg, hs⟩
      exact ⟨g, h.mem_iff.mp hg, hs⟩
    · rintro ⟨g, hg, hs⟩
      exact ⟨g, h.mem_iff.mpr hg, hs⟩
  exact Bool.eq_iff_iff.mpr hiff

/-- That an edge is settled does not depend on the order it is said for. -/
theorem MeetingSettled.perm {ms ms' : List SideMove} {e : Edge} (h : MeetingSettled ms e)
    (hp : ms'.Perm ms) : MeetingSettled ms' e := by
  intro hd s hnone henemy g hg g' hg' hgs hgs' hone
  rw [firstOf_isSome_perm (groupsAt_perm hp e _)] at henemy
  exact h hd s hnone henemy g ((loads_perm hp _).mem_iff.mp hg) g' ((loads_perm hp _).mem_iff.mp hg')
    hgs hgs' hone

/-- The first group of a side: one that was on the edge, or else the first that starts. -/
theorem firstOf_groupsAt (moves : List SideMove) (e : Edge) (s : PlayerSide) (k : Int) :
    Edge.firstOf s (groupsAt moves e k) = (Edge.firstOf s (e.bucket k)).or
      (if k = e.distance.roundsRequired then Edge.firstOf s (loads moves e.id) else none) := by
  unfold groupsAt Edge.firstOf
  rw [List.find?_append]
  split <;> rfl

/-- A group looks like one that meets: it is the first of its side, and the enemy has one too. -/
theorem looksMet_iff_side {moves : List SideMove} {e : Edge} {g : TravelingGroup} :
    LooksMet moves e g ↔ ∃ k, 2 ≤ k ∧ Edge.firstOf g.side (groupsAt moves e k) = some g ∧
      (Edge.firstOf g.side.enemy (groupsAt moves e k)).isSome := by
  rw [looksMet_iff]
  constructor
  · rintro ⟨k, gA, gB, hk, hA, hB, rfl | rfl⟩
    · have hside := (Edge.firstOf_mem hA).2
      rw [hside]
      exact ⟨k, hk, hA, by rw [show PlayerSide.a.enemy = .b from rfl, hB]; rfl⟩
    · have hside := (Edge.firstOf_mem hB).2
      rw [hside]
      exact ⟨k, hk, hB, by rw [show PlayerSide.b.enemy = .a from rfl, hA]; rfl⟩
  · rintro ⟨k, hk, hg, henemy⟩
    obtain ⟨g', hg'⟩ := Option.isSome_iff_exists.mp henemy
    rcases hside : g.side with _ | _
    · rw [hside] at hg hg'
      exact ⟨k, g, g', hk, hg, hg', Or.inl rfl⟩
    · rw [hside] at hg hg'
      exact ⟨k, g', g, hk, hg', hg, Or.inr rfl⟩

/-- On a settled edge an arriving group that looks met does so in every order of the moves. -/
theorem MeetingSettled.looksMet {ms ms' : List SideMove} {e : Edge} (h : MeetingSettled ms e)
    (hp : ms'.Perm ms) {g : TravelingGroup} (hg : g ∈ groupsAt ms e 1) (hlook : LooksMet ms e g) :
    LooksMet ms' e g := by
  obtain ⟨k, hk, hfirst, henemy⟩ := looksMet_iff_side.mp hlook
  apply looksMet_iff_side.mpr
  refine ⟨k, hk, ?_, ?_⟩
  swap
  · rw [firstOf_isSome_perm (groupsAt_perm hp e k)]
    exact henemy
  rw [firstOf_groupsAt] at hfirst ⊢
  rcases hold : Edge.firstOf g.side (e.bucket k) with _ | g₀
  · -- nobody of the side was there: the first that starts, and all that start are alike
    rw [hold, Option.none_or] at hfirst
    rw [Option.none_or]
    split at hfirst
    · next hkd =>
      subst hkd
      have hmem := (Edge.firstOf_mem hfirst).1
      have hsome : (Edge.firstOf g.side (loads ms' e.id)).isSome := by
        rw [firstOf_isSome_perm (loads_perm hp e.id), hfirst]
        rfl
      obtain ⟨g', hg'⟩ := Option.isSome_iff_exists.mp hsome
      obtain ⟨hmem', hside'⟩ := Edge.firstOf_mem hg'
      have hone : g ∈ e.bucket 1 := by
        rcases List.mem_append.mp hg with hone | hnew
        · exact hone
        · rw [if_neg (by omega)] at hnew
          cases hnew
      rw [if_pos rfl, hg', h hk g.side hold henemy g hmem g'
        ((loads_perm hp e.id).mem_iff.mp hmem') rfl hside' hone]
    · cases hfirst
  · rw [hold, Option.some_or] at hfirst
    rw [Option.some_or]
    exact hfirst

/-- Settled edges deliver the same arrivals in every order of the moves. -/
theorem arrivalsAt_perm {ms ms' : List SideMove} (hp : ms'.Perm ms)
    (h : ∀ e ∈ room.edges.values, MeetingSettled ms e) :
    (arrivalsAt ms' room).Perm (arrivalsAt ms room) := by
  unfold arrivalsAt
  apply List.Perm.flatMap_left
  intro e he
  apply List.Perm.map
  have hgroups := groupsAt_perm hp e 1
  have hfilter : (groupsAt ms e 1).filter (fun g => ¬ LooksMet ms' e g) =
      (groupsAt ms e 1).filter fun g => ¬ LooksMet ms e g := by
    refine List.filter_congr fun g hg => decide_eq_decide.mpr (not_congr ?_)
    exact ⟨((h e he).perm hp).looksMet hp.symm (hgroups.mem_iff.mpr hg), (h e he).looksMet hp hg⟩
  exact (hgroups.filter _).trans (List.Perm.of_eq hfilter)

/-! ## An even-handed round

The condition on a supply line is about two lists of numbers, what the departures take and what the
arrivals bring.  They are those of the source's order, but only up to rearrangement. -/

/-- What a batch of departures does to the scale of the node they leave. -/
def fallsOf (moves : List SideMove) (id : NodeId) : List Int :=
  (leaving moves id).map fun p => -signed p

/-- What a batch of arrivals does to the scale of the node they reach. -/
def gainsOf (arrivals : List ArrivalInfo) (id : NodeId) : List Int :=
  (reaching arrivals id).map signed

/-- No edge and no supply line makes a difference between the orders of the round. -/
structure EvenHanded (room : GameRoom) : Prop where
  /-- The same groups are held back in every order, -/
  meetings : ∀ e ∈ room.edges.values, MeetingSettled room.reservedMoves e
  /-- and the passages that remain end with the same holder. -/
  supplyLines : ∀ id n, room.nodes.get? id = some n → n.type = .supplyLine →
    n.scale.Settled (fallsOf room.reservedMoves id)
      (gainsOf (arrivalsAt room.reservedMoves room) id)

/-- The passages that leave a node, in the order of the moves, -/
theorem leaving_perm {ms ms' : List SideMove} (h : ms'.Perm ms) (id : NodeId) :
    (leaving ms' id).Perm (leaving ms id) := (h.filter _).map _

/-- and those that reach it, in the order of the arrivals. -/
theorem reaching_perm {as as' : List ArrivalInfo} (h : as'.Perm as) (id : NodeId) :
    (reaching as' id).Perm (reaching as id) := (h.filter _).map _

/-- On settled edges every order delivers the arrivals that the source's order delivers. -/
theorem Sound.deliveries_settled (h : Sound room) (o : ProcessingOrder)
    (hset : ∀ e ∈ room.edges.values, MeetingSettled room.reservedMoves e) :
    (o.deliveries room).Perm (arrivalsAt room.reservedMoves room) :=
  (h.deliveries_perm o).trans (arrivalsAt_perm (o.moves_perm _) hset)

/-- The nodes of the room after the round, in any order of its batches. -/
theorem Sound.standings (h : Sound room) (hphase : room.phase = .planning) (o : ProcessingOrder)
    (deadline : Option Time) (now : Time) :
    succeeds (resolveRoundIn o deadline now) room = true ∧
      after (resolveRoundIn o deadline now) room =
        o.resolved room (deadline.getD (now + defaultPlanning)) :=
  have hres := resolveRoundIn_ok (h.resolvable hphase) o deadline now
  ⟨succeeds_ok hres, after_ok hres⟩

/-- Two orders that treat every node alike leave the same standings. -/
theorem Sound.standings_eq (h : Sound room) (hn : NodesSound room) (hphase : room.phase = .planning)
    {o o' : ProcessingOrder} (deadline : Time)
    (heq : ∀ id n, room.nodes.get? id = some n →
      (nodeAfter o room id n).standing = (nodeAfter o' room id n).standing) :
    (o.resolved room deadline).nodes.mapValues Node.standing =
      (o'.resolved room deadline).nodes.mapValues Node.standing := by
  have hnodes : ∀ o : ProcessingOrder, (o.resolved room deadline).nodes =
      (o.settledNodes room).mapValues (·.clearDepartureHistory) := fun o =>
    (resolved_frame o room deadline).nodes
  apply Dict.eq_of_keys
  · -- the orders change no key
    have hkeys : ∀ o : ProcessingOrder, ((o.resolved room deadline).nodes.mapValues
        Node.standing).entries.map Prod.fst = room.nodes.entries.map Prod.fst := by
      intro o
      rw [Dict.keys_mapValues, hnodes, Dict.keys_mapValues,
        ← Dict.keys_mapValues nodeShape (o.settledNodes room), settledNodes_shape,
        Dict.keys_mapValues]
    rw [hkeys, hkeys]
  · intro id
    rw [Dict.get?_mapValues, Dict.get?_mapValues]
    rcases hr : room.nodes.get? id with _ | n
    · have hnone : ∀ o : ProcessingOrder, (o.resolved room deadline).nodes.get? id = none := by
        intro o
        rw [get?_resolved, hr]
        rfl
      rw [hnone, hnone]
    · have hs := hn id n hr
      rw [(h.node_resolved hphase o deadline hr hs).1, (h.node_resolved hphase o' deadline hr hs).1]
      exact congrArg some (heq id n hr)

/-- **An even-handed round is simultaneous.** -/
theorem EvenHanded.simultaneous (he : EvenHanded room) (h : Sound room) (hn : NodesSound room)
    (hphase : room.phase = .planning) : Simultaneous room := by
  intro o deadline now
  obtain ⟨hok, hafter⟩ := h.standings hphase o deadline now
  refine ⟨hok, ?_⟩
  rw [hafter, next_resolveRound h hphase]
  apply h.standings_eq hn hphase
  intro id n hget
  have hs := hn id n hget
  obtain ⟨-, hsound, htype, hmobile, hscale⟩ := h.node_resolved hphase o 0 hget hs
  obtain ⟨-, hsound₀, htype₀, hmobile₀, hscale₀⟩ := h.node_resolved hphase sourceOrder 0 hget hs
  have hleave : (leaving (o.executed room) id).Perm (leaving room.reservedMoves id) :=
    leaving_perm (o.moves_perm _) id
  have hreach : (reaching (o.deliveries room) id).Perm
      (reaching (arrivalsAt room.reservedMoves room) id) :=
    reaching_perm (h.deliveries_settled o he.meetings) id
  have hsource := h.deliveries_source
  apply hsound₀.standing_eq hsound
  · exact htype.trans htype₀.symm
  · intro s
    rw [hmobile, hmobile₀, hsource, passing_perm hleave, passing_perm hreach]
    rfl
  · intro ht
    have hsupply : n.type = .supplyLine := htype₀.symm.trans ht
    have hsettled := (he.supplyLines id n hget hsupply).moves_eq (hs.coherent hsupply)
      (hleave.map _) (hreach.map _)
    rw [hscale hsupply, hscale₀ hsupply, hsource]
    exact congrArg Scale.holder hsettled

/-! ## A simultaneous round is even-handed

What a favouring order does to a scale is its highest or lowest end, because it puts all rises on
one side of all falls.  Comparing the two ends of one supply line is then comparing two orders. -/

/-- Filtering a batch before or after its changes are read off. -/
theorem filter_changes {α : Type} {ms : List α} {here p : α → Bool} {f : α → Int} {q : Int → Bool}
    (h : ∀ m ∈ ms, p m = q (f m)) :
    ((ms.filter p).filter here).map f = ((ms.filter here).map f).filter q := by
  rw [List.filter_map, List.filter_filter, List.filter_filter]
  apply congrArg
  apply List.filter_congr
  intro m hm
  rw [h m hm, Bool.and_comm]
  rfl

/-- The changes of a batch, with the elements that raise the balance put first. -/
theorem rises_first {α : Type} {xs : List α} {here p : α → Bool} {f : α → Int}
    (h : ∀ x ∈ xs, p x = true ↔ 0 < f x) :
    ((putFirst p xs).filter here).map f =
      ((xs.filter here).map f).filter (0 < ·) ++ ((xs.filter here).map f).filter (· ≤ 0) := by
  unfold putFirst
  rw [List.filter_append, List.map_append]
  refine congrArg₂ _ (filter_changes fun x hx => ?_) (filter_changes fun x hx => ?_)
  · have hx := h x hx
    -- what raises the balance is what `p` picks
    rcases hp : p x with _ | _ <;> simp_all
  · have hx := h x hx
    rcases hp : p x with _ | _ <;> simp_all

/-- The changes of a batch, with the elements that lower the balance put first. -/
theorem falls_first {α : Type} {xs : List α} {here p : α → Bool} {f : α → Int}
    (h : ∀ x ∈ xs, p x = true ↔ f x ≤ 0) :
    ((putFirst p xs).filter here).map f =
      ((xs.filter here).map f).filter (· ≤ 0) ++ ((xs.filter here).map f).filter (0 < ·) := by
  unfold putFirst
  rw [List.filter_append, List.map_append]
  refine congrArg₂ _ (filter_changes fun x hx => ?_) (filter_changes fun x hx => ?_)
  · have hx := h x hx
    rcases hp : p x with _ | _ <;> simp_all
  · have hx := h x hx
    rcases hp : p x with _ | _ <;> simp_all

/-- Only A's passages raise the balance. -/
theorem signed_pos {p : Passage} (h : 1 ≤ p.2) : 0 < signed p ↔ p.1 = .a := by
  rcases p with ⟨_ | _, c⟩
  · have hc : 1 ≤ c := h
    simp [signed]
    omega
  · have hc : 1 ≤ c := h
    simp [signed]
    omega

/-- There are two sides. -/
theorem side_b_iff (s : PlayerSide) : s = .b ↔ ¬ s = .a := by
  cases s <;> decide

/-- The departures of a round in the two orders that favour a side. -/
theorem fallsOf_favouring {ms : List SideMove} (hpos : ∀ m ∈ ms, 1 ≤ m.2.count) (id : NodeId)
    {x : Scale} (hx : x.Coherent) :
    x.moves (fallsOf ((ProcessingOrder.favouring .a).moves ms) id) = x.highest (fallsOf ms id) ∧
      x.moves (fallsOf ((ProcessingOrder.favouring .b).moves ms) id) = x.lowest (fallsOf ms id) := by
  have hread : ∀ ms : List SideMove, fallsOf ms id =
      (ms.filter fun m => m.2.fromNode = id).map fun m => -signed (m.1, m.2.count) :=
    fun _ => List.map_map
  have hsign : ∀ m ∈ ms, 0 < signed (m.1, m.2.count) ↔ m.1 = .a :=
    fun m hm => signed_pos (p := (m.1, m.2.count)) (hpos m hm)
  rw [Scale.highest_eq hx, Scale.lowest_eq hx, hread, hread, hread]
  constructor
  · refine congrArg _ (rises_first fun m hm => ?_)
    have hm' := hsign m hm
    have hne := signed_eq_zero (p := (m.1, m.2.count)) (hpos m hm)
    rw [decide_eq_true_iff]
    show m.1 = .b ↔ _
    rw [side_b_iff, ← hm']
    omega
  · refine congrArg _ (falls_first fun m hm => ?_)
    have hm' := hsign m hm
    have hne := signed_eq_zero (p := (m.1, m.2.count)) (hpos m hm)
    rw [decide_eq_true_iff]
    show m.1 = .a ↔ -signed (m.1, m.2.count) ≤ 0
    rw [← hm']
    omega

/-- The arrivals of a round in the two orders that favour a side. -/
theorem gainsOf_favouring {as : List ArrivalInfo} (hpos : ∀ a ∈ as, 1 ≤ a.count) (id : NodeId)
    {x : Scale} (hx : x.Coherent) :
    x.moves (gainsOf ((ProcessingOrder.favouring .a).arrivals as) id) = x.highest (gainsOf as id) ∧
      x.moves (gainsOf ((ProcessingOrder.favouring .b).arrivals as) id) =
        x.lowest (gainsOf as id) := by
  have hread : ∀ as : List ArrivalInfo, gainsOf as id =
      (as.filter fun a => a.destination = id).map fun a => signed (a.side, a.count) :=
    fun _ => List.map_map
  have hsign : ∀ a ∈ as, 0 < signed (a.side, a.count) ↔ a.side = .a :=
    fun a ha => signed_pos (p := (a.side, a.count)) (hpos a ha)
  rw [Scale.highest_eq hx, Scale.lowest_eq hx, hread, hread, hread]
  constructor
  · refine congrArg _ (rises_first fun a ha => ?_)
    have ha' := hsign a ha
    rw [decide_eq_true_iff, ← ha']
  · refine congrArg _ (falls_first fun a ha => ?_)
    have ha' := hsign a ha
    rw [decide_eq_true_iff]
    show a.side = .b ↔ _
    rw [side_b_iff, ← ha']
    omega

/-- What passes a filter keeps the order. -/
theorem filter_putFirst {α : Type} (p q : α → Bool) (l : List α) :
    (putFirst p l).filter q = putFirst p (l.filter q) := by
  unfold putFirst
  rw [List.filter_append, List.filter_comm, List.filter_comm q]

/-- Favouring a side puts its deliveries in that order. -/
theorem Sound.deliveries_favouring (h : Sound room) (s : PlayerSide) :
    (ProcessingOrder.favouring s).deliveries room = (ProcessingOrder.favouring s).arrivals
      (arrivalsAt ((ProcessingOrder.favouring s).executed room) room) := by
  rw [← h.unblocked_eq]
  exact filter_putFirst _ _ _

/-- A supply line ends highest when the round favours side A, and lowest when it favours side B. -/
theorem Sound.scale_favouring (h : Sound room) (hphase : room.phase = .planning) {id : NodeId}
    {n : Node} (hn : room.nodes.get? id = some n) (hs : NodeSound n) (ht : n.type = .supplyLine)
    (hset : ∀ e ∈ room.edges.values, MeetingSettled room.reservedMoves e) :
    (nodeAfter (.favouring .a) room id n).scale =
        (n.scale.highest (fallsOf room.reservedMoves id)).highest
          (gainsOf (arrivalsAt room.reservedMoves room) id) ∧
      (nodeAfter (.favouring .b) room id n).scale =
        (n.scale.lowest (fallsOf room.reservedMoves id)).lowest
          (gainsOf (arrivalsAt room.reservedMoves room) id) := by
  have hres := h.resolvable hphase
  have hcoh := hs.coherent ht
  have hmoves : ∀ m ∈ room.reservedMoves, 1 ≤ m.2.count := fun m hm => (hres.moving m hm).1
  have harr : ∀ s, ∀ a ∈ arrivalsAt ((ProcessingOrder.favouring s).executed room) room,
      1 ≤ a.count := by
    intro s a ha
    exact (hres.deliverable (.favouring s) a ((h.deliveries_perm _).mem_iff.mpr ha)).1
  have hperm : ∀ s, (gainsOf (arrivalsAt ((ProcessingOrder.favouring s).executed room) room) id).Perm
      (gainsOf (arrivalsAt room.reservedMoves room) id) := fun s =>
    (reaching_perm (arrivalsAt_perm ((ProcessingOrder.favouring s).moves_perm _) hset) id).map _
  have hscale : ∀ s, (nodeAfter (.favouring s) room id n).scale =
      (n.scale.moves (fallsOf ((ProcessingOrder.favouring s).moves room.reservedMoves) id)).moves
        (gainsOf ((ProcessingOrder.favouring s).deliveries room) id) := fun s =>
    (h.node_resolved hphase (.favouring s) 0 hn hs).2.2.2.2 ht
  constructor
  · rw [hscale, (fallsOf_favouring hmoves id hcoh).1, h.deliveries_favouring,
      (gainsOf_favouring (harr .a) id (hcoh.highest _)).1, Scale.highest_perm (hperm .a)]
  · rw [hscale, (fallsOf_favouring hmoves id hcoh).2, h.deliveries_favouring,
      (gainsOf_favouring (harr .b) id (hcoh.lowest _)).2, Scale.lowest_perm (hperm .b)]

/-! ### Few units

Three units for a side leave little room: if two groups start on an edge and a third arrives there,
each is one unit.  That is what makes two groups that look alike equal. -/

/-- Two different groups of a side bring the units of both. -/
theorem add_le_unitsIn {gs : List TravelingGroup} (h : AllPositive gs) {g g' : TravelingGroup}
    (hg : g ∈ gs) (hg' : g' ∈ gs) (hne : g' ≠ g) {s : PlayerSide} (hs : g.side = s)
    (hs' : g'.side = s) : g.unitCount + g'.unitCount ≤ unitsIn s gs := by
  have hperm := List.perm_cons_erase hg
  have hmem : g' ∈ gs.erase g := (List.mem_erase_of_ne hne).mpr hg'
  have hrest : AllPositive (gs.erase g) := fun x hx => h x (List.mem_of_mem_erase hx)
  have hle := le_unitsIn hrest hmem
  rw [hs'] at hle
  rw [unitsIn_perm s hperm, unitsIn_cons, if_pos hs]
  omega

/-- The units that are on an edge or start on it are at most the units of the side. -/
theorem Sound.units_le_total (h : Sound room) (hphase : room.phase = .planning) {id : EdgeId}
    {e : Edge} (he : room.edges.get? id = some e) (s : PlayerSide) :
    e.units s + unitsIn s (HexWar.loads room.reservedMoves id) ≤ room.total s := by
  have hres := h.resolvable hphase
  have hdep := total_departures s hres.payable hres.keyed
  have hnodes : 0 ≤ (room.reservedMoves.foldl departNode room.nodes).sum (·.getMobileCount s) := by
    apply Dict.sum_nonneg
    intro n hn
    obtain ⟨k, hk⟩ := Dict.mem_values.mp hn
    rw [get?_departures] at hk
    obtain ⟨n₀, hn₀, rfl⟩ := Option.map_eq_some_iff.mp hk
    have hcost := hres.payable.solvent k n₀ s hn₀
    have hleft := (Node.departAll_base (leaving room.reservedMoves k) n₀).2.2 s
    rw [outgoing_eq] at hcost
    show 0 ≤ Node.getMobileCount _ s
    omega
  have hedges : (e.loadAll (HexWar.loads room.reservedMoves id)).units s ≤
      (room.reservedMoves.foldl loadEdge room.edges).sum (·.units s) := by
    have hget : (room.reservedMoves.foldl loadEdge room.edges).get? id =
        some (e.loadAll (HexWar.loads room.reservedMoves id)) := by
      rw [get?_loaded _ _ h.map.keyed, he]
      rfl
    refine Dict.le_sum (f := fun e : Edge => e.units s) (fun e₁ he₁ => ?_) hget
    obtain ⟨k, hk⟩ := Dict.mem_values.mp he₁
    rw [get?_loaded _ _ h.map.keyed] at hk
    obtain ⟨e₀, he₀, rfl⟩ := Option.map_eq_some_iff.mp hk
    have hid : e₀.id = k := h.map.keyed _ _ he₀
    have hsound : EdgeSound (e₀.loadAll (HexWar.loads room.reservedMoves k)) :=
      edgeSound_loadAll (h.edges _ _ he₀) (h.map.distance he₀).1
        fun g hg => hid ▸ h.loads sourceOrder hg
    exact Edge.sum_nonneg_of_pos (fun j g hg => (hsound.groups j g hg).pos) s
  rw [Edge.units_loadAll] at hedges
  unfold total
  omega

/-- Two unlike groups that start on an edge, one of which looks like a group that arrives there, are
    all the three units of their side. -/
theorem ThreeAtMost.single (ht : ThreeAtMost room) (h : Sound room)
    (hphase : room.phase = .planning) {id : EdgeId} {e : Edge} (he : room.edges.get? id = some e)
    {g g' : TravelingGroup} (hg : g ∈ loads room.reservedMoves id)
    (hg' : g' ∈ loads room.reservedMoves id) (hne : g' ≠ g) (hside : g'.side = g.side)
    (hone : g ∈ e.bucket 1) : g.unitCount = 1 ∧ g'.unitCount = 1 := by
  have hpos : AllPositive (loads room.reservedMoves id) := fun x hx => (h.loads sourceOrder hx).pos
  have hold : ∀ k, AllPositive (e.bucket k) := fun k x hx => ((h.edges id e he).groups k x hx).pos
  have htotal := h.units_le_total hphase he g.side
  have hstart := add_le_unitsIn hpos hg hg' hne rfl hside
  have harrive := Int.le_trans (le_unitsIn (hold 1) hone) (Edge.bucket_le_units hold g.side 1)
  have hg1 := hpos g hg
  have hg1' := hpos g' hg'
  have hthree := ht g.side
  omega

/-! ### The order that starts one move first -/

/-- Nothing to put first. -/
theorem putFirst_eq_self {α : Type} {p : α → Bool} {l : List α} (h : ∀ x ∈ l, p x = false) :
    putFirst p l = l := by
  unfold putFirst
  have hnone : l.filter p = [] := List.filter_eq_nil_iff.mpr fun x hx => by rw [h x hx]; decide
  have hall : (l.filter fun x => !p x) = l := List.filter_eq_self.mpr fun x hx => by rw [h x hx]; rfl
  rw [hnone, hall, List.nil_append]

/-- On another edge than the move's nothing changes. -/
theorem loads_leading {ms : List SideMove} {m : SideMove} {id : EdgeId} (h : m.2.edgeId ≠ id) :
    loads ((ProcessingOrder.leading m).moves ms) id = loads ms id := by
  unfold loads ProcessingOrder.leading
  rw [filter_putFirst, putFirst_eq_self]
  intro m' hm'
  have hid : m'.2.edgeId = id := of_decide_eq_true (List.mem_filter.mp hm').2
  apply decide_eq_false
  rintro rfl
  exact h hid

/-- On the move's own edge its group is the first of the side. -/
theorem firstOf_leading {ms : List SideMove} {m : SideMove} (hm : m ∈ ms) :
    Edge.firstOf m.1 (loads ((ProcessingOrder.leading m).moves ms) m.2.edgeId) =
      some ⟨m.1, m.2.count, m.2.toNode⟩ := by
  have hfirst : loads ((ProcessingOrder.leading m).moves ms) m.2.edgeId =
      loads (ms.filter fun m' => m' = m) m.2.edgeId ++
        loads (ms.filter fun m' => !decide (m' = m)) m.2.edgeId := by
    unfold loads ProcessingOrder.leading putFirst
    rw [List.filter_append, List.map_append]
  have hmem : (⟨m.1, m.2.count, m.2.toNode⟩ : TravelingGroup) ∈
      loads (ms.filter fun m' => m' = m) m.2.edgeId :=
    mem_loads.mpr ⟨m, List.mem_filter.mpr ⟨hm, decide_eq_true rfl⟩, rfl, rfl⟩
  obtain ⟨g, hg⟩ := Edge.firstOf_isSome hmem rfl
  obtain ⟨m', hm', -, rfl⟩ := mem_loads.mp (Edge.firstOf_mem hg).1
  have heq : m' = m := of_decide_eq_true (List.mem_filter.mp hm').2
  subst heq
  rw [hfirst]
  unfold Edge.firstOf at hg ⊢
  rw [List.find?_append, hg, Option.some_or]

/-- Letting more pass the filter raises the sum, if what is added weighs something. -/
theorem sum_filter_lt {α : Type} {l : List α} {p q : α → Bool} {w : α → Int}
    (hw : ∀ a ∈ l, 0 ≤ w a) (hle : ∀ a ∈ l, p a = true → q a = false → w a = 0)
    (hlt : ∃ a ∈ l, q a = true ∧ p a = false ∧ 0 < w a) :
    ((l.filter p).map w).sum < ((l.filter q).map w).sum := by
  have hsum : ∀ (l : List α) (p : α → Bool), ((l.filter p).map w).sum =
      (l.map fun a => if p a then w a else 0).sum := by
    intro l p
    induction l with
    | nil => rfl
    | cons a l ih =>
      rw [List.map_cons, List.sum_cons, ← ih, List.filter_cons]
      split
      · rw [List.map_cons, List.sum_cons]
      · rw [Int.zero_add]
  rw [hsum, hsum]
  apply List.sum_lt_sum
  · intro a ha
    have hpos := hw a ha
    have hzero := hle a ha
    rcases hp : p a with _ | _
    · rcases hq : q a with _ | _
      · exact Int.le_refl _
      · exact hpos
    · rcases hq : q a with _ | _
      · rw [if_pos rfl, hzero hp hq, if_neg (by decide)]
      · exact Int.le_refl _
  · obtain ⟨a, ha, hq, hp, hpos⟩ := hlt
    refine ⟨a, ha, ?_⟩
    rw [hp, hq]
    exact hpos

/-- The units of a side that an arrival brings to a node. -/
def brings (s : PlayerSide) (id : NodeId) (a : ArrivalInfo) : Int :=
  if a.side = s ∧ a.destination = id then a.count else 0

/-- The units that reach a node, arrival by arrival. -/
theorem passing_reaching (s : PlayerSide) (id : NodeId) (as : List ArrivalInfo) :
    passing s (reaching as id) = (as.map (brings s id)).sum := by
  induction as with
  | nil => rfl
  | cons a as ih =>
    rw [List.map_cons, List.sum_cons, ← ih]
    unfold reaching brings
    rcases em (a.destination = id) with hd | hd
    · rw [List.filter_cons_of_pos (by simpa using hd), List.map_cons, passing_cons]
      simp [hd]
    · rw [List.filter_cons_of_neg (by simpa using hd)]
      simp [hd]

/-- A round whose orders agree leaves a node with the standing that the source's order gives it. -/
theorem Simultaneous.standing_eq (hsim : Simultaneous room) (h : Sound room) (hn : NodesSound room)
    (hphase : room.phase = .planning) (o : ProcessingOrder) {id : NodeId} {n : Node}
    (hget : room.nodes.get? id = some n) :
    (nodeAfter o room id n).standing = (nodeAfter sourceOrder room id n).standing := by
  have hmap := (hsim o none 0).2
  rw [(h.standings hphase o none 0).2, next_resolveRound h hphase] at hmap
  have hboth := congrArg (fun d => d.get? id) hmap
  rw [Dict.get?_mapValues, Dict.get?_mapValues,
    (h.node_resolved hphase o _ hget (hn id n hget)).1,
    (h.node_resolved hphase sourceOrder _ hget (hn id n hget)).1] at hboth
  exact Option.some.inj hboth

/-- A round whose orders agree delivers as many units of a side to a node in one as in another. -/
theorem Simultaneous.delivered_eq (hsim : Simultaneous room) (h : Sound room) (hn : NodesSound room)
    (hphase : room.phase = .planning) (o o' : ProcessingOrder) {id : NodeId} {n : Node}
    (hget : room.nodes.get? id = some n) (s : PlayerSide) :
    ((o.deliveries room).map (brings s id)).sum = ((o'.deliveries room).map (brings s id)).sum := by
  have hcount : ∀ o : ProcessingOrder, (nodeAfter o room id n).getMobileCount s =
      n.getMobileCount s - passing s (leaving room.reservedMoves id) +
        ((o.deliveries room).map (brings s id)).sum := by
    intro o
    have hleave : (leaving (o.executed room) id).Perm (leaving room.reservedMoves id) :=
      leaving_perm (o.moves_perm _) id
    rw [(h.node_resolved hphase o 0 hget (hn id n hget)).2.2.2.1, passing_perm hleave,
      passing_reaching]
  have hread : ∀ o : ProcessingOrder, (nodeAfter o room id n).getMobileCount s =
      (nodeAfter sourceOrder room id n).getMobileCount s := by
    intro o
    exact (standing_inj (hsim.standing_eq h hn hphase o hget)).1 s
  have ho := hread o
  have ho' := hread o'
  rw [hcount, hcount sourceOrder] at ho ho'
  omega

/-- The same groups arrive in every order. -/
theorem Sound.arrivingGroups_perm (h : Sound room) (o o' : ProcessingOrder) :
    (o.arrivingGroups room).Perm (o'.arrivingGroups room) := by
  rw [h.arrivingGroups_eq, h.arrivingGroups_eq]
  apply List.Perm.flatMap_left
  intro e _
  exact (groupsAt_perm ((o.moves_perm _).trans (o'.moves_perm _).symm) e 1).map _

/-- An arriving group, and the edge it arrives on. -/
theorem Sound.mem_arrivingGroups (h : Sound room) {o : ProcessingOrder} {a : ArrivalInfo} :
    a ∈ o.arrivingGroups room ↔ ∃ id e x, room.edges.get? id = some e ∧
      x ∈ groupsAt (o.executed room) e 1 ∧ a = x.arrivalOn id := by
  rw [h.arrivingGroups_eq, List.mem_flatMap]
  constructor
  · rintro ⟨e, he, ha⟩
    obtain ⟨id, hid⟩ := Dict.mem_values.mp he
    obtain ⟨x, hx, rfl⟩ := List.mem_map.mp ha
    exact ⟨id, e, x, hid, hx, by rw [h.map.keyed _ _ hid]⟩
  · rintro ⟨id, e, x, he, hx, rfl⟩
    exact ⟨e, Dict.mem_values.mpr ⟨id, he⟩, List.mem_map.mpr ⟨x, hx, by rw [h.map.keyed _ _ he]⟩⟩

/-- On another edge than the move's the groups are those of the source's order. -/
theorem groupsAt_leading {m : SideMove} {e : Edge} (hne : m.2.edgeId ≠ e.id) (k : Int) :
    groupsAt ((ProcessingOrder.leading m).executed room) e k = groupsAt room.reservedMoves e k := by
  have hloads : loads ((ProcessingOrder.leading m).executed room) e.id =
      loads room.reservedMoves e.id := loads_leading hne
  unfold groupsAt
  rw [hloads]

/-- The group that a side puts first on an edge where it has none yet. -/
theorem Sound.first_leading (h : Sound room) {id : EdgeId} {e : Edge}
    (he : room.edges.get? id = some e) (hd : 2 ≤ e.distance.roundsRequired) {m : SideMove}
    (hm : m ∈ room.reservedMoves) (hme : m.2.edgeId = id)
    (hnone : Edge.firstOf m.1 (e.bucket e.distance.roundsRequired) = none) {k : Int} (hk : 2 ≤ k)
    {x : TravelingGroup}
    (hx : Edge.firstOf m.1 (groupsAt ((ProcessingOrder.leading m).executed room) e k) = some x) :
    x = ⟨m.1, m.2.count, m.2.toNode⟩ := by
  have hd2 := (h.map.distance he).2
  have hlead := firstOf_leading hm
  rw [hme, ← h.map.keyed _ _ he] at hlead
  rw [firstOf_groupsAt] at hx
  rcases hold : Edge.firstOf m.1 (e.bucket k) with _ | x₀
  · rw [hold, Option.none_or] at hx
    split at hx
    · exact (Option.some.inj (hlead.symm.trans hx)).symm
    · cases hx
  · have hkd : k = e.distance.roundsRequired := by
      have := ((h.edges id e he).inTransit.of_mem (Edge.firstOf_mem hold).1).2
      omega
    rw [hkd, hnone] at hold
    cases hold

/-- Against an enemy, the group of the move that is executed first looks met. -/
theorem Sound.looksMet_leading (h : Sound room) {id : EdgeId} {e : Edge}
    (he : room.edges.get? id = some e) (hd : 2 ≤ e.distance.roundsRequired) {m : SideMove}
    (hm : m ∈ room.reservedMoves) (hme : m.2.edgeId = id)
    (hnone : Edge.firstOf m.1 (e.bucket e.distance.roundsRequired) = none)
    (henemy : (Edge.firstOf m.1.enemy
      (groupsAt room.reservedMoves e e.distance.roundsRequired)).isSome) :
    LooksMet ((ProcessingOrder.leading m).executed room) e ⟨m.1, m.2.count, m.2.toNode⟩ := by
  have hperm : ((ProcessingOrder.leading m).executed room).Perm room.reservedMoves :=
    (ProcessingOrder.leading m).moves_perm _
  have hlead := firstOf_leading hm
  rw [hme, ← h.map.keyed _ _ he] at hlead
  apply looksMet_iff_side.mpr
  refine ⟨e.distance.roundsRequired, hd, ?_, ?_⟩
  · rw [firstOf_groupsAt, if_pos rfl]
    show (Edge.firstOf m.1 _).or _ = _
    rw [hnone, Option.none_or]
    exact hlead
  · rw [firstOf_isSome_perm (groupsAt_perm hperm e _)]
    exact henemy

/-- **Orders that agree need settled meetings.**  If a side starts two unlike groups against an enemy
    and one of them looks like a group that arrives, then that one is held back in the order that
    starts it first, and delivered in the order that starts the other one first. -/
theorem Simultaneous.meetings (hsim : Simultaneous room) (h : Sound room) (hn : NodesSound room)
    (ht : ThreeAtMost room) (hphase : room.phase = .planning) :
    ∀ e ∈ room.edges.values, MeetingSettled room.reservedMoves e := by
  intro e hmem hd s hnone henemy g hg g' hg' hs hs' hone
  by_contra hne
  obtain ⟨id, he⟩ := Dict.mem_values.mp hmem
  have hid : e.id = id := h.map.keyed _ _ he
  rw [hid] at hg hg'
  -- all three groups are of one unit
  obtain ⟨hc, hc'⟩ := ht.single h hphase he hg hg' hne (hs'.trans hs.symm) hone
  obtain ⟨m, hm, hme, rfl⟩ := mem_loads.mp hg
  obtain ⟨m', hm', hme', rfl⟩ := mem_loads.mp hg'
  have hms : m.1 = s := hs
  have hms' : m'.1 = s := hs'
  obtain ⟨node, hnode⟩ := h.map.node_of_end he
    (h.groupSound sourceOrder he (List.mem_append_left _ hone)).destination
  have hlook := h.looksMet_leading he hd hm hme (hms ▸ hnone) (hms ▸ henemy)
  -- when the other move is executed first, its group is the only one of the side that looks met
  have hother : ∀ x : TravelingGroup, x.side = s →
      LooksMet ((ProcessingOrder.leading m').executed room) e x →
        x = ⟨m'.1, m'.2.count, m'.2.toNode⟩ := by
    intro x hx hl
    obtain ⟨k, hk, hxf, -⟩ := looksMet_iff_side.mp hl
    rw [hx, ← hms'] at hxf
    exact h.first_leading he hd hm' hme' (hms' ▸ hnone) hk hxf
  have hstrict := sum_filter_lt (l := (ProcessingOrder.leading m).arrivingGroups room)
    (p := fun a => a ∉ getBlockedUnits ((ProcessingOrder.leading m).encounters room))
    (q := fun a => a ∉ getBlockedUnits ((ProcessingOrder.leading m').encounters room))
    (w := brings s m.2.toNode) ?_ ?_ ?_
  -- the order that starts `m` first delivers fewer units than the one that starts `m'` first
  · have hsame := hsim.delivered_eq h hn hphase (.leading m) (.leading m') hnode s
    have hperm := (((h.arrivingGroups_perm (.leading m) (.leading m')).filter fun a =>
      a ∉ getBlockedUnits ((ProcessingOrder.leading m').encounters room)).map
        (brings s m.2.toNode)).sum_eq
    change (((ProcessingOrder.leading m).arrivingGroups room).filter _ |>.map _).sum =
      (((ProcessingOrder.leading m').arrivingGroups room).filter _ |>.map _).sum at hsame
    rw [hperm, hsame] at hstrict
    exact absurd hstrict (Int.lt_irrefl _)
  · intro a ha
    obtain ⟨id₂, e₂, x, he₂, hx, rfl⟩ := h.mem_arrivingGroups.mp ha
    have hpos : 1 ≤ x.unitCount := (h.groupSound _ he₂ hx).pos
    unfold brings
    split
    · show 0 ≤ x.unitCount
      omega
    · exact Int.le_refl 0
  · -- what only the second order holds back goes elsewhere
    intro a ha hpass hblock
    obtain ⟨id₂, e₂, x, he₂, hx, rfl⟩ := h.mem_arrivingGroups.mp ha
    have hlook' : LooksMet ((ProcessingOrder.leading m').executed room) e₂ x :=
      (h.mem_blocked_iff _ he₂ x).mp (not_not.mp (of_decide_eq_false hblock))
    have hnot : ¬ LooksMet ((ProcessingOrder.leading m).executed room) e₂ x := fun hl =>
      of_decide_eq_true hpass ((h.mem_blocked_iff _ he₂ x).mpr hl)
    apply if_neg
    rintro ⟨hxs, hxd⟩
    have hside : x.side = s := hxs
    have hdest : x.destination = m.2.toNode := hxd
    rcases em (id₂ = id) with rfl | hdiffer
    · cases he.symm.trans he₂
      have hx' := hother x hside hlook'
      apply hne
      rw [← hx'] at hc' ⊢
      rcases x with ⟨sx, cx, dx⟩
      cases hside
      cases hdest
      cases hc'
      rw [TravelingGroup.mk.injEq]
      exact ⟨hs.symm, hc.symm, rfl⟩
    · have hid₂ : e₂.id = id₂ := h.map.keyed _ _ he₂
      have hne₂ : id ≠ e₂.id := by
        rw [hid₂]
        exact Ne.symm hdiffer
      obtain ⟨k, hk, hxf, hxe⟩ := looksMet_iff_side.mp hlook'
      rw [groupsAt_leading (hme'.symm ▸ hne₂)] at hxf hxe
      apply hnot
      apply looksMet_iff_side.mpr
      refine ⟨k, hk, ?_, ?_⟩
      · rw [groupsAt_leading (hme.symm ▸ hne₂)]
        exact hxf
      · rw [groupsAt_leading (hme.symm ▸ hne₂)]
        exact hxe
  · refine ⟨(⟨m.1, m.2.count, m.2.toNode⟩ : TravelingGroup).arrivalOn id, ?_, ?_, ?_, ?_⟩
    · exact h.mem_arrivingGroups.mpr ⟨id, e, _, he, List.mem_append_left _ hone, rfl⟩
    · exact decide_eq_true fun hb => hne (hother _ hms ((h.mem_blocked_iff _ he _).mp hb)).symm
    · exact decide_eq_false (not_not_intro ((h.mem_blocked_iff _ he _).mpr hlook))
    · unfold brings
      rw [if_pos ⟨hs, rfl⟩]
      show 0 < m.2.count
      have hc1 : m.2.count = 1 := hc
      omega

/-! ## Exactly the even-handed rounds -/

instance (room : GameRoom) : Decidable (EvenHanded room) :=
  decidable_of_iff ((∀ e ∈ room.edges.values, MeetingSettled room.reservedMoves e) ∧
      ∀ kv ∈ room.nodes.entries, kv.2.type = .supplyLine →
        kv.2.scale.Settled (fallsOf room.reservedMoves kv.1)
          (gainsOf (arrivalsAt room.reservedMoves room) kv.1))
    ⟨fun h => ⟨h.1, fun id n hn => h.2 (id, n) (Dict.mem_iff_get?.mpr hn)⟩,
      fun h => ⟨h.meetings, fun kv hkv => h.supplyLines kv.1 kv.2 (Dict.mem_iff_get?.mp hkv)⟩⟩

/-- **Orders that agree need settled supply lines**: the two orders that favour a side end highest
    and lowest. -/
theorem Simultaneous.supplyLines (hsim : Simultaneous room) (h : Sound room) (hn : NodesSound room)
    (ht : ThreeAtMost room) (hphase : room.phase = .planning) {id : NodeId} {n : Node}
    (hget : room.nodes.get? id = some n) (hty : n.type = .supplyLine) :
    n.scale.Settled (fallsOf room.reservedMoves id)
      (gainsOf (arrivalsAt room.reservedMoves room) id) := by
  obtain ⟨hhigh, hlow⟩ := h.scale_favouring hphase hget (hn id n hget) hty
    (hsim.meetings h hn ht hphase)
  have hholder : (nodeAfter (.favouring .a) room id n).scale.holder =
      (nodeAfter (.favouring .b) room id n).scale.holder := by
    have ha := hsim.standing_eq h hn hphase (.favouring .a) hget
    have hb := hsim.standing_eq h hn hphase (.favouring .b) hget
    exact (standing_inj (ha.trans hb.symm)).2
  unfold Scale.Settled
  rw [← hlow, ← hhigh]
  exact hholder.symm

/-- **The rounds whose result does not depend on the order of their batches.**  In the planning phase
    of a session the round is resolved the same in every order exactly if the room is even-handed. -/
theorem simultaneous_iff {roomId : String} (h : (session roomId).Reachable room)
    (hphase : room.phase = .planning) : Simultaneous room ↔ EvenHanded room := by
  have hs := (inSession_of_reachable h).sound
  have hn := nodesSound_of_reachable (reachable_of_session h)
  have ht := threeAtMost_of_reachable h
  constructor
  · intro hsim
    exact ⟨hsim.meetings hs hn ht hphase, fun _ _ hget hty => hsim.supplyLines hs hn ht hphase hget hty⟩
  · intro heven
    exact heven.simultaneous hs hn hphase

/-- One unit of each side moves to the same supply line, which nobody holds. -/
def rivalCalls : List Call :=
  [.addPlayer ⟨"p1"⟩ none 0, .addPlayer ⟨"p2"⟩ none 0,
    .moveUnits .a ⟨⟨1⟩, ⟨6⟩, 1⟩, .resolveRound none 0,
    .moveUnits .a ⟨⟨6⟩, ⟨3⟩, 1⟩, .moveUnits .b ⟨⟨5⟩, ⟨3⟩, 1⟩]

theorem simultaneous_opening :
    ∃ room, (session "room").Reachable room ∧ room.phase = .planning ∧
      room.reservedMoves.length = 1 ∧ Simultaneous room := by
  have hreach : (session "room").Reachable
      ((session "room").after (session "room").start (rivalCalls.take 3)) :=
    ⟨rivalCalls.take 3, by decide +kernel, rfl⟩
  exact ⟨_, hreach, by decide +kernel, by decide +kernel,
    (simultaneous_iff hreach (by decide +kernel)).mpr (by decide +kernel)⟩

/-- The room in which both units are on their way. -/
def rivalRoom : GameRoom := (session "room").after (session "room").start rivalCalls

/-- The side whose unit is delivered first takes the node. -/
theorem first_delivered_takes_node :
    (session "room").Reachable rivalRoom ∧ rivalRoom.phase = .planning ∧
      rivalRoom.isReadyForResolution = true ∧ ¬ Simultaneous rivalRoom := by
  have hreach : (session "room").Run rivalCalls ∧ rivalRoom.phase = .planning ∧
      rivalRoom.isReadyForResolution = true := by
    decide +kernel
  have hfavoured : ((after (resolveRoundIn (.favouring .a) none 0) rivalRoom).nodes.mapValues
      Node.standing).get? ⟨3⟩ = some (.playerA, ⟨(1, 1), (1, 0)⟩) := by
    decide +kernel
  have hsource : ((rivalRoom.next (.resolveRound none 0)).nodes.mapValues Node.standing).get? ⟨3⟩ =
      some (.playerB, ⟨(1, 0), (1, 1)⟩) := by
    decide +kernel
  refine ⟨⟨rivalCalls, hreach.1, rfl⟩, hreach.2.1, hreach.2.2, fun hsim => ?_⟩
  have hsame := (hsim (.favouring .a) none 0).2
  rw [hsame, hsource] at hfavoured
  cases hfavoured

end HexWar
