/-
  Who owns a node after its units have changed.

  On an ordinary node the owner is the side with more units, recounted at every arrival and every
  departure, and on the headquarters it is nobody.  A supply line is a `Lib.Scale`: its balance is
  the difference of the two sides' mobile units, and its holder the side that has the garrison.  The
  recount compares the totals, garrison included, and only then moves the garrison to the new owner;
  that is exactly a move of the scale (`scale_departed`, `scale_arrived`).

  `NodeSound` is the invariant of a node in the map: where the garrison stands follows from the
  owner, and the owner from the units and, on a supply line, from the holder.

  The garrison makes the owner of a supply line depend on its past.  With equal mobile units the line is
  held by whoever has the garrison, and it is lost only when the enemy has one unit more than the owner
  and the garrison together; with a tie of the totals it is contested and the garrison is gone.  What
  the past leaves behind is therefore one of three holders, and `Lib.Scale` says how a balance moves
  among them.

  1. `updateOwnership` on each kind of node, with `DeactivateSupplyLine` and
     `ActivateSupplyLineIfNeeded` in the order in which the source calls them.
  2. A recount keeps `NodeSound` if the garrisons stood where the owner said (`sound_updateOwnership`).
  3. A departure and an arrival are a change of the mobile units and a recount; so is a list of either.
-/
import HexWar.Domain.Resolution
import HexWar.Lib.Scale

namespace HexWar

open Lib

/-- The garrison that a side has on a supply line with the given owner. -/
def garrisonOf (o : NodeOwnership) (s : PlayerSide) : Int :=
  if o = .fromPlayerSide s then 1 else 0

/-- The owner of a supply line with the given holder and mobile units. -/
def heldOwner (holder countA countB : Int) : NodeOwnership :=
  if holder = 1 then .playerA
  else if holder = -1 then .playerB
  else if countA = 0 ∧ countB = 0 then .neutral
  else .contested

namespace Node

/-- The balance of the mobile units, and the side that has the garrison. -/
def scale (n : Node) : Scale :=
  ⟨n.getMobileCount .a - n.getMobileCount .b, n.getGarrisonCount .a - n.getGarrisonCount .b⟩

/-- The garrisons stand where the owner says. -/
def Garrisoned (n : Node) : Prop :=
  ∀ s, n.getGarrisonCount s = if n.type = .supplyLine then garrisonOf n.ownership s else 0

/-- The owner follows from the units on the node and, on a supply line, from the garrison. -/
def Owned (n : Node) : Prop :=
  match n.type with
  | .headquarters => n.ownership = .neutral
  | .supplyLine =>
    n.ownership = heldOwner n.scale.holder (n.getMobileCount .a) (n.getMobileCount .b) ∧
      n.scale.Coherent
  | .outPost | .chokepoint =>
    n.ownership = ownerByCount (n.getMobileCount .a) (n.getMobileCount .b)

end Node

/-- The invariant of a node in the map. -/
structure NodeSound (n : Node) : Prop where
  /-- No side that does not own it has a garrison, and no node but a supply line has any. -/
  garrisoned : n.Garrisoned
  /-- The owner is what a recount would find. -/
  owned : n.Owned

namespace Node

/-! ## The recount

`UpdateOwnership` compares the totals, garrison included.  If the owner changes on a supply line,
the old garrison is dropped and the new owner's is put there, so that the totals it has just
compared no longer hold.  The lemmas say what is left afterwards, kind by kind. -/

/-- Setting one side's garrison leaves the other's. -/
theorem getGarrisonCount_setGarrison (n : Node) (s t : PlayerSide) {k : Int} (hk : 0 ≤ k) :
    (n.setGarrison s k).getGarrisonCount t = if t = s then k else n.getGarrisonCount t := by
  rcases em (t = s) with rfl | h
  · rw [if_pos rfl, getGarrisonCount, setGarrison, PerSide.get_update_same]
    exact Int.max_eq_right hk
  · rw [if_neg h, getGarrisonCount, setGarrison, PerSide.get_update_of_ne _ h]
    rfl

/-- Taking the garrison of a side that is not the owner. -/
theorem getGarrisonCount_dropGarrison (n : Node) (s t : PlayerSide) :
    (n.dropGarrison s).getGarrisonCount t =
      if t = s ∧ n.ownership ≠ .fromPlayerSide s then 0 else n.getGarrisonCount t := by
  rw [dropGarrison]
  rcases em (n.ownership = .fromPlayerSide s) with h | h
  · rw [if_neg (not_not_intro h), if_neg fun hc => hc.2 h]
  · rw [if_pos h, getGarrisonCount_setGarrison _ _ _ (Int.le_refl 0)]
    rcases em (t = s) with ht | ht
    · rw [if_pos ht, if_pos ⟨ht, h⟩]
    · rw [if_neg ht, if_neg fun hc => ht hc.1]

/-- Dropping a garrison changes no owner. -/
theorem ownership_dropGarrison (n : Node) (s : PlayerSide) :
    (n.dropGarrison s).ownership = n.ownership := by
  rw [dropGarrison]
  split <;> rfl

/-- Once the garrisons of the others are gone, activating leaves exactly the owner's. -/
theorem garrisoned_reactivated {n : Node} (ht : n.type = .supplyLine) (s : PlayerSide) :
    n.deactivateSupplyLine.activateSupplyLineIfNeeded.getGarrisonCount s =
        garrisonOf n.ownership s ∧
      n.deactivateSupplyLine.activateSupplyLineIfNeeded.ownership = n.ownership := by
  have hsupply : n.isSupplyLine = true := decide_eq_true ht
  have hdown : n.deactivateSupplyLine = (n.dropGarrison .a).dropGarrison .b := by
    rw [deactivateSupplyLine, if_neg (not_not_intro hsupply)]
  have hown : n.deactivateSupplyLine.ownership = n.ownership := by
    rw [hdown, ownership_dropGarrison, ownership_dropGarrison]
  have hdrop : ∀ t, n.ownership ≠ .fromPlayerSide t →
      n.deactivateSupplyLine.getGarrisonCount t = 0 := by
    intro t h
    rw [hdown, getGarrisonCount_dropGarrison, ownership_dropGarrison,
      getGarrisonCount_dropGarrison]
    cases t with
    | a =>
      have hnot : ¬ (PlayerSide.a = .b ∧ n.ownership ≠ .fromPlayerSide .b) := by
        intro hc
        cases hc.1
      rw [if_neg hnot, if_pos ⟨rfl, h⟩]
    | b => rw [if_pos ⟨rfl, h⟩]
  have htype : n.deactivateSupplyLine.isSupplyLine = true :=
    decide_eq_true ((sameBase_deactivate n).type.trans ht)
  rw [activateSupplyLineIfNeeded, if_neg (not_not_intro htype), hown, garrisonOf]
  -- A's, B's or nobody's: the owner's garrison is set, and that of whoever is not the owner was
  -- dropped
  rcases em (n.ownership = .playerA) with hA | hA
  · rw [if_pos hA]
    refine ⟨?_, hown⟩
    rw [getGarrisonCount_setGarrison _ _ _ (by decide), hA]
    cases s with
    | a => rfl
    | b => exact hdrop .b (by rw [hA]; decide)
  · rw [if_neg hA]
    rcases em (n.ownership = .playerB) with hB | hB
    · rw [if_pos hB]
      refine ⟨?_, hown⟩
      rw [getGarrisonCount_setGarrison _ _ _ (by decide), hB]
      cases s with
      | a => exact hdrop .a (by rw [hB]; decide)
      | b => rfl
    · rw [if_neg hB]
      have hs : n.ownership ≠ .fromPlayerSide s := by
        cases s with
        | a => exact hA
        | b => exact hB
      rw [if_neg hs]
      exact ⟨hdrop s hs, hown⟩

/-- The recount of a supply line: the totals decide, and the garrison follows. -/
theorem updateOwnership_supply {n : Node} (ht : n.type = .supplyLine) (hg : n.Garrisoned) :
    n.updateOwnership.ownership = ownerByCount (n.getTotalCount .a) (n.getTotalCount .b) ∧
      ∀ s, n.updateOwnership.getGarrisonCount s =
        garrisonOf (ownerByCount (n.getTotalCount .a) (n.getTotalCount .b)) s := by
  have hhq : ¬ n.isHeadquarters = true := by
    rw [isHeadquarters, ht]
    decide
  rw [updateOwnership, if_neg hhq]
  dsimp only
  generalize ho : ownerByCount (n.getTotalCount .a) (n.getTotalCount .b) = o
  -- the same owner as before: nothing is moved, and the garrison stands already
  rcases em (n.ownership = o) with h | h
  · rw [if_neg (not_not_intro h)]
    refine ⟨rfl, fun s => ?_⟩
    have hs := hg s
    rw [if_pos ht, h] at hs
    exact hs
  · rw [if_pos h]
    have hre := fun s => garrisoned_reactivated (n := { n with ownership := o }) ht s
    exact ⟨(hre .a).2, fun s => (hre s).1⟩

/-- Nothing is activated or deactivated on another kind of node. -/
theorem no_garrison_change {n : Node} (hs : n.type ≠ .supplyLine) :
    n.deactivateSupplyLine.activateSupplyLineIfNeeded = n := by
  have hsup : ¬ n.isSupplyLine = true := fun h => hs (of_decide_eq_true h)
  have hdown : n.deactivateSupplyLine = n := by rw [deactivateSupplyLine, if_pos hsup]
  rw [hdown, activateSupplyLineIfNeeded, if_pos hsup]

/-- The recount of a node that is neither a supply line nor the headquarters. -/
theorem updateOwnership_ordinary {n : Node} (hs : n.type ≠ .supplyLine)
    (hh : n.type ≠ .headquarters) : n.updateOwnership =
      { n with ownership := ownerByCount (n.getTotalCount .a) (n.getTotalCount .b) } := by
  have hhq : ¬ n.isHeadquarters = true := fun h => hh (of_decide_eq_true h)
  rw [updateOwnership, if_neg hhq]
  dsimp only
  split
  · exact no_garrison_change hs
  · rfl

/-- The headquarters belongs to nobody, whoever stands there. -/
theorem updateOwnership_headquarters {n : Node} (h : n.type = .headquarters) :
    n.updateOwnership = { n with ownership := .neutral } := by
  have hhq : n.isHeadquarters = true := decide_eq_true h
  rw [updateOwnership, if_pos hhq]

/-- Activating a supply line whose garrison stands where it should does nothing. -/
theorem activate_of_garrisoned {n : Node} (hg : n.Garrisoned) :
    n.activateSupplyLineIfNeeded = n := by
  have hset : ∀ s, n.getGarrisonCount s = 1 → n.setGarrison s 1 = n := by
    intro s h
    have hunits : n.units.update s (·.setGarrison 1) = n.units := by
      refine PerSide.ext_get fun t => ?_
      rcases em (t = s) with rfl | ht
      · rw [PerSide.get_update_same]
        show { n.units.get t with garrisonCount := max 0 1 } = n.units.get t
        have h1 : (n.units.get t).garrisonCount = 1 := h
        rw [show max (0 : Int) 1 = 1 from rfl, ← h1]
      · rw [PerSide.get_update_of_ne _ ht]
    rw [setGarrison, hunits]
  rw [activateSupplyLineIfNeeded]
  split
  · rfl
  next hsup =>
  have ht : n.type = .supplyLine := of_decide_eq_true (not_not.mp hsup)
  split
  · next hA => exact hset .a (by rw [hg, if_pos ht, hA]; rfl)
  · split
    · next hB => exact hset .b (by rw [hg, if_pos ht, hB]; rfl)
    · rfl

/-! ## The invariant through a recount

The totals differ from the mobile units by the garrison, which is one unit for the holder.  So
comparing totals is taking the sign of the balance with the holder added (`ownerByCount_sign`),
which is how a scale moves. -/

/-- The holder of the scale is read off the owner. -/
theorem garrison_scale {n : Node} (ht : n.type = .supplyLine) (hg : n.Garrisoned) :
    n.scale.holder = garrisonOf n.ownership .a - garrisonOf n.ownership .b := by
  show n.getGarrisonCount .a - n.getGarrisonCount .b = _
  rw [hg, hg, if_pos ht, if_pos ht]

/-- With a garrison where the owner says, the totals' owner has the sign of the weighed scale. -/
theorem ownerByCount_sign {a b : Int} (ha : 0 ≤ a) (hb : 0 ≤ b) (o : NodeOwnership) :
    let v := garrisonOf o .a - garrisonOf o .b
    let o' := ownerByCount (a + garrisonOf o .a) (b + garrisonOf o .b)
    garrisonOf o' .a - garrisonOf o' .b = (a - b + v).sign ∧
      o' = heldOwner (garrisonOf o' .a - garrisonOf o' .b) a b := by
  have hsign := Scale.sign_cases (a - b + (garrisonOf o .a - garrisonOf o .b))
  -- at most one side has the garrison, and it is one unit
  have hga : garrisonOf o .a = 0 ∧ garrisonOf o .b = 0 ∨ garrisonOf o .a = 1 ∧ garrisonOf o .b = 0 ∨
      garrisonOf o .a = 0 ∧ garrisonOf o .b = 1 := by
    cases o <;> decide
  dsimp only
  rw [ownerByCount]
  split
  · next h =>
    have hv : (a - b + (garrisonOf o .a - garrisonOf o .b)).sign = 0 := by omega
    have hzero : a = 0 ∧ b = 0 := by omega
    rw [hv, heldOwner]
    refine ⟨rfl, ?_⟩
    rw [if_neg (by decide), if_neg (by decide), if_pos hzero]
  · split
    · next h =>
      have hv : (a - b + (garrisonOf o .a - garrisonOf o .b)).sign = 1 := by omega
      rw [hv]
      exact ⟨rfl, rfl⟩
    · split
      · next h =>
        have hv : (a - b + (garrisonOf o .a - garrisonOf o .b)).sign = -1 := by omega
        rw [hv]
        exact ⟨rfl, rfl⟩
      · next h =>
        have hv : (a - b + (garrisonOf o .a - garrisonOf o .b)).sign = 0 := by omega
        have hnz : ¬ (a = 0 ∧ b = 0) := by omega
        rw [hv, heldOwner]
        refine ⟨rfl, ?_⟩
        rw [if_neg (by decide), if_neg (by decide), if_neg hnz]

/-- A recount keeps the invariant, and weighs a supply line. -/
theorem sound_updateOwnership {n : Node} (hg : n.Garrisoned)
    (hpos : ∀ s, 0 ≤ n.getMobileCount s) : NodeSound n.updateOwnership ∧
      (n.type = .supplyLine → n.updateOwnership.scale =
        ⟨n.scale.balance, (n.scale.balance + n.scale.holder).sign⟩) := by
  have hbase := sameBase_updateOwnership n
  -- on a supply line the garrison counts, elsewhere there is none to count
  rcases em (n.type = .supplyLine) with ht | hs
  · obtain ⟨hown, hgarr⟩ := updateOwnership_supply ht hg
    have htot : ∀ s, n.getTotalCount s = n.getMobileCount s + garrisonOf n.ownership s := fun s => by
      have h := hg s
      rw [if_pos ht] at h
      rw [← h]
      rfl
    have hsign := ownerByCount_sign (hpos .a) (hpos .b) n.ownership
    rw [htot, htot] at hown hgarr
    have hscale : n.updateOwnership.scale =
        ⟨n.scale.balance, (n.scale.balance + n.scale.holder).sign⟩ := by
      rw [garrison_scale ht hg, scale, hbase.mobile, hbase.mobile, hgarr, hgarr]
      exact congrArg _ hsign.1
    have htype : n.updateOwnership.type = .supplyLine := hbase.type.trans ht
    refine ⟨⟨fun s => ?_, ?_⟩, fun _ => hscale⟩
    · rw [if_pos htype, hown, hgarr]
    · rw [Owned, htype]
      refine ⟨?_, ?_⟩
      · show _ = heldOwner (n.updateOwnership.getGarrisonCount .a -
          n.updateOwnership.getGarrisonCount .b) _ _
        rw [hown, hgarr, hgarr, hbase.mobile, hbase.mobile]
        exact hsign.2
      · have hrange := garrison_scale ht hg
        have hv : -1 ≤ n.scale.holder ∧ n.scale.holder ≤ 1 := by
          rw [hrange]
          cases n.ownership <;> decide
        have hcases := Scale.sign_cases (n.scale.balance + n.scale.holder)
        rw [hscale]
        constructor <;> dsimp only <;> omega
  · refine ⟨?_, fun h => absurd h hs⟩
    have hgz : ∀ s, n.getGarrisonCount s = 0 := fun s => by
      have h := hg s
      rw [if_neg hs] at h
      exact h
    have htot : ∀ s, n.getTotalCount s = n.getMobileCount s := fun s => by
      have h : (n.units.get s).garrisonCount = 0 := hgz s
      rw [getTotalCount, UnitGroup.totalCount, h, Int.add_zero]
      rfl
    rcases em (n.type = .headquarters) with hh | hh
    · rw [updateOwnership_headquarters hh]
      refine ⟨fun s => (hgz s).trans (if_neg hs).symm, ?_⟩
      show Owned { n with ownership := .neutral }
      rw [Owned]
      dsimp only
      rw [hh]
    · rw [updateOwnership_ordinary hs hh]
      refine ⟨fun s => (hgz s).trans (if_neg hs).symm, ?_⟩
      rw [htot, htot, Owned]
      dsimp only
      rcases ht : n.type with _ | _ | _ | _
      · rfl
      · rfl
      · exact absurd ht hs
      · exact absurd ht hh

/-! ## Departures and arrivals

A departure takes units away before the recount and an arrival adds them, so with each the balance
moves by the signed number of units and the recount settles the holder.  Departures need that the
node can pay: the mobile units must not go below zero on the way. -/

/-- Mobile units come and go; the garrison stays. -/
theorem getGarrisonCount_addUnits (n : Node) (s t : PlayerSide) (δ : Int) :
    (n.addUnits s δ).getGarrisonCount t = n.getGarrisonCount t := by
  rcases em (t = s) with rfl | h
  · rw [getGarrisonCount, addUnits, PerSide.get_update_same]
    rfl
  · rw [getGarrisonCount, addUnits, PerSide.get_update_of_ne _ h]
    rfl

/-- So the garrisons stand where they stood. -/
theorem garrisoned_addUnits {n : Node} (h : n.Garrisoned) (s : PlayerSide) (δ : Int) :
    (n.addUnits s δ).Garrisoned := fun t => by
  rw [getGarrisonCount_addUnits]
  exact h t

end Node

/-- What a passage adds to the balance when it arrives. -/
def signed (p : Passage) : Int :=
  match p.1 with
  | .a => p.2
  | .b => -p.2

namespace Node

/-- The scale with the units of one passage more, or fewer. -/
theorem scale_addUnits (n : Node) (s : PlayerSide) (δ : Int) :
    (n.addUnits s δ).scale = ⟨n.scale.balance + signed (s, δ), n.scale.holder⟩ := by
  rw [scale, getMobileCount_addUnits, getMobileCount_addUnits, getGarrisonCount_addUnits,
    getGarrisonCount_addUnits, scale, Scale.mk.injEq]
  refine ⟨?_, rfl⟩
  cases s with
  | a => rw [if_pos rfl, if_neg (by decide)]; dsimp only [signed]; omega
  | b => rw [if_pos rfl, if_neg (by decide)]; dsimp only [signed]; omega

/-- A passage with units moves the balance. -/
theorem signed_ne_zero {s : PlayerSide} {δ : Int} (h : δ ≠ 0) : signed (s, δ) ≠ 0 := by
  cases s with
  | a => exact h
  | b => exact Int.neg_ne_zero.mpr h

/-- One departure keeps the invariant, and moves the scale of a supply line. -/
theorem sound_departed {n : Node} (h : NodeSound n) {s : PlayerSide} {c : Int} (hc : 1 ≤ c)
    (hpos : ∀ t, 0 ≤ (n.departed s c).getMobileCount t) : NodeSound (n.departed s c) ∧
      (n.type = .supplyLine → (n.departed s c).scale = n.scale.move (-signed (s, c))) := by
  let m : Node := (n.addUnits s (-c)).announce c
  have hg : m.Garrisoned := garrisoned_addUnits h.garrisoned s (-c)
  have hmobile : ∀ t, 0 ≤ m.getMobileCount t := fun t => by
    have := hpos t
    rwa [departed, (sameBase_updateOwnership _).mobile] at this
  obtain ⟨hsound, hscale⟩ := sound_updateOwnership hg hmobile
  refine ⟨hsound, fun ht => ?_⟩
  have hm : m.scale = ⟨n.scale.balance + signed (s, -c), n.scale.holder⟩ := scale_addUnits n s (-c)
  have hsigned : signed (s, -c) = -signed (s, c) := by
    cases s with
    | a => rfl
    | b => rfl
  have hne : -signed (s, c) ≠ 0 := Int.neg_ne_zero.mpr (signed_ne_zero (by omega))
  rw [departed, hscale ht, hm, hsigned, Scale.move_of_ne hne]

/-- One arrival keeps the invariant, and moves the scale of a supply line. -/
theorem sound_arrived {n : Node} (h : NodeSound n) {s : PlayerSide} {c : Int} (hc : 1 ≤ c)
    (hpos : ∀ t, 0 ≤ n.getMobileCount t) : NodeSound (n.arrived s c) ∧
      (n.type = .supplyLine → (n.arrived s c).scale = n.scale.move (signed (s, c))) := by
  have hg : (n.addUnits s c).Garrisoned := garrisoned_addUnits h.garrisoned s c
  have hmobile : ∀ t, 0 ≤ (n.addUnits s c).getMobileCount t := fun t => by
    have := hpos t
    rw [getMobileCount_addUnits]
    split <;> omega
  obtain ⟨hsound, hscale⟩ := sound_updateOwnership hg hmobile
  have hact : n.arrived s c = (n.addUnits s c).updateOwnership :=
    activate_of_garrisoned hsound.garrisoned
  rw [hact]
  refine ⟨hsound, fun ht => ?_⟩
  rw [hscale ht, scale_addUnits, Scale.move_of_ne (signed_ne_zero (by omega))]

/-- A list of departures that the node can pay keeps the invariant. -/
theorem sound_departAll {ps : List Passage} (hps : ∀ p ∈ ps, 1 ≤ p.2) :
    ∀ {n : Node}, NodeSound n → (∀ s, passing s ps ≤ n.getMobileCount s) →
      NodeSound (n.departAll ps) ∧ (n.type = .supplyLine →
        (n.departAll ps).scale = n.scale.moves (ps.map fun p => -signed p)) := by
  induction ps with
  | nil => exact fun h _ => ⟨h, fun _ => rfl⟩
  | cons p ps ih =>
    intro n h hpay
    have hrest : ∀ q ∈ ps, 1 ≤ q.2 := fun q hq => hps q (List.mem_cons_of_mem _ hq)
    have hbase := recount_departed n p.1 p.2
    -- what has been paid for the first departure is not asked for again
    have hpay' : ∀ s, passing s ps ≤ (n.departed p.1 p.2).getMobileCount s := fun s => by
      have hs := hpay s
      rw [passing_cons] at hs
      rw [hbase.mobile]
      rcases em (p.1 = s) with heq | hne
      · rw [if_pos heq] at hs
        rw [if_pos heq.symm]
        omega
      · rw [if_neg hne] at hs
        rw [if_neg fun h' => hne h'.symm]
        omega
    have hpos : ∀ s, 0 ≤ (n.departed p.1 p.2).getMobileCount s := fun s =>
      Int.le_trans (passing_nonneg hrest s) (hpay' s)
    obtain ⟨hsound, hscale⟩ := sound_departed h (hps p List.mem_cons_self) hpos
    obtain ⟨hall, hmoves⟩ := ih hrest hsound hpay'
    refine ⟨hall, fun ht => ?_⟩
    show ((n.departed p.1 p.2).departAll ps).scale = _
    rw [hmoves (hbase.type.trans ht), hscale ht]
    rfl

/-- A list of arrivals keeps the invariant. -/
theorem sound_arriveAll {ps : List Passage} (hps : ∀ p ∈ ps, 1 ≤ p.2) :
    ∀ {n : Node}, NodeSound n → (∀ s, 0 ≤ n.getMobileCount s) →
      NodeSound (n.arriveAll ps) ∧ (n.type = .supplyLine →
        (n.arriveAll ps).scale = n.scale.moves (ps.map signed)) := by
  induction ps with
  | nil => exact fun h _ => ⟨h, fun _ => rfl⟩
  | cons p ps ih =>
    intro n h hpos
    have hp := hps p List.mem_cons_self
    have hbase := recount_arrived n p.1 p.2
    have hpos' : ∀ s, 0 ≤ (n.arrived p.1 p.2).getMobileCount s := fun s => by
      have := hpos s
      rw [hbase.mobile]
      split <;> omega
    obtain ⟨hsound, hscale⟩ := sound_arrived h hp hpos
    obtain ⟨hall, hmoves⟩ := ih (fun q hq => hps q (List.mem_cons_of_mem _ hq)) hsound hpos'
    refine ⟨hall, fun ht => ?_⟩
    show ((n.arrived p.1 p.2).arriveAll ps).scale = _
    rw [hmoves (hbase.type.trans ht), hscale ht]
    rfl

end Node
end HexWar
