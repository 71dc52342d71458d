/-
  A node of the map: the units of both sides on it, and who owns it.

  `arriveMobileUnits` and `departMobileUnits` change a side's mobile units and then recompute the
  owner on the spot; on a supply line that recomputation also creates and deletes garrisons, which
  the NEXT recomputation counts.  Both throw before they change anything, so they are
  `Except`-valued functions of the node.  `arrived` and `departed` are what they do when they do not
  throw (`arriveMobileUnits_ok`, `departMobileUnits_ok`); the lemmas after them say, once for both,
  what such a change does to each field (`recount`).

  `Garrisoned` is the invariant of the supply line: a side has its one garrison exactly where it owns
  a supply line.  Under it a node is its mobile counts and its owner (`eq_of_counts`), and the owner
  follows the rule `recount_ownership`.
-/
import HexWar.Domain.Basic

namespace HexWar

/-! ## Units on a node -/

/-- The units of one side on a node: those that can move, and the fixed garrison. -/
structure UnitGroup where
  side : PlayerSide
  mobileCount : Int
  garrisonCount : Int
deriving DecidableEq, Repr

namespace UnitGroup

/-- The units of both kinds. -/
def totalCount (g : UnitGroup) : Int := g.mobileCount + g.garrisonCount

/-- The group a side starts with on every node. -/
def new (side : PlayerSide) : UnitGroup := ⟨side, 0, 0⟩

/-- A side gains mobile units; a negative number is refused. -/
def addMobile (g : UnitGroup) (count : Int) : Except GameError UnitGroup :=
  if count < 0 then .error (.argument "Count cannot be negative")
  else .ok { g with mobileCount := g.mobileCount + count }

/-- It loses some; more than there are is refused. -/
def removeMobile (g : UnitGroup) (count : Int) : Except GameError UnitGroup :=
  if count > g.mobileCount then
    .error (.invalidOperation
      s!"Not enough mobile units. Have: {g.mobileCount}, Remove: {count}")
  else .ok { g with mobileCount := g.mobileCount - count }

def setGarrison (g : UnitGroup) (count : Int) : UnitGroup := { g with garrisonCount := max 0 count }

end UnitGroup

/-! ## The node -/

/-- A departure, as shown to the opponent during the round. -/
structure DepartureAnnouncement where
  fromNode : NodeId
  unitCount : Int
deriving DecidableEq, Repr

/-- A node of the map, with the units of both sides on it. -/
structure Node where
  id : NodeId
  name : String
  type : NodeType
  ownership : NodeOwnership
  units : PerSide UnitGroup
  neighbors : List NodeId
  recentDepartures : List DepartureAnnouncement
deriving DecidableEq, Repr

/-- The owner that two totals give a node. -/
def ownerByCount (countA countB : Int) : NodeOwnership :=
  if countA = 0 ∧ countB = 0 then .neutral
  else if countA > countB then .playerA
  else if countA < countB then .playerB
  else .contested

namespace Node

def new (id : NodeId) (name : String) (type : NodeType) : Node where
  id := id
  name := name
  type := type
  ownership := .neutral
  units := ⟨UnitGroup.new .a, UnitGroup.new .b⟩
  neighbors := []
  recentDepartures := []

def isHeadquarters (n : Node) : Bool := n.type = .headquarters

def isSupplyLine (n : Node) : Bool := n.type = .supplyLine

def getMobileCount (n : Node) (side : PlayerSide) : Int := (n.units.get side).mobileCount

def getTotalCount (n : Node) (side : PlayerSide) : Int := (n.units.get side).totalCount

def getGarrisonCount (n : Node) (side : PlayerSide) : Int := (n.units.get side).garrisonCount

/-- Set the garrison of a side. -/
def setGarrison (n : Node) (side : PlayerSide) (count : Int) : Node :=
  { n with units := n.units.update side (·.setGarrison count) }

/-- Give the owner of a supply line its garrison. -/
def activateSupplyLineIfNeeded (n : Node) : Node :=
  if ¬ n.isSupplyLine then n
  else if n.ownership = .playerA then n.setGarrison .a 1
  else if n.ownership = .playerB then n.setGarrison .b 1
  else n

/-- Take the garrison from a side that is not the owner. -/
def dropGarrison (n : Node) (side : PlayerSide) : Node :=
  if n.ownership ≠ .fromPlayerSide side then n.setGarrison side 0 else n

/-- Take the garrisons that a supply line's owner does not have. -/
def deactivateSupplyLine (n : Node) : Node :=
  if ¬ n.isSupplyLine then n else (n.dropGarrison .a).dropGarrison .b

/-- Recompute the owner, and what hangs on it, from the units. -/
def updateOwnership (n : Node) : Node :=
  if n.isHeadquarters then { n with ownership := .neutral }
  else
    let n' := { n with ownership := ownerByCount (n.getTotalCount .a) (n.getTotalCount .b) }
    if n.ownership ≠ n'.ownership then n'.deactivateSupplyLine.activateSupplyLineIfNeeded
    else n'

/-- Units of a side come to a node. -/
def arriveMobileUnits (n : Node) (side : PlayerSide) (count : Int) : Except GameError Node :=
  if count ≤ 0 then .error (.argument "Unit count must be positive")
  else match (n.units.get side).addMobile count with
    | .error e => .error e
    | .ok group =>
      let n' : Node := { n with units := n.units.set side group }
      .ok n'.updateOwnership.activateSupplyLineIfNeeded

/-- Returns the number of units that left, with the node they left behind. -/
def departMobileUnits (n : Node) (side : PlayerSide) (requested : Int) :
    Except GameError (Int × Node) :=
  let available := n.getMobileCount side
  let actual := min requested available
  if actual ≤ 0 then
    .error (.invalidOperation s!"No mobile units at node {n.id} for {side}")
  else match (n.units.get side).removeMobile actual with
    | .error e => .error e
    | .ok group =>
      let n' : Node := { n with
        units := n.units.set side group
        recentDepartures := n.recentDepartures ++ [⟨n.id, actual⟩] }
      .ok (actual, n'.updateOwnership)

/-- Forget who left in the last round. -/
def clearDepartureHistory (n : Node) : Node := { n with recentDepartures := [] }

/-! ## What an arrival and a departure do when they do not throw -/

/-- The node with a side's mobile units changed by `delta`. -/
def addUnits (n : Node) (side : PlayerSide) (delta : Int) : Node :=
  { n with units := n.units.update side fun g => { g with mobileCount := g.mobileCount + delta } }

/-- The node after `count` units of `side` have arrived. -/
def arrived (n : Node) (side : PlayerSide) (count : Int) : Node :=
  (n.addUnits side count).updateOwnership.activateSupplyLineIfNeeded

/-- The node with a departure announced on it. -/
def announce (n : Node) (count : Int) : Node :=
  { n with recentDepartures := n.recentDepartures ++ [⟨n.id, count⟩] }

/-- The node after `count` units of `side` have left. -/
def departed (n : Node) (side : PlayerSide) (count : Int) : Node :=
  ((n.addUnits side (-count)).announce count).updateOwnership

/-- An arrival of units goes through. -/
theorem arriveMobileUnits_ok {count : Int} (h : 0 < count) (n : Node) (side : PlayerSide) :
    n.arriveMobileUnits side count = .ok (n.arrived side count) := by
  rw [arriveMobileUnits, if_neg (by omega), UnitGroup.addMobile, if_neg (by omega)]
  rfl

/-- A departure of units that are there goes through, with the number that was asked for. -/
theorem departMobileUnits_ok {n : Node} {side : PlayerSide} {count : Int} (h : 0 < count)
    (havail : count ≤ n.getMobileCount side) :
    n.departMobileUnits side count = .ok (count, n.departed side count) := by
  have hmin : min count (n.getMobileCount side) = count := Int.min_eq_left havail
  have hle : ¬ count > (n.units.get side).mobileCount := Int.not_lt.mpr havail
  rw [departMobileUnits]
  simp only [hmin]
  rw [if_neg (by omega), UnitGroup.removeMobile, if_neg hle]
  rfl

/-! ## The fields that a recomputation of the owner leaves alone -/

/-- Two nodes agree on everything but the owner, the garrisons and the departure list. -/
structure SameBase (n n' : Node) : Prop where
  id : n'.id = n.id
  name : n'.name = n.name
  type : n'.type = n.type
  neighbors : n'.neighbors = n.neighbors
  side : ∀ s, (n'.units.get s).side = (n.units.get s).side
  mobile : ∀ s, n'.getMobileCount s = n.getMobileCount s

/-- A node has its own base, -/
theorem SameBase.refl (n : Node) : SameBase n n :=
  ⟨rfl, rfl, rfl, rfl, fun _ => rfl, fun _ => rfl⟩

/-- and so has what comes of it in two steps. -/
theorem SameBase.trans {n₁ n₂ n₃ : Node} (h : SameBase n₁ n₂) (h' : SameBase n₂ n₃) :
    SameBase n₁ n₃ :=
  ⟨h'.id.trans h.id, h'.name.trans h.name, h'.type.trans h.type, h'.neighbors.trans h.neighbors,
    fun s => (h'.side s).trans (h.side s), fun s => (h'.mobile s).trans (h.mobile s)⟩

/-- Each part of the recomputation of the owner leaves the base alone: setting a garrison, -/
theorem sameBase_setGarrison (n : Node) (t : PlayerSide) (k : Int) :
    SameBase n (n.setGarrison t k) := by
  refine ⟨rfl, rfl, rfl, rfl, fun s => ?_, fun s => ?_⟩
  · cases s <;> cases t <;> rfl
  · cases s <;> cases t <;> rfl

/-- activating the supply line, -/
theorem sameBase_activate (n : Node) : SameBase n n.activateSupplyLineIfNeeded := by
  rw [activateSupplyLineIfNeeded]
  split
  · exact SameBase.refl n
  · split
    · exact sameBase_setGarrison n .a 1
    · split
      · exact sameBase_setGarrison n .b 1
      · exact SameBase.refl n

/-- dropping a garrison, -/
theorem sameBase_dropGarrison (n : Node) (s : PlayerSide) : SameBase n (n.dropGarrison s) := by
  rw [dropGarrison]
  split
  · exact sameBase_setGarrison n s 0
  · exact SameBase.refl n

/-- deactivating the supply line, -/
theorem sameBase_deactivate (n : Node) : SameBase n n.deactivateSupplyLine := by
  rw [deactivateSupplyLine]
  split
  · exact SameBase.refl n
  · exact (sameBase_dropGarrison n .a).trans (sameBase_dropGarrison _ .b)

/-- Setting the owner is no change of the base. -/
theorem sameBase_ownership (n : Node) (o : NodeOwnership) :
    SameBase n { n with ownership := o } :=
  ⟨rfl, rfl, rfl, rfl, fun _ => rfl, fun _ => rfl⟩

/-- and so the whole of it. -/
theorem sameBase_updateOwnership (n : Node) : SameBase n n.updateOwnership := by
  rw [updateOwnership]
  split
  · exact sameBase_ownership n _
  · simp only
    split
    · exact ((sameBase_ownership n _).trans (sameBase_deactivate _)).trans (sameBase_activate _)
    · exact sameBase_ownership n _

/-! ## One rule for arrivals and departures -/

/-- A recount of the node after a side's mobile units changed by `delta`: what an arrival
    (`delta > 0`) and a departure (`delta < 0`) have in common. -/
structure Recount (n : Node) (side : PlayerSide) (delta : Int) (n' : Node) : Prop where
  id : n'.id = n.id
  name : n'.name = n.name
  type : n'.type = n.type
  neighbors : n'.neighbors = n.neighbors
  mobile : ∀ s, n'.getMobileCount s = n.getMobileCount s + (if s = side then delta else 0)

/-- Adding units changes the count of one side. -/
theorem getMobileCount_addUnits (n : Node) (side s : PlayerSide) (delta : Int) :
    (n.addUnits side delta).getMobileCount s =
      n.getMobileCount s + (if s = side then delta else 0) := by
  by_cases h : s = side
  · subst h
    rw [if_pos rfl, getMobileCount, addUnits, PerSide.get_update_same]
    rfl
  · rw [if_neg h, getMobileCount, addUnits, PerSide.get_update_of_ne _ h, Int.add_zero]
    rfl

/-- So what only recomputes the owner after it is a recount. -/
theorem SameBase.recount {n n' : Node} {side : PlayerSide} {delta : Int}
    (h : SameBase (n.addUnits side delta) n') : Recount n side delta n' :=
  ⟨h.id, h.name, h.type, h.neighbors,
    fun s => (h.mobile s).trans (getMobileCount_addUnits n side s delta)⟩

/-- An arrival is a recount that adds, -/
theorem recount_arrived (n : Node) (side : PlayerSide) (count : Int) :
    Recount n side count (n.arrived side count) :=
  ((sameBase_updateOwnership _).trans (sameBase_activate _)).recount

/-- and a departure one that takes away. -/
theorem recount_departed (n : Node) (side : PlayerSide) (count : Int) :
    Recount n side (-count) (n.departed side count) := by
  have hann : SameBase (n.addUnits side (-count)) ((n.addUnits side (-count)).announce count) :=
    ⟨rfl, rfl, rfl, rfl, fun _ => rfl, fun _ => rfl⟩
  exact (hann.trans (sameBase_updateOwnership _)).recount

end Node
end HexWar
