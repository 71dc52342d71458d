/-
  The enumerations and value objects of the game.

  A side's two copies of something (its units on a node, its reserved moves, its decision on an
  encounter) are a `PerSide`: a dictionary keyed by `PlayerSide` in which both keys are always
  present.  An `EdgeId` names an UNDIRECTED edge: its constructor orders the two nodes, and the
  field `ordered` keeps that order, so two ids of one edge are equal whichever end came first.
-/
import Mathlib.Data.List.Basic

namespace HexWar

/-! ## Enumerations -/

/-- The two players of a game. -/
inductive PlayerSide where
  | a
  | b
deriving DecidableEq, Repr

/-- The opponent of a side. -/
def PlayerSide.enemy : PlayerSide → PlayerSide
  | .a => .b
  | .b => .a

@[simp] theorem PlayerSide.enemy_ne (s : PlayerSide) : s.enemy ≠ s := by
  cases s <;> decide

theorem PlayerSide.ne_iff_eq_enemy {s t : PlayerSide} : t ≠ s ↔ t = s.enemy := by
  cases s <;> cases t <;> decide

instance decidableForallSide {p : PlayerSide → Prop} [∀ s, Decidable (p s)] :
    Decidable (∀ s, p s) :=
  decidable_of_iff (p .a ∧ p .b)
    ⟨fun h s => match s with | .a => h.1 | .b => h.2, fun h => ⟨h .a, h .b⟩⟩

instance : ToString PlayerSide := ⟨fun | .a => "A" | .b => "B"⟩

/-- Who holds a node.  It is kept on the node, and counted anew when units leave or arrive. -/
inductive NodeOwnership where
  | neutral
  | playerA
  | playerB
  /-- A tie. -/
  | contested
deriving DecidableEq, Repr

instance : ToString NodeOwnership :=
  ⟨fun | .neutral => "Neutral" | .playerA => "PlayerA" | .playerB => "PlayerB"
       | .contested => "Contested"⟩

/-- The ownership that a side's possession of a node has. -/
def NodeOwnership.fromPlayerSide : PlayerSide → NodeOwnership
  | .a => .playerA
  | .b => .playerB

/-- What a node is good for.  The type is fixed with the map. -/
inductive NodeType where
  | outPost
  | chokepoint
  /-- Holding it brings one garrison that cannot move. -/
  | supplyLine
  /-- Cannot be owned; a unit on it sees the whole map. -/
  | headquarters
deriving DecidableEq, Repr

instance : ToString NodeType :=
  ⟨fun | .outPost => "OutPost" | .chokepoint => "Chokepoint" | .supplyLine => "SupplyLine"
       | .headquarters => "Headquarters"⟩

/-- Where a game is.  `resolution` is the phase of a room while a round is being resolved. -/
inductive GamePhase where
  | watingForPlayers
  | planning
  | resolution
  | gameOver
deriving DecidableEq, Repr

instance : ToString GamePhase :=
  ⟨fun | .watingForPlayers => "WatingForPlayers" | .planning => "Planning"
       | .resolution => "Resolution" | .gameOver => "GameOver"⟩

/-- What a side does with its units that have met the enemy on an edge. -/
inductive EncounterDecision where
  | advance
  | retreat
deriving DecidableEq, Repr

instance : ToString EncounterDecision := ⟨fun | .advance => "Advance" | .retreat => "Retreat"⟩

/-- Why a game has ended.  Nothing in the source gives the last of the four. -/
inductive GameOverReason where
  | allNodesCaptured
  | maxRoundsReached
  | playerDisconnected
  | playerSurrendered
deriving DecidableEq, Repr

/-! ## Errors -/

/-- The exceptions a game operation throws, with the text the source gives them. -/
inductive GameError where
  | domain (message : String)
  | invalidOperation (message : String)
  | argument (message : String)
  /-- A dictionary was indexed with an absent key. -/
  | keyNotFound (key : String)
deriving DecidableEq, Repr

/-! ## Value objects -/

/-- Milliseconds since some fixed instant. -/
abbrev Time := Int

structure PlayerId where
  value : String
deriving DecidableEq, Repr

structure NodeId where
  value : Int
deriving DecidableEq, Repr

instance : ToString NodeId := ⟨fun n => s!"N{n.value}"⟩

structure Distance where
  roundsRequired : Int
deriving DecidableEq, Repr

/-- The name of an undirected edge: its two nodes, the smaller first. -/
structure EdgeId where
  fromNode : NodeId
  toNode : NodeId
  ordered : fromNode.value ≤ toNode.value
deriving DecidableEq, Repr

namespace EdgeId

/-- The id of the edge between two nodes, in whichever order they come. -/
def of (fromNode toNode : NodeId) : EdgeId :=
  if h : fromNode.value < toNode.value then ⟨fromNode, toNode, Int.le_of_lt h⟩
  else ⟨toNode, fromNode, Int.not_lt.mp h⟩

/-- The name of the edge as it is sent to a client and stored. -/
def key (e : EdgeId) : String := s!"{e.fromNode.value}-{e.toNode.value}"

instance : ToString EdgeId := ⟨key⟩

/-- The other end of the edge. -/
def getOppositeNode (e : EdgeId) (nodeId : NodeId) : Except GameError NodeId :=
  if nodeId = e.fromNode then .ok e.toNode
  else if nodeId = e.toNode then .ok e.fromNode
  else .error (.argument s!"Node {nodeId} is not part of edge {e}")

/-- The two nodes of an edge. -/
def IsEnd (e : EdgeId) (n : NodeId) : Prop := n = e.fromNode ∨ n = e.toNode

instance (e : EdgeId) (n : NodeId) : Decidable (e.IsEnd n) := inferInstanceAs (Decidable (_ ∨ _))

@[ext] theorem ext {e e' : EdgeId} (hf : e.fromNode = e'.fromNode) (ht : e.toNode = e'.toNode) :
    e = e' := by
  cases e; cases e'; cases hf; cases ht; rfl

theorem isEnd_of (m n : NodeId) : (of m n).IsEnd m ∧ (of m n).IsEnd n := by
  rw [of]
  split
  · exact ⟨Or.inl rfl, Or.inr rfl⟩
  · exact ⟨Or.inr rfl, Or.inl rfl⟩

end EdgeId

/-! ## One value for each side -/

/-- A dictionary over the two sides, both always present. -/
structure PerSide (α : Type) where
  a : α
  b : α
deriving DecidableEq, Repr

namespace PerSide

variable {α β : Type}

/-- What the dictionary holds for a side. -/
def get (p : PerSide α) : PlayerSide → α
  | .a => p.a
  | .b => p.b

/-- The dictionary with another value for one side. -/
def set (p : PerSide α) : PlayerSide → α → PerSide α
  | .a, x => { p with a := x }
  | .b, x => { p with b := x }

/-- The same value for both sides. -/
def both (x : α) : PerSide α := ⟨x, x⟩

/-- Apply `f` to a side's value. -/
def update (p : PerSide α) (s : PlayerSide) (f : α → α) : PerSide α := p.set s (f (p.get s))

@[simp] theorem get_both (x : α) (s : PlayerSide) : (both x).get s = x := by cases s <;> rfl

@[simp] theorem get_set_same (p : PerSide α) (s : PlayerSide) (x : α) : (p.set s x).get s = x := by
  cases s <;> rfl

@[simp] theorem get_set_enemy (p : PerSide α) (s : PlayerSide) (x : α) :
    (p.set s x).get s.enemy = p.get s.enemy := by
  cases s <;> rfl

theorem get_set_of_ne (p : PerSide α) {s t : PlayerSide} (h : t ≠ s) (x : α) :
    (p.set s x).get t = p.get t := by
  rw [PlayerSide.ne_iff_eq_enemy.mp h, get_set_enemy]

@[simp] theorem get_update_same (p : PerSide α) (s : PlayerSide) (f : α → α) :
    (p.update s f).get s = f (p.get s) := get_set_same p s _

theorem get_update_of_ne (p : PerSide α) {s t : PlayerSide} (h : t ≠ s) (f : α → α) :
    (p.update s f).get t = p.get t := get_set_of_ne p h _

theorem ext_get {p q : PerSide α} (h : ∀ s, p.get s = q.get s) : p = q := by
  have ha : p.a = q.a := h .a
  have hb : p.b = q.b := h .b
  cases p; cases q; cases ha; cases hb; rfl

theorem set_comm (p : PerSide α) (x y : α) {s t : PlayerSide} (h : s ≠ t) :
    (p.set s x).set t y = (p.set t y).set s x := by
  cases s <;> cases t
  · exact absurd rfl h
  · rfl
  · rfl
  · exact absurd rfl h

end PerSide
end HexWar
