/-
  The moves a client shows before the server has confirmed them.

  executeMoveTo keeps each move it sends in a list of optimistic moves.  When a view comes from the
  server, handleStateUpdate drops the moves that are in the view already, and shows the others as if
  they were: they are added to the pending moves, and their units taken from those that remain.

  A move has no name: whether it has arrived is looked up by its route and its count.  So ONE move in
  the view stands for every optimistic move that is equal to it, those that have not arrived and those
  whose double was confirmed earlier in the round included (`countsOnce_iff`).


  What the server sends and what is shown are two types, so that a move of the copy still says where it
  came from.  The lists are compared as multisets: the order in which moves are shown is not a matter
  of counting them.
-/
import HexWar.Domain.Calls
import HexWar.Lib.Runs
import HexWar.Session.GameStateView
import Mathlib.Algebra.BigOperators.Group.Multiset.Basic
import Mathlib.Algebra.Order.BigOperators.Group.List

namespace HexWar

open Lib

/-! ## The client's data

The fields of a view that optimistic moves touch, and those of the page that are read or written
with them. -/

/-- A node of a view: the units are missing in some. -/
structure ClientNode where
  id : Int
  myUnits : Option UnitGroupDetailView
deriving DecidableEq, Repr

/-- What of a view is changed by optimistic moves. -/
structure ClientView (Move : Type) where
  myRemainingUnits : Int
  myPendingMoves : Option (List Move)
  nodes : List ClientNode
  isMyPlanningComplete : Bool
deriving DecidableEq, Repr

/-- The view that the server sends. -/
def GameStateView.toClient (view : GameStateView) : ClientView PendingMoveView where
  myRemainingUnits := view.myRemainingUnits
  myPendingMoves := some view.myPendingMoves
  nodes := view.nodes.map fun n => ⟨n.id, some n.myUnits⟩
  isMyPlanningComplete := view.isMyPlanningComplete

/-- A move that was sent, with the time at which it was. -/
structure OptimisticMove where
  move : PendingMoveView
  timestamp : Int
  positive : 0 < move.unitCount
deriving DecidableEq, Repr

/-- A move in the list that is shown. -/
inductive ShownMove where
  | server (move : PendingMoveView)
  | optimistic (optMove : OptimisticMove)
deriving DecidableEq, Repr

/-- Both are shown alike. -/
def ShownMove.move : ShownMove → PendingMoveView
  | server move => move
  | optimistic optMove => optMove.move

/-- The controller of the page, its renderer's state and what it has sent included. -/
structure GameUI where
  /-- The moves sent and not yet confirmed, as far as the page knows; -/
  optimisticMoves : List OptimisticMove
  /-- the last view that came, as it came, -/
  stateView : Option (ClientView PendingMoveView)
  isMyPlanningComplete : Bool
  selectedFrom : Option Int
  selectedTo : Option Int
  selectedUnits : Int
  /-- and the copy of it that is drawn. -/
  shown : Option (ClientView ShownMove)
  /-- Every move that was sent, for the record. -/
  sent : List PendingMoveView
deriving DecidableEq, Repr

/-! ## handleStateUpdate

The list is filtered first, and what is left of it is put into a copy of the view. -/

/-- Is there a move of this route and count in the view? -/
def isConfirmed (state : ClientView PendingMoveView) (optMove : OptimisticMove) : Bool :=
  match state.myPendingMoves with
  | some myPendingMoves => myPendingMoves.any fun m =>
      m.fromNodeId = optMove.move.fromNodeId && m.toNodeId = optMove.move.toNodeId &&
        m.unitCount = optMove.move.unitCount
  | none => false

/-- The copy that is made of a view. -/
def ClientView.copy (state : ClientView PendingMoveView) : ClientView ShownMove where
  myRemainingUnits := state.myRemainingUnits
  myPendingMoves := state.myPendingMoves.map (·.map .server)
  nodes := state.nodes
  isMyPlanningComplete := state.isMyPlanningComplete

/-- The first node of that id, if it has units, without those of the move. -/
def takeUnits (optMove : OptimisticMove) : List ClientNode → List ClientNode
  | [] => []
  | n :: nodes =>
    if n.id = optMove.move.fromNodeId then
      { n with
        myUnits := n.myUnits.map fun u =>
          { u with
            mobile := max 0 (u.mobile - optMove.move.unitCount)
            total := max 0 (u.total - optMove.move.unitCount) } } :: nodes
    else n :: takeUnits optMove nodes

/-- An optimistic move is put into the copy. -/
def applyMove (localState : ClientView ShownMove) (optMove : OptimisticMove) :
    ClientView ShownMove where
  myRemainingUnits := max 0 (localState.myRemainingUnits - optMove.move.unitCount)
  myPendingMoves := some (localState.myPendingMoves.getD [] ++ [.optimistic optMove])
  nodes := takeUnits optMove localState.nodes
  isMyPlanningComplete := localState.isMyPlanningComplete

/-- Nothing is left to be moved. -/
def planningComplete (localState : ClientView ShownMove) : Bool :=
  localState.myRemainingUnits ≤ 0 ||
    (localState.nodes.map fun n => (n.myUnits.map (·.mobile)).getD 0).sum ≤ 0

namespace GameUI

/-- A move is dropped when it is confirmed, or three seconds old. -/
def handleStateUpdate (ui : GameUI) (now : Int) (state : ClientView PendingMoveView) : GameUI :=
  let optimisticMoves := ui.optimisticMoves.filter fun optMove =>
    !isConfirmed state optMove && now - optMove.timestamp < 3000
  -- The rest is shown as if the server had confirmed it.
  let localState := optimisticMoves.foldl applyMove state.copy
  let localState := { localState with isMyPlanningComplete := planningComplete localState }
  { ui with
    optimisticMoves := optimisticMoves
    stateView := some state
    isMyPlanningComplete := localState.isMyPlanningComplete
    shown := some localState }

/-- A move is kept, and sent. -/
def record (ui : GameUI) (optMove : OptimisticMove) : GameUI :=
  { ui with optimisticMoves := ui.optimisticMoves ++ [optMove], sent := ui.sent ++ [optMove.move] }

/-- What is shown is brought up to date with the last view. -/
def refresh (ui : GameUI) (now : Int) : GameUI :=
  match ui.stateView with
  | some state => ui.handleStateUpdate now state
  | none => ui

/-- A node whose number is 0 counts as none. -/
def executeMoveTo (ui : GameUI) (now : Int) (toNode : Int) : GameUI :=
  match ui.selectedFrom with
  | none => ui
  | some fromNode =>
    if h : fromNode ≠ 0 ∧ 0 < ui.selectedUnits then
      let moved := (ui.record ⟨⟨fromNode, toNode, ui.selectedUnits⟩, now, h.2⟩).refresh now
      { moved with selectedFrom := none, selectedTo := none, selectedUnits := 0 }
    else ui

end GameUI
/-! ## What should be shown

What the moves in the view are is for the server to say; here they are those that were confirmed and
some earlier ones. -/

/-- The moves of a view. -/
def pendingIn (state : ClientView PendingMoveView) : Multiset PendingMoveView :=
  (state.myPendingMoves.getD [] : List PendingMoveView)

/-- The moves that are shown. -/
def pendingShown (localState : ClientView ShownMove) : Multiset PendingMoveView :=
  ((localState.myPendingMoves.getD []).map (·.move) : List PendingMoveView)

/-- The moves of the optimistic list. -/
def GameUI.optimistic (ui : GameUI) : Multiset PendingMoveView :=
  (ui.optimisticMoves.map (·.move) : List PendingMoveView)

/-- Their units. -/
def unitsOf (moves : Multiset PendingMoveView) : Int := (moves.map (·.unitCount)).sum

/-- **Each move counts once**: shown are the server's moves and the unconfirmed ones, and there remain
    the units that the server leaves without those of the unconfirmed moves. -/
structure CountsOnce (ui : GameUI) (state : ClientView PendingMoveView)
    (unconfirmed : Multiset PendingMoveView) : Prop where
  /-- Shown are the moves of the view and the unconfirmed ones, -/
  pending : ui.shown.map pendingShown = some (pendingIn state + unconfirmed)
  /-- and their units are taken from what the view leaves. -/
  remaining : ui.shown.map (·.myRemainingUnits) =
    some (max 0 (state.myRemainingUnits - unitsOf unconfirmed))

/-- **The condition**: no unconfirmed move is equal to a move of the view; and if every move is
    confirmed, what the server says to remain is not negative. -/
structure Distinguishable (state : ClientView PendingMoveView)
    (unconfirmed : Multiset PendingMoveView) : Prop where
  pending : ∀ m ∈ unconfirmed, m ∉ pendingIn state
  remaining : unconfirmed = 0 → 0 ≤ state.myRemainingUnits

/-! ## Taking out what is there

The general fact about multisets behind the claim that one move in the view stands for all its
equals. -/

/-- To take out whatever is in `there` is to take out, one for one, those of `part` that are there,
    exactly if none of the others is. -/
theorem filter_notMem_eq_sub_iff {α : Type} [DecidableEq α] {whole part there : Multiset α}
    (hpart : part ≤ whole) (hthere : part ≤ there) :
    whole.filter (· ∉ there) = whole - part ↔ ∀ m ∈ whole - part, m ∉ there := by
  constructor
  · intro h m hm
    rw [← h] at hm
    exact (Multiset.mem_filter.mp hm).2
  · intro h
    have hnone : part.filter (· ∉ there) = 0 := by
      refine Multiset.filter_eq_nil.mpr fun m hm => ?_
      exact not_not_intro (Multiset.mem_of_le hthere hm)
    have hall : (whole - part).filter (· ∉ there) = whole - part := Multiset.filter_eq_self.mpr h
    calc whole.filter (· ∉ there)
        = (part + (whole - part)).filter (· ∉ there) := by rw [add_tsub_cancel_of_le hpart]
      _ = whole - part := by rw [Multiset.filter_add, hnone, hall, zero_add]

/-! ## What is shown

The list and the number of units, each followed through the fold. -/

/-- A move is taken for confirmed when the view has one that is equal to it. -/
theorem isConfirmed_iff (state : ClientView PendingMoveView) (optMove : OptimisticMove) :
    isConfirmed state optMove = true ↔ optMove.move ∈ pendingIn state := by
  obtain ⟨⟨fromNodeId, toNodeId, unitCount⟩, timestamp, positive⟩ := optMove
  rw [isConfirmed, pendingIn, Multiset.mem_coe]
  cases state.myPendingMoves with
  | none => exact iff_of_false Bool.false_ne_true List.not_mem_nil
  | some myPendingMoves =>
    rw [List.any_eq_true]
    constructor
    · rintro ⟨⟨from', to', count'⟩, hm, hsame⟩
      simp only [Bool.and_eq_true, decide_eq_true_eq] at hsame
      obtain ⟨⟨rfl, rfl⟩, rfl⟩ := hsame
      exact hm
    · intro hm
      exact ⟨_, hm, by simp only [decide_true, Bool.and_self]⟩

/-- The copy shows what the view has, -/
theorem pendingShown_copy (state : ClientView PendingMoveView) :
    pendingShown state.copy = pendingIn state := by
  rw [pendingShown, pendingIn, ClientView.copy]
  cases state.myPendingMoves with
  | none => rfl
  | some myPendingMoves =>
    show ((myPendingMoves.map ShownMove.server).map (·.move) : Multiset PendingMoveView) = _
    rw [List.map_map]
    exact congrArg _ (List.map_id _)

/-- and with an optimistic move that one as well. -/
theorem pendingShown_applyMove (localState : ClientView ShownMove) (optMove : OptimisticMove) :
    pendingShown (applyMove localState optMove) = pendingShown localState + {optMove.move} := by
  show (((localState.myPendingMoves.getD [] ++ [ShownMove.optimistic optMove]).map ShownMove.move :
    List PendingMoveView) : Multiset PendingMoveView) = _
  rw [List.map_append, ← Multiset.coe_add]
  rfl

/-- The moves that are put into the copy are added to its list. -/
theorem foldl_applyMove_pending (optMoves : List OptimisticMove) :
    ∀ localState : ClientView ShownMove, pendingShown (optMoves.foldl applyMove localState) =
      pendingShown localState + (optMoves.map (·.move) : List PendingMoveView) := by
  induction optMoves with
  | nil => intro localState; exact (add_zero _).symm
  | cons optMove optMoves ih =>
    intro localState
    rw [List.foldl_cons, ih, pendingShown_applyMove, add_assoc, List.map_cons, ← Multiset.cons_coe,
      Multiset.singleton_add]

/-- The units of the moves are no fewer than none. -/
theorem sum_units_nonneg (optMoves : List OptimisticMove) :
    0 ≤ (optMoves.map (·.move.unitCount)).sum := by
  refine List.sum_nonneg fun count hcount => ?_
  obtain ⟨optMove, -, rfl⟩ := List.mem_map.mp hcount
  exact Int.le_of_lt optMove.positive

/-- Their units are taken all at once, if there are any. -/
theorem foldl_applyMove_remaining (optMoves : List OptimisticMove) :
    ∀ localState : ClientView ShownMove, (optMoves.foldl applyMove localState).myRemainingUnits =
      if optMoves = [] then localState.myRemainingUnits
      else max 0 (localState.myRemainingUnits - (optMoves.map (·.move.unitCount)).sum) := by
  induction optMoves with
  | nil => intro localState; rfl
  | cons optMove optMoves ih =>
    intro localState
    rw [List.foldl_cons, ih, if_neg (List.cons_ne_nil _ _), List.map_cons, List.sum_cons]
    show (if optMoves = [] then max 0 (localState.myRemainingUnits - optMove.move.unitCount) else
      max 0 (max 0 (localState.myRemainingUnits - optMove.move.unitCount) -
        (optMoves.map (·.move.unitCount)).sum)) = _
    have hrest := sum_units_nonneg optMoves
    split
    · rename_i hnone
      rw [hnone, List.map_nil, List.sum_nil, Int.add_zero]
    · omega

section Update

variable {ui : GameUI} {now : Int} {s : ClientView PendingMoveView}

/-- The optimistic moves that a view leaves. -/
def GameUI.kept (ui : GameUI) (now : Int) (state : ClientView PendingMoveView) : List OptimisticMove :=
  (ui.handleStateUpdate now state).optimisticMoves

/-- Of young moves it leaves those of which it has no equal. -/
theorem coe_kept (hyoung : ∀ optMove ∈ ui.optimisticMoves, now - optMove.timestamp < 3000) :
    ((ui.kept now s).map (·.move) : Multiset PendingMoveView) =
      ui.optimistic.filter (· ∉ pendingIn s) := by
  have hkept : ui.kept now s = ui.optimisticMoves.filter (·.move ∉ pendingIn s) := by
    refine List.filter_congr fun optMove hmem => ?_
    rw [decide_eq_true (hyoung optMove hmem), Bool.and_true]
    cases hconfirmed : isConfirmed s optMove with
    | true => exact (decide_eq_false (not_not_intro ((isConfirmed_iff s optMove).mp hconfirmed))).symm
    | false =>
      have hnot : optMove.move ∉ pendingIn s := fun hthere => by
        rw [(isConfirmed_iff s optMove).mpr hthere] at hconfirmed
        cases hconfirmed
      exact (decide_eq_true hnot).symm
  rw [hkept, GameUI.optimistic, Multiset.filter_coe, List.filter_map]
  rfl

/-- So shown are the view's moves and those that were kept, -/
theorem shown_pending (ui : GameUI) (now : Int) (state : ClientView PendingMoveView) :
    (ui.handleStateUpdate now state).shown.map pendingShown =
      some (pendingIn state + ((ui.kept now state).map (·.move) : List PendingMoveView)) := by
  show some (pendingShown ((ui.kept now state).foldl applyMove state.copy)) = _
  rw [foldl_applyMove_pending, pendingShown_copy]

/-- and the units that are left are those of the view without theirs. -/
theorem shown_remaining (ui : GameUI) (now : Int) (state : ClientView PendingMoveView) :
    (ui.handleStateUpdate now state).shown.map (·.myRemainingUnits) =
      some (if ui.kept now state = [] then state.myRemainingUnits
        else max 0 (state.myRemainingUnits - ((ui.kept now state).map (·.move.unitCount)).sum)) := by
  show some ((ui.kept now state).foldl applyMove state.copy).myRemainingUnits = _
  rw [foldl_applyMove_remaining]
  rfl

/-- In terms of the moves that were kept. -/
theorem shown_remaining_of_kept {kept : Multiset PendingMoveView}
    (hkept : ((ui.kept now s).map (·.move) : List PendingMoveView) = kept) :
    (ui.handleStateUpdate now s).shown.map (·.myRemainingUnits) =
      some (if kept = 0 then s.myRemainingUnits else max 0 (s.myRemainingUnits - unitsOf kept)) := by
  have hnone : ui.kept now s = [] ↔ kept = 0 := by
    rw [← hkept, Multiset.coe_eq_zero, List.map_eq_nil_iff]
  have hunits : ((ui.kept now s).map (·.move.unitCount)).sum = unitsOf kept := by
    rw [← hkept, unitsOf, Multiset.map_coe, Multiset.sum_coe, List.map_map]
    rfl
  rw [shown_remaining, hunits]
  exact congrArg some (if_congr hnone rfl rfl)

end Update

/-- **When each move counts once.**  Of the optimistic moves, all younger than three seconds, some are
    confirmed, and the view has these and others that were confirmed earlier: what is shown is right
    exactly if the unconfirmed moves can be told from those of the view. -/
theorem countsOnce_iff (ui : GameUI) (now : Int) (state : ClientView PendingMoveView)
    (confirmed earlier : Multiset PendingMoveView)
    (hyoung : ∀ optMove ∈ ui.optimisticMoves, now - optMove.timestamp < 3000)
    (hconfirmed : confirmed ≤ ui.optimistic) (hview : pendingIn state = confirmed + earlier) :
    CountsOnce (ui.handleStateUpdate now state) state (ui.optimistic - confirmed) ↔
      Distinguishable state (ui.optimistic - confirmed) := by
  have hkept := coe_kept (s := state) hyoung
  have hsub := filter_notMem_eq_sub_iff hconfirmed
    (hview ▸ Multiset.le_add_right confirmed earlier)
  have hpending : (ui.handleStateUpdate now state).shown.map pendingShown =
      some (pendingIn state + (ui.optimistic - confirmed)) ↔
        ∀ m ∈ ui.optimistic - confirmed, m ∉ pendingIn state := by
    rw [shown_pending, hkept, Option.some_inj, add_right_inj]
    exact hsub
  constructor
  · rintro ⟨hlist, hunits⟩
    have hapart := hpending.mp hlist
    refine ⟨hapart, fun hnone => ?_⟩
    rw [shown_remaining_of_kept (hkept.trans (hsub.mpr hapart)), if_pos hnone, hnone] at hunits
    have hfloor : state.myRemainingUnits = max 0 (state.myRemainingUnits - 0) :=
      Option.some_inj.mp hunits
    omega
  · rintro ⟨hapart, hfloor⟩
    refine ⟨hpending.mpr hapart, ?_⟩
    rw [shown_remaining_of_kept (hkept.trans (hsub.mpr hapart))]
    split
    · rename_i hnone
      have hnonneg := hfloor hnone
      rw [hnone]
      show some state.myRemainingUnits = some (max 0 (state.myRemainingUnits - 0))
      rw [Int.sub_zero, Int.max_eq_right hnonneg]
    · rfl

/-! ## Moves that differ

Where players never repeat a move within a round the condition holds. -/

/-- If no two moves of the round are equal, the unconfirmed can be told from those of the view. -/
theorem distinguishable_of_nodup {moves confirmed earlier : Multiset PendingMoveView}
    {state : ClientView PendingMoveView} (hview : pendingIn state = confirmed + earlier)
    (hconfirmed : confirmed ≤ moves) (hdiffer : (moves + earlier).Nodup)
    (hunits : 0 ≤ state.myRemainingUnits) : Distinguishable state (moves - confirmed) := by
  obtain ⟨hmoves, -, hdisjoint⟩ := Multiset.nodup_add.mp hdiffer
  refine ⟨fun m hm hthere => ?_, fun _ => hunits⟩
  rw [hview, Multiset.mem_add] at hthere
  rcases hthere with hthere | hthere
  · -- it would be there twice
    have hsplit : confirmed + (moves - confirmed) = moves := add_tsub_cancel_of_le hconfirmed
    rw [← hsplit] at hmoves
    exact Multiset.disjoint_left.mp (Multiset.nodup_add.mp hmoves).2.2 hthere hm
  · exact Multiset.disjoint_left.mp hdisjoint (Multiset.mem_of_le (Multiset.sub_le_self _ _) hm) hthere

/-- What the server says to remain is never negative. -/
theorem toClient_remaining_nonneg {room : GameRoom} (h : Sound room) {side : PlayerSide}
    {planning : PlayerSessionState} {deadline : Option Time} {view : GameStateView}
    (hview : buildGameStateView room side planning deadline = .ok view) :
    0 ≤ view.toClient.myRemainingUnits := by
  have hbounded := (h.moves side).bounded
  rw [buildGameStateView] at hview
  cases hpending : room.pendingEncounters.mapM (buildPendingEncounterView room side) with
  | error err =>
    rw [hpending] at hview
    cases hview
  | ok pendingEncounters =>
    rw [hpending] at hview
    cases hview
    exact Int.sub_nonneg.mpr hbounded

/-! ## The moves that are kept were sent

The page adds a move to its list when it sends it, and never adds another. -/

/-- What happens to the page: a view comes, a node and a number of units are chosen, whatever they are,
    or a destination. -/
inductive PageEvent where
  | stateUpdate (now : Int) (state : ClientView PendingMoveView)
  | select (fromNode : Int) (units : Int)
  | moveTo (now : Int) (toNode : Int)
deriving DecidableEq, Repr

/-- What the page does when it happens. -/
def GameUI.next (ui : GameUI) : PageEvent → GameUI
  | .stateUpdate now state => ui.handleStateUpdate now state
  | .select fromNode units => { ui with selectedFrom := some fromNode, selectedUnits := units }
  | .moveTo now toNode => ui.executeMoveTo now toNode

/-- The optimistic moves are some of those that were sent, in their order. -/
def GameUI.KeepsSent (ui : GameUI) : Prop := (ui.optimisticMoves.map (·.move)).Sublist ui.sent

/-- A view only takes moves out, -/
theorem GameUI.KeepsSent.handleStateUpdate {ui : GameUI} (h : ui.KeepsSent) (now : Int)
    (state : ClientView PendingMoveView) : (ui.handleStateUpdate now state).KeepsSent :=
  (List.filter_sublist.map _).trans h

/-- a move that is sent is added to both, -/
theorem GameUI.KeepsSent.record {ui : GameUI} (h : ui.KeepsSent) (optMove : OptimisticMove) :
    (ui.record optMove).KeepsSent := by
  have hmove : ((ui.optimisticMoves ++ [optMove]).map (·.move)).Sublist
      (ui.sent ++ [optMove.move]) := by
    rw [List.map_append]
    exact h.append (List.Sublist.refl _)
  exact hmove

/-- bringing the page up to date is a view once more, -/
theorem GameUI.KeepsSent.refresh {ui : GameUI} (h : ui.KeepsSent) (now : Int) :
    (ui.refresh now).KeepsSent := by
  rw [GameUI.refresh]
  split
  · exact h.handleStateUpdate now _
  · exact h

/-- and so every event keeps the list in order. -/
theorem GameUI.KeepsSent.next {ui : GameUI} (h : ui.KeepsSent) (event : PageEvent) :
    (ui.next event).KeepsSent := by
  cases event with
  | stateUpdate now state => exact h.handleStateUpdate now state
  | select fromNode units => exact h
  | moveTo now toNode =>
    show (ui.executeMoveTo now toNode).KeepsSent
    rw [GameUI.executeMoveTo]
    split
    · exact h
    · split
      · exact (h.record _).refresh now
      · exact h

/-- The page, from its first moment on. -/
def page : Machine GameUI PageEvent :=
  ⟨⟨[], none, false, none, none, 0, none, []⟩, GameUI.next, fun _ _ => True⟩

/-- **Nothing is kept that was not sent**, in every run of the page. -/
theorem page_keepsSent {ui : GameUI} (h : page.Reachable ui) : ui.KeepsSent := by
  have hstart : page.start.KeepsSent := List.nil_sublist _
  exact h.invariant hstart fun _ event hui _ => GameUI.KeepsSent.next hui event

/-! ## A move that is sent twice -/

/-- The page after these moves were sent. -/
def pageWith (optimisticMoves : List OptimisticMove) : GameUI where
  optimisticMoves := optimisticMoves
  stateView := none
  isMyPlanningComplete := false
  selectedFrom := none
  selectedTo := none
  selectedUnits := 0
  shown := none
  sent := optimisticMoves.map (·.move)

/-- A move of one unit, sent and sent again. -/
def sentTwice : GameUI :=
  pageWith [⟨⟨1, 2, 1⟩, 0, by decide⟩, ⟨⟨1, 2, 1⟩, 500, by decide⟩]

/-- The same move, and one to another node. -/
def sentApart : GameUI :=
  pageWith [⟨⟨1, 2, 1⟩, 0, by decide⟩, ⟨⟨1, 4, 1⟩, 500, by decide⟩]

/-- The view in which the first move has arrived. -/
def oneArrived : ClientView PendingMoveView :=
  ⟨2, some [⟨1, 2, 1⟩], [⟨1, some ⟨3, 0, 3⟩⟩], false⟩

theorem sentApart_countsOnce : CountsOnce (sentApart.handleStateUpdate 1000 oneArrived) oneArrived
    (sentApart.optimistic - {⟨1, 2, 1⟩}) :=
  (countsOnce_iff sentApart 1000 oneArrived {⟨1, 2, 1⟩} 0 (by decide) (by decide) (by decide)).mpr
    ⟨by decide, by decide⟩

/-- One of the two is confirmed, and both vanish. -/
theorem second_move_vanishes : ¬ CountsOnce (sentTwice.handleStateUpdate 1000 oneArrived) oneArrived
    (sentTwice.optimistic - {⟨1, 2, 1⟩}) := by
  rintro ⟨-, hremaining⟩
  revert hremaining
  decide

end HexWar
