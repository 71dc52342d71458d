/-
  What a player can click, and what the page then sends.

  A move is put together from three clicks: on the node from which it sets out, on the node for which
  it is bound, and, any time, on a button with the number of units.  In between views come from the
  server, and each one brings the buttons up to date; so does the page itself when it has sent a move
  (`handleStateUpdate`).  Which of the buttons can be clicked decides what can be sent.

  The buttons are counted against what is shown to remain, or, once a node is chosen, against what the
  node has left in the last view.  Neither ever exceeds what that view says to remain (`Coherent`), so
  in every run no move asks for more than the last view had left (`sends_affordable`).

  The server checks more than the page: the page lets a player choose two nodes that no line joins.
  With a view that is still true that is the only thing the server can have against the first move
  (`first_move_accepted`).  A second one is checked against the same view again and may be refused.

  The development goes in five steps.

  1. The countdown, on its own: one interval at most (`Countdown.Single`).
  2. The controller with its handlers, each under the name it has in `gameUI.js`.  What only changes a
     text, a colour or a class of an element is left out, since no handler reads it again.
  3. What one view does to the page (`Updated`), and from it the invariant `Coherent`.
  4. What one click can do to what is chosen and sent (`Clicked`): five cases, whatever the handler.
     All that is said of the moves that are sent is read off from them.
  5. The server: a view shows a room (`Shows`), so what the view affords the room grants.
-/
import HexWar.Client.OptimisticMoves
import HexWar.Domain.Replay
import HexWar.Session.DomainRuns
import HexWar.Session.Secrecy

namespace HexWar

open Lib GameRoom

/-! ## The countdown -/

/-- The countdown of a round, with all the intervals that are set in the browser. -/
structure Countdown where
  timerInterval : Option Nat
  intervals : List Nat
  /-- How many intervals have been set. -/
  handles : Nat
  timeRemaining : Int
  lastPhase : Option String
  lastRound : Option Int
deriving DecidableEq, Repr

namespace Countdown

/-- The interval is cleared and its handle forgotten. -/
def stopCountdown (c : Countdown) : Countdown :=
  match c.timerInterval with
  | some handle =>
    { c with timerInterval := none, intervals := c.intervals.filter (· ≠ handle) }
  | none => c

/-- A countdown that runs is stopped first, so its interval does not go on beside the new one. -/
def startCountdown (c : Countdown) (seconds : Int) : Countdown :=
  let c := c.stopCountdown
  { c with
    timeRemaining := seconds
    timerInterval := some c.handles
    intervals := c.intervals ++ [c.handles]
    handles := c.handles + 1 }

/-- An interval has passed. -/
def tick (c : Countdown) (handle : Nat) : Countdown :=
  if handle ∈ c.intervals then
    let c := { c with timeRemaining := c.timeRemaining - 1 }
    -- at zero it stops itself, and says nothing to the server
    if c.timeRemaining ≤ 0 then c.stopCountdown else c
  else c

/-- The seconds up to the deadline, rounded. -/
def secondsLeft (deadline : Option Time) (now : Time) : Int :=
  match deadline with
  | some deadline => max 0 ((deadline - now + 500) / 1000)
  | none => 30

/-- It is started anew in a new round or phase, and otherwise set right if it is off by more than two
    seconds. -/
def follow (c : Countdown) (view : GameStateView) (now : Time) : Countdown :=
  let phaseChanged := decide (c.lastPhase ≠ some view.phase)
  let roundChanged := decide (c.lastRound ≠ some view.currentRound)
  let c := { c with lastPhase := some view.phase, lastRound := some view.currentRound }
  if view.phase = "Planning" then
    let remaining := secondsLeft view.deadline now
    -- a countdown that ran out is started anew by any view, also within a round
    if roundChanged || phaseChanged || c.timerInterval.isNone then c.startCountdown remaining
    else if |c.timeRemaining - remaining| > 2 then { c with timeRemaining := remaining }
    else c
  else c.stopCountdown

end Countdown

/-! ## The controls -/

/-- A button with a number of units. -/
structure UnitButton where
  count : Int
  disabled : Bool
deriving DecidableEq, Repr

/-- Disabled are the buttons with more units. -/
def enableUpTo (most : Int) (buttons : List UnitButton) : List UnitButton :=
  buttons.map fun btn => { btn with disabled := decide (btn.count > most) }

/-- The nodes that are drawn. -/
def nodePositions : List Int := [1, 2, 3, 4, 5, 6]

/-- The lines that are drawn. -/
def drawnEdges : List (Int × Int) :=
  [(1, 2), (1, 4), (1, 5), (1, 6), (2, 3), (2, 6), (3, 4), (3, 5), (3, 6), (4, 5), (4, 6), (5, 6)]

/-- A node of this number is chosen: 0 counts as none. -/
def isChosen : Option Int → Bool
  | some n => n ≠ 0
  | none => false

/-- The controller of the page with its controls. -/
structure GamePage extends GameUI where
  /-- The last view, all of it. -/
  view : Option GameStateView
  unitButtons : List UnitButton
  moveDisabled : Bool
  countdown : Countdown
  encounterData : Option EncounterOccurred
  encounterShown : Bool
  /-- The decisions that it has sent: the two nodes, and the decision. -/
  decisions : List (Int × Int × EncounterDecision)
deriving DecidableEq, Repr

/-- May a move set out from this node? -/
def NodeView.canSelect (node : NodeView) : Bool :=
  node.isOwnedByMe || (node.ownership.toLower = "contested" && 0 < node.myUnits.mobile)

namespace GameStateView

/-- What the moves of this view take from a node. -/
def alreadyCommitted (view : GameStateView) (nodeId : Int) : Int :=
  ((view.myPendingMoves.filter (·.fromNodeId = nodeId)).map (·.unitCount)).sum

/-- What a node has left in this view. -/
def availableOnNode (view : GameStateView) (node : NodeView) : Int :=
  node.myUnits.mobile - view.alreadyCommitted node.id

end GameStateView

namespace GamePage

/-- The page as it is loaded: no view, nothing chosen, the button that moves disabled. -/
def initial : GamePage where
  toGameUI := page.start
  view := none
  unitButtons := [⟨1, false⟩, ⟨2, false⟩, ⟨3, false⟩]
  moveDisabled := true
  countdown := ⟨none, [], 0, 0, none, none⟩
  encounterData := none
  encounterShown := false
  decisions := []

/-- A number and an origin are enough for the button; a destination is asked for when it is
    clicked. -/
def updateMoveButton (p : GamePage) : GamePage :=
  { p with moveDisabled := !isChosen p.selectedFrom || p.selectedUnits ≤ 0 }

/-! ### What comes from the server -/

/-- What is shown to remain. -/
def shownRemaining (p : GamePage) : Int := (p.shown.map (·.myRemainingUnits)).getD 0

/-- The buttons are counted against what is shown to remain. -/
def enableButtons (p : GamePage) : GamePage :=
  { p with unitButtons := enableUpTo p.shownRemaining p.unitButtons }

/-- A number that is no longer there is not chosen any more. -/
def dropUnits (p : GamePage) : GamePage :=
  if p.selectedUnits > p.shownRemaining then updateMoveButton { p with selectedUnits := 0 } else p

/-- The page up to the buttons. -/
def shows (p : GamePage) (now : Time) (view : GameStateView) : GamePage :=
  { p with
    toGameUI := p.toGameUI.handleStateUpdate now view.toClient
    view := some view
    countdown := p.countdown.follow view now }

/-- A view has come.  The moves that it confirms are forgotten, the others are laid over it, and the
    countdown and the buttons follow. -/
def handleStateUpdate (p : GamePage) (now : Time) (view : GameStateView) : GamePage :=
  let p := (p.shows now view).enableButtons.dropUnits
  { p with encounterShown := p.encounterShown || !view.undecidedEncounterEdgeIds.isEmpty }

/-- `EncounterOccurred` opens the dialogue with the two decisions. -/
def handleEncounter (p : GamePage) (data : EncounterOccurred) : GamePage :=
  { p with encounterData := some data, encounterShown := true }

/-- The game is over: only the countdown is stopped. -/
def handleGameOver (p : GamePage) : GamePage :=
  { p with countdown := p.countdown.stopCountdown }

/-! ### What the player does -/

/-- The last view is shown again. -/
def refresh (p : GamePage) (now : Time) : GamePage :=
  match p.view with
  | some view => p.handleStateUpdate now view
  | none => p

/-- Nothing is chosen any more. -/
def reset (p : GamePage) : GamePage :=
  { p with selectedFrom := none, selectedTo := none, selectedUnits := 0, moveDisabled := true }

/-- The move is recorded as an optimistic one and sent; the last view is shown again with it, and
    then nothing is chosen any more. -/
def executeMoveTo (p : GamePage) (now : Time) (toNode : Int) : GamePage :=
  match p.selectedFrom with
  | none => p
  | some fromNode =>
    if h : fromNode ≠ 0 ∧ 0 < p.selectedUnits then
      ({ p with toGameUI := p.record ⟨⟨fromNode, toNode, p.selectedUnits⟩, now, h.2⟩ }.refresh
        now).reset
    else p

/-- The button that moves, or a button with a number: without both nodes and a number nothing is
    sent. -/
def executeMove (p : GamePage) (now : Time) : GamePage :=
  match p.selectedTo with
  | none => p
  | some toNode =>
    if isChosen p.selectedFrom ∧ toNode ≠ 0 ∧ p.selectedUnits > 0 then p.executeMoveTo now toNode
    else p

/-- The number that is chosen with the node: the one before, or one, if it is too large. -/
def chooseUnits (p : GamePage) (maxSelectable : Int) : GamePage :=
  if maxSelectable ≥ 1 ∧ (p.selectedUnits ≤ 0 ∨ p.selectedUnits > maxSelectable) then
    match p.unitButtons.find? (·.count = 1) with
    | some btn1 => if btn1.disabled then p else { p with selectedUnits := 1 }
    | none => p
  else if p.selectedUnits > maxSelectable then { p with selectedUnits := 0 }
  else p

/-- The first click on a node.  It must be a node the player can set out from, with units that are
    not committed yet. -/
def chooseFrom (p : GamePage) (view : GameStateView) (nodeId : Int) : GamePage :=
  match view.nodes.find? (·.id = nodeId) with
  | none => p
  | some node =>
    if node.canSelect ∧ 0 < view.availableOnNode node then
      -- this is read from the last view, not from what is shown: moves on their way do not count
      let maxSelectable := min view.myRemainingUnits (view.availableOnNode node)
      updateMoveButton (chooseUnits { p with
        selectedFrom := some nodeId
        unitButtons := enableUpTo maxSelectable p.unitButtons } maxSelectable)
    else p

/-- A second click on the same node takes the choice back. -/
def deselect (p : GamePage) (view : GameStateView) : GamePage :=
  updateMoveButton { p with
    selectedFrom := none
    selectedTo := none
    unitButtons := enableUpTo view.myRemainingUnits p.unitButtons
    selectedUnits := 0 }

/-- The click on another node.  With a number chosen the move goes at once, otherwise it waits for
    one. -/
def chooseTo (p : GamePage) (now : Time) (nodeId : Int) : GamePage :=
  let p := { p with selectedTo := some nodeId }
  if p.selectedUnits > 0 then p.executeMoveTo now nodeId else p.updateMoveButton

/-- A click on a node means nothing out of the planning phase or once the player has finished. -/
def handleNodeClick (p : GamePage) (now : Time) (nodeId : Int) : GamePage :=
  match p.view with
  | none => p
  | some view =>
    if view.phase ≠ "Planning" then p
    else if view.isMyPlanningComplete then p
    else if ¬ isChosen p.selectedFrom then p.chooseFrom view nodeId
    else if p.selectedFrom = some nodeId then p.deselect view
    else p.chooseTo now nodeId

/-- A button that is disabled hears of no click. -/
def clickUnits (p : GamePage) (now : Time) (i : Nat) : GamePage :=
  match p.unitButtons[i]? with
  | none => p
  | some btn =>
    if btn.disabled then p
    else (updateMoveButton { p with selectedUnits := btn.count }).executeMove now

/-- The button that moves, if it can be clicked. -/
def clickMove (p : GamePage) (now : Time) : GamePage :=
  if p.moveDisabled then p else p.executeMove now

/-- The decision is sent for the edge of the dialogue, which closes before any answer comes. -/
def resolveEncounter (p : GamePage) (decision : EncounterDecision) : GamePage :=
  match p.encounterData with
  | none => p
  | some data =>
    { p with
      decisions := p.decisions ++ [(data.fromNode.value, data.toNode.value, decision)]
      encounterShown := false
      encounterData := none }

end GamePage

/-! ## The machine -/

/-- What happens to the page. -/
inductive PageInput where
  | stateUpdate (now : Time) (view : GameStateView)
  | encounter (data : EncounterOccurred)
  | gameOver
  | tick (handle : Nat)
  | nodeClick (now : Time) (nodeId : Int)
  | unitClick (now : Time) (i : Nat)
  | moveClick (now : Time)
  | decide (decision : EncounterDecision)
deriving DecidableEq

/-- It is a view from the server. -/
def PageInput.isView : PageInput → Bool
  | .stateUpdate _ _ => true
  | _ => false

namespace GamePage

/-- One thing happens to the page. -/
def next (p : GamePage) : PageInput → GamePage
  | .stateUpdate now view => p.handleStateUpdate now view
  | .encounter data => p.handleEncounter data
  | .gameOver => p.handleGameOver
  | .tick handle => { p with countdown := p.countdown.tick handle }
  | .nodeClick now nodeId => p.handleNodeClick now nodeId
  | .unitClick now i => p.clickUnits now i
  | .moveClick now => p.clickMove now
  | .decide decision => p.resolveEncounter decision

/-- Only a node that is drawn can be clicked. -/
def Legal (_ : GamePage) : PageInput → Prop
  | .nodeClick _ nodeId => nodeId ∈ nodePositions
  | _ => True

instance (p : GamePage) (input : PageInput) : Decidable (p.Legal input) := by
  cases input <;> unfold Legal <;> infer_instance

end GamePage

/-- The page with its controls, from its first moment on. -/
def controls : Machine GamePage PageInput := ⟨GamePage.initial, GamePage.next, GamePage.Legal⟩

/-! ## The countdown has one interval at most

A new round starts a countdown without looking whether one runs.  That two never run side by side
rests on `startCountdown` stopping first, and on the handle of the one that runs being known. -/

/-- The only interval is the one whose handle is known, and no handle is given twice. -/
structure Countdown.Single (c : Countdown) : Prop where
  intervals : c.intervals = c.timerInterval.toList
  given : ∀ handle ∈ c.intervals, handle < c.handles

namespace Countdown

variable {c : Countdown}

/-- A countdown that is stopped has no interval. -/
theorem timerInterval_stopCountdown (c : Countdown) : c.stopCountdown.timerInterval = none := by
  rw [stopCountdown]
  split
  · rfl
  · assumption

/-- Since the handle that is cleared is the only one, nothing is left running. -/
theorem Single.stopCountdown (h : c.Single) : c.stopCountdown.Single := by
  rw [Countdown.stopCountdown]
  split
  · next handle hsome =>
    -- filtering out the only handle leaves none
    have hnone : c.intervals.filter (· ≠ handle) = [] := by
      rw [h.intervals, hsome]
      simp
    refine ⟨hnone, ?_⟩
    show ∀ i ∈ c.intervals.filter (· ≠ handle), i < c.handles
    rw [hnone]
    intro i hi
    cases hi
  · exact h

/-- The new handle is the only one, for the old one was cleared. -/
theorem Single.startCountdown (h : c.Single) (seconds : Int) : (c.startCountdown seconds).Single := by
  have hstop := h.stopCountdown
  have hnone : c.stopCountdown.intervals = [] := by
    rw [hstop.intervals, timerInterval_stopCountdown]
    rfl
  constructor
  · show c.stopCountdown.intervals ++ [c.stopCountdown.handles] = [c.stopCountdown.handles]
    rw [hnone]
    rfl
  · show ∀ i ∈ c.stopCountdown.intervals ++ [c.stopCountdown.handles],
      i < c.stopCountdown.handles + 1
    rw [hnone]
    intro i hi
    rw [List.mem_singleton.mp hi]
    exact Nat.lt_succ_self _

/-- An interval that passes counts down, or stops the countdown. -/
theorem Single.tick (h : c.Single) (handle : Nat) : (c.tick handle).Single := by
  have hless : Single { c with timeRemaining := c.timeRemaining - 1 } := ⟨h.intervals, h.given⟩
  rw [Countdown.tick]
  split
  · show Single (if _ then _ else _)
    split
    · exact hless.stopCountdown
    · exact hless
  · exact h

/-- A view starts the countdown, sets it right or stops it. -/
theorem Single.follow (h : c.Single) (view : GameStateView) (now : Time) :
    (c.follow view now).Single := by
  have hseen : Single { c with lastPhase := some view.phase, lastRound := some view.currentRound } :=
    ⟨h.intervals, h.given⟩
  unfold Countdown.follow
  split
  · show Single (if _ then _ else if _ then _ else _)
    split
    · exact hseen.startCountdown _
    · split
      · exact ⟨h.intervals, h.given⟩
      · exact hseen
  · exact hseen.stopCountdown

/-- It runs in the planning phase only. -/
theorem timerInterval_follow (view : GameStateView) (now : Time)
    (hphase : view.phase ≠ "Planning") : (c.follow view now).timerInterval = none := by
  unfold follow
  rw [if_neg hphase]
  exact timerInterval_stopCountdown _

/-- No interval that passes starts a countdown. -/
theorem timerInterval_tick (h : c.timerInterval = none) (handle : Nat) :
    (c.tick handle).timerInterval = none := by
  rw [tick]
  split
  · show (if _ then _ else _ : Countdown).timerInterval = none
    split
    · exact timerInterval_stopCountdown _
    · exact h
  · exact h

end Countdown

/-! ## What a view does to the page

Showing a view lays the optimistic moves over it, which only takes units away.  So what is shown to
remain never exceeds what the view itself says, and the buttons, which are counted against what is
shown, are within the view.  `Updated` collects this for one view. -/

/-- A button that can be clicked afterwards has no more units than that. -/
theorem mem_enableUpTo {most : Int} {buttons : List UnitButton} {btn : UnitButton}
    (h : btn ∈ enableUpTo most buttons) (henabled : btn.disabled = false) : btn.count ≤ most := by
  obtain ⟨old, -, rfl⟩ := List.mem_map.mp h
  exact Int.not_lt.mp (of_decide_eq_false henabled)

/-- The numbers on the buttons stay. -/
theorem map_count_enableUpTo (most : Int) (buttons : List UnitButton) :
    (enableUpTo most buttons).map (·.count) = buttons.map (·.count) := by
  rw [enableUpTo, List.map_map]
  rfl

namespace GamePage

variable {p : GamePage}

/-- No more is shown to remain than the view says. -/
theorem shownRemaining_shows (p : GamePage) (now : Time) (view : GameStateView) :
    (p.shows now view).shownRemaining ≤ max 0 view.myRemainingUnits := by
  have hshown := shown_remaining p.toGameUI now view.toClient
  have hunits := sum_units_nonneg (p.toGameUI.kept now view.toClient)
  show (((p.toGameUI.handleStateUpdate now view.toClient).shown.map (·.myRemainingUnits)).getD 0) ≤ _
  rw [hshown, Option.getD_some]
  show (if _ then view.myRemainingUnits else max 0 (view.myRemainingUnits - _)) ≤ _
  split
  · exact le_max_right _ _
  · exact max_le_max_left 0 (by omega)

/-- The button that moves can be clicked if a node and a number are chosen. -/
def MoveButton (p : GamePage) : Prop :=
  p.moveDisabled = (!isChosen p.selectedFrom || p.selectedUnits ≤ 0)

/-- From `p` to `q` a view has come, or has been shown again. -/
structure Updated (now : Time) (view : GameStateView) (p q : GamePage) : Prop where
  lastView : q.view = some view
  stateView : q.stateView = some view.toClient
  optimisticMoves : q.optimisticMoves = p.toGameUI.kept now view.toClient
  sent : q.sent = p.sent
  selectedFrom : q.selectedFrom = p.selectedFrom
  selectedTo : q.selectedTo = p.selectedTo
  selectedUnits : q.selectedUnits = p.selectedUnits ∨ q.selectedUnits = 0
  affordable : 0 ≤ p.selectedUnits → q.selectedUnits ≤ max 0 view.myRemainingUnits
  counts : q.unitButtons.map (·.count) = p.unitButtons.map (·.count)
  enabled : ∀ btn ∈ q.unitButtons, btn.disabled = false → btn.count ≤ max 0 view.myRemainingUnits
  moveButton : MoveButton p → MoveButton q
  countdown : q.countdown = p.countdown.follow view now
  encounterData : q.encounterData = p.encounterData
  decisions : q.decisions = p.decisions

/-- **What `handleStateUpdate` does.** -/
theorem handleStateUpdate_updated (p : GamePage) (now : Time) (view : GameStateView) :
    Updated now view p (p.handleStateUpdate now view) := by
  have hless := shownRemaining_shows p now view
  have hcounts := map_count_enableUpTo (p.shows now view).shownRemaining p.unitButtons
  have henabled : ∀ btn ∈ enableUpTo (p.shows now view).shownRemaining p.unitButtons,
      btn.disabled = false → btn.count ≤ max 0 view.myRemainingUnits := fun btn hbtn hable =>
    (mem_enableUpTo hbtn hable).trans hless
  rw [handleStateUpdate]
  rcases Int.lt_or_le (p.shows now view).shownRemaining p.selectedUnits with hmore | hfew
  · -- more are chosen than remain: they are dropped
    have hdrop : (p.shows now view).enableButtons.dropUnits =
        updateMoveButton { (p.shows now view).enableButtons with selectedUnits := 0 } := if_pos hmore
    rw [hdrop]
    exact ⟨rfl, rfl, rfl, rfl, rfl, rfl, Or.inr rfl, fun _ => le_max_left _ _, hcounts, henabled,
      fun _ => rfl, rfl, rfl, rfl⟩
  · have hkeep : (p.shows now view).enableButtons.dropUnits = (p.shows now view).enableButtons :=
      if_neg (Int.not_lt.mpr hfew)
    rw [hkeep]
    exact ⟨rfl, rfl, rfl, rfl, rfl, rfl, Or.inl rfl, fun _ => hfew.trans hless, hcounts, henabled,
      fun h => h, rfl, rfl, rfl⟩

/-! ## What a click does -/

/-- A move is sent, or the page stays as it is. -/
theorem executeMoveTo_cases (p : GamePage) (now : Time) (toNode : Int) :
    (¬ (isChosen p.selectedFrom ∧ 0 < p.selectedUnits) ∧ p.executeMoveTo now toNode = p) ∨
    ∃ fromNode optMove, p.selectedFrom = some fromNode ∧ fromNode ≠ 0 ∧ 0 < p.selectedUnits ∧
      optMove.move = ⟨fromNode, toNode, p.selectedUnits⟩ ∧
      p.executeMoveTo now toNode = ({ p with toGameUI := p.record optMove }.refresh now).reset := by
  rw [executeMoveTo]
  cases hfrom : p.selectedFrom with
  | none => exact Or.inl ⟨fun h => absurd h.1 Bool.false_ne_true, rfl⟩
  | some fromNode =>
    by_cases h : fromNode ≠ 0 ∧ 0 < p.selectedUnits
    · refine Or.inr ⟨fromNode, ⟨⟨fromNode, toNode, p.selectedUnits⟩, now, h.2⟩, rfl, h.1, h.2, rfl,
        ?_⟩
      exact dif_pos h
    · refine Or.inl ⟨fun hchosen => h ⟨?_, hchosen.2⟩, dif_neg h⟩
      exact of_decide_eq_true hchosen.1

/-- executeMove calls executeMoveTo with the node that is chosen, or leaves the page as it is. -/
theorem executeMove_cases (p : GamePage) (now : Time) : p.executeMove now = p ∨
    ∃ toNode, p.selectedTo = some toNode ∧ p.executeMove now = p.executeMoveTo now toNode := by
  rw [executeMove]
  cases hto : p.selectedTo with
  | none => exact Or.inl rfl
  | some toNode =>
    by_cases h : isChosen p.selectedFrom ∧ toNode ≠ 0 ∧ p.selectedUnits > 0
    · exact Or.inr ⟨toNode, rfl, if_pos h⟩
    · exact Or.inl (if_neg h)

/-- With the three buttons of the page the number that is chosen with a node is one it has. -/
theorem chooseUnits_eq {most : Int} {buttons : List UnitButton}
    (hcounts : buttons.map (·.count) = [1, 2, 3]) (hbuttons : p.unitButtons = enableUpTo most buttons)
    (hunits : 0 ≤ p.selectedUnits) :
    ∃ units, p.chooseUnits most = { p with selectedUnits := units } ∧
      0 ≤ units ∧ units ≤ max 0 most := by
  obtain ⟨btn, rest, rfl, hone, -⟩ := List.map_eq_cons_iff.mp hcounts
  have hfind : p.unitButtons.find? (·.count = 1) =
      some { btn with disabled := decide (btn.count > most) } := by
    rw [hbuttons]
    exact List.find?_cons_of_pos (decide_eq_true hone)
  rw [chooseUnits]
  split
  · next h =>
    have hable : ¬ decide (btn.count > most) = true := fun hdis => by
      have := of_decide_eq_true hdis
      omega
    rw [hfind]
    refine ⟨1, if_neg hable, by omega, ?_⟩
    exact h.1.trans (le_max_right _ _)
  · next h =>
    split
    · exact ⟨0, rfl, le_refl _, le_max_left _ _⟩
    · next hfew =>
      exact ⟨p.selectedUnits, rfl, hunits, (Int.not_lt.mp hfew).trans (le_max_right _ _)⟩

/-! ## The controls agree with the last view -/

/-- **The invariant of the controls**: what is chosen is on the board, and neither the number that is
    chosen nor any that could be chosen exceeds what the last view says to remain. -/
structure Coherent (p : GamePage) : Prop where
  stateView : p.stateView = p.view.map GameStateView.toClient
  counts : p.unitButtons.map (·.count) = [1, 2, 3]
  enabled : ∀ view, p.view = some view → ∀ btn ∈ p.unitButtons, btn.disabled = false →
    btn.count ≤ max 0 view.myRemainingUnits
  nonneg : 0 ≤ p.selectedUnits
  affordable : ∀ view, p.view = some view → p.selectedUnits ≤ max 0 view.myRemainingUnits
  origin : ∀ n, p.selectedFrom = some n → n ∈ nodePositions ∧ p.view.isSome
  target : ∀ d, p.selectedTo = some d →
    d ∈ nodePositions ∧ isChosen p.selectedFrom ∧ p.selectedFrom ≠ some d
  moveButton : MoveButton p
  countdown : p.countdown.Single
  planning : p.countdown.timerInterval.isSome → ∃ view, p.view = some view ∧ view.phase = "Planning"
  keepsSent : p.toGameUI.KeepsSent

/-- A view keeps the invariant. -/
theorem Coherent.updated {now : Time} {view : GameStateView} {q : GamePage} (h : Coherent p)
    (hq : Updated now view p q) : Coherent q where
  stateView := by rw [hq.stateView, hq.lastView]; rfl
  counts := hq.counts.trans h.counts
  enabled view' hview' := by
    obtain rfl : view = view' := Option.some_inj.mp (hq.lastView.symm.trans hview')
    exact hq.enabled
  nonneg := by
    rcases hq.selectedUnits with hsame | hzero
    · rw [hsame]
      exact h.nonneg
    · rw [hzero]
  affordable view' hview' := by
    obtain rfl : view = view' := Option.some_inj.mp (hq.lastView.symm.trans hview')
    exact hq.affordable h.nonneg
  origin n hn := by
    rw [hq.selectedFrom] at hn
    rw [hq.lastView]
    exact ⟨(h.origin n hn).1, rfl⟩
  target d hd := by
    rw [hq.selectedTo] at hd
    rw [hq.selectedFrom]
    exact h.target d hd
  moveButton := hq.moveButton h.moveButton
  countdown := by
    rw [hq.countdown]
    exact h.countdown.follow view now
  planning hrun := by
    rw [hq.countdown] at hrun
    refine ⟨view, hq.lastView, ?_⟩
    by_contra hphase
    rw [Countdown.timerInterval_follow view now hphase] at hrun
    cases hrun
  keepsSent := by
    show (q.optimisticMoves.map (·.move)).Sublist q.sent
    rw [hq.optimisticMoves, hq.sent]
    exact h.keepsSent.handleStateUpdate now view.toClient

/-- To show the last view again is like receiving it again. -/
theorem Coherent.refresh (h : Coherent p) (now : Time) : Coherent (p.refresh now) := by
  rw [GamePage.refresh]
  split
  · exact h.updated (handleStateUpdate_updated p now _)
  · exact h

/-- Another choice, and other buttons, if the last view allows them. -/
theorem Coherent.rearrange (h : Coherent p) {fromNode toNode : Option Int} {units : Int}
    {buttons : List UnitButton} (hcounts : buttons.map (·.count) = [1, 2, 3])
    (henabled : ∀ view, p.view = some view → ∀ btn ∈ buttons, btn.disabled = false →
      btn.count ≤ max 0 view.myRemainingUnits)
    (hnonneg : 0 ≤ units)
    (hunits : ∀ view, p.view = some view → units ≤ max 0 view.myRemainingUnits)
    (horigin : ∀ n, fromNode = some n → n ∈ nodePositions ∧ p.view.isSome)
    (htarget : ∀ d, toNode = some d → d ∈ nodePositions ∧ isChosen fromNode ∧ fromNode ≠ some d) :
    Coherent (updateMoveButton { p with
      selectedFrom := fromNode
      selectedTo := toNode
      selectedUnits := units
      unitButtons := buttons }) where
  stateView := h.stateView
  counts := hcounts
  enabled := henabled
  nonneg := hnonneg
  affordable := hunits
  origin := horigin
  target := htarget
  moveButton := rfl
  countdown := h.countdown
  planning := h.planning
  keepsSent := h.keepsSent

/-- With nothing chosen there is nothing to exceed what remains. -/
theorem Coherent.reset (h : Coherent p) : Coherent p.reset :=
  h.rearrange h.counts h.enabled (le_refl _) (fun _ _ => le_max_left _ _) (fun _ hn => nomatch hn)
    fun _ hd => nomatch hd

/-- A move that is recorded and sent changes no control. -/
theorem Coherent.record (h : Coherent p) (optMove : OptimisticMove) :
    Coherent { p with toGameUI := p.record optMove } where
  stateView := h.stateView
  counts := h.counts
  enabled := h.enabled
  nonneg := h.nonneg
  affordable := h.affordable
  origin := h.origin
  target := h.target
  moveButton := h.moveButton
  countdown := h.countdown
  planning := h.planning
  keepsSent := h.keepsSent.record optMove

/-- A move is recorded, the view shown again, and the choice given up: three steps, each of which
    keeps the invariant. -/
theorem Coherent.executeMoveTo (h : Coherent p) (now : Time) (toNode : Int) :
    Coherent (p.executeMoveTo now toNode) := by
  rcases executeMoveTo_cases p now toNode with ⟨-, hsame⟩ | ⟨_, optMove, -, -, -, -, hmoved⟩
  · rw [hsame]
    exact h
  · rw [hmoved]
    exact ((h.record optMove).refresh now).reset

/-- So does the button that moves. -/
theorem Coherent.executeMove (h : Coherent p) (now : Time) : Coherent (p.executeMove now) := by
  rcases executeMove_cases p now with hsame | ⟨toNode, -, hmove⟩
  · rw [hsame]
    exact h
  · rw [hmove]
    exact h.executeMoveTo now toNode

/-- Buttons that are counted against less than what remains. -/
theorem enableUpTo_le {view : GameStateView} (hview : p.view = some view)
    {most : Int} (hmost : most ≤ view.myRemainingUnits) :
    ∀ view, p.view = some view → ∀ btn ∈ enableUpTo most p.unitButtons, btn.disabled = false →
      btn.count ≤ max 0 view.myRemainingUnits := by
  intro view' hview' btn hbtn hable
  obtain rfl : view = view' := Option.some_inj.mp (hview.symm.trans hview')
  exact ((mem_enableUpTo hbtn hable).trans hmost).trans (le_max_right _ _)

/-- What choosing a node does: nothing, or the node and a number are chosen. -/
theorem chooseFrom_cases (h : Coherent p) (view : GameStateView) (nodeId : Int) :
    p.chooseFrom view nodeId = p ∨ ∃ node units, view.nodes.find? (·.id = nodeId) = some node ∧
      0 ≤ units ∧ units ≤ max 0 (min view.myRemainingUnits (view.availableOnNode node)) ∧
      p.chooseFrom view nodeId = updateMoveButton { p with
        selectedFrom := some nodeId
        selectedUnits := units
        unitButtons := enableUpTo (min view.myRemainingUnits (view.availableOnNode node))
          p.unitButtons } := by
  rw [chooseFrom]
  cases hfind : view.nodes.find? (·.id = nodeId) with
  | none => exact Or.inl rfl
  | some node =>
    by_cases hselect : node.canSelect ∧ 0 < view.availableOnNode node
    · obtain ⟨units, hchosen, hnonneg, hunits⟩ := chooseUnits_eq (p := { p with
        selectedFrom := some nodeId
        unitButtons := enableUpTo (min view.myRemainingUnits (view.availableOnNode node))
          p.unitButtons }) h.counts rfl h.nonneg
      refine Or.inr ⟨node, units, rfl, hnonneg, hunits, ?_⟩
      exact (if_pos hselect).trans (congrArg updateMoveButton hchosen)
    · exact Or.inl (if_neg hselect)

/-- What is chosen with a node is at most what remains; a destination that was chosen before is
    gone, since there was no origin. -/
theorem Coherent.chooseFrom (h : Coherent p) {view : GameStateView} (hview : p.view = some view)
    {nodeId : Int} (hnode : nodeId ∈ nodePositions) (hfrom : ¬ isChosen p.selectedFrom) :
    Coherent (p.chooseFrom view nodeId) := by
  rcases chooseFrom_cases h view nodeId with hsame | ⟨node, units, -, hnonneg, hunits, hchosen⟩
  · rw [hsame]
    exact h
  · rw [hchosen]
    refine h.rearrange ((map_count_enableUpTo _ _).trans h.counts)
      (enableUpTo_le hview (min_le_left _ _)) hnonneg ?_ ?_ ?_
    · intro view' hview'
      obtain rfl : view = view' := Option.some_inj.mp (hview.symm.trans hview')
      exact hunits.trans (max_le_max_left 0 (min_le_left _ _))
    · rintro n ⟨⟩
      exact ⟨hnode, by rw [hview]; rfl⟩
    · intro d hd
      exact absurd (h.target d hd).2.1 hfrom

/-- To take the choice back counts the buttons against the whole view again. -/
theorem Coherent.deselect (h : Coherent p) {view : GameStateView} (hview : p.view = some view) :
    Coherent (p.deselect view) :=
  h.rearrange ((map_count_enableUpTo _ _).trans h.counts) (enableUpTo_le hview (le_refl _))
    (le_refl _) (fun _ _ => le_max_left _ _) (fun _ hn => nomatch hn) fun _ hd => nomatch hd

/-- The page with a destination. -/
theorem Coherent.towards (h : Coherent p) {nodeId : Int} (hnode : nodeId ∈ nodePositions)
    (hfrom : isChosen p.selectedFrom) (hother : p.selectedFrom ≠ some nodeId) :
    Coherent { p with selectedTo := some nodeId } where
  stateView := h.stateView
  counts := h.counts
  enabled := h.enabled
  nonneg := h.nonneg
  affordable := h.affordable
  origin := h.origin
  target d hd := by
    obtain rfl : nodeId = d := Option.some_inj.mp hd
    exact ⟨hnode, hfrom, hother⟩
  moveButton := h.moveButton
  countdown := h.countdown
  planning := h.planning
  keepsSent := h.keepsSent

/-- The destination is another node than the origin, since a click on that takes the choice back. -/
theorem Coherent.chooseTo (h : Coherent p) (now : Time) {nodeId : Int}
    (hnode : nodeId ∈ nodePositions) (hfrom : isChosen p.selectedFrom)
    (hother : p.selectedFrom ≠ some nodeId) : Coherent (p.chooseTo now nodeId) := by
  have hto := h.towards hnode hfrom hother
  unfold GamePage.chooseTo
  show Coherent (if _ then _ else _)
  split
  · exact hto.executeMoveTo now nodeId
  · exact hto.rearrange hto.counts hto.enabled hto.nonneg hto.affordable hto.origin hto.target

/-- The branches of `handleNodeClick` one by one. -/
theorem Coherent.handleNodeClick (h : Coherent p) (now : Time) {nodeId : Int}
    (hnode : nodeId ∈ nodePositions) : Coherent (p.handleNodeClick now nodeId) := by
  rw [GamePage.handleNodeClick]
  split
  · exact h
  · next view hview =>
    split
    · exact h
    split
    · exact h
    split
    · next hnot => exact h.chooseFrom hview hnode hnot
    -- from here on an origin is chosen
    next hfrom =>
    split
    · exact h.deselect hview
    · next hother => exact h.chooseTo now hnode (not_not.mp hfrom) hother

/-- A number from a button that can be clicked. -/
theorem Coherent.withUnits (h : Coherent p) {btn : UnitButton} (hbtn : btn ∈ p.unitButtons)
    (hable : btn.disabled = false) :
    Coherent (updateMoveButton { p with selectedUnits := btn.count }) := by
  have hcount : btn.count ∈ [1, 2, 3] := h.counts ▸ List.mem_map_of_mem hbtn
  refine h.rearrange h.counts h.enabled ?_ (fun view hview => h.enabled view hview btn hbtn hable)
    h.origin h.target
  revert hcount
  generalize btn.count = k
  intro hk
  simp only [List.mem_cons, List.not_mem_nil, or_false] at hk
  omega

/-- A number is chosen, and a move that had both its nodes goes at once. -/
theorem Coherent.clickUnits (h : Coherent p) (now : Time) (i : Nat) :
    Coherent (p.clickUnits now i) := by
  rw [GamePage.clickUnits]
  split
  · exact h
  · next btn hget =>
    split
    · exact h
    · next hable =>
      exact (h.withUnits (List.mem_of_getElem? hget) (Bool.not_eq_true _ ▸ hable)).executeMove now

/-- A decision changes no control. -/
theorem Coherent.resolveEncounter (h : Coherent p) (decision : EncounterDecision) :
    Coherent (p.resolveEncounter decision) := by
  rw [GamePage.resolveEncounter]
  split
  · exact h
  · exact ⟨h.stateView, h.counts, h.enabled, h.nonneg, h.affordable, h.origin, h.target,
      h.moveButton, h.countdown, h.planning, h.keepsSent⟩

/-- **Everything that happens to the page keeps the invariant.** -/
theorem Coherent.next (h : Coherent p) {input : PageInput} (hlegal : p.Legal input) :
    Coherent (p.next input) := by
  cases input with
  -- only a view changes what the others are measured by
  | stateUpdate now view => exact h.updated (handleStateUpdate_updated p now view)
  | encounter data =>
    exact ⟨h.stateView, h.counts, h.enabled, h.nonneg, h.affordable, h.origin, h.target,
      h.moveButton, h.countdown, h.planning, h.keepsSent⟩
  | gameOver =>
    refine ⟨h.stateView, h.counts, h.enabled, h.nonneg, h.affordable, h.origin, h.target,
      h.moveButton, h.countdown.stopCountdown, fun hrun => ?_, h.keepsSent⟩
    have hnone := Countdown.timerInterval_stopCountdown p.countdown
    rw [show (p.next .gameOver).countdown = p.countdown.stopCountdown from rfl, hnone] at hrun
    cases hrun
  | tick handle =>
    refine ⟨h.stateView, h.counts, h.enabled, h.nonneg, h.affordable, h.origin, h.target,
      h.moveButton, h.countdown.tick handle, fun hrun => h.planning ?_, h.keepsSent⟩
    rw [Option.isSome_iff_ne_none]
    intro hnone
    rw [show (p.next (.tick handle)).countdown = p.countdown.tick handle from rfl,
      Countdown.timerInterval_tick hnone] at hrun
    cases hrun
  | nodeClick now nodeId => exact h.handleNodeClick now hlegal
  | unitClick now i => exact h.clickUnits now i
  | moveClick now =>
    show Coherent (if _ then _ else _)
    split
    · exact h
    · exact h.executeMove now
  | decide decision => exact h.resolveEncounter decision

end GamePage

/-- The page starts with nothing chosen and no view. -/
theorem coherent_initial : GamePage.initial.Coherent where
  stateView := rfl
  counts := rfl
  enabled _ hview := nomatch hview
  nonneg := le_refl _
  affordable _ hview := nomatch hview
  origin _ hn := nomatch hn
  target _ hd := nomatch hd
  moveButton := rfl
  countdown := ⟨rfl, fun _ hi => nomatch hi⟩
  planning hrun := nomatch hrun
  keepsSent := List.nil_sublist _

/-- **The invariant holds in every run of the page.** -/
theorem coherent_of_reachable {p : GamePage} (h : controls.Reachable p) : p.Coherent :=
  h.invariant coherent_initial fun _ _ hp hlegal => hp.next hlegal

/-- **One countdown at most**, in every run of the page, and it runs in the planning phase only. -/
theorem countdown_single {p : GamePage} (h : controls.Reachable p) :
    p.countdown.intervals.length ≤ 1 ∧ (p.countdown.intervals ≠ [] →
      ∃ view, p.view = some view ∧ view.phase = "Planning") := by
  have hp := coherent_of_reachable h
  rw [hp.countdown.intervals]
  refine ⟨Option.length_toList_le, fun hrun => hp.planning ?_⟩
  cases hinterval : p.countdown.timerInterval with
  | none =>
    rw [hinterval] at hrun
    exact absurd rfl hrun
  | some handle => rfl

/-! ## What is sent

Every handler is one of five things to what is chosen and sent, and which of them is all that the
proofs about moves ask.  The view stays in all of them: it is replaced by `handleStateUpdate` alone,
and a `refresh` shows the one that is there. -/

namespace GamePage

variable {p : GamePage}

/-- **All that can happen to what is chosen and sent**, but for a view. -/
inductive Clicked (p q : GamePage) : Prop where
  /-- Nothing changes, but perhaps the destination. -/
  | rest (sent : q.sent = p.sent) (selectedFrom : q.selectedFrom = p.selectedFrom)
      (units : q.selectedUnits = p.selectedUnits) (buttons : q.unitButtons = p.unitButtons)
  /-- Nothing is chosen any more. -/
  | cleared (sent : q.sent = p.sent) (selectedFrom : q.selectedFrom = none)
  /-- A node is chosen, and with it a number that it has. -/
  | chosen {view : GameStateView} {node : NodeView} {nodeId : Int} (lastView : p.view = some view)
      (phase : view.phase = "Planning") (find : view.nodes.find? (·.id = nodeId) = some node)
      (sent : q.sent = p.sent) (selectedFrom : q.selectedFrom = some nodeId)
      (units : q.selectedUnits ≤ max 0 (min view.myRemainingUnits (view.availableOnNode node)))
      (buttons : q.unitButtons =
        enableUpTo (min view.myRemainingUnits (view.availableOnNode node)) p.unitButtons)
  /-- The number of a button is chosen. -/
  | counted {btn : UnitButton} (mem : btn ∈ p.unitButtons) (able : btn.disabled = false)
      (sent : q.sent = p.sent) (selectedFrom : q.selectedFrom = p.selectedFrom)
      (units : q.selectedUnits = btn.count) (buttons : q.unitButtons = p.unitButtons)
  /-- A move is sent, with the number that was chosen or that of a button. -/
  | sends {m : PendingMoveView} (selectedFrom : p.selectedFrom = some m.fromNodeId)
      (target : m.toNodeId ∈ nodePositions) (proper : m.fromNodeId ≠ m.toNodeId)
      (positive : 0 < m.unitCount)
      (units : m.unitCount = p.selectedUnits ∨
        ∃ btn ∈ p.unitButtons, btn.disabled = false ∧ btn.count = m.unitCount)
      (sent : q.sent = p.sent ++ [m])

/-- To show the last view again sends nothing, -/
theorem sent_refresh (p : GamePage) (now : Time) : (p.refresh now).sent = p.sent := by
  rw [refresh]
  split
  · exact (handleStateUpdate_updated p now _).sent
  · rfl

/-- and leaves it the last view. -/
theorem view_refresh (p : GamePage) (now : Time) : (p.refresh now).view = p.view := by
  rw [refresh]
  split
  · next view hview => exact (handleStateUpdate_updated p now view).lastView.trans hview.symm
  · rfl

/-- A move to another node is sent with the number that is chosen, or nothing happens. -/
theorem clicked_executeMoveTo (now : Time) {toNode : Int} (htarget : toNode ∈ nodePositions)
    (hother : p.selectedFrom ≠ some toNode) : Clicked p (p.executeMoveTo now toNode) := by
  rcases executeMoveTo_cases p now toNode with
    ⟨-, hsame⟩ | ⟨fromNode, optMove, hfrom, -, hpos, hmove, hmoved⟩
  · rw [hsame]
    exact .rest rfl rfl rfl rfl
  · refine .sends (m := ⟨fromNode, toNode, p.selectedUnits⟩) hfrom htarget
      (fun heq : fromNode = toNode => hother (heq ▸ hfrom)) hpos (Or.inl rfl) ?_
    rw [hmoved, ← hmove]
    exact sent_refresh _ now

/-- A move leaves the view as it is, -/
theorem view_executeMoveTo (p : GamePage) (now : Time) (toNode : Int) :
    (p.executeMoveTo now toNode).view = p.view := by
  rcases executeMoveTo_cases p now toNode with ⟨-, hsame⟩ | ⟨_, optMove, -, -, -, -, hmoved⟩
  · rw [hsame]
  · rw [hmoved]
    exact view_refresh _ now

/-- The destination that waits is a node of the board other than the origin. -/
theorem Coherent.clicked_executeMove (h : Coherent p) (now : Time) :
    Clicked p (p.executeMove now) := by
  rcases executeMove_cases p now with hsame | ⟨toNode, hto, hmove⟩
  · rw [hsame]
    exact .rest rfl rfl rfl rfl
  · obtain ⟨htarget, -, hother⟩ := h.target toNode hto
    rw [hmove]
    exact clicked_executeMoveTo now htarget hother

/-- with either button. -/
theorem view_executeMove (p : GamePage) (now : Time) : (p.executeMove now).view = p.view := by
  rcases executeMove_cases p now with hsame | ⟨toNode, -, hmove⟩
  · rw [hsame]
  · rw [hmove]
    exact view_executeMoveTo p now toNode

/-- A click on a node chooses it, gives it up, or makes it the destination. -/
theorem Coherent.clicked_nodeClick (h : Coherent p) (now : Time) {nodeId : Int}
    (hnode : nodeId ∈ nodePositions) : Clicked p (p.handleNodeClick now nodeId) := by
  have hrest : Clicked p p := .rest rfl rfl rfl rfl
  rw [GamePage.handleNodeClick]
  split
  · exact hrest
  next view hview =>
  split
  · exact hrest
  next hphase =>
  split
  · exact hrest
  split
  -- no origin yet
  · rcases chooseFrom_cases h view nodeId with hsame | ⟨node, units, hfind, -, hunits, hchosen⟩
    · rw [hsame]
      exact hrest
    · rw [hchosen]
      exact .chosen hview (not_not.mp hphase) hfind rfl rfl hunits rfl
  split
  · exact .cleared rfl rfl
  next hother =>
  unfold GamePage.chooseTo
  show Clicked p (if _ then _ else _)
  split
  · -- the destination is remembered first, which a move does not look at
    cases @clicked_executeMoveTo { p with selectedTo := some nodeId } now nodeId hnode hother with
    | rest sent selectedFrom units buttons => exact .rest sent selectedFrom units buttons
    | cleared sent selectedFrom => exact .cleared sent selectedFrom
    | chosen lastView phase find sent selectedFrom units buttons =>
      exact .chosen lastView phase find sent selectedFrom units buttons
    | counted mem able sent selectedFrom units buttons =>
      exact .counted mem able sent selectedFrom units buttons
    | sends selectedFrom target proper positive units sent =>
      exact .sends selectedFrom target proper positive units sent
  · exact .rest rfl rfl rfl rfl

/-- A button chooses its number, and sends a move if it was the last thing that was missing. -/
theorem Coherent.clicked_unitClick (h : Coherent p) (now : Time) (i : Nat) :
    Clicked p (p.clickUnits now i) := by
  rw [GamePage.clickUnits]
  split
  · exact .rest rfl rfl rfl rfl
  next btn hget =>
  have hmem : btn ∈ p.unitButtons := List.mem_of_getElem? hget
  split
  · exact .rest rfl rfl rfl rfl
  next hdisabled =>
  have hable : btn.disabled = false := Bool.eq_false_of_not_eq_true hdisabled
  rcases executeMove_cases (updateMoveButton { p with selectedUnits := btn.count }) now with
    hsame | ⟨toNode, hto, hmove⟩
  · rw [hsame]
    exact .counted hmem hable rfl rfl rfl rfl
  · rw [hmove]
    rcases executeMoveTo_cases (updateMoveButton { p with selectedUnits := btn.count }) now toNode with
      ⟨-, hsame⟩ | ⟨fromNode, optMove, hfrom, -, hpos, hsent, hmoved⟩
    · rw [hsame]
      exact .counted hmem hable rfl rfl rfl rfl
    · obtain ⟨htarget, -, hother⟩ := h.target toNode hto
      refine .sends (m := ⟨fromNode, toNode, btn.count⟩) hfrom htarget
        (fun heq : fromNode = toNode => hother (heq ▸ hfrom)) hpos
        (Or.inr ⟨btn, hmem, hable, rfl⟩) ?_
      have hmove : optMove.move = ⟨fromNode, toNode, btn.count⟩ := hsent
      rw [hmoved, ← hmove]
      exact sent_refresh _ now

/-- **What can happen between two views.** -/
theorem Coherent.clicked_next (h : Coherent p) {input : PageInput} (hlegal : p.Legal input)
    (hinput : input.isView = false) : Clicked p (p.next input) := by
  cases input with
  | stateUpdate now view => cases hinput
  | encounter data => exact .rest rfl rfl rfl rfl
  | gameOver => exact .rest rfl rfl rfl rfl
  | tick handle => exact .rest rfl rfl rfl rfl
  | nodeClick now nodeId => exact h.clicked_nodeClick now hlegal
  | unitClick now i => exact h.clicked_unitClick now i
  | moveClick now =>
    show Clicked p (if _ then _ else _)
    split
    · exact .rest rfl rfl rfl rfl
    · exact h.clicked_executeMove now
  | decide decision =>
    show Clicked p (p.resolveEncounter decision)
    rw [GamePage.resolveEncounter]
    split <;> exact .rest rfl rfl rfl rfl

/-- Only a view from the server replaces the last view. -/
theorem view_next {input : PageInput} (hinput : input.isView = false) :
    (p.next input).view = p.view := by
  cases input with
  | stateUpdate now view => cases hinput
  | encounter data => rfl
  | gameOver => rfl
  | tick handle => rfl
  | nodeClick now nodeId =>
    show (p.handleNodeClick now nodeId).view = p.view
    rw [handleNodeClick]
    split
    · rfl
    next view hview =>
    split
    · rfl
    split
    · rfl
    split
    · rw [chooseFrom]
      split
      · rfl
      split
      · show (chooseUnits _ _).view = p.view
        rw [chooseUnits]
        split
        · split
          · split <;> rfl
          · rfl
        · split <;> rfl
      · rfl
    split
    · rfl
    · unfold chooseTo
      show (if _ then _ else _ : GamePage).view = p.view
      split
      · exact view_executeMoveTo _ now nodeId
      · rfl
  | unitClick now i =>
    show (p.clickUnits now i).view = p.view
    rw [clickUnits]
    split
    · rfl
    split
    · rfl
    · exact view_executeMove _ now
  | moveClick now =>
    show (if _ then _ else _ : GamePage).view = p.view
    split
    · rfl
    · exact view_executeMove p now
  | decide decision =>
    show (p.resolveEncounter decision).view = p.view
    rw [resolveEncounter]
    split <;> rfl

end GamePage

/-! ### A page at the start of a game -/

/-- A result that is there is the one that was returned. -/
theorem eq_ok_get {ε α : Type} {x : Except ε α} (h : x.toOption.isSome) :
    x = .ok (x.toOption.get h) := by
  cases x with
  | error e => cases h
  | ok a => rfl

/-- What the first player is shown when the first round has begun. -/
def openedView : GameStateView :=
  (buildGameStateView openedHost.room .a (openedHost.session.playerStates.get .a)
    openedHost.session.planningDeadline).toOption.get (by decide +kernel)

/-- The page of the first player, with that view. -/
def openedPage : GamePage := controls.after controls.start [.stateUpdate 0 openedView]

/-- That page comes from one view. -/
theorem openedPage_reachable : controls.Reachable openedPage :=
  ⟨_, show controls.Run [.stateUpdate 0 openedView] from ⟨trivial, trivial⟩, rfl⟩

/-! ### Each move is affordable -/

/-- **No move asks for more than the last view had left.**  Whatever happens to the page, it sends at
    most one move, between two different nodes of the board, with at least one unit and at most as many
    as the last view says to remain; and without a view it sends none. -/
theorem sends_affordable {p : GamePage} (hreach : controls.Reachable p) {input : PageInput}
    (hlegal : p.Legal input) :
    (p.next input).sent = p.sent ∨ ∃ view m, p.view = some view ∧ (p.next input).sent =
      p.sent ++ [m] ∧
      m.fromNodeId ∈ nodePositions ∧ m.toNodeId ∈ nodePositions ∧ m.fromNodeId ≠ m.toNodeId ∧
      0 < m.unitCount ∧ m.unitCount ≤ view.myRemainingUnits := by
  have hp := coherent_of_reachable hreach
  rcases hview : input.isView with _ | _
  · cases hp.clicked_next hlegal hview with
    | rest sent => exact Or.inl sent
    | cleared sent => exact Or.inl sent
    | chosen lastView phase find sent => exact Or.inl sent
    | counted mem able sent => exact Or.inl sent
    | @sends m selectedFrom target proper positive units sent =>
      obtain ⟨horigin, hsome⟩ := hp.origin _ selectedFrom
      obtain ⟨view, hlast⟩ := Option.isSome_iff_exists.mp hsome
      refine Or.inr ⟨view, m, hlast, sent, horigin, target, proper, positive, ?_⟩
      have hmost : m.unitCount ≤ max 0 view.myRemainingUnits := by
        rcases units with hchosen | ⟨btn, hbtn, hable, hcount⟩
        · rw [hchosen]
          exact hp.affordable view hlast
        · rw [← hcount]
          exact hp.enabled view hlast btn hbtn hable
      omega
  · cases input with
    | stateUpdate now view => exact Or.inl (GamePage.handleStateUpdate_updated p now view).sent
    | encounter _ | gameOver | tick _ | nodeClick _ _ | unitClick _ _ | moveClick _ | decide _ =>
      cases hview

/-- Once a node has been chosen, the click on another one sends a unit there. -/
theorem sends_affordable_opening :
    let p := controls.after openedPage [.nodeClick 0 1]
    (p.next (.nodeClick 0 6)).sent = [⟨1, 6, 1⟩] ∧
    ((p.next (.nodeClick 0 6)).sent = p.sent ∨ ∃ view m, p.view = some view ∧
      (p.next (.nodeClick 0 6)).sent = p.sent ++ [m] ∧
      m.fromNodeId ∈ nodePositions ∧ m.toNodeId ∈ nodePositions ∧ m.fromNodeId ≠ m.toNodeId ∧
      0 < m.unitCount ∧ m.unitCount ≤ view.myRemainingUnits) := by
  have hrun : controls.Run [.stateUpdate 0 openedView, .nodeClick 0 1] :=
    ⟨trivial, show (1 : Int) ∈ nodePositions by decide, trivial⟩
  exact ⟨by decide +kernel, sends_affordable ⟨_, hrun, rfl⟩
    (show (6 : Int) ∈ nodePositions by decide)⟩

/-! ## The first move under a view

Of several moves under one view the second may ask for units that the first has taken, since the
page counts a node's units against the view and not against what it has sent.  The first one cannot:
whatever is chosen when nothing was chosen before goes with the view (`Aimed`), so what is sent
first the view affords. -/

/-- The view has the units of the move. -/
structure GameStateView.Affords (view : GameStateView) (m : PendingMoveView) : Prop where
  phase : view.phase = "Planning"
  positive : 0 < m.unitCount
  remaining : m.unitCount ≤ view.myRemainingUnits
  available : ∃ node, view.nodes.find? (·.id = m.fromNodeId) = some node ∧
    m.unitCount ≤ view.availableOnNode node
  origin : m.fromNodeId ∈ nodePositions
  target : m.toNodeId ∈ nodePositions

namespace GamePage

variable {p : GamePage} {view : GameStateView}

/-- What is chosen was chosen under this view. -/
structure Aimed (view : GameStateView) (p : GamePage) : Prop where
  lastView : p.view = some view
  aim : ∀ n, p.selectedFrom = some n → view.phase = "Planning" ∧
    ∃ node, view.nodes.find? (·.id = n) = some node ∧
      p.selectedUnits ≤ max 0 (min view.myRemainingUnits (view.availableOnNode node)) ∧
      ∀ btn ∈ p.unitButtons, btn.disabled = false →
        btn.count ≤ max 0 (min view.myRemainingUnits (view.availableOnNode node))

/-- **The first click under a view**: nothing is sent, and what is chosen goes with the view, or a move
    that the view affords. -/
theorem Aimed.next (ha : Aimed view p) (hp : Coherent p) {input : PageInput} (hlegal : p.Legal input)
    (hinput : input.isView = false) :
    (p.next input).sent = p.sent ∧ Aimed view (p.next input) ∨
      ∃ m, (p.next input).sent = p.sent ++ [m] ∧ view.Affords m := by
  have hlast : (p.next input).view = some view := (view_next hinput).trans ha.lastView
  cases hp.clicked_next hlegal hinput with
  | rest sent selectedFrom units buttons =>
    refine Or.inl ⟨sent, hlast, fun n hn => ?_⟩
    rw [units, buttons]
    exact ha.aim n (selectedFrom ▸ hn)
  | cleared sent selectedFrom =>
    refine Or.inl ⟨sent, hlast, fun n hn => ?_⟩
    rw [selectedFrom] at hn
    cases hn
  | @chosen view' node nodeId lastView phase find sent selectedFrom units buttons =>
    obtain rfl : view = view' := Option.some_inj.mp (ha.lastView.symm.trans lastView)
    refine Or.inl ⟨sent, hlast, fun n hn => ?_⟩
    obtain rfl : nodeId = n := Option.some_inj.mp (selectedFrom.symm.trans hn)
    refine ⟨phase, node, find, units, fun btn hbtn hable => ?_⟩
    rw [buttons] at hbtn
    exact (mem_enableUpTo hbtn hable).trans (le_max_right _ _)
  | counted mem able sent selectedFrom units buttons =>
    refine Or.inl ⟨sent, hlast, fun n hn => ?_⟩
    obtain ⟨hphase, node, hfind, -, hbuttons⟩ := ha.aim n (selectedFrom ▸ hn)
    rw [units, buttons]
    exact ⟨hphase, node, hfind, hbuttons _ mem able, hbuttons⟩
  | @sends m selectedFrom target proper positive units sent =>
    obtain ⟨hphase, node, hfind, hchosen, hbuttons⟩ := ha.aim _ selectedFrom
    have hmost : m.unitCount ≤ max 0 (min view.myRemainingUnits (view.availableOnNode node)) := by
      rcases units with hunits | ⟨btn, hbtn, hable, hcount⟩
      · rw [hunits]
        exact hchosen
      · rw [← hcount]
        exact hbuttons btn hbtn hable
    exact Or.inr ⟨m, sent, hphase, positive, by omega, ⟨node, hfind, by omega⟩,
      (hp.origin _ selectedFrom).1, target⟩

end GamePage

/-- Whatever is sent is added to what was sent. -/
theorem sent_prefix {p : GamePage} (hp : p.Coherent) {input : PageInput} (hlegal : p.Legal input)
    (hinput : input.isView = false) : p.sent <+: (p.next input).sent := by
  cases hp.clicked_next hlegal hinput with
  | rest sent => rw [sent]
  | cleared sent => rw [sent]
  | chosen lastView phase find sent => rw [sent]
  | counted mem able sent => rw [sent]
  | @sends m selectedFrom target proper positive units sent => exact ⟨[m], sent.symm⟩

/-! ## What the server makes of it

A view that is still true shows four things of the room (`Shows`), and `moveRefusal` asks for
exactly these, and for the edge.  On the map of the game the lines that are drawn are the edges. -/

section Server

variable {room : GameRoom} {side : PlayerSide} {view : GameStateView}

/-- The part of a view that a move is checked against. -/
structure GameStateView.Shows (view : GameStateView) (room : GameRoom) (side : PlayerSide) : Prop where
  phase : view.phase = toString room.phase
  remaining : view.myRemainingUnits = room.getRemainingUnits side
  pendingMoves : view.myPendingMoves = (room.getPendingMoves side).map fun m =>
    ⟨m.fromNode.value, m.toNode.value, m.count⟩
  nodes : view.nodes = room.nodes.values.map (buildNodeView · side (hasHeadquartersVision side room))

/-- Every view that is built shows its room. -/
theorem shows_of_ok {planning : PlayerSessionState} {deadline : Option Time}
    (h : buildGameStateView room side planning deadline = .ok view) : view.Shows room side := by
  rw [buildGameStateView] at h
  cases hpending : room.pendingEncounters.mapM (buildPendingEncounterView room side) with
  | error err =>
    rw [hpending] at h
    cases h
  | ok pendingEncounters =>
    rw [hpending] at h
    cases h
    exact ⟨rfl, rfl, rfl, rfl⟩

/-- A node stands in the dictionary under its own number. -/
theorem OnMap.node_id (h : OnMap room) {id : NodeId} {n : Node} (hn : room.nodes.get? id = some n) :
    n.id = id := by
  refine mapNodes_named (id, nodeShape n) (Dict.mem_iff_get?.mpr ?_)
  rw [← h.nodes, Dict.get?_mapValues, hn]
  rfl

/-- `Planning` is the name of one phase only. -/
theorem phase_of_toString {phase : GamePhase} (h : toString phase = "Planning") : phase = .planning := by
  cases phase <;> first | rfl | exact absurd h (by decide)

namespace GameStateView.Shows

/-- A node of the view is the node of the room. -/
theorem find_node (hv : view.Shows room side) (hmap : OnMap room) {n : Int} {node : NodeView}
    (hfind : view.nodes.find? (·.id = n) = some node) :
    ∃ x, room.nodes.get? ⟨n⟩ = some x ∧
      node = buildNodeView x side (hasHeadquartersVision side room) := by
  rw [hv.nodes] at hfind
  obtain ⟨x, hx, rfl⟩ := List.mem_map.mp (List.mem_of_find?_eq_some hfind)
  obtain ⟨id, hid⟩ := Dict.mem_values.mp hx
  have hfound := List.find?_some hfind
  have hvalue : x.id.value = n := of_decide_eq_true hfound
  have hkey : id = ⟨n⟩ := by rw [← hmap.node_id hid, ← hvalue]
  exact ⟨x, hkey ▸ hid, rfl⟩

/-- What a view says to be committed from a node is what the room has reserved there. -/
theorem alreadyCommitted_eq (hv : view.Shows room side) (n : Int) :
    view.alreadyCommitted n = committedFrom (room.pendingMoves.get side) ⟨n⟩ := by
  have hsame : ∀ m : PendingMove, (m.fromNode.value = n) = (m.fromNode = ⟨n⟩) := by
    intro m
    rcases hm : m.fromNode with ⟨value⟩
    simp only [NodeId.mk.injEq]
  rw [alreadyCommitted, hv.pendingMoves, List.filter_map, List.map_map, committedFrom]
  simp only [Function.comp_def, hsame]
  rfl

/-- What a node has left in the view is what it has left in the room. -/
theorem availableOnNode_eq (hv : view.Shows room side) {n : Int} {x : Node} {b : Bool}
    (hid : x.id = ⟨n⟩) : view.availableOnNode (buildNodeView x side b) =
      room.availableAt side x ⟨n⟩ := by
  show x.getMobileCount side - view.alreadyCommitted x.id.value = _
  rw [hv.alreadyCommitted_eq, availableAt, hid]

end GameStateView.Shows

/-- The move as the server hears of it. -/
def PendingMoveView.toCommand (m : PendingMoveView) : MoveCommand :=
  ⟨⟨m.fromNodeId⟩, ⟨m.toNodeId⟩, m.unitCount⟩

/-- A move that the view affords is granted as it is, -/
theorem granted_of_affords (hv : view.Shows room side) {m : PendingMoveView} (hm : view.Affords m) :
    room.granted side m.toCommand = m.unitCount := by
  have hless := hm.remaining
  rw [hv.remaining] at hless
  exact min_eq_left hless

/-- and only a missing edge speaks against it. -/
theorem moveRefusal_of_affords (hv : view.Shows room side) (hmap : OnMap room) {m : PendingMoveView}
    (hm : view.Affords m) : room.moveRefusal side m.toCommand =
      if room.edges.containsKey (EdgeId.of ⟨m.fromNodeId⟩ ⟨m.toNodeId⟩) then none
      else some (.domain s!"No path between {m.toCommand.fromNode} and {m.toCommand.toNode}") := by
  have hgranted := granted_of_affords hv hm
  have hpos := hm.positive
  have hless := hm.remaining
  rw [hv.remaining, getRemainingUnits] at hless
  obtain ⟨node, hfind, havailable⟩ := hm.available
  obtain ⟨x, hx, rfl⟩ := hv.find_node hmap hfind
  rw [hv.availableOnNode_eq (hmap.node_id hx)] at havailable
  have hphase : room.phase = .planning := phase_of_toString (hv.phase ▸ hm.phase)
  rw [moveRefusal, if_neg (not_not_intro hphase), if_neg (by omega), hgranted, if_neg (by omega)]
  -- phase, number and remaining units are settled by the view: the edge is what is left to ask
  by_cases hedge : room.edges.containsKey (EdgeId.of ⟨m.fromNodeId⟩ ⟨m.toNodeId⟩)
  · rw [if_pos hedge]
    refine (if_neg (not_not_intro hedge)).trans ?_
    rw [show room.nodes.get? m.toCommand.fromNode = some x from hx]
    exact if_neg (Int.not_lt.mpr havailable)
  · rw [if_neg hedge]
    exact if_pos hedge

/-- The lines that are drawn are the edges of the room. -/
theorem containsKey_iff_drawn (hmap : OnMap room) {a b : Int} (ha : a ∈ nodePositions)
    (hb : b ∈ nodePositions) : room.edges.containsKey (EdgeId.of ⟨a⟩ ⟨b⟩) = true ↔
      (a, b) ∈ drawnEdges ∨ (b, a) ∈ drawnEdges := by
  have hdrawn : ∀ a ∈ nodePositions, ∀ b ∈ nodePositions,
      (mapEdges.containsKey (EdgeId.of ⟨a⟩ ⟨b⟩) = true ↔
        (a, b) ∈ drawnEdges ∨ (b, a) ∈ drawnEdges) := by decide +kernel
  rw [← hdrawn a ha b hb, ← hmap.edges, Dict.containsKey, Dict.containsKey, Dict.isSome_get?_mapValues]

/-- The session refuses such a move for the same reason only. -/
theorem sessionMoveRefusal_of_affords (hv : view.Shows room side) (hmap : OnMap room)
    {m : PendingMoveView} (hm : view.Affords m) : room.sessionMoveRefusal side m.toCommand =
      if room.edges.containsKey (EdgeId.of ⟨m.fromNodeId⟩ ⟨m.toNodeId⟩) then none
      else some (.domain s!"No path between {m.toCommand.fromNode} and {m.toCommand.toNode}") := by
  have hpos := hm.positive
  have hless := hm.remaining
  rw [hv.remaining] at hless
  have hphase : room.phase = .planning := phase_of_toString (hv.phase ▸ hm.phase)
  have hsame : room.adjusted side m.toCommand = m.toCommand :=
    congrArg (MoveCommand.mk _ _) (min_eq_left hless)
  rw [sessionMoveRefusal, if_neg (not_not_intro hphase), if_neg (by omega), hsame]
  exact moveRefusal_of_affords hv hmap hm

/-- A move that was reserved is in every view that is built then. -/
theorem confirmed_of_reserved {m : PendingMoveView} {planning : PlayerSessionState}
    {deadline : Option Time}
    (h : ⟨⟨m.fromNodeId⟩, ⟨m.toNodeId⟩, m.unitCount⟩ ∈ room.getPendingMoves side)
    (hview : buildGameStateView room side planning deadline = .ok view) {optMove : OptimisticMove}
    (hmove : optMove.move = m) : isConfirmed view.toClient optMove = true := by
  rw [isConfirmed_iff, hmove]
  show m ∈ view.myPendingMoves
  rw [(shows_of_ok hview).pendingMoves]
  exact List.mem_map.mpr ⟨_, h, rfl⟩

end Server

/-- What was sent first, since `sent`, the view affords; or nothing was, and what is chosen goes with
    the view. -/
def FirstAfforded (view : GameStateView) (sent : List PendingMoveView) (p : GamePage) : Prop :=
  (p.sent = sent ∧ p.Aimed view) ∨ ∃ m rest, p.sent = sent ++ m :: rest ∧ view.Affords m

/-- **Whatever is clicked under one view**, the first move that is sent is one that the view
    affords. -/
theorem firstAfforded_after {p : GamePage} (hp : p.Coherent) {view : GameStateView}
    (hlast : p.view = some view) (hnone : p.selectedFrom = none) {inputs : List PageInput}
    (hrun : controls.Steps (fun p input => p.Legal input ∧ input.isView = false) p inputs) :
    FirstAfforded view p.sent (controls.after p inputs) := by
  have hstart : FirstAfforded view p.sent p := Or.inl ⟨rfl, hlast, fun n hn => by
    rw [hnone] at hn
    cases hn⟩
  -- by induction on what happens; the invariant of the page goes along, since each click needs it
  refine (Machine.after_of_invariant
    (I := fun q => q.Coherent ∧ FirstAfforded view p.sent q)
    (fun q input hq hinput => ?_) ⟨hp, hstart⟩ hrun).2
  obtain ⟨hcoherent, hq⟩ := hq
  refine ⟨hcoherent.next hinput.1, ?_⟩
  rcases hq with ⟨hsent, haimed⟩ | ⟨m, rest, hsent, hm⟩
  · rcases haimed.next hcoherent hinput.1 hinput.2 with
      ⟨hsame, hstill⟩ | ⟨m, hnew, hm⟩
    · exact Or.inl ⟨hsame.trans hsent, hstill⟩
    · exact Or.inr ⟨m, [], hnew.trans (congrArg (· ++ [m]) hsent), hm⟩
  -- the first move has been sent: whatever comes later is added behind it
  · obtain ⟨more, hmore⟩ := sent_prefix hcoherent hinput.1 hinput.2
    refine Or.inr ⟨m, rest ++ more, ?_, hm⟩
    rw [← List.cons_append, ← List.append_assoc, ← hsent]
    exact hmore.symm

/-- **The first move under a true view.**  The last view of the page is what the server would show now,
    nothing is chosen, and then the player clicks whatever he likes and no view comes.  Of the first move
    that is sent then, the server takes every unit if a line joins the two nodes, and every view that
    is built next confirms it; otherwise it says that there is no path. -/
theorem first_move_accepted {roomId serverId : String} {hasEventPublisher : Bool}
    {planningTimeout : Time} {h : Host}
    (hreach : (hosts roomId serverId hasEventPublisher planningTimeout).Reachable h)
    {side : PlayerSide} (hconn : (h.session.playerStates.get side).isConnected = true)
    {view : GameStateView}
    (hview : buildGameStateView h.room side (h.session.playerStates.get side)
      h.session.planningDeadline = .ok view)
    {p : GamePage} (hpage : controls.Reachable p) (hlast : p.view = some view)
    (hnone : p.selectedFrom = none) {inputs : List PageInput}
    (hrun : controls.Steps (fun p input => p.Legal input ∧ input.isView = false) p inputs)
    {m : PendingMoveView} (hfirst : (controls.after p inputs).sent[p.sent.length]? = some m) :
    ((m.fromNodeId, m.toNodeId) ∈ drawnEdges ∨ (m.toNodeId, m.fromNodeId) ∈ drawnEdges →
      ∃ h', reliable.handleMoveUnits side m.toCommand h = .ok
          (.success m.unitCount (toString m.toCommand.fromNode) (toString m.toCommand.toNode)) h' ∧
        ∀ planning deadline view', buildGameStateView h'.room side planning deadline = .ok view' →
          ∀ optMove : OptimisticMove, optMove.move = m → isConfirmed view'.toClient optMove = true) ∧
    (¬ ((m.fromNodeId, m.toNodeId) ∈ drawnEdges ∨ (m.toNodeId, m.fromNodeId) ∈ drawnEdges) →
      reliable.handleMoveUnits side m.toCommand h = .error
        (.domain s!"No path between {m.toCommand.fromNode} and {m.toCommand.toNode}") h.synced) := by
  have hmap : OnMap h.room := (hosting_of_reachable hreach).room.sound.map
  have hshows := shows_of_ok hview
  -- the move is the first one behind those that had been sent when the view came
  have hm : view.Affords m := by
    rcases firstAfforded_after (coherent_of_reachable hpage) hlast hnone hrun with
      ⟨hsame, -⟩ | ⟨m', rest, hsent, hm'⟩
    · rw [hsame, List.getElem?_eq_none (le_refl _)] at hfirst
      cases hfirst
    · rw [hsent, List.getElem?_append_right (le_refl _), Nat.sub_self,
        List.getElem?_cons_zero] at hfirst
      exact Option.some_inj.mp hfirst ▸ hm'
  have hdrawn := containsKey_iff_drawn hmap hm.origin hm.target
  have hrefusal := sessionMoveRefusal_of_affords hshows hmap hm
  have heq := handleMoveUnits_eq hconn m.toCommand
  have hgranted : h.room.granted side (h.room.adjusted side m.toCommand) = m.unitCount :=
    (granted_adjusted h.room side m.toCommand).trans (granted_of_affords hshows hm)
  constructor
  · intro hline
    rw [hrefusal, if_pos (hdrawn.mpr hline)] at heq
    have hanswer : h.room.moveAnswer side m.toCommand =
        .success m.unitCount (toString m.toCommand.fromNode) (toString m.toCommand.toNode) := by
      rw [GameRoom.moveAnswer, hgranted]
    refine ⟨(h.synced.moved side m.toCommand).synced, ?_, ?_⟩
    · rw [heq, ← hanswer]
    -- the locked part has reserved the move, and a view lists what is reserved
    · intro planning deadline view' hview' optMove hmove
      refine confirmed_of_reserved ?_ hview' hmove
      rw [Host.room_synced, Host.moved, Host.flush_room]
      show _ ∈ (h.room.pendingMoves.update side
        (· ++ [h.room.grantedMove side (h.room.adjusted side m.toCommand)])).get side
      rw [PerSide.get_update_same, grantedMove, hgranted]
      exact List.mem_append_right _ (List.mem_singleton_self _)
  · intro hline
    rw [hrefusal, if_neg fun hedge => hline (hdrawn.mp hedge)] at heq
    exact heq

/-- One unit, which is chosen with the node, is sent from the outpost to the headquarters. -/
theorem first_move_accepted_opening : ∃ h',
    reliable.handleMoveUnits .a ⟨⟨1⟩, ⟨6⟩, 1⟩ openedHost = .ok (.success 1 "N1" "N6") h' ∧
      ∀ planning deadline view', buildGameStateView h'.room .a planning deadline = .ok view' →
        ∀ optMove : OptimisticMove, optMove.move = ⟨1, 6, 1⟩ →
          isConfirmed view'.toClient optMove = true := by
  have hrun : controls.Steps (fun p input => p.Legal input ∧ input.isView = false) openedPage
      [.nodeClick 0 1, .nodeClick 0 6] := by decide +kernel
  have hfirst : (controls.after openedPage [.nodeClick 0 1, .nodeClick 0 6]).sent[
      openedPage.sent.length]? = some ⟨1, 6, 1⟩ := by decide +kernel
  have hview : buildGameStateView openedHost.room .a (openedHost.session.playerStates.get .a)
      openedHost.session.planningDeadline = .ok openedView := eq_ok_get _
  exact (first_move_accepted openedHost_reachable (by decide +kernel) hview openedPage_reachable
    (GamePage.handleStateUpdate_updated GamePage.initial 0 openedView).lastView (by decide +kernel)
    hrun hfirst).1 (by decide)

end HexWar
