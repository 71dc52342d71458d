/-
  The order in which the queue in memory matches.

  TryMatchInMemory takes the players two by two from the front.  It drops those who have cancelled; a
  player who has not and whom it took together with one who has goes to the BACK of the queue (in Redis
  the sibling pushes to the front what it gives back).  So one pass over the queue keeps the order of
  the players only if it takes all of them, and if it is not ended by a match once somebody has been
  sent to the back (`tryMatchEntries_pass`).

  The players are objects: two entries may hold the same data, and are two.  The order is therefore
  that of the places in the queue, on which TryMatchInMemory does the same (`tryMatchInMemory_places`).


  The plan:
    1. a queue splits into what a pass takes without a match (`Passed`) and what is left: nothing, one
       entry, or a live pair with the rest (`passed_or`);
    2. what a pass takes comes back, in its order, behind the rest (`tryMatchEntries_pass`), so in each
       of the three cases the outcome is known, and so is whether the condition holds;
    3. the outcome is compared with the order of the queue, case by case (`firstComeEntries_iff`);
    4. the players of a queue are entries with their places, which are distinct, so that nothing is
       assumed of the players.
-/
import HexWar.Matchmaking.Queue

namespace HexWar

open Lib

/-! ## The entries

Entries of any type, of which only a predicate is known. -/

section Entries

variable {α : Type} (isCancelled : α → Bool)

/-- TryMatchInMemory on entries of which it sees only whether they are cancelled. -/
def tryMatchEntries : List α → List α × List (α × α)
  | entry1 :: entry2 :: rest =>
    if isCancelled entry1 then
      if isCancelled entry2 then tryMatchEntries rest
      else tryMatchEntries (rest ++ [entry2])
    else if isCancelled entry2 then tryMatchEntries (rest ++ [entry1])
    else (rest, [(entry1, entry2)])
  | [entry] => ([entry], [])
  | [] => ([], [])
termination_by queue => queue.length

/-- The entries that are not cancelled. -/
def liveEntries (queue : List α) : List α := queue.filter (!isCancelled ·)

/-- The queue two by two, as it is taken. -/
def twos : List α → List (α × α)
  | entry1 :: entry2 :: rest => (entry1, entry2) :: twos rest
  | _ => []

/-- Both entries of a pair are there. -/
def bothLive (p : α × α) : Bool := !isCancelled p.1 && !isCancelled p.2

/-- Both entries of a pair are gone. -/
def bothCancelled (p : α × α) : Bool := isCancelled p.1 && isCancelled p.2

/-- **The condition**: fewer than two are live; or the first pair that is not cancelled as a whole is
    live; or no pair is live and the pairs take the whole queue. -/
def InStep (queue : List α) : Prop :=
  (liveEntries isCancelled queue).length < 2 ∨
  ((twos queue).find? (!bothCancelled isCancelled ·)).any (bothLive isCancelled) = true ∨
  (∀ p ∈ twos queue, bothLive isCancelled p = false) ∧ queue.length % 2 = 0

instance (queue : List α) : Decidable (InStep isCancelled queue) := inferInstanceAs (Decidable (_ ∨ _))

variable [DecidableEq α]

/-- Who is in a match. -/
def matchedEntries (matched : List (α × α)) : List α := matched.flatMap fun m => [m.1, m.2]

/-- **First come, first served**: the two that joined earliest are matched in their order, and all the
    others who are live stay, in theirs. -/
structure FirstComeEntries (queue : List α) : Prop where
  /-- With two who have not cancelled there is a match, and it is of the first two; -/
  earliest : ∀ first second rest, liveEntries isCancelled queue = first :: second :: rest →
    (tryMatchEntries isCancelled queue).2 = [(first, second)]
  /-- whoever is not in it stays, in the same order. -/
  remaining : liveEntries isCancelled (tryMatchEntries isCancelled queue).1 =
    (liveEntries isCancelled queue).filter (· ∉ matchedEntries (tryMatchEntries isCancelled queue).2)

end Entries

/-! ## A pass over the queue

The lemmas before the pass say how the live entries of a queue are put together. -/

section Pass

variable {α : Type} {isCancelled : α → Bool}

@[simp] theorem liveEntries_nil : liveEntries isCancelled [] = [] := rfl

/-- The live entries of two parts of a queue, -/
theorem liveEntries_append (isCancelled : α → Bool) (front back : List α) :
    liveEntries isCancelled (front ++ back) =
      liveEntries isCancelled front ++ liveEntries isCancelled back :=
  List.filter_append ..

/-- of a queue with a live entry at the front, -/
theorem liveEntries_cons_of_live {entry : α} (h : isCancelled entry = false) (queue : List α) :
    liveEntries isCancelled (entry :: queue) = entry :: liveEntries isCancelled queue :=
  List.filter_cons_of_pos (by rw [h]; rfl)

/-- and with one who has cancelled. -/
theorem liveEntries_cons_of_cancelled {entry : α} (h : isCancelled entry = true) (queue : List α) :
    liveEntries isCancelled (entry :: queue) = liveEntries isCancelled queue :=
  List.filter_cons_of_neg (by rw [h]; decide)

/-- They are all live. -/
theorem liveEntries_live (queue : List α) :
    liveEntries isCancelled (liveEntries isCancelled queue) = liveEntries isCancelled queue :=
  List.filter_eq_self.mpr fun _ hentry => (List.mem_filter.mp hentry).2

/-- Who is live is in the queue and has not cancelled. -/
theorem mem_liveEntries {entry : α} {queue : List α} :
    entry ∈ liveEntries isCancelled queue ↔ entry ∈ queue ∧ isCancelled entry = false := by
  rw [liveEntries, List.mem_filter, Bool.not_eq_true']

/-- A pair is live when neither has cancelled. -/
theorem bothLive_iff {entry1 entry2 : α} : bothLive isCancelled (entry1, entry2) = true ↔
    isCancelled entry1 = false ∧ isCancelled entry2 = false := by
  rw [bothLive, Bool.and_eq_true, Bool.not_eq_true', Bool.not_eq_true']

/-- What a pass takes without a match. -/
inductive Passed (isCancelled : α → Bool) : List α → Prop
  /-- Nothing, -/
  | nil : Passed isCancelled []
  /-- or first a pair of which somebody has cancelled. -/
  | pair {entry1 entry2 : α} {rest : List α} (hpair : bothLive isCancelled (entry1, entry2) = false)
      (hrest : Passed isCancelled rest) : Passed isCancelled (entry1 :: entry2 :: rest)

/-- A queue is taken until a pair is live, or until at most one is left. -/
theorem passed_or (isCancelled : α → Bool) : ∀ queue : List α, ∃ todo, Passed isCancelled todo ∧
    (queue = todo ∨ (∃ last, queue = todo ++ [last]) ∨
      ∃ entry1 entry2 rest, bothLive isCancelled (entry1, entry2) = true ∧
        queue = todo ++ entry1 :: entry2 :: rest)
  | [] => ⟨[], .nil, .inl rfl⟩
  | [last] => ⟨[], .nil, .inr (.inl ⟨last, rfl⟩)⟩
  | entry1 :: entry2 :: rest => by
    cases hpair : bothLive isCancelled (entry1, entry2) with
    | true => exact ⟨[], .nil, .inr (.inr ⟨entry1, entry2, rest, hpair, rfl⟩)⟩
    | false =>
      -- The pair is taken, and the pass goes on with the rest.
      obtain ⟨todo, htodo, hqueue⟩ := passed_or isCancelled rest
      refine ⟨entry1 :: entry2 :: todo, .pair hpair htodo, ?_⟩
      rcases hqueue with rfl | ⟨last, rfl⟩ | ⟨e1, e2, later, hlive, rfl⟩
      · exact .inl rfl
      · exact .inr (.inl ⟨last, rfl⟩)
      · exact .inr (.inr ⟨e1, e2, later, hlive, rfl⟩)

/-- **A pass**: what it takes without a match comes back in its order, behind what was in the queue. -/
theorem tryMatchEntries_pass {todo : List α} (htodo : Passed isCancelled todo) :
    ∀ back, tryMatchEntries isCancelled (todo ++ back) =
      tryMatchEntries isCancelled (back ++ liveEntries isCancelled todo) := by
  induction htodo with
  | nil => intro back; rw [List.nil_append, liveEntries_nil, List.append_nil]
  | @pair entry1 entry2 rest hpair hrest ih =>
    intro back
    rw [List.cons_append, List.cons_append, tryMatchEntries]
    -- By who of the two has cancelled: both are dropped, or the other one goes to the back.
    cases h1 : isCancelled entry1 with
    | true =>
      rw [if_pos rfl, liveEntries_cons_of_cancelled h1]
      cases h2 : isCancelled entry2 with
      | true => rw [if_pos rfl, liveEntries_cons_of_cancelled h2, ih]
      | false =>
        rw [if_neg Bool.false_ne_true, liveEntries_cons_of_live h2, List.append_assoc, ih,
          List.append_assoc, List.singleton_append]
    | false =>
      rw [if_neg Bool.false_ne_true, liveEntries_cons_of_live h1]
      cases h2 : isCancelled entry2 with
      | true =>
        rw [if_pos rfl, liveEntries_cons_of_cancelled h2, List.append_assoc, ih, List.append_assoc,
          List.singleton_append]
      | false =>
        rw [bothLive, h1, h2] at hpair
        cases hpair

/-- Two who are there are matched. -/
theorem tryMatchEntries_live {entry1 entry2 : α} (h : bothLive isCancelled (entry1, entry2) = true)
    (rest : List α) :
    tryMatchEntries isCancelled (entry1 :: entry2 :: rest) = (rest, [(entry1, entry2)]) := by
  obtain ⟨h1, h2⟩ := bothLive_iff.mp h
  rw [tryMatchEntries, if_neg (by rw [h1]; decide), if_neg (by rw [h2]; decide)]

/-- What a pass takes is, two by two, not live; and wholly cancelled only if nobody is sent back. -/
theorem Passed.twos_append {todo : List α} (htodo : Passed isCancelled todo) (back : List α) :
    ∃ gone, twos (todo ++ back) = gone ++ twos back ∧ (∀ p ∈ gone, bothLive isCancelled p = false) ∧
      ((∀ p ∈ gone, bothCancelled isCancelled p = true) ↔ liveEntries isCancelled todo = []) := by
  induction htodo with
  | nil =>
    refine ⟨[], rfl, ?_, iff_of_true ?_ rfl⟩
    · intro p hp; cases hp
    · intro p hp; cases hp
  | @pair entry1 entry2 rest hpair hrest ih =>
    obtain ⟨gone, htwos, hgone, hcancelled⟩ := ih
    refine ⟨(entry1, entry2) :: gone, ?_, ?_, ?_⟩
    · rw [List.cons_append, List.cons_append, twos, htwos, List.cons_append]
    · exact List.forall_mem_cons.mpr ⟨hpair, hgone⟩
    · rw [List.forall_mem_cons, hcancelled, bothCancelled, Bool.and_eq_true]
      cases h1 : isCancelled entry1 with
      | false => rw [liveEntries_cons_of_live h1]; simp
      | true =>
        rw [liveEntries_cons_of_cancelled h1]
        cases h2 : isCancelled entry2 with
        | false => rw [liveEntries_cons_of_live h2]; simp
        | true => rw [liveEntries_cons_of_cancelled h2]; simp

/-- Of pairs of which none is live, the first that is not cancelled as a whole is not live. -/
theorem firstPair_not_live {gone : List (α × α)} (hgone : ∀ p ∈ gone, bothLive isCancelled p = false) :
    (gone.find? (!bothCancelled isCancelled ·)).any (bothLive isCancelled) = false := by
  cases hfound : gone.find? (!bothCancelled isCancelled ·) with
  | none => rfl
  | some p => exact hgone p (List.mem_of_find?_eq_some hfound)

/-- A pass takes an even number. -/
theorem Passed.even {todo : List α} (htodo : Passed isCancelled todo) : todo.length % 2 = 0 := by
  induction htodo with
  | nil => rfl
  | pair hpair hrest ih => rw [List.length_cons, List.length_cons]; omega

/-- A pair is live: the queue is in step exactly if all who were taken before it had cancelled. -/
theorem Passed.inStep_pair_iff {todo rest : List α} {entry1 entry2 : α}
    (htodo : Passed isCancelled todo) (hpair : bothLive isCancelled (entry1, entry2) = true) :
    InStep isCancelled (todo ++ entry1 :: entry2 :: rest) ↔ liveEntries isCancelled todo = [] := by
  obtain ⟨gone, htwos, hgone, hcancelled⟩ := htodo.twos_append (entry1 :: entry2 :: rest)
  obtain ⟨h1, h2⟩ := bothLive_iff.mp hpair
  rw [twos] at htwos
  constructor
  · rintro (hshort | hfirstPair | ⟨hnone, -⟩)
    · rw [liveEntries_append, liveEntries_cons_of_live h1, liveEntries_cons_of_live h2,
        List.length_append, List.length_cons, List.length_cons] at hshort
      exact List.length_eq_zero_iff.mp (by omega)
    · -- the first pair of which somebody is there would be one that was split
      by_contra hwaiting
      have hsome : (gone.find? (!bothCancelled isCancelled ·)).isSome = true := by
        rw [List.find?_isSome]
        by_contra hnone
        refine hwaiting (hcancelled.mp fun p hp => ?_)
        by_contra hp'
        exact hnone ⟨p, hp, by rw [Bool.not_eq_true] at hp'; rw [hp']; rfl⟩
      rw [htwos, List.find?_append, Option.or_of_isSome hsome, firstPair_not_live hgone] at hfirstPair
      cases hfirstPair
    · have hpair' := hnone (entry1, entry2) (htwos ▸ List.mem_append_right _ List.mem_cons_self)
      rw [hpair] at hpair'
      cases hpair'
  -- With nobody sent back before it, the live pair is the first one that counts.
  · intro hnobody
    have hskip : gone.find? (!bothCancelled isCancelled ·) = none := by
      refine List.find?_eq_none.mpr fun p hp => ?_
      rw [hcancelled.mpr hnobody p hp]
      decide
    have hthere : bothCancelled isCancelled (entry1, entry2) = false := by
      rw [bothCancelled, h1]
      rfl
    refine .inr (.inl ?_)
    rw [htwos, List.find?_append, hskip, Option.none_or, List.find?_cons_of_pos (by rw [hthere]; rfl)]
    exact hpair

/-- One is left at the end of the pass. -/
theorem Passed.inStep_last_iff {todo : List α} (htodo : Passed isCancelled todo) (last : α) :
    InStep isCancelled (todo ++ [last]) ↔ (liveEntries isCancelled (todo ++ [last])).length < 2 := by
  obtain ⟨gone, htwos, hgone, -⟩ := htodo.twos_append [last]
  rw [show twos [last] = [] from rfl, List.append_nil] at htwos
  have hodd : ¬ (todo ++ [last]).length % 2 = 0 := by
    -- One more than an even number is odd, so the pairs do not take the whole queue.
    have heven := htodo.even
    rw [List.length_append, List.length_singleton]
    omega
  refine ⟨?_, .inl⟩
  rintro (hshort | hpair | ⟨-, heven⟩)
  · exact hshort
  · rw [htwos, firstPair_not_live hgone] at hpair
    cases hpair
  · exact absurd heven hodd

/-- It comes to stand before those who were sent to the back. -/
theorem Passed.outcome_last {todo : List α} (htodo : Passed isCancelled todo) (last : α) :
    tryMatchEntries isCancelled (todo ++ [last]) =
      tryMatchEntries isCancelled (last :: liveEntries isCancelled todo) :=
  tryMatchEntries_pass htodo [last]

/-- Of two the one who is there goes to the back. -/
theorem tryMatchEntries_sent {entry1 entry2 : α} (h1 : isCancelled entry1 = true)
    (h2 : isCancelled entry2 = false) (rest : List α) :
    tryMatchEntries isCancelled (entry1 :: entry2 :: rest) =
      tryMatchEntries isCancelled (rest ++ [entry2]) := by
  rw [tryMatchEntries, if_pos h1, if_neg (by rw [h2]; decide)]

/-- Of the entries the order sees only whether they are cancelled. -/
theorem twos_map {α β : Type} (f : α → β) : ∀ queue : List α,
    twos (queue.map f) = (twos queue).map (Prod.map f f)
  | [] => rfl
  | [_] => rfl
  | _ :: _ :: rest => congrArg (_ :: ·) (twos_map f rest)

/-- So it is the same condition for the places of a queue as for its players. -/
theorem inStep_map {α β : Type} (isCancelled : β → Bool) (f : α → β) (queue : List α) :
    InStep isCancelled (queue.map f) ↔ InStep (fun entry => isCancelled (f entry)) queue := by
  have hlive : (liveEntries isCancelled (queue.map f)).length =
      (liveEntries (fun entry => isCancelled (f entry)) queue).length := by
    rw [liveEntries, List.filter_map, List.length_map]
    rfl
  have hpair : ((twos (queue.map f)).find? (!bothCancelled isCancelled ·)).any (bothLive isCancelled) =
      ((twos queue).find? (!bothCancelled (fun entry => isCancelled (f entry)) ·)).any
        (bothLive fun entry => isCancelled (f entry)) := by
    rw [twos_map, List.find?_map, Option.any_map]
    rfl
  rw [InStep, InStep, hlive, hpair, twos_map, List.forall_mem_map, List.length_map]
  rfl

/-- Of at most two nobody is overtaken. -/
theorem inStep_of_length_le_two {α : Type} (isCancelled : α → Bool) {queue : List α}
    (hshort : queue.length ≤ 2) : InStep isCancelled queue := by
  match queue with
  | [] => exact .inl Nat.zero_lt_two
  | [entry] => exact .inl (Nat.lt_succ_of_le (List.length_filter_le _ [entry]))
  | [entry1, entry2] =>
    -- Two entries are one pair: it is live, or it takes the whole queue.
    cases hpair : bothLive isCancelled (entry1, entry2) with
    | false =>
      refine .inr (.inr ⟨?_, Nat.mod_self 2⟩)
      intro p hp
      rw [List.mem_singleton.mp hp]
      exact hpair
    | true =>
      have hthere : bothCancelled isCancelled (entry1, entry2) = false := by
        rw [bothCancelled, (bothLive_iff.mp hpair).1]
        rfl
      refine .inr (.inl ?_)
      rw [twos, List.find?_cons_of_pos (by rw [hthere]; rfl)]
      exact hpair

end Pass

/-! ## First come, first served

In each of the three cases the outcome of the pass is known; what is left is to compare it with the
order in which the players came. -/

section FirstCome

variable {α : Type} [DecidableEq α] {isCancelled : α → Bool} {queue : List α}

/-- The two who are first are matched, and the others stay. -/
theorem firstComeEntries_of_matched (hnodup : queue.Nodup) {first second : α} {rest left : List α}
    (hlive : liveEntries isCancelled queue = first :: second :: rest)
    (houtcome : tryMatchEntries isCancelled queue = (left, [(first, second)]))
    (hleft : liveEntries isCancelled left = rest) : FirstComeEntries isCancelled queue := by
  have hdistinct : (first :: second :: rest).Nodup := hlive ▸ hnodup.filter _
  obtain ⟨hfirst, hsecond⟩ := List.nodup_cons.mp hdistinct
  -- The entries are distinct, so the two who are matched do not come again.
  have hrest : ∀ entry ∈ rest, entry ∉ [first, second] := by
    intro entry hentry hmatched
    rcases List.mem_cons.mp hmatched with rfl | hmatched
    · exact hfirst (List.mem_cons_of_mem _ hentry)
    · rw [List.mem_singleton.mp hmatched] at hentry
      exact (List.nodup_cons.mp hsecond).1 hentry
  constructor
  · intro first' second' rest' hlive'
    rw [hlive] at hlive'
    injection hlive' with h1 htail
    injection htail with h2 htail
    rw [houtcome, h1, h2]
  · rw [houtcome, hlive, hleft]
    show rest = (first :: second :: rest).filter (· ∉ [first, second])
    rw [List.filter_cons_of_neg (by simp), List.filter_cons_of_neg (by simp)]
    exact (List.filter_eq_self.mpr fun entry hentry => decide_eq_true (hrest entry hentry)).symm

/-- Nobody is matched, and whoever is live stays. -/
theorem firstComeEntries_of_short {left : List α} (hlive : (liveEntries isCancelled queue).length < 2)
    (houtcome : tryMatchEntries isCancelled queue = (left, []))
    (hleft : liveEntries isCancelled left = liveEntries isCancelled queue) :
    FirstComeEntries isCancelled queue := by
  constructor
  · intro first second rest hqueue
    rw [hqueue] at hlive
    exact absurd hlive (by simp)
  · rw [houtcome, hleft]
    exact (List.filter_eq_self.mpr fun entry _ => decide_eq_true List.not_mem_nil).symm

/-- Somebody else is matched as the first player. -/
theorem not_firstComeEntries {first entry1 entry2 : α} {rest left : List α}
    (hlive : liveEntries isCancelled queue = first :: rest) (hrest : rest ≠ [])
    (houtcome : tryMatchEntries isCancelled queue = (left, [(entry1, entry2)]))
    (hother : entry1 ≠ first) : ¬ FirstComeEntries isCancelled queue := by
  intro h
  obtain ⟨second, later, rfl⟩ := List.exists_cons_of_ne_nil hrest
  have hmatched := h.earliest first second later hlive
  rw [houtcome] at hmatched
  injection hmatched with hpair
  injection hpair with hentry1
  exact hother hentry1

/-- Nobody has cancelled. -/
theorem firstComeEntries_allLive (hnodup : queue.Nodup) {entries : List α}
    (hentries : liveEntries isCancelled queue = entries)
    (houtcome : tryMatchEntries isCancelled queue = tryMatchEntries isCancelled entries) :
    FirstComeEntries isCancelled queue := by
  have hall : liveEntries isCancelled entries = entries := by rw [← hentries, liveEntries_live]
  match entries with
  | [] =>
    rw [tryMatchEntries] at houtcome
    exact firstComeEntries_of_short (by rw [hentries]; simp) houtcome (by rw [hentries, hall])
  | [entry] =>
    rw [tryMatchEntries] at houtcome
    exact firstComeEntries_of_short (by rw [hentries]; simp) houtcome (by rw [hentries, hall])
  | first :: second :: rest =>
    have h1 : isCancelled first = false := (mem_liveEntries.mp (hall ▸ List.mem_cons_self)).2
    have h2 : isCancelled second = false :=
      (mem_liveEntries.mp (hall ▸ List.mem_cons_of_mem _ List.mem_cons_self)).2
    rw [liveEntries_cons_of_live h1, liveEntries_cons_of_live h2] at hall
    injection hall with _ hall
    injection hall with _ hall
    rw [tryMatchEntries_live (by rw [bothLive, h1, h2]; rfl)] at houtcome
    exact firstComeEntries_of_matched hnodup hentries houtcome hall

/-- The pairs take the whole queue. -/
theorem Passed.firstCome_whole_iff (hqueue : Passed isCancelled queue) (hnodup : queue.Nodup) :
    FirstComeEntries isCancelled queue ↔ InStep isCancelled queue := by
  obtain ⟨gone, htwos, hgone, -⟩ := hqueue.twos_append []
  rw [List.append_nil] at htwos
  have houtcome := tryMatchEntries_pass hqueue []
  rw [List.append_nil, List.nil_append] at houtcome
  refine iff_of_true (firstComeEntries_allLive hnodup rfl houtcome) (.inr (.inr ⟨?_, hqueue.even⟩))
  rw [htwos, show twos ([] : List α) = [] from rfl, List.append_nil]
  exact hgone

/-- A pair is live: whoever was sent to the back before it is overtaken. -/
theorem Passed.firstCome_pair_iff {todo rest : List α} {entry1 entry2 : α}
    (htodo : Passed isCancelled todo) (hpair : bothLive isCancelled (entry1, entry2) = true)
    (hnodup : (todo ++ entry1 :: entry2 :: rest).Nodup) :
    FirstComeEntries isCancelled (todo ++ entry1 :: entry2 :: rest) ↔
      liveEntries isCancelled todo = [] := by
  obtain ⟨h1, h2⟩ := bothLive_iff.mp hpair
  have houtcome := tryMatchEntries_pass htodo (entry1 :: entry2 :: rest)
  rw [List.cons_append, List.cons_append, tryMatchEntries_live hpair] at houtcome
  have hlive := liveEntries_append isCancelled todo (entry1 :: entry2 :: rest)
  rw [liveEntries_cons_of_live h1, liveEntries_cons_of_live h2] at hlive
  cases htodoLive : liveEntries isCancelled todo with
  | nil =>
    rw [htodoLive, List.nil_append] at hlive
    rw [htodoLive, List.append_nil] at houtcome
    exact iff_of_true (firstComeEntries_of_matched hnodup hlive houtcome rfl) rfl
  | cons first waiting =>
    rw [htodoLive, List.cons_append] at hlive
    have hfirst : first ∈ todo := (mem_liveEntries.mp (htodoLive ▸ List.mem_cons_self)).1
    have hother : entry1 ≠ first := by
      rintro rfl
      exact List.disjoint_of_nodup_append hnodup hfirst List.mem_cons_self
    exact iff_of_false (not_firstComeEntries hlive (by simp) houtcome hother) (List.cons_ne_nil _ _)

/-- The one who is left at the end is there, and is matched as the first. -/
theorem Passed.firstCome_lastLive_iff {todo : List α} {last : α} (htodo : Passed isCancelled todo)
    (hlast : isCancelled last = false) (hnodup : (todo ++ [last]).Nodup) :
    FirstComeEntries isCancelled (todo ++ [last]) ↔
      (liveEntries isCancelled (todo ++ [last])).length < 2 := by
  have houtcome := htodo.outcome_last last
  have hlive := liveEntries_append isCancelled todo [last]
  rw [liveEntries_cons_of_live hlast, liveEntries_nil] at hlive
  cases htodoLive : liveEntries isCancelled todo with
  | nil =>
    rw [htodoLive, List.nil_append] at hlive
    rw [htodoLive, tryMatchEntries] at houtcome
    have hshort : (liveEntries isCancelled (todo ++ [last])).length < 2 := by rw [hlive]; simp
    refine iff_of_true (firstComeEntries_of_short hshort houtcome ?_) hshort
    rw [hlive, liveEntries_cons_of_live hlast, liveEntries_nil]
  | cons first waiting =>
    have hfirst := mem_liveEntries.mp (htodoLive ▸ List.mem_cons_self (a := first) (l := waiting))
    rw [htodoLive, List.cons_append] at hlive
    rw [htodoLive, tryMatchEntries_live (bothLive_iff.mpr ⟨hlast, hfirst.2⟩)] at houtcome
    have hother : last ≠ first := by
      rintro rfl
      exact List.disjoint_of_nodup_append hnodup hfirst.1 List.mem_cons_self
    refine iff_of_false (not_firstComeEntries hlive (by simp) houtcome hother) ?_
    rw [hlive, List.length_cons, List.length_append, List.length_singleton]
    omega

/-- It is gone, and sends the first to the back: the second is matched with whoever comes next. -/
theorem Passed.firstCome_lastGone_iff {todo : List α} {last : α} (htodo : Passed isCancelled todo)
    (hlast : isCancelled last = true) (hnodup : (todo ++ [last]).Nodup) :
    FirstComeEntries isCancelled (todo ++ [last]) ↔
      (liveEntries isCancelled (todo ++ [last])).length < 2 := by
  have houtcome := htodo.outcome_last last
  have hlive := liveEntries_append isCancelled todo [last]
  rw [liveEntries_cons_of_cancelled hlast, liveEntries_nil, List.append_nil] at hlive
  have hthere : ∀ entry ∈ liveEntries isCancelled todo, isCancelled entry = false :=
    fun entry hentry => (mem_liveEntries.mp hentry).2
  have hdistinct : (liveEntries isCancelled todo).Nodup := hlive ▸ hnodup.filter _
  match htodoLive : liveEntries isCancelled todo with
  | [] =>
    rw [htodoLive] at hlive
    rw [htodoLive, tryMatchEntries] at houtcome
    have hshort : (liveEntries isCancelled (todo ++ [last])).length < 2 := by rw [hlive]; simp
    refine iff_of_true (firstComeEntries_of_short hshort houtcome ?_) hshort
    rw [hlive, liveEntries_cons_of_cancelled hlast, liveEntries_nil]
  | [entry] =>
    rw [htodoLive] at hlive hthere
    have hentry := hthere entry List.mem_cons_self
    rw [htodoLive, tryMatchEntries_sent hlast hentry, List.nil_append, tryMatchEntries] at houtcome
    have hshort : (liveEntries isCancelled (todo ++ [last])).length < 2 := by rw [hlive]; simp
    refine iff_of_true (firstComeEntries_of_short hshort houtcome ?_) hshort
    rw [hlive, liveEntries_cons_of_live hentry, liveEntries_nil]
  -- The first is sent to the back, and the second is matched with whoever comes next, who is live
  -- too.
  | first :: second :: waiting =>
    rw [htodoLive] at hlive hthere hdistinct
    obtain ⟨next, later, hnext⟩ : ∃ next later, waiting ++ [first] = next :: later :=
      List.exists_cons_of_ne_nil (by simp)
    have hnextLive : isCancelled next = false := by
      have hmem : next ∈ waiting ++ [first] := hnext ▸ List.mem_cons_self
      refine hthere next ?_
      rcases List.mem_append.mp hmem with hmem | hmem
      · exact List.mem_cons_of_mem _ (List.mem_cons_of_mem _ hmem)
      · exact List.mem_singleton.mp hmem ▸ List.mem_cons_self
    have hsecond := hthere second (List.mem_cons_of_mem _ List.mem_cons_self)
    rw [htodoLive, tryMatchEntries_sent hlast (hthere first List.mem_cons_self), List.cons_append,
      hnext, tryMatchEntries_live (bothLive_iff.mpr ⟨hsecond, hnextLive⟩)] at houtcome
    have hother : second ≠ first := by
      rintro rfl
      exact (List.nodup_cons.mp hdistinct).1 List.mem_cons_self
    refine iff_of_false (not_firstComeEntries hlive (by simp) houtcome hother) ?_
    rw [hlive, List.length_cons, List.length_cons]
    omega

/-- **Matching is first come, first served exactly if the pairs keep step with the queue.** -/
theorem firstComeEntries_iff (hnodup : queue.Nodup) :
    FirstComeEntries isCancelled queue ↔ InStep isCancelled queue := by
  obtain ⟨todo, htodo, rfl | ⟨last, rfl⟩ | ⟨entry1, entry2, rest, hpair, rfl⟩⟩ :=
    passed_or isCancelled queue
  · exact htodo.firstCome_whole_iff hnodup
  · rw [htodo.inStep_last_iff last]
    cases hlast : isCancelled last with
    | false => exact htodo.firstCome_lastLive_iff hlast hnodup
    | true => exact htodo.firstCome_lastGone_iff hlast hnodup
  · rw [htodo.inStep_pair_iff hpair]
    exact htodo.firstCome_pair_iff hpair hnodup

end FirstCome

/-! ## The players

The places make the entries distinct, whatever the players are. -/

/-- A player in the queue, and the place it took. -/
abbrev QueueEntry := QueuedPlayer × Nat

/-- The entries of a queue. -/
def queueEntries (queue : List QueuedPlayer) : List QueueEntry := queue.zipIdx

/-- No place is taken twice, -/
theorem queueEntries_nodup (queue : List QueuedPlayer) : (queueEntries queue).Nodup :=
  List.Nodup.of_map Prod.snd (by rw [queueEntries, List.zipIdx_map_snd]; exact List.nodup_range' ..)

/-- and the players are those of the queue. -/
theorem queueEntries_player (queue : List QueuedPlayer) : (queueEntries queue).map Prod.fst = queue :=
  List.zipIdx_map_fst ..

section Players

variable (isCancellationRequested : CancellationToken → Bool)

/-- The player has cancelled. -/
def QueuedPlayer.isCancelled (player : QueuedPlayer) : Bool :=
  isCancellationRequested player.cancellationToken

/-- The player of the entry has. -/
def QueueEntry.isCancelled (entry : QueueEntry) : Bool := entry.1.isCancelled isCancellationRequested

/-- TryMatchInMemory on the entries of a queue. -/
def tryMatchPlaces (queue : List QueuedPlayer) : List QueueEntry × List (QueueEntry × QueueEntry) :=
  tryMatchEntries (QueueEntry.isCancelled isCancellationRequested) (queueEntries queue)

/-- The event that a match of two entries raises. -/
def matchRaised (m : QueueEntry × QueueEntry) : MatchFoundEventArgs := ⟨m.1.1, m.2.1⟩

/-- **Standalone matching is first come, first served** on a queue: TryMatchInMemory leaves and raises
    what it does on the entries, and there the two who joined earliest are matched in their order and
    the others stay in theirs. -/
structure FirstCome (queue : List QueuedPlayer) : Prop where
  outcome : tryMatchInMemory isCancellationRequested queue =
    ((tryMatchPlaces isCancellationRequested queue).1.map Prod.fst,
      (tryMatchPlaces isCancellationRequested queue).2.map matchRaised)
  order : FirstComeEntries (QueueEntry.isCancelled isCancellationRequested) (queueEntries queue)

/-- TryMatchInMemory does with the players what it does with their entries. -/
theorem tryMatchInMemory_map (queue : List QueueEntry) :
    tryMatchInMemory isCancellationRequested (queue.map Prod.fst) =
      ((tryMatchEntries (QueueEntry.isCancelled isCancellationRequested) queue).1.map Prod.fst,
        (tryMatchEntries (QueueEntry.isCancelled isCancellationRequested) queue).2.map matchRaised) := by
  -- One case for each branch of TryMatchInMemory.
  fun_induction tryMatchEntries (QueueEntry.isCancelled isCancellationRequested) queue with
  | case1 entry1 entry2 rest h1 h2 ih =>
    rw [List.map_cons, List.map_cons, tryMatchInMemory]
    exact (if_pos h1).trans ((if_pos h2).trans ih)
  | case2 entry1 entry2 rest h1 h2 ih =>
    rw [List.map_append] at ih
    rw [List.map_cons, List.map_cons, tryMatchInMemory]
    exact (if_pos h1).trans ((if_neg h2).trans ih)
  | case3 entry1 entry2 rest h1 h2 ih =>
    rw [List.map_append] at ih
    rw [List.map_cons, List.map_cons, tryMatchInMemory]
    exact (if_neg h1).trans ((if_pos h2).trans ih)
  | case4 entry1 entry2 rest h1 h2 =>
    rw [List.map_cons, List.map_cons, tryMatchInMemory]
    exact (if_neg h1).trans (if_neg h2)
  | case5 entry => rw [List.map_cons, List.map_nil, tryMatchInMemory]; rfl
  | case6 => rw [List.map_nil, tryMatchInMemory]; rfl

/-- In particular with the players of a queue and their places. -/
theorem tryMatchInMemory_places (queue : List QueuedPlayer) :
    tryMatchInMemory isCancellationRequested queue =
      ((tryMatchPlaces isCancellationRequested queue).1.map Prod.fst,
        (tryMatchPlaces isCancellationRequested queue).2.map matchRaised) := by
  have h := tryMatchInMemory_map isCancellationRequested (queueEntries queue)
  rw [queueEntries_player] at h
  exact h

/-- Whether the pairs keep step is a matter of the players' tokens. -/
theorem inStep_entries (queue : List QueuedPlayer) :
    InStep (QueueEntry.isCancelled isCancellationRequested) (queueEntries queue) ↔
      InStep (QueuedPlayer.isCancelled isCancellationRequested) queue := by
  have hstep := inStep_map (QueuedPlayer.isCancelled isCancellationRequested) Prod.fst
    (queueEntries queue)
  rw [queueEntries_player] at hstep
  exact hstep.symm

/-- With the pairs in step matching is first come, first served. -/
theorem firstCome_of_inStep {queue : List QueuedPlayer}
    (h : InStep (QueuedPlayer.isCancelled isCancellationRequested) queue) :
    FirstCome isCancellationRequested queue :=
  ⟨tryMatchInMemory_places isCancellationRequested queue,
    (firstComeEntries_iff (queueEntries_nodup queue)).mpr
      ((inStep_entries isCancellationRequested queue).mpr h)⟩

/-- **When standalone matching is first come, first served**: exactly if the pairs keep step with the
    queue, which is a matter of the tokens. -/
theorem firstCome_iff (queue : List QueuedPlayer) :
    FirstCome isCancellationRequested queue ↔
      InStep (QueuedPlayer.isCancelled isCancellationRequested) queue := by
  constructor
  · intro h
    exact (inStep_entries isCancellationRequested queue).mp
      ((firstComeEntries_iff (queueEntries_nodup queue)).mp h.order)
  · exact firstCome_of_inStep isCancellationRequested

/-- Who joins while at most one waits is matched with that one, or waits behind nobody. -/
theorem length_tryMatchInMemory {queue : List QueuedPlayer} (hshort : queue.length ≤ 2) :
    (tryMatchInMemory isCancellationRequested queue).1.length ≤ 1 := by
  match queue with
  | [] => rw [tryMatchInMemory]; exact Nat.zero_le _
  | [player] => rw [tryMatchInMemory]; exact Nat.le_refl _
  | [player1, player2] =>
    rw [tryMatchInMemory]
    split
    · split
      · rw [tryMatchInMemory]
        exact Nat.zero_le _
      · rw [List.nil_append, tryMatchInMemory]
        exact Nat.le_refl _
    · split
      · rw [List.nil_append, tryMatchInMemory]
        exact Nat.le_refl _
      · exact Nat.zero_le _

end Players

/-! ## Calls one after the other

A call waits for the last one to return.  Then nobody is ever overtaken. -/

/-- A call, with the tokens that are cancelled when it is made. -/
inductive MemoryCall where
  /-- A token may be cancelled between any two calls. -/
  | enqueueAsync (isCancellationRequested : CancellationToken → Bool) (player : QueuedPlayer)
  | dequeueAsync (playerId : String)

/-- One call. -/
def InMemoryQueue.next (m : InMemoryQueue) : MemoryCall → InMemoryQueue
  | .enqueueAsync isCancellationRequested player => m.enqueueAsync isCancellationRequested player
  | .dequeueAsync playerId => m.dequeueAsync playerId

/-- The queue in memory, each call made after the last has returned. -/
def inMemoryMatchmaking : Machine InMemoryQueue MemoryCall :=
  ⟨⟨[], [], []⟩, InMemoryQueue.next, fun _ _ => True⟩

/-- The queue on which the call runs TryMatchInMemory is served in order. -/
def ServedInOrder (m : InMemoryQueue) : MemoryCall → Prop
  | .enqueueAsync isCancellationRequested player =>
    FirstCome isCancellationRequested (m.queue ++ [player])
  | .dequeueAsync _ => True

/-- Between the calls at most one waits. -/
theorem length_next {m : InMemoryQueue} (hshort : m.queue.length ≤ 1) :
    ∀ call, (m.next call).queue.length ≤ 1
  | .enqueueAsync _ _ =>
    length_tryMatchInMemory _ (by rw [List.length_append]; exact Nat.succ_le_succ hshort)
  | .dequeueAsync _ => Nat.le_trans (List.length_filter_le ..) hshort

/-- **Calls that do not overlap are served in order**: at most one waits when the next one joins.  It
    takes overlapping joins, each of which queues before it takes the lock, to be overtaken. -/
theorem steps_servedInOrder (calls : List MemoryCall) :
    inMemoryMatchmaking.Steps ServedInOrder inMemoryMatchmaking.start calls := by
  refine Machine.steps_of_invariant (C := fun _ _ => True) (I := fun m => m.queue.length ≤ 1)
    (fun m call hshort _ => length_next hshort call) ?_ (Nat.zero_le _)
    (Machine.steps_of_forall (fun _ _ => trivial) calls _)
  intro m call hshort _
  cases call with
  | dequeueAsync playerId => trivial
  | enqueueAsync isCancellationRequested player =>
    refine firstCome_of_inStep _ (inStep_of_length_le_two _ ?_)
    rw [List.length_append]
    exact Nat.succ_le_succ hshort

/-! ## A player who is overtaken

Three joins overlapped, and the first of the three has cancelled. -/

/-- The player who has cancelled. -/
def gone : QueuedPlayer := ⟨"gone", 1000, 0, some 0⟩

/-- Two who wait, in the order in which they joined. -/
def early : QueuedPlayer := ⟨"early", 1000, 1, none⟩
def late : QueuedPlayer := ⟨"late", 1000, 2, none⟩

/-- Behind a player who has cancelled, the second player is matched as the first. -/
theorem late_before_early :
    tryMatchInMemory Option.isSome [gone, early, late] = ([], [⟨late, early⟩]) ∧
      ¬ FirstCome Option.isSome [gone, early, late] := by
  constructor
  · simp [tryMatchInMemory, gone, early, late]
  · intro h
    have hmatched := h.order.earliest (early, 1) (late, 2) [] (by decide)
    simp [queueEntries, tryMatchEntries, QueueEntry.isCancelled, QueuedPlayer.isCancelled, gone, early,
      late] at hmatched

end HexWar
