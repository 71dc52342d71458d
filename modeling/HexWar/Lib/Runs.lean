/-
  Runs of a machine that is driven by calls.

  A `Machine` has a start state, a next-state function on ALL calls (a refused call is a step too, it
  just need not move the state) and a guard `Legal` that says which calls the driver makes in which
  states.  A run is a list of calls; `Steps C s calls` says that every call of the list satisfies `C`
  in the state in which it is made, and `visited s calls` lists the states on the way.

  `visited_of_invariant` is the induction of an invariant along a run.  `visited_iff` is its exact
  form: when a step from a good state ends in a good state EXACTLY if it satisfies `C`, a run visits
  good states only exactly if all its steps satisfy `C`.

  `Keeps` speaks of pairs of states: from any state with `Q` on, every later one is related to it.
  For a preorder that carries `Q` along it is enough to look at single steps (`keeps_iff`).
-/
import Mathlib.Data.List.Basic

namespace HexWar.Lib

/-- A machine driven by calls. -/
structure Machine (σ α : Type) where
  start : σ
  next : σ → α → σ
  /-- The calls that are made in a state. -/
  Legal : σ → α → Prop

namespace Machine

variable {σ α : Type} (M : Machine σ α)

/-- The state after a list of calls. -/
def after (s : σ) (calls : List α) : σ := calls.foldl M.next s

/-- Every call satisfies `C` in the state in which it is made. -/
def Steps (C : σ → α → Prop) : σ → List α → Prop
  | _, [] => True
  | s, c :: cs => C s c ∧ Steps C (M.next s c) cs

/-- The states of a run, the first one and the last one included. -/
def visited : σ → List α → List σ
  | s, [] => [s]
  | s, c :: cs => s :: visited (M.next s c) cs

/-- A run from the start state. -/
def Run (calls : List α) : Prop := M.Steps M.Legal M.start calls

/-- The states that runs lead to. -/
def Reachable (s : σ) : Prop := ∃ calls, M.Run calls ∧ M.after M.start calls = s

variable {M}

instance decidableSteps {C : σ → α → Prop} [h : ∀ s c, Decidable (C s c)] :
    ∀ (calls : List α) (s : σ), Decidable (M.Steps C s calls)
  | [], _ => .isTrue trivial
  | c :: cs, s => @instDecidableAnd _ _ (h s c) (decidableSteps cs (M.next s c))

instance decidableRun [h : ∀ s c, Decidable (M.Legal s c)] (calls : List α) :
    Decidable (M.Run calls) := decidableSteps calls M.start

theorem Steps.and {C D : σ → α → Prop} :
    ∀ {calls : List α} {s : σ}, M.Steps C s calls → M.Steps D s calls →
      M.Steps (fun s c => C s c ∧ D s c) s calls
  | [], _, _, _ => trivial
  | _ :: _, _, hC, hD => ⟨⟨hC.1, hD.1⟩, Steps.and hC.2 hD.2⟩

theorem steps_of_forall {C : σ → α → Prop} (h : ∀ s c, C s c) :
    ∀ (calls : List α) (s : σ), M.Steps C s calls
  | [], _ => trivial
  | c :: cs, s => ⟨h s c, steps_of_forall h cs (M.next s c)⟩

theorem steps_append {C : σ → α → Prop} :
    ∀ {cs ds : List α} {s : σ},
      M.Steps C s (cs ++ ds) ↔ M.Steps C s cs ∧ M.Steps C (M.after s cs) ds
  | [], _, _ => ⟨fun h => ⟨trivial, h⟩, fun h => h.2⟩
  | c :: cs, ds, s => by
    have ih : M.Steps C (M.next s c) (cs ++ ds) ↔
        M.Steps C (M.next s c) cs ∧ M.Steps C (M.after (M.next s c) cs) ds := steps_append
    show C s c ∧ M.Steps C (M.next s c) (cs ++ ds) ↔
      (C s c ∧ M.Steps C (M.next s c) cs) ∧ M.Steps C (M.after (M.next s c) cs) ds
    rw [ih, and_assoc]

/-- Whatever satisfies `C` wherever the list is split, satisfies it all along. -/
theorem steps_of_splits {C : σ → α → Prop} :
    ∀ {calls : List α} {s : σ},
      (∀ cs c ds, calls = cs ++ c :: ds → C (M.after s cs) c) → M.Steps C s calls
  | [], _, _ => trivial
  | c :: calls, _, h =>
    ⟨h [] c calls rfl, steps_of_splits fun cs d ds hsplit =>
      h (c :: cs) d ds (congrArg (c :: ·) hsplit)⟩

theorem after_append (s : σ) (cs ds : List α) :
    M.after s (cs ++ ds) = M.after (M.after s cs) ds := List.foldl_append

theorem self_mem_visited (s : σ) (calls : List α) : s ∈ M.visited s calls := by
  cases calls with
  | nil => exact List.mem_singleton_self s
  | cons c cs => exact List.mem_cons_self

/-- A visited state is the state after some of the calls. -/
theorem mem_visited_iff {t : σ} :
    ∀ {calls : List α} {s : σ},
      t ∈ M.visited s calls ↔ ∃ cs ds, calls = cs ++ ds ∧ M.after s cs = t
  | [], s => by
    show t ∈ [s] ↔ _
    rw [List.mem_singleton]
    constructor
    · intro h
      exact ⟨[], [], rfl, h.symm⟩
    · rintro ⟨cs, ds, hsplit, rfl⟩
      obtain ⟨rfl, -⟩ := List.append_eq_nil_iff.mp hsplit.symm
      rfl
  | c :: calls, s => by
    show t ∈ s :: M.visited (M.next s c) calls ↔ _
    rw [List.mem_cons, mem_visited_iff]
    constructor
    · rintro (rfl | ⟨cs, ds, hsplit, rfl⟩)
      · exact ⟨[], c :: calls, rfl, rfl⟩
      · exact ⟨c :: cs, ds, congrArg (c :: ·) hsplit, rfl⟩
    · rintro ⟨cs, ds, hsplit, rfl⟩
      rcases List.cons_eq_append_iff.mp hsplit with ⟨rfl, -⟩ | ⟨cs', rfl, hds⟩
      · exact Or.inl rfl
      · exact Or.inr ⟨cs', ds, hds, rfl⟩

/-- The states of a run are states of every longer run. -/
theorem visited_append {cs ds : List α} {s t : σ} (h : t ∈ M.visited s cs) :
    t ∈ M.visited s (cs ++ ds) := by
  obtain ⟨bs, bs', rfl, ht⟩ := mem_visited_iff.mp h
  exact mem_visited_iff.mpr ⟨bs, bs' ++ ds, List.append_assoc .., ht⟩

theorem after_mem_visited (s : σ) (calls : List α) : M.after s calls ∈ M.visited s calls :=
  mem_visited_iff.mpr ⟨calls, [], (List.append_nil _).symm, rfl⟩

/-- **The invariant rule**: what holds first and is kept by every step holds of every state of the
    run. -/
theorem visited_of_invariant {C : σ → α → Prop} {I : σ → Prop}
    (hstep : ∀ s c, I s → C s c → I (M.next s c)) :
    ∀ {calls : List α} {s : σ}, I s → M.Steps C s calls → ∀ t ∈ M.visited s calls, I t
  | [], _, hs, _ => fun t ht => List.mem_singleton.mp ht ▸ hs
  | c :: _, s, hs, hrun => fun t ht => by
    rcases List.mem_cons.mp ht with rfl | hrest
    · exact hs
    · exact visited_of_invariant hstep (hstep s c hs hrun.1) hrun.2 t hrest

/-- The invariant rule for a property of the steps. -/
theorem steps_of_invariant {C D : σ → α → Prop} {I : σ → Prop}
    (hstep : ∀ s c, I s → C s c → I (M.next s c)) (hD : ∀ s c, I s → C s c → D s c) :
    ∀ {calls : List α} {s : σ}, I s → M.Steps C s calls → M.Steps D s calls
  | [], _, _, _ => trivial
  | _ :: _, _, hs, hrun =>
    ⟨hD _ _ hs hrun.1, steps_of_invariant hstep hD (hstep _ _ hs hrun.1) hrun.2⟩

/-- The invariant rule for the last state. -/
theorem after_of_invariant {C : σ → α → Prop} {I : σ → Prop}
    (hstep : ∀ s c, I s → C s c → I (M.next s c)) {calls : List α} {s : σ} (hs : I s)
    (hrun : M.Steps C s calls) : I (M.after s calls) :=
  visited_of_invariant hstep hs hrun _ (after_mem_visited s calls)

/-- The invariant rule for reachable states. -/
theorem Reachable.invariant {I : σ → Prop} (hstart : I M.start)
    (hstep : ∀ s c, I s → M.Legal s c → I (M.next s c)) {s : σ} (h : M.Reachable s) : I s := by
  obtain ⟨calls, hrun, rfl⟩ := h
  exact after_of_invariant hstep hstart hrun

/-- A machine with a weaker guard reaches as much. -/
theorem Reachable.weaken {L : σ → α → Prop} {s : σ} (h : M.Reachable s)
    (hL : ∀ s c, M.Legal s c → L s c) : Reachable ⟨M.start, M.next, L⟩ s := by
  obtain ⟨calls, hrun, rfl⟩ := h
  have hall : ∀ (calls : List α) (t : σ), M.Steps M.Legal t calls →
      Steps ⟨M.start, M.next, L⟩ L t calls := by
    intro calls
    induction calls with
    | nil => exact fun _ _ => trivial
    | cons c cs ih => exact fun t ht => ⟨hL t c ht.1, ih _ ht.2⟩
  exact ⟨calls, hall calls _ hrun, rfl⟩

/-- **The exact invariant rule**: when a step from a good state of the invariant ends in a good
    state exactly if it satisfies `C`, the good runs are those whose steps satisfy `C`.  The invariant
    need only survive the steps that satisfy `C`. -/
theorem visited_iff_of_carried {I P : σ → Prop} {C : σ → α → Prop}
    (hinv : ∀ s c, I s → M.Legal s c → P s → C s c → I (M.next s c))
    (hstep : ∀ s c, I s → M.Legal s c → P s → (P (M.next s c) ↔ C s c)) :
    ∀ {calls : List α} {s : σ}, I s → P s → M.Steps M.Legal s calls →
      ((∀ t ∈ M.visited s calls, P t) ↔ M.Steps C s calls)
  | [], _, _, hP, _ => ⟨fun _ => trivial, fun _ _ ht => List.mem_singleton.mp ht ▸ hP⟩
  | c :: cs, s, hI, hP, hrun => by
    have hnext := hstep s c hI hrun.1 hP
    show (∀ t ∈ s :: M.visited (M.next s c) cs, P t) ↔ C s c ∧ M.Steps C (M.next s c) cs
    constructor
    · intro h
      have hP' : P (M.next s c) := h _ (List.mem_cons_of_mem _ (self_mem_visited _ _))
      have hC := hnext.mp hP'
      have ih := visited_iff_of_carried hinv hstep (hinv s c hI hrun.1 hP hC) hP' hrun.2
      exact ⟨hC, ih.mp fun t ht => h t (List.mem_cons_of_mem _ ht)⟩
    · rintro ⟨hC, hrest⟩ t ht
      have ih := visited_iff_of_carried hinv hstep (hinv s c hI hrun.1 hP hC) (hnext.mpr hC) hrun.2
      rcases List.mem_cons.mp ht with rfl | hmem
      · exact hP
      · exact ih.mpr hrest t hmem

/-- The rule for an invariant that every step keeps. -/
theorem visited_iff {I P : σ → Prop} {C : σ → α → Prop}
    (hinv : ∀ s c, I s → M.Legal s c → I (M.next s c))
    (hstep : ∀ s c, I s → M.Legal s c → P s → (P (M.next s c) ↔ C s c)) {calls : List α} {s : σ}
    (hI : I s) (hP : P s) (hrun : M.Steps M.Legal s calls) :
    (∀ t ∈ M.visited s calls, P t) ↔ M.Steps C s calls :=
  visited_iff_of_carried (fun s c h hL _ _ => hinv s c h hL) hstep hI hP hrun

/-- Two properties of a step that agree under an invariant agree along a run, even if only the steps
    that satisfy them keep the invariant. -/
theorem steps_iff_of_carried {I : σ → Prop} {P C : σ → α → Prop}
    (hinv : ∀ s c, I s → M.Legal s c → C s c → I (M.next s c))
    (hstep : ∀ s c, I s → M.Legal s c → (P s c ↔ C s c)) :
    ∀ {calls : List α} {s : σ}, I s → M.Steps M.Legal s calls →
      (M.Steps P s calls ↔ M.Steps C s calls)
  | [], _, _, _ => Iff.rfl
  | c :: cs, s, hI, hrun => by
    have hnow := hstep s c hI hrun.1
    show P s c ∧ M.Steps P (M.next s c) cs ↔ C s c ∧ M.Steps C (M.next s c) cs
    constructor
    · rintro ⟨hP, hrest⟩
      have hC := hnow.mp hP
      exact ⟨hC, (steps_iff_of_carried hinv hstep (hinv s c hI hrun.1 hC) hrun.2).mp hrest⟩
    · rintro ⟨hC, hrest⟩
      exact ⟨hnow.mpr hC, (steps_iff_of_carried hinv hstep (hinv s c hI hrun.1 hC) hrun.2).mpr hrest⟩

/-- The rule for an invariant that every step keeps. -/
theorem steps_iff {I : σ → Prop} {P C : σ → α → Prop}
    (hinv : ∀ s c, I s → M.Legal s c → I (M.next s c))
    (hstep : ∀ s c, I s → M.Legal s c → (P s c ↔ C s c)) {calls : List α} {s : σ} (hI : I s)
    (hrun : M.Steps M.Legal s calls) : M.Steps P s calls ↔ M.Steps C s calls :=
  steps_iff_of_carried (fun s c h hL _ => hinv s c h hL) hstep hI hrun

/-- A machine that only adds a record to the states of another takes the same steps. -/
theorem steps_project {τ : Type} {N : Machine τ α} {f : σ → τ} {C : τ → α → Prop}
    (hf : ∀ s c, f (M.next s c) = N.next (f s) c) :
    ∀ {calls : List α} {s : σ}, M.Steps (fun s c => C (f s) c) s calls ↔ N.Steps C (f s) calls
  | [], _ => Iff.rfl
  | c :: cs, s => by
    have ih : M.Steps (fun s c => C (f s) c) (M.next s c) cs ↔ N.Steps C (f (M.next s c)) cs :=
      steps_project hf
    rw [hf] at ih
    exact and_congr_right fun _ => ih

/-- From any state with `Q` on, every later state of the run is related to it by `R`. -/
def Keeps (M : Machine σ α) (Q : σ → Prop) (R : σ → σ → Prop) (s : σ) (calls : List α) : Prop :=
  ∀ cs ds, calls = cs ++ ds → Q (M.after s cs) →
    ∀ t ∈ M.visited (M.after s cs) ds, R (M.after s cs) t

/-- What one step keeps, a run keeps. -/
theorem keeps_iff {Q : σ → Prop} {R : σ → σ → Prop} (hrefl : ∀ s, Q s → R s s)
    (htrans : ∀ s t u, R s t → R t u → R s u) (hQ : ∀ s t, R s t → Q t) :
    ∀ {calls : List α} {s : σ},
      M.Keeps Q R s calls ↔ M.Steps (fun s c => Q s → R s (M.next s c)) s calls
  | [], s => by
    refine iff_of_true ?_ trivial
    intro cs ds hsplit hq t ht
    obtain ⟨rfl, rfl⟩ := List.append_eq_nil_iff.mp hsplit.symm
    rw [List.mem_singleton.mp ht]
    exact hrefl _ hq
  | c :: calls, s => by
    have ih : M.Keeps Q R (M.next s c) calls ↔ _ := keeps_iff hrefl htrans hQ
    show _ ↔ (Q s → R s (M.next s c)) ∧ M.Steps _ (M.next s c) calls
    rw [← ih]
    constructor
    · intro h
      refine ⟨fun hq => ?_, fun cs ds hsplit => ?_⟩
      · exact h [] (c :: calls) rfl hq _ (List.mem_cons_of_mem _ (self_mem_visited _ _))
      · exact h (c :: cs) ds (congrArg (c :: ·) hsplit)
    · rintro ⟨hfirst, hrest⟩ cs ds hsplit hq t ht
      rcases List.cons_eq_append_iff.mp hsplit with ⟨rfl, rfl⟩ | ⟨cs', rfl, hds⟩
      · rcases List.mem_cons.mp ht with rfl | hmem
        · exact hrefl _ hq
        · have hnext := hfirst hq
          exact htrans _ _ _ hnext (hrest [] calls rfl (hQ _ _ hnext) t hmem)
      · exact hrest cs' ds hds hq t ht

end Machine
end HexWar.Lib
