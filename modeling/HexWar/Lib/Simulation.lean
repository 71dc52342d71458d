/-
  Simulation of one machine by another.

  `M` is simulated by `N` along a relation of their states if the start states are related, and every
  call of `M` is answered by calls of `N` that end in related states: none where the call means nothing
  to `N`, one where both speak of the same step, several where `M` takes a larger one.

  What a simulation says of one step it says of a run (`Simulation.run`) and of every reachable state
  (`Simulation.reachable`), and an invariant of `N` is one of `M` (`Simulation.invariant`).  Where one
  call is answered by one call, the run that answers is known: it is the run translated
  (`after_translated`).
-/
import HexWar.Lib.Runs

namespace HexWar.Lib.Machine

variable {σ τ α β : Type}

/-- Every call of `M` is answered by calls of `N`. -/
structure Simulation (M : Machine σ α) (N : Machine τ β) (R : σ → τ → Prop) : Prop where
  start : R M.start N.start
  step : ∀ s t c, R s t → M.Legal s c → ∃ ds, N.Steps N.Legal t ds ∧ R (M.next s c) (N.after t ds)

namespace Simulation

variable {M : Machine σ α} {N : Machine τ β} {R : σ → τ → Prop}

/-- A run is answered by the runs of its calls, one behind the other. -/
theorem run (h : Simulation M N R) : ∀ {cs : List α} {s : σ} {t : τ}, R s t → M.Steps M.Legal s cs →
    ∃ ds, N.Steps N.Legal t ds ∧ R (M.after s cs) (N.after t ds)
  | [], _, _, hR, _ => ⟨[], trivial, hR⟩
  | c :: _, s, t, hR, hrun => by
    obtain ⟨ds, hds, hnext⟩ := h.step s t c hR hrun.1
    obtain ⟨es, hes, hlast⟩ := h.run hnext hrun.2
    refine ⟨ds ++ es, steps_append.mpr ⟨hds, hes⟩, ?_⟩
    rw [after_append]
    exact hlast

theorem reachable (h : Simulation M N R) {s : σ} (hs : M.Reachable s) : ∃ t, N.Reachable t ∧ R s t := by
  obtain ⟨cs, hrun, rfl⟩ := hs
  obtain ⟨ds, hds, hR⟩ := h.run h.start hrun
  exact ⟨_, ⟨ds, hds, rfl⟩, hR⟩

/-- What holds of every state that `N` reaches holds of what it says of the states of `M`. -/
theorem invariant (h : Simulation M N R) {I : τ → Prop} {J : σ → Prop}
    (hI : ∀ t, N.Reachable t → I t) (hJ : ∀ s t, R s t → I t → J s) {s : σ} (hs : M.Reachable s) :
    J s := by
  obtain ⟨t, ht, hR⟩ := h.reachable hs
  exact hJ s t hR (hI t ht)

end Simulation

/-! ## Call by call

Where every call of `M` has its own translation in `N`, the two machines run side by side, and the run
of `N` is the run of `M` translated. -/

section Translation

variable {M : Machine σ α} {N : Machine τ β} {R : σ → τ → Prop} {C : σ → α → Prop}
    {f : α → β}

/-- **Machines that keep in step on one call keep in step on a run.** -/
theorem after_translated (h : ∀ s t c, R s t → C s c → R (M.next s c) (N.next t (f c))) :
    ∀ {cs : List α} {s : σ} {t : τ}, R s t → M.Steps C s cs → R (M.after s cs) (N.after t (cs.map f))
  | [], _, _, hR, _ => hR
  | c :: cs, s, t, hR, hrun => by
    have hrest : R (M.after (M.next s c) cs) (N.after (N.next t (f c)) (cs.map f)) :=
      after_translated h (h s t c hR hrun.1) hrun.2
    exact hrest

/-- What each translated call satisfies, the calls of a translated run satisfy. -/
theorem steps_translated (h : ∀ s t c, R s t → C s c → R (M.next s c) (N.next t (f c)))
    {D : τ → β → Prop} (hD : ∀ s t c, R s t → C s c → D t (f c)) :
    ∀ {cs : List α} {s : σ} {t : τ}, R s t → M.Steps C s cs → N.Steps D t (cs.map f)
  | [], _, _, _, _ => trivial
  | _ :: _, _, _, hR, hrun =>
    ⟨hD _ _ _ hR hrun.1, steps_translated h hD (h _ _ _ hR hrun.1) hrun.2⟩

end Translation
end HexWar.Lib.Machine
