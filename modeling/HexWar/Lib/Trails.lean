/-
  Tokens that are told apart by nothing but their places.

  A state of a machine shows a list of places, one for each token there is, in no particular order.
  `GoesOver hop ps qs` says of two such lists that each token of the first one either takes a hop or is
  lost, and that the second one is what is left: no token appears, and none is in two places.

  If every step of a run goes over, the tokens can be told apart after all (`exists_trails`): there is
  one trail for every token of the first state, each of its steps is a hop, it ends early if the token
  is lost, and after any number of calls the places that the trails have reached are those that the
  state shows.  The trails are built from the end of the run: a call in front of it puts one place
  before every trail, and starts those of the tokens that it loses.
-/
import HexWar.Lib.Runs
import Mathlib.Data.List.Perm.Basic

namespace HexWar.Lib

variable {P : Type}

/-- Each token takes a hop or is lost, and there are no others. -/
def GoesOver (hop : P → P → Prop) (before after : List P) : Prop :=
  ∃ fates : List (P × Option P), (∀ f ∈ fates, ∀ q, f.2 = some q → hop f.1 q) ∧
    (fates.map Prod.fst).Perm before ∧ (fates.filterMap Prod.snd).Perm after

/-- The places that the trails have reached after `i` steps. -/
def reached (trails : List (List P)) (i : Nat) : List P := trails.filterMap (·[i]?)

theorem reached_cons (t : List P) (trails : List (List P)) (i : Nat) :
    reached (t :: trails) i = t[i]?.toList ++ reached trails i := by
  rcases hget : t[i]? with _ | p
  · exact List.filterMap_cons_none hget
  · exact List.filterMap_cons_some hget

/-! ## How tokens go over -/

namespace GoesOver

variable {hop : P → P → Prop} {ps qs ps' qs' : List P}

/-- The order of the places does not matter. -/
theorem perm (h : GoesOver hop ps qs) (hps : ps.Perm ps') (hqs : qs.Perm qs') :
    GoesOver hop ps' qs' := by
  obtain ⟨fates, hhops, hbefore, hafter⟩ := h
  exact ⟨fates, hhops, hbefore.trans hps, hafter.trans hqs⟩

theorem append (h : GoesOver hop ps qs) (h' : GoesOver hop ps' qs') :
    GoesOver hop (ps ++ ps') (qs ++ qs') := by
  obtain ⟨fates, hhops, hbefore, hafter⟩ := h
  obtain ⟨fates', hhops', hbefore', hafter'⟩ := h'
  refine ⟨fates ++ fates', fun f hf => ?_, ?_, ?_⟩
  · rcases List.mem_append.mp hf with hf | hf
    · exact hhops f hf
    · exact hhops' f hf
  · rw [List.map_append]
    exact hbefore.append hbefore'
  · rw [List.filterMap_append]
    exact hafter.append hafter'

/-- No token goes over to none. -/
theorem nil : GoesOver hop [] [] :=
  ⟨[], fun _ hf => absurd hf List.not_mem_nil, List.Perm.nil, List.Perm.nil⟩

/-- Tokens that stand in several lists go over list by list. -/
theorem flatMap {ι : Type} {f g : ι → List P} :
    ∀ {l : List ι}, (∀ x ∈ l, GoesOver hop (f x) (g x)) → GoesOver hop (l.flatMap f) (l.flatMap g)
  | [], _ => nil
  | x :: _, h => by
    rw [List.flatMap_cons, List.flatMap_cons]
    exact (h x List.mem_cons_self).append (flatMap fun y hy => h y (List.mem_cons_of_mem _ hy))

/-- All tokens are lost. -/
theorem lost (ps : List P) : GoesOver hop ps [] := by
  refine ⟨ps.map fun p => (p, none), fun f hf q hq => ?_, ?_, ?_⟩
  · obtain ⟨p, -, rfl⟩ := List.mem_map.mp hf
    cases hq
  · rw [List.map_map]
    exact List.Perm.of_eq (List.map_id ps)
  · rw [List.filterMap_map]
    exact List.Perm.of_eq (List.filterMap_none ps)

/-- Every token takes its hop. -/
theorem all {f : P → P} (h : ∀ p ∈ ps, hop p (f p)) : GoesOver hop ps (ps.map f) := by
  refine ⟨ps.map fun p => (p, some (f p)), fun e he q hq => ?_, ?_, ?_⟩
  · obtain ⟨p, hp, rfl⟩ := List.mem_map.mp he
    cases hq
    exact h p hp
  · rw [List.map_map]
    exact List.Perm.of_eq (List.map_id ps)
  · rw [List.filterMap_map]
    exact List.Perm.of_eq (congrFun (List.filterMap_eq_map (f := f)) ps)

theorem stay (h : ∀ p ∈ ps, hop p p) : GoesOver hop ps ps := by
  have hall := all (f := id) h
  rw [List.map_id] at hall
  exact hall

/-- Tokens in one place take the same hop. -/
theorem replicate {p q : P} (h : hop p q) (n : Nat) :
    GoesOver hop (List.replicate n p) (List.replicate n q) := by
  have hall := all (f := fun _ => q) fun p' (hp' : p' ∈ List.replicate n p) => by
    rw [List.eq_of_mem_replicate hp']
    exact h
  rw [List.map_replicate] at hall
  exact hall

end GoesOver

/-! ## A place in front of every trail -/

/-- The trail starts somewhere, and its first step is a hop. -/
def StartsWith (hop : P → P → Prop) (trails : List (List P)) (t : List P) : Prop :=
  ∃ p, t = [p] ∨ ∃ q rest, q :: rest ∈ trails ∧ t = p :: q :: rest ∧ hop p q

theorem StartsWith.mono {hop : P → P → Prop} {trails trails' : List (List P)} {t : List P}
    (h : StartsWith hop trails t) (hsub : ∀ t ∈ trails, t ∈ trails') : StartsWith hop trails' t := by
  obtain ⟨p, rfl | ⟨q, rest, hmem, rfl, hhop⟩⟩ := h
  · exact ⟨p, Or.inl rfl⟩
  · exact ⟨p, Or.inr ⟨q, rest, hsub _ hmem, rfl, hhop⟩⟩

/-- **The trails of a run with one more call in front of it.** -/
theorem exists_longer {hop : P → P → Prop} :
    ∀ {fates : List (P × Option P)} {trails : List (List P)},
      (∀ f ∈ fates, ∀ q, f.2 = some q → hop f.1 q) → (∀ t ∈ trails, t ≠ []) →
      (trails.filterMap List.head?).Perm (fates.filterMap Prod.snd) →
      ∃ longer : List (List P), (∀ t ∈ longer, StartsWith hop trails t) ∧
        longer.filterMap List.head? = fates.map Prod.fst ∧
        ∀ i, (reached longer (i + 1)).Perm (reached trails i)
  | [], trails, _, hne, hperm => by
    -- there is no token, and so no trail
    have hnil : trails = [] := by
      rw [List.eq_nil_iff_forall_not_mem]
      intro t ht
      obtain ⟨q, rest, rfl⟩ := List.exists_cons_of_ne_nil (hne t ht)
      have hmem : q ∈ trails.filterMap List.head? := List.mem_filterMap.mpr ⟨_, ht, rfl⟩
      exact List.not_mem_nil (hperm.mem_iff.mp hmem)
    subst hnil
    exact ⟨[], fun t ht => absurd ht List.not_mem_nil, rfl, fun i => List.Perm.refl _⟩
  | (p, none) :: fates, trails, hhops, hne, hperm => by
    obtain ⟨longer, hstarts, hheads, hreached⟩ :=
      exists_longer (fun f hf => hhops f (List.mem_cons_of_mem _ hf)) hne hperm
    refine ⟨[p] :: longer, fun t ht => ?_, ?_, fun i => ?_⟩
    · rcases List.mem_cons.mp ht with rfl | hmem
      · exact ⟨p, Or.inl rfl⟩
      · exact hstarts t hmem
    · exact congrArg (p :: ·) hheads
    · rw [reached, List.filterMap_cons_none rfl]
      exact hreached i
  | (p, some q) :: fates, trails, hhops, hne, hperm => by
    -- one of the trails goes on from `q`
    have hq : q ∈ trails.filterMap List.head? := hperm.mem_iff.mpr List.mem_cons_self
    obtain ⟨t, ht, hhead⟩ := List.mem_filterMap.mp hq
    obtain ⟨pre, post, rfl⟩ := List.append_of_mem ht
    have hfront : (pre ++ t :: post).Perm (t :: (pre ++ post)) := List.perm_middle
    obtain ⟨rest, rfl⟩ : ∃ rest, t = q :: rest := by
      rcases t with _ | ⟨q', rest⟩
      · cases hhead
      · cases hhead
        exact ⟨rest, rfl⟩
    have hothers : ((pre ++ post).filterMap List.head?).Perm (fates.filterMap Prod.snd) :=
      ((hfront.filterMap List.head?).symm.trans hperm).cons_inv
    have hsub : ∀ t ∈ pre ++ post, t ∈ pre ++ (q :: rest) :: post := fun t ht =>
      hfront.mem_iff.mpr (List.mem_cons_of_mem _ ht)
    obtain ⟨longer, hstarts, hheads, hreached⟩ :=
      exists_longer (fun f hf => hhops f (List.mem_cons_of_mem _ hf)) (fun t ht => hne t (hsub t ht))
        hothers
    refine ⟨(p :: q :: rest) :: longer, fun t ht => ?_, ?_, fun i => ?_⟩
    · rcases List.mem_cons.mp ht with rfl | hmem
      · exact ⟨p, Or.inr ⟨q, rest, hfront.mem_iff.mpr List.mem_cons_self, rfl,
          hhops _ List.mem_cons_self q rfl⟩⟩
      · exact (hstarts t hmem).mono hsub
    · exact congrArg (p :: ·) hheads
    · refine List.Perm.trans ?_ (hfront.filterMap _).symm
      rw [reached_cons]
      refine ((hreached i).append_left _).trans ?_
      exact List.Perm.of_eq (reached_cons (q :: rest) (pre ++ post) i).symm

/-- Every trail has a first place. -/
theorem length_reached_zero :
    ∀ {trails : List (List P)}, (∀ t ∈ trails, t ≠ []) → (reached trails 0).length = trails.length
  | [], _ => rfl
  | t :: trails, hne => by
    obtain ⟨p, rest, rfl⟩ := List.exists_cons_of_ne_nil (hne t List.mem_cons_self)
    have ih := length_reached_zero fun t' ht' => hne t' (List.mem_cons_of_mem _ ht')
    rw [reached_cons, List.length_append, ih]
    exact Nat.add_comm _ _

/-- If as many tokens are left as there were, no trail has ended. -/
theorem lt_length_of_reached {i : Nat} :
    ∀ {trails : List (List P)}, trails.length ≤ (reached trails i).length →
      ∀ t ∈ trails, i < t.length
  | [], _ => fun _ ht => absurd ht List.not_mem_nil
  | t :: trails, h => by
    have hle : (reached trails i).length ≤ trails.length := List.length_filterMap_le _ _
    rw [reached_cons, List.length_append, List.length_cons] at h
    rcases hget : t[i]? with _ | p
    · rw [hget, Option.toList_none, List.length_nil] at h
      omega
    · rw [hget, Option.toList_some, List.length_singleton] at h
      intro t' ht'
      rcases List.mem_cons.mp ht' with rfl | hmem
      · exact (List.getElem?_eq_some_iff.mp hget).1
      · exact lt_length_of_reached (by omega) t' hmem

/-! ## The trails of a run -/

namespace Machine

variable {σ α : Type} {M : Machine σ α}

/-- A trail along a run: one place for each state that is visited, as long as the token is there. -/
def Walk (M : Machine σ α) (hop : σ → α → P → P → Prop) : σ → List α → List P → Prop
  | _, _, [] => False
  | _, _, [_] => True
  | _, [], _ :: _ :: _ => False
  | s, c :: cs, p :: q :: rest => hop s c p q ∧ Walk M hop (M.next s c) cs (q :: rest)

/-- A trail has no more places than the run has states. -/
theorem Walk.length_le {hop : σ → α → P → P → Prop} :
    ∀ {calls : List α} {s : σ} {t : List P}, M.Walk hop s calls t → t.length ≤ calls.length + 1
  | [], _, [], h => h.elim
  | _ :: _, _, [], h => h.elim
  | _, _, [_], _ => Nat.le_add_left _ _
  | [], _, _ :: _ :: _, h => h.elim
  | _ :: _, _, _ :: _ :: _, h => Nat.succ_le_succ (length_le h.2)

theorem Walk.ne_nil {hop : σ → α → P → P → Prop} :
    ∀ {calls : List α} {s : σ} {t : List P}, M.Walk hop s calls t → t ≠ []
  | [], _, [], h => h.elim
  | _ :: _, _, [], h => h.elim
  | _, _, _ :: _, _ => List.cons_ne_nil _ _

/-- **The tokens of a run can be followed.** -/
theorem exists_trails {I : σ → Prop} {C : σ → α → Prop} {hop : σ → α → P → P → Prop}
    {places : σ → List P} (hstep : ∀ s c, I s → C s c → I (M.next s c) ∧
      GoesOver (hop s c) (places s) (places (M.next s c))) :
    ∀ {calls : List α} {s : σ}, I s → M.Steps C s calls →
      ∃ trails : List (List P), (∀ t ∈ trails, M.Walk hop s calls t) ∧
        ∀ i ≤ calls.length, (reached trails i).Perm (places (M.after s (calls.take i)))
  | [], s, _, _ => by
    refine ⟨(places s).map fun p => [p], fun t ht => ?_, fun i hi => ?_⟩
    · obtain ⟨p, -, rfl⟩ := List.mem_map.mp ht
      exact trivial
    · obtain rfl : i = 0 := Nat.le_zero.mp hi
      rw [reached, List.filterMap_map]
      exact List.Perm.of_eq List.filterMap_some
  | c :: calls, s, hI, hrun => by
    obtain ⟨hI', fates, hhops, hbefore, hafter⟩ := hstep s c hI hrun.1
    obtain ⟨trails, hwalks, hreached⟩ := exists_trails hstep hI' hrun.2
    have hne : ∀ t ∈ trails, t ≠ [] := fun t ht => (hwalks t ht).ne_nil
    have hheads : (trails.filterMap List.head?).Perm (fates.filterMap Prod.snd) := by
      have hfirst := hreached 0 (Nat.zero_le _)
      have hzero : reached trails 0 = trails.filterMap List.head? :=
        List.filterMap_congr fun t _ => List.head?_eq_getElem?.symm
      rw [hzero] at hfirst
      exact hfirst.trans hafter.symm
    obtain ⟨longer, hstarts, hfirsts, hlater⟩ := exists_longer hhops hne hheads
    refine ⟨longer, fun t ht => ?_, fun i hi => ?_⟩
    · obtain ⟨p, rfl | ⟨q, rest, hmem, rfl, hhop⟩⟩ := hstarts t ht
      · exact trivial
      · exact ⟨hhop, hwalks _ hmem⟩
    · rcases i with _ | i
      · have hzero : reached longer 0 = longer.filterMap List.head? :=
          List.filterMap_congr fun t _ => List.head?_eq_getElem?.symm
        rw [hzero, hfirsts]
        exact hbefore
      · exact (hlater i).trans (hreached i (Nat.le_of_succ_le_succ hi))

end Machine
end HexWar.Lib
