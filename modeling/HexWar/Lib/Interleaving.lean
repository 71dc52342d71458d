/-
  Interleavings of the calls of independent parties.

  A party calls a system that moves (`next`) and answers (`answer`).  `owner` says whose call it is.
  Two lists of calls interleave the same parties if every party finds its own calls in both, in the
  same order (`SameForEach`).

  The parties are `Independent`, up to a relation `R` between states, if calls of two parties can be
  swapped: neither changes the other's answer, and the states that the two orders leave are related.
  Then every interleaving gives every call the same answer, and they all leave related states
  (`Independent.confluent`).  The proof moves the first call of one interleaving to the front of the
  other, past calls of other parties only.
-/
import Mathlib.Data.List.Basic

namespace HexWar.Lib

variable {σ γ ρ κ : Type} [DecidableEq κ]

/-- The calls, each with the answer it gets. -/
def answers (next : σ → γ → σ) (answer : σ → γ → ρ) : σ → List γ → List (γ × ρ)
  | _, [] => []
  | s, c :: cs => (c, answer s c) :: answers next answer (next s c) cs

/-- Every party finds its own calls in both lists, in the same order. -/
def SameForEach (owner : γ → κ) (cs ds : List γ) : Prop :=
  ∀ k, cs.filter (owner · = k) = ds.filter (owner · = k)

/-- Two runs of a system: every party gets the same answers, and the states they leave are
    related. -/
structure Agree (next : σ → γ → σ) (answer : σ → γ → ρ) (owner : γ → κ)
    (R : σ → σ → Prop)
    (s t : σ) (cs ds : List γ) : Prop where
  answers : ∀ k, (answers next answer s cs).filter (fun a => owner a.1 = k) =
    (HexWar.Lib.answers next answer t ds).filter fun a => owner a.1 = k
  states : R (cs.foldl next s) (ds.foldl next t)

/-- The parties do not get in each other's way, in the states that satisfy `I`. -/
structure Independent (next : σ → γ → σ) (answer : σ → γ → ρ) (owner : γ → κ)
    (I : σ → Prop)
    (R : σ → σ → Prop) : Prop where
  equivalence : Equivalence R
  keeps : ∀ {s} c, I s → I (next s c)
  same_answer : ∀ {s t} c, I s → I t → R s t → answer s c = answer t c
  same_next : ∀ {s t} c, I s → I t → R s t → R (next s c) (next t c)
  swap_answer : ∀ {s c d}, I s → owner c ≠ owner d → answer (next s d) c = answer s c
  swap_next : ∀ {s c d}, I s → owner c ≠ owner d → R (next (next s c) d) (next (next s d) c)

variable {next : σ → γ → σ} {answer : σ → γ → ρ} {owner : γ → κ} {I : σ → Prop}
    {R : σ → σ → Prop}

theorem Agree.trans (hR : Equivalence R) {s t u : σ} {cs ds es : List γ}
    (h : Agree next answer owner R s t cs ds) (h' : Agree next answer owner R t u ds es) :
    Agree next answer owner R s u cs es :=
  ⟨fun k => (h.answers k).trans (h'.answers k), hR.trans h.states h'.states⟩

/-- A call with the same answer in front of both runs. -/
theorem Agree.cons {s t : σ} {cs ds : List γ} {c : γ} (hc : answer s c = answer t c)
    (h : Agree next answer owner R (next s c) (next t c) cs ds) :
    Agree next answer owner R s t (c :: cs) (c :: ds) := by
  refine ⟨fun k => ?_, h.states⟩
  rw [HexWar.Lib.answers, HexWar.Lib.answers, List.filter_cons, List.filter_cons, h.answers k, hc]

namespace Independent

/-- Related states agree on every list of calls. -/
theorem agree_of_related (h : Independent next answer owner I R) (cs : List γ) :
    ∀ {s t : σ}, I s → I t → R s t → Agree next answer owner R s t cs cs := by
  induction cs with
  | nil =>
    intro s t _ _ hst
    exact ⟨fun _ => rfl, hst⟩
  | cons c cs ih =>
    intro s t hs ht hst
    apply Agree.cons (h.same_answer c hs ht hst)
    exact ih (h.keeps c hs) (h.keeps c ht) (h.same_next c hs ht hst)

/-- Two calls of different parties at the front change places. -/
theorem agree_swap (h : Independent next answer owner I R) {s : σ} (hs : I s) {c d : γ}
    (hne : owner c ≠ owner d) (cs : List γ) :
    Agree next answer owner R s s (c :: d :: cs) (d :: c :: cs) := by
  have hrest : Agree next answer owner R (next (next s c) d) (next (next s d) c) cs cs :=
    h.agree_of_related cs (h.keeps d (h.keeps c hs)) (h.keeps c (h.keeps d hs)) (h.swap_next hs hne)
  refine ⟨fun k => ?_, hrest.states⟩
  have hc := h.swap_answer hs hne
  have hd := h.swap_answer hs (Ne.symm hne)
  have htail := hrest.answers k
  simp only [HexWar.Lib.answers, List.filter_cons]
  rw [hc, hd, htail]
  -- the two calls are not both in a party's list, so their order in it does not show
  rcases em (owner c = k) with hck | hck
  · have hdk : owner d ≠ k := fun hdk => hne (hck.trans hdk.symm)
    simp [hck, hdk]
  · simp [hck]

/-- A call moves to the front, past calls of other parties. -/
theorem agree_front (h : Independent next answer owner I R) {c : γ} (post : List γ) (pre : List γ)
    (hpre : ∀ d ∈ pre, owner d ≠ owner c) :
    ∀ {s : σ}, I s → Agree next answer owner R s s (pre ++ c :: post) (c :: (pre ++ post)) := by
  induction pre with
  | nil =>
    intro s hs
    exact h.agree_of_related _ hs hs (h.equivalence.refl s)
  | cons d pre ih =>
    intro s hs
    have htail := ih (fun d' hd' => hpre d' (List.mem_cons_of_mem _ hd')) (h.keeps d hs)
    have hfirst : Agree next answer owner R s s (d :: (pre ++ c :: post)) (d :: c :: (pre ++ post)) :=
      Agree.cons rfl htail
    exact hfirst.trans h.equivalence (h.agree_swap hs (hpre d List.mem_cons_self) _)

/-- **Confluence.**  Interleavings of the same parties' calls give every call the same answer and
    leave related states. -/
theorem confluent (h : Independent next answer owner I R) (cs : List γ) :
    ∀ {ds : List γ}, SameForEach owner cs ds → ∀ {s : σ}, I s →
      Agree next answer owner R s s cs ds := by
  induction cs with
  | nil =>
    intro ds hsame s hs
    have hnil : ds = [] := by
      rw [List.eq_nil_iff_forall_not_mem]
      intro d hd
      have hmem : d ∈ ds.filter (owner · = owner d) := List.mem_filter.mpr ⟨hd, decide_eq_true rfl⟩
      rw [← hsame (owner d)] at hmem
      cases hmem
    subst hnil
    exact h.agree_of_related [] hs hs (h.equivalence.refl s)
  | cons c cs ih =>
    intro ds hsame s hs
    -- in the other interleaving `c` comes after calls of other parties only
    have hown := hsame (owner c)
    rw [List.filter_cons, if_pos (decide_eq_true rfl)] at hown
    obtain ⟨pre, post, rfl, hpre, -, hpost⟩ := List.filter_eq_cons_iff.mp hown.symm
    have hpre' : ∀ d ∈ pre, owner d ≠ owner c := fun d hd heq => hpre d hd (decide_eq_true heq)
    have hrest : SameForEach owner cs (pre ++ post) := by
      intro k
      have hk := hsame k
      rw [List.filter_append, List.filter_cons, List.filter_cons] at hk
      rw [List.filter_append]
      rcases em (owner c = k) with hck | hck
      · have hnone : pre.filter (owner · = k) = [] := by
          rw [List.filter_eq_nil_iff]
          intro d hd hdk
          exact hpre' d hd ((of_decide_eq_true hdk).trans hck.symm)
        rw [if_pos (decide_eq_true hck), if_pos (decide_eq_true hck), hnone, List.nil_append] at hk
        rw [hnone, List.nil_append]
        exact (List.cons.inj hk).2
      · have hneg : ¬ decide (owner c = k) = true := fun hc => hck (of_decide_eq_true hc)
        rw [if_neg hneg, if_neg hneg] at hk
        exact hk
    have htail : Agree next answer owner R s s (c :: cs) (c :: (pre ++ post)) :=
      Agree.cons rfl (ih hrest (h.keeps c hs))
    have hfront := h.agree_front post pre hpre' hs
    refine htail.trans h.equivalence ⟨fun k => (hfront.answers k).symm, ?_⟩
    exact h.equivalence.symm hfront.states

end Independent
end HexWar.Lib
