/-
  Fallible stateful actions, and the rules to reason about them.

  An action is an `EStateM ε σ α`: it runs on a state, and either returns a value or throws, in
  both cases leaving a state behind (a throw does NOT roll the state back).  The rules below take one
  construct at a time: a bind, a guard (`throwIf`) or a loop (`forEach`).  `forEach_ok` is the loop
  rule: if every item succeeds from every state of an invariant, the loop succeeds and ends in the
  fold of the items.
-/
import Mathlib.Data.List.Basic

namespace HexWar.Lib

variable {ε σ α β : Type}

namespace Action

/-- Throw `e` when the condition holds. -/
def throwIf (c : Prop) [Decidable c] (e : ε) : EStateM ε σ Unit :=
  if c then throw e else pure ()

/-- Run the action on every item, in order, and collect the results. -/
def forEach (f : α → EStateM ε σ β) : List α → EStateM ε σ (List β)
  | [] => pure []
  | a :: as => do
    let b ← f a
    let bs ← forEach f as
    return b :: bs

/-- The state an action leaves, whether it returned or threw. -/
def after (x : EStateM ε σ α) (s : σ) : σ :=
  match x s with
  | .ok _ s' => s'
  | .error _ s' => s'

/-- Did the action return? -/
def succeeds (x : EStateM ε σ α) (s : σ) : Bool :=
  match x s with
  | .ok _ _ => true
  | .error _ _ => false

theorem after_ok {x : EStateM ε σ α} {s s' : σ} {a : α} (h : x s = .ok a s') : after x s = s' := by
  rw [after, h]

theorem after_error {x : EStateM ε σ α} {s s' : σ} {e : ε} (h : x s = .error e s') :
    after x s = s' := by
  rw [after, h]

theorem succeeds_ok {x : EStateM ε σ α} {s s' : σ} {a : α} (h : x s = .ok a s') :
    succeeds x s = true := by
  rw [succeeds, h]

theorem succeeds_error {x : EStateM ε σ α} {s s' : σ} {e : ε} (h : x s = .error e s') :
    succeeds x s = false := by
  rw [succeeds, h]

/-! ## Inversion, one construct at a time -/

theorem bind_ok_iff {x : EStateM ε σ α} {f : α → EStateM ε σ β} {s s' : σ} {b : β} :
    (x >>= f) s = .ok b s' ↔ ∃ a s₁, x s = .ok a s₁ ∧ f a s₁ = .ok b s' := by
  show (match x s with | .ok a s₁ => f a s₁ | .error e s₁ => .error e s₁) = .ok b s' ↔ _
  cases h : x s with
  | ok a s₁ => simp
  | error e s₁ => simp

theorem bind_of_ok {x : EStateM ε σ α} {f : α → EStateM ε σ β} {s s₁ : σ} {a : α}
    (h : x s = .ok a s₁) : (x >>= f) s = f a s₁ := by
  show (match x s with | .ok a s₁ => f a s₁ | .error e s₁ => .error e s₁) = _
  rw [h]

theorem bind_of_error {x : EStateM ε σ α} {f : α → EStateM ε σ β} {s s₁ : σ} {e : ε}
    (h : x s = .error e s₁) : (x >>= f) s = .error e s₁ := by
  show (match x s with | .ok a s₁ => f a s₁ | .error e s₁ => .error e s₁) = _
  rw [h]

theorem pure_apply (a : α) (s : σ) : (pure a : EStateM ε σ α) s = .ok a s := rfl

theorem get_apply (s : σ) : (get : EStateM ε σ σ) s = .ok s s := rfl

theorem modify_apply (f : σ → σ) (s : σ) : (modify f : EStateM ε σ PUnit) s = .ok ⟨⟩ (f s) := rfl

theorem throwIf_pos {c : Prop} [Decidable c] {e : ε} (hc : c) (s : σ) :
    throwIf c e s = .error e s := by
  rw [throwIf, if_pos hc]; rfl

theorem throwIf_neg {c : Prop} [Decidable c] {e : ε} (hc : ¬ c) (s : σ) :
    throwIf c e s = .ok () s := by
  rw [throwIf, if_neg hc]; rfl

/-- A guard before an action. -/
theorem throwIf_bind (c : Prop) [Decidable c] (e : ε) (f : Unit → EStateM ε σ β) (s : σ) :
    (throwIf c e >>= f) s = if c then .error e s else f () s := by
  by_cases hc : c
  · rw [if_pos hc, bind_of_error (throwIf_pos hc s)]
  · rw [if_neg hc, bind_of_ok (throwIf_neg hc s)]

/-! ## Loops -/

/-- What a loop returns when every item moves the state by `g` and returns `r`. -/
def outputs (g : σ → α → σ) (r : σ → α → β) : σ → List α → List β
  | _, [] => []
  | s, a :: as => r s a :: outputs g r (g s a) as

/-- An output that does not depend on the state is a map. -/
theorem outputs_const (g : σ → α → σ) (r : α → β) :
    ∀ (as : List α) (s : σ), outputs g (fun _ => r) s as = as.map r := by
  intro as
  induction as with
  | nil => exact fun _ => rfl
  | cons a as ih => exact fun s => congrArg (r a :: ·) (ih (g s a))

/-- **The loop rule.**  Items that succeed from every state satisfying `I`, moving the state by
    `g` and returning `r`, make a loop that succeeds: it ends in the fold of `g`. -/
theorem forEach_ok {f : α → EStateM ε σ β} {I : List α → σ → Prop} {g : σ → α → σ}
    {r : σ → α → β}
    (hstep : ∀ a as s, I (a :: as) s → f a s = .ok (r s a) (g s a) ∧ I as (g s a)) :
    ∀ (as : List α) (s : σ), I as s →
      forEach f as s = .ok (outputs g r s as) (as.foldl g s) ∧ I [] (as.foldl g s) := by
  intro as
  induction as with
  | nil => exact fun s hs => ⟨rfl, hs⟩
  | cons a as ih =>
    intro s hs
    obtain ⟨hf, hnext⟩ := hstep a as s hs
    obtain ⟨hbs, hlast⟩ := ih (g s a) hnext
    refine ⟨?_, hlast⟩
    show (f a >>= fun b => forEach f as >>= fun bs => pure (b :: bs)) s = _
    rw [bind_of_ok hf, bind_of_ok hbs]
    rfl

theorem forEach_nil (f : α → EStateM ε σ β) (s : σ) : forEach f [] s = .ok [] s := rfl

theorem forEach_cons_ok_iff {f : α → EStateM ε σ β} {a : α} {as : List α} {s s' : σ}
    {bs : List β} : forEach f (a :: as) s = .ok bs s' ↔
      ∃ b s₁ bs', f a s = .ok b s₁ ∧ forEach f as s₁ = .ok bs' s' ∧ bs = b :: bs' := by
  show (f a >>= fun b => forEach f as >>= fun bs => pure (b :: bs)) s = _ ↔ _
  rw [bind_ok_iff]
  constructor
  · rintro ⟨b, s₁, hb, h⟩
    obtain ⟨bs', s₂, hbs, hp⟩ := bind_ok_iff.mp h
    cases hp
    exact ⟨b, s₁, bs', hb, hbs, rfl⟩
  · rintro ⟨b, s₁, bs', hb, hbs, rfl⟩
    exact ⟨b, s₁, hb, by rw [bind_of_ok hbs]; rfl⟩

end Action
end HexWar.Lib
