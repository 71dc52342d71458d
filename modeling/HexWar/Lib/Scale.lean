/-
  A scale with a holder.

  A scale has a balance and a holder, `1` or `-1` for the side that holds it and `0` for nobody.
  After every change of the balance it is weighed again, and the side that holds it counts for one
  more: the new holder is the sign of the new balance plus the OLD holder.  So the holder depends on
  the order in which a batch of changes is made, and this file says how much.

  * Changes in one direction can be made at once (`move_move`), so a batch that first falls and then
    rises, or the other way round, is two changes.
  * Falling first is never better than rising first (`fall_rise_le_rise_fall`), and weighing is
    monotone (`Below.move`); hence every order of a batch ends between the one that falls first and
    the one that rises first (`lowest_below`, `below_highest`).
  * Two batches come to one scale in every order exactly if their two extreme orders do
    (`Settled.moves_eq`).
  * A scale ends with a balance that is not even and yet without a holder exactly when its last change
    leaves the holder's opponent one ahead (`lone_move_iff`).

  A change of nothing is not weighed: `move 0` does nothing.


  The arithmetic is that of signs: a lemma about one or two changes unfolds them, names the cases of
  each sign with `sign_cases`, and leaves the rest to `omega`.  A lemma about a batch is an induction
  that uses these.
-/
import Mathlib.Algebra.BigOperators.Group.List.Basic
import Mathlib.Algebra.Order.BigOperators.Group.List
import Mathlib.Algebra.Order.Ring.Int

namespace HexWar.Lib

/-- A balance, and who holds it. -/
structure Scale where
  /-- How far the positive side is ahead; negative, if it is behind. -/
  balance : Int
  /-- Who holds the scale. -/
  holder : Int
deriving DecidableEq, Repr

namespace Scale

/-- Change the balance and weigh again. -/
def move (x : Scale) (δ : Int) : Scale :=
  if δ = 0 then x else ⟨x.balance + δ, (x.balance + δ + x.holder).sign⟩

/-- A list of changes, one after the other. -/
def moves (x : Scale) (δs : List Int) : Scale := δs.foldl move x

/-- The holder is one the balance allows: two ahead always hold, one ahead never loses. -/
structure Coherent (x : Scale) : Prop where
  /-- The holder is one of the two sides, or nobody. -/
  range : -1 ≤ x.holder ∧ x.holder ≤ 1
  /-- Who is ahead is not held by the other side, -/
  ahead : 1 ≤ x.balance → 0 ≤ x.holder
  /-- and two ahead holds; -/
  farAhead : 2 ≤ x.balance → x.holder = 1
  /-- the same of the negative side, -/
  behind : x.balance ≤ -1 → x.holder ≤ 0
  /-- one behind and two behind. -/
  farBehind : x.balance ≤ -2 → x.holder = -1

/-- The same balance, and a holder that is no better for the positive side. -/
structure Below (x y : Scale) : Prop where
  balance : x.balance = y.balance
  holder : x.holder ≤ y.holder

/-- The three cases of a sign. -/
theorem sign_cases (z : Int) :
    (0 < z ∧ z.sign = 1) ∨ (z = 0 ∧ z.sign = 0) ∨ (z < 0 ∧ z.sign = -1) := by
  rcases Int.lt_trichotomy z 0 with h | h | h
  · exact Or.inr (Or.inr ⟨h, Int.sign_eq_neg_one_of_neg h⟩)
  · subst h
    exact Or.inr (Or.inl ⟨rfl, rfl⟩)
  · exact Or.inl ⟨h, Int.sign_eq_one_of_pos h⟩

@[simp] theorem move_zero (x : Scale) : x.move 0 = x := if_pos rfl

/-- A change that is one is weighed. -/
theorem move_of_ne {δ : Int} (h : δ ≠ 0) (x : Scale) :
    x.move δ = ⟨x.balance + δ, (x.balance + δ + x.holder).sign⟩ := if_neg h

/-- The first of a list of changes, -/
theorem moves_cons (x : Scale) (δ : Int) (δs : List Int) :
    x.moves (δ :: δs) = (x.move δ).moves δs := rfl

/-- and one list after another. -/
theorem moves_append (x : Scale) (δs εs : List Int) :
    x.moves (δs ++ εs) = (x.moves δs).moves εs := List.foldl_append

/-! ## Coherence

Weighing makes a scale coherent, and so does a list of changes, starting from a coherent one. -/

/-- A change keeps a scale coherent, -/
theorem Coherent.move {x : Scale} (h : x.Coherent) (δ : Int) : (x.move δ).Coherent := by
  rcases em (δ = 0) with rfl | hδ
  · rw [move_zero]
    exact h
  · have hrange := h.range
    rw [move_of_ne hδ]
    have hsign := sign_cases (x.balance + δ + x.holder)
    constructor <;> dsimp only <;> omega

/-- and so does a list of changes. -/
theorem Coherent.moves {x : Scale} (h : x.Coherent) (δs : List Int) : (x.moves δs).Coherent := by
  induction δs generalizing x with
  | nil => exact h
  | cons δ δs ih => exact ih (h.move δ)

/-! ## Order

Scales of one balance are ordered by their holder.  Every change respects the order. -/

/-- A scale is no better than itself, -/
theorem Below.refl (x : Scale) : Below x x := ⟨rfl, Int.le_refl _⟩

/-- and the order is transitive. -/
theorem Below.trans {x y z : Scale} (h : Below x y) (h' : Below y z) : Below x z :=
  ⟨h.balance.trans h'.balance, Int.le_trans h.holder h'.holder⟩

/-- Weighing is monotone. -/
theorem Below.move {x y : Scale} (h : Below x y) (δ : Int) : Below (x.move δ) (y.move δ) := by
  have hb := h.balance
  have hh := h.holder
  rcases em (δ = 0) with rfl | hδ
  · rw [move_zero, move_zero]
    exact h
  · rw [move_of_ne hδ, move_of_ne hδ]
    have hx := sign_cases (x.balance + δ + x.holder)
    have hy := sign_cases (y.balance + δ + y.holder)
    constructor <;> dsimp only <;> omega

/-- A coherent scale that moves twice in one direction moves once. -/
theorem move_move {x : Scale} (h : x.Coherent) {δ ε : Int}
    (hdir : (0 ≤ δ ∧ 0 ≤ ε) ∨ (δ ≤ 0 ∧ ε ≤ 0)) :
      (x.move δ).move ε = x.move (δ + ε) := by
  rcases em (δ = 0) with rfl | hδ
  · rw [move_zero, Int.zero_add]
  rcases em (ε = 0) with rfl | hε
  · rw [move_zero, Int.add_zero]
  have hsum : δ + ε ≠ 0 := by omega
  rw [move_of_ne hδ, move_of_ne hε, move_of_ne hsum]
  obtain ⟨hrange, hahead, hfar, hbehind, hfarb⟩ := h
  have h₁ := sign_cases (x.balance + δ + x.holder)
  have h₂ := sign_cases (x.balance + δ + ε + (x.balance + δ + x.holder).sign)
  have h₃ := sign_cases (x.balance + (δ + ε) + x.holder)
  have hholder : (x.balance + δ + ε + (x.balance + δ + x.holder).sign).sign =
      (x.balance + (δ + ε) + x.holder).sign := by
    omega
  rw [Scale.mk.injEq]
  exact ⟨Int.add_assoc _ _ _, hholder⟩

/-- Falling and then rising is never better than rising and then falling. -/
theorem fall_rise_le_rise_fall (x : Scale) {δ ν : Int} (hδ : 0 ≤ δ) (hν : ν ≤ 0) :
    Below ((x.move ν).move δ) ((x.move δ).move ν) := by
  rcases em (δ = 0) with rfl | hδ0
  · rw [move_zero, move_zero]
    exact Below.refl _
  rcases em (ν = 0) with rfl | hν0
  · rw [move_zero, move_zero]
    exact Below.refl _
  rw [move_of_ne hδ0, move_of_ne hν0, move_of_ne hν0, move_of_ne hδ0]
  have h₁ := sign_cases (x.balance + ν + x.holder)
  have h₂ := sign_cases (x.balance + δ + x.holder)
  have h₃ := sign_cases (x.balance + ν + δ + (x.balance + ν + x.holder).sign)
  have h₄ := sign_cases (x.balance + δ + ν + (x.balance + δ + x.holder).sign)
  constructor <;> dsimp only <;> omega

/-! ## The orders of a batch

A batch is compared with the two orders in which all changes of one direction come first. -/

/-- The sum of the changes that lower the balance. -/
def falls (δs : List Int) : Int := (δs.filter (· ≤ 0)).sum

/-- The sum of the changes that raise it. -/
def rises (δs : List Int) : Int := (δs.filter (0 < ·)).sum

/-- The batch with everything that falls first. -/
def lowest (x : Scale) (δs : List Int) : Scale := (x.move (falls δs)).move (rises δs)

/-- The batch with everything that rises first. -/
def highest (x : Scale) (δs : List Int) : Scale := (x.move (rises δs)).move (falls δs)

/-- A sum of falls is a fall, -/
theorem sum_nonpos {δs : List Int} (h : ∀ δ ∈ δs, δ ≤ 0) : δs.sum ≤ 0 := by
  induction δs with
  | nil => exact Int.le_refl 0
  | cons δ δs ih =>
    have hδ := h δ List.mem_cons_self
    have hrest := ih fun ε hε => h ε (List.mem_cons_of_mem _ hε)
    rw [List.sum_cons]
    omega

/-- so the falls of a batch lower the balance, -/
theorem falls_nonpos (δs : List Int) : falls δs ≤ 0 :=
  sum_nonpos fun δ hδ => by simpa using (List.mem_filter.mp hδ).2

/-- and the rises raise it. -/
theorem rises_nonneg (δs : List Int) : 0 ≤ rises δs := by
  have h : ∀ l : List Int, (∀ δ ∈ l, 0 ≤ δ) → 0 ≤ l.sum := fun l hl => List.sum_nonneg hl
  refine h _ fun δ hδ => ?_
  have := (List.mem_filter.mp hδ).2
  simp only [decide_eq_true_eq] at this
  omega

/-- The falls of a batch, by its first change, -/
theorem falls_cons (δ : Int) (δs : List Int) :
    falls (δ :: δs) = (if δ ≤ 0 then δ else 0) + falls δs := by
  rcases em (δ ≤ 0) with h | h
  · simp [falls, h]
  · simp [falls, h]

/-- and its rises. -/
theorem rises_cons (δ : Int) (δs : List Int) :
    rises (δ :: δs) = (if 0 < δ then δ else 0) + rises δs := by
  rcases em (0 < δ) with h | h
  · simp [rises, h]
  · simp [rises, h]

/-- They do not depend on the order of the batch, -/
theorem falls_perm {δs εs : List Int} (h : δs.Perm εs) : falls δs = falls εs :=
  (h.filter _).sum_eq

/-- neither of the two. -/
theorem rises_perm {δs εs : List Int} (h : δs.Perm εs) : rises δs = rises εs :=
  (h.filter _).sum_eq

/-- **The lowest order**: no order of a batch ends below the one that falls first. -/
theorem lowest_below (δs : List Int) :
    ∀ {x : Scale}, x.Coherent → Below (x.lowest δs) (x.moves δs) := by
  induction δs with
  | nil => exact fun {x} _ => Below.refl x
  | cons δ δs ih =>
    intro x hx
    have hrest : Below (((x.move δ).move (falls δs)).move (rises δs)) ((x.move δ).moves δs) :=
      ih (hx.move δ)
    have hfall := falls_nonpos δs
    have hrise := rises_nonneg δs
    refine Below.trans ?_ hrest
    rw [lowest, falls_cons, rises_cons]
    rcases em (δ ≤ 0) with hδ | hδ
    · -- a fall joins the falls
      rw [if_pos hδ, if_neg (by omega), Int.zero_add, move_move hx (Or.inr ⟨hδ, hfall⟩)]
      exact Below.refl _
    · -- a rise waits until the falls are over, and then joins the rises
      rw [if_neg hδ, if_pos (by omega), Int.zero_add,
        ← move_move (hx.move _) (Or.inl ⟨by omega, hrise⟩)]
      exact (fall_rise_le_rise_fall x (by omega) hfall).move _

/-- The scale seen from the other side. -/
def neg (x : Scale) : Scale := ⟨-x.balance, -x.holder⟩

/-- Seen from the other side a change has the other sign, -/
theorem neg_move (x : Scale) (δ : Int) : (x.move δ).neg = x.neg.move (-δ) := by
  rcases em (δ = 0) with rfl | h
  · rw [Int.neg_zero, move_zero, move_zero]
  · rw [move_of_ne h, move_of_ne (by omega), neg, neg, Scale.mk.injEq]
    refine ⟨by dsimp only; omega, ?_⟩
    have harg : -x.balance + -δ + -x.holder = -(x.balance + δ + x.holder) := by omega
    show -(x.balance + δ + x.holder).sign = (-x.balance + -δ + -x.holder).sign
    rw [harg, Int.sign_neg]

/-- and so has each of a list. -/
theorem neg_moves (δs : List Int) : ∀ x : Scale,
    (x.moves δs).neg = x.neg.moves (δs.map fun δ => -δ) := by
  induction δs with
  | nil => exact fun _ => rfl
  | cons δ δs ih =>
    intro x
    rw [moves_cons, ih, neg_move]
    rfl

/-- A coherent scale is coherent from the other side, -/
theorem Coherent.neg {x : Scale} (h : x.Coherent) : x.neg.Coherent := by
  obtain ⟨hrange, hahead, hfar, hbehind, hfarb⟩ := h
  constructor <;> dsimp only [Scale.neg] <;> omega

/-- and the order is turned round. -/
theorem Below.of_neg {x y : Scale} (h : Below x.neg y.neg) : Below y x := by
  have hb : -x.balance = -y.balance := h.balance
  have hh : -x.holder ≤ -y.holder := h.holder
  exact ⟨by omega, by omega⟩

/-- What falls is what rises from there, -/
theorem falls_map_neg (δs : List Int) : falls (δs.map fun δ => -δ) = -rises δs := by
  induction δs with
  | nil => rfl
  | cons δ δs ih =>
    rw [List.map_cons, falls_cons, rises_cons, ih]
    split <;> split <;> omega

/-- and what rises is what falls. -/
theorem rises_map_neg (δs : List Int) : rises (δs.map fun δ => -δ) = -falls δs := by
  induction δs with
  | nil => rfl
  | cons δ δs ih =>
    rw [List.map_cons, falls_cons, rises_cons, ih]
    split <;> split <;> omega

/-- **The highest order**: no order of a batch ends above the one that rises first. -/
theorem below_highest (δs : List Int) {x : Scale} (h : x.Coherent) :
    Below (x.moves δs) (x.highest δs) := by
  have hlow := lowest_below (δs.map fun δ => -δ) h.neg
  rw [lowest, falls_map_neg, rises_map_neg, ← neg_move, ← neg_move, ← neg_moves] at hlow
  exact hlow.of_neg

/-- Falls can be made at once, -/
theorem moves_of_nonpos {δs : List Int} (hδs : ∀ δ ∈ δs, δ ≤ 0) :
    ∀ {x : Scale}, x.Coherent → x.moves δs = x.move δs.sum := by
  induction δs with
  | nil => exact fun {x} _ => (move_zero x).symm
  | cons δ δs ih =>
    intro x hx
    have hrest : ∀ ε ∈ δs, ε ≤ 0 := fun ε hε => hδs ε (List.mem_cons_of_mem _ hε)
    rw [moves_cons, ih hrest (hx.move δ), List.sum_cons]
    exact move_move hx (Or.inr ⟨hδs δ List.mem_cons_self, sum_nonpos hrest⟩)

/-- and so can rises. -/
theorem moves_of_nonneg {δs : List Int} (hδs : ∀ δ ∈ δs, 0 ≤ δ) :
    ∀ {x : Scale}, x.Coherent → x.moves δs = x.move δs.sum := by
  induction δs with
  | nil => exact fun {x} _ => (move_zero x).symm
  | cons δ δs ih =>
    intro x hx
    have hrest : ∀ ε ∈ δs, 0 ≤ ε := fun ε hε => hδs ε (List.mem_cons_of_mem _ hε)
    rw [moves_cons, ih hrest (hx.move δ), List.sum_cons]
    exact move_move hx (Or.inl ⟨hδs δ List.mem_cons_self, List.sum_nonneg hrest⟩)

/-! ## Two batches, one after the other

Between two batches the holder is whatever the first has left; the two lowest orders give the lowest
end, and the two highest ones the highest. -/

/-- Two scales that are each no better than the other are one scale. -/
theorem Below.antisymm {x y : Scale} (h : Below x y) (h' : Below y x) : x = y := by
  have hb := h.balance
  have hh := h.holder
  have hh' := h'.holder
  rcases x with ⟨b, s⟩
  rcases y with ⟨c, t⟩
  have hs : s = t := Int.le_antisymm hh hh'
  rw [Scale.mk.injEq]
  exact ⟨hb, hs⟩

/-- The lowest order of a batch is one of its orders: what falls, and then what rises. -/
theorem lowest_eq {x : Scale} (h : x.Coherent) (δs : List Int) :
    x.lowest δs = x.moves (δs.filter (· ≤ 0) ++ δs.filter (0 < ·)) := by
  have hfall : ∀ δ ∈ δs.filter (· ≤ 0), δ ≤ 0 := by
    intro δ hδ
    simpa using (List.mem_filter.mp hδ).2
  have hrise : ∀ δ ∈ δs.filter (0 < ·), 0 ≤ δ := by
    intro δ hδ
    have hpos : 0 < δ := by simpa using (List.mem_filter.mp hδ).2
    omega
  rw [moves_append, moves_of_nonpos hfall h, moves_of_nonneg hrise (h.move _)]
  rfl

/-- The highest order of a batch is one of its orders: what rises, and then what falls. -/
theorem highest_eq {x : Scale} (h : x.Coherent) (δs : List Int) :
    x.highest δs = x.moves (δs.filter (0 < ·) ++ δs.filter (· ≤ 0)) := by
  have hfall : ∀ δ ∈ δs.filter (· ≤ 0), δ ≤ 0 := by
    intro δ hδ
    simpa using (List.mem_filter.mp hδ).2
  have hrise : ∀ δ ∈ δs.filter (0 < ·), 0 ≤ δ := by
    intro δ hδ
    have hpos : 0 < δ := by simpa using (List.mem_filter.mp hδ).2
    omega
  rw [moves_append, moves_of_nonneg hrise h, moves_of_nonpos hfall (h.move _)]
  rfl

/-- The lowest order depends on what is in the batch only, -/
theorem lowest_perm {δs δs' : List Int} (h : δs'.Perm δs) (x : Scale) :
    x.lowest δs' = x.lowest δs := by
  unfold lowest
  rw [falls_perm h, rises_perm h]

/-- and so does the highest. -/
theorem highest_perm {δs δs' : List Int} (h : δs'.Perm δs) (x : Scale) :
    x.highest δs' = x.highest δs := by
  unfold highest
  rw [falls_perm h, rises_perm h]

/-- Either of them leaves the scale coherent, -/
theorem Coherent.lowest {x : Scale} (h : x.Coherent) (δs : List Int) : (x.lowest δs).Coherent :=
  (h.move _).move _

/-- as every order does. -/
theorem Coherent.highest {x : Scale} (h : x.Coherent) (δs : List Int) : (x.highest δs).Coherent :=
  (h.move _).move _

/-- Both extreme orders of two batches leave the same holder. -/
def Settled (x : Scale) (δs εs : List Int) : Prop :=
  ((x.lowest δs).lowest εs).holder = ((x.highest δs).highest εs).holder

instance (x : Scale) (δs εs : List Int) : Decidable (x.Settled δs εs) :=
  inferInstanceAs (Decidable (_ = _))

/-- No order of two batches ends below the two lowest ones. -/
theorem lowest_lowest_below {x : Scale} (h : x.Coherent) {δs δs' εs εs' : List Int}
    (hδ : δs'.Perm δs) (hε : εs'.Perm εs) :
    Below ((x.lowest δs).lowest εs) ((x.moves δs').moves εs') := by
  have hfirst : Below (x.lowest δs') (x.moves δs') := lowest_below δs' h
  have hsecond := lowest_below εs' (h.moves δs')
  rw [lowest_perm hδ] at hfirst
  rw [lowest_perm hε] at hsecond
  exact ((hfirst.move _).move _).trans hsecond

/-- No order of two batches ends above the two highest ones. -/
theorem below_highest_highest {x : Scale} (h : x.Coherent) {δs δs' εs εs' : List Int}
    (hδ : δs'.Perm δs) (hε : εs'.Perm εs) :
    Below ((x.moves δs').moves εs') ((x.highest δs).highest εs) := by
  have hfirst : Below (x.moves δs') (x.highest δs') := below_highest δs' h
  have hsecond := below_highest εs' (h.moves δs')
  rw [highest_perm hδ] at hfirst
  rw [highest_perm hε] at hsecond
  exact hsecond.trans ((hfirst.move _).move _)

/-- **Settled batches end in one scale**, in whatever order they are made. -/
theorem Settled.moves_eq {x : Scale} (h : x.Coherent) {δs δs' εs εs' : List Int}
    (hs : x.Settled δs εs) (hδ : δs'.Perm δs) (hε : εs'.Perm εs) :
    (x.moves δs').moves εs' = (x.moves δs).moves εs := by
  have hlow := lowest_lowest_below h hδ hε
  have hhigh := below_highest_highest h hδ hε
  have hlow₀ := lowest_lowest_below h (List.Perm.refl δs) (List.Perm.refl εs)
  have hhigh₀ := below_highest_highest h (List.Perm.refl δs) (List.Perm.refl εs)
  have hsame : ((x.lowest δs).lowest εs).holder = ((x.highest δs).highest εs).holder := hs
  -- both ends are caught between the two extremes, which agree
  apply Below.antisymm
  · exact ⟨hlow.balance.symm.trans hlow₀.balance, by
      have h₁ := hhigh.holder
      have h₂ := hlow₀.holder
      omega⟩
  · exact ⟨hlow₀.balance.symm.trans hlow.balance, by
      have h₁ := hhigh₀.holder
      have h₂ := hlow.holder
      omega⟩

/-! ## A balance without a holder

Weighing looks at the balance and the old holder only, so what the last change finds decides. -/

/-- The balance is not even, and yet nobody holds the scale. -/
def Lone (x : Scale) : Prop := x.balance ≠ 0 ∧ x.holder = 0

/-- The change leaves the holder's opponent one ahead: with the holder counted, the scale is even. -/
def TipsEven (x : Scale) (δ : Int) : Prop := x.holder ≠ 0 ∧ x.balance + δ + x.holder = 0

instance (x : Scale) : Decidable x.Lone := inferInstanceAs (Decidable (_ ∧ _))

instance (x : Scale) (δ : Int) : Decidable (x.TipsEven δ) := inferInstanceAs (Decidable (_ ∧ _))

/-- The last of a list of changes tips the scale even. -/
def LastTipsEven : Scale → List Int → Prop
  | _, [] => False
  | x, [δ] => x.TipsEven δ
  | x, δ :: ε :: δs => LastTipsEven (x.move δ) (ε :: δs)

instance decidableLastTipsEven : ∀ (x : Scale) (δs : List Int), Decidable (x.LastTipsEven δs)
  | _, [] => .isFalse id
  | x, [δ] => inferInstanceAs (Decidable (x.TipsEven δ))
  | x, δ :: ε :: δs => decidableLastTipsEven (x.move δ) (ε :: δs)

/-- A change leaves a balance without a holder exactly when it tips the scale even. -/
theorem lone_move_iff {x : Scale} {δ : Int} (h : δ ≠ 0) : (x.move δ).Lone ↔ x.TipsEven δ := by
  have hsign := sign_cases (x.balance + δ + x.holder)
  rw [move_of_ne h, Lone, TipsEven]
  dsimp only
  omega

/-- **When a list of changes ends in a balance without a holder.** -/
theorem lone_moves_iff {δs : List Int} (hne : δs ≠ []) (h : ∀ δ ∈ δs, δ ≠ 0) (x : Scale) :
    (x.moves δs).Lone ↔ x.LastTipsEven δs := by
  induction δs generalizing x with
  | nil => exact absurd rfl hne
  | cons δ δs ih =>
    rcases δs with _ | ⟨ε, δs⟩
    · exact lone_move_iff (h δ List.mem_cons_self)
    · rw [moves_cons]
      exact ih (List.cons_ne_nil _ _) (fun ε' hε' => h ε' (List.mem_cons_of_mem _ hε')) (x.move δ)

end Scale
end HexWar.Lib
