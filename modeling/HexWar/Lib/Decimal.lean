/-
  Integers in decimal, read from the front of a text.

  `takeInteger` reads a sign, if there is one, and the digits that follow it.  Of what `toString`
  writes it reads everything, and reads the integer that was written (`takeInteger_toString`).
-/
import Mathlib.Data.List.TakeWhile
import Mathlib.Algebra.Order.Group.Int

namespace HexWar.Lib

/-- A sign at the front: whether it is a minus, and what follows. -/
def takeSign : List Char → Bool × List Char
  | '-' :: cs => (true, cs)
  | '+' :: cs => (false, cs)
  | cs => (false, cs)

/-- An integer at the front: its value, and what follows. -/
def takeInteger (cs : List Char) : Option (Int × List Char) :=
  let (negative, unsigned) := takeSign cs
  let digits := unsigned.takeWhile Char.isDigit
  let value := (Nat.ofDigitChars 10 digits 0 : Int)
  if digits = [] then none
  else some (if negative then -value else value, unsigned.dropWhile Char.isDigit)

theorem takeSign_of_digit {c : Char} (hc : c.isDigit = true) (cs : List Char) :
    takeSign (c :: cs) = (false, c :: cs) := by
  rw [takeSign]
  · rintro rest ⟨⟩
    cases hc
  · rintro rest ⟨⟩
    cases hc

/-! ## What is written -/

theorem toList_toString_ofNat (n : Nat) : (toString (n : Int)).toList = Nat.toDigits 10 n :=
  Nat.toList_repr

theorem toList_toString_negSucc (n : Nat) :
    (toString (Int.negSucc n)).toList = '-' :: Nat.toDigits 10 (n + 1) := by
  show ("-" ++ (n + 1).repr).toList = _
  rw [String.toList_append, Nat.toList_repr]
  rfl

theorem isDigit_of_mem {n : Nat} : ∀ c ∈ Nat.toDigits 10 n, c.isDigit = true :=
  fun _ hc => Nat.isDigit_of_mem_toDigits (by decide) (by decide) hc

theorem takeWhile_toDigits (n : Nat) :
    (Nat.toDigits 10 n).takeWhile Char.isDigit = Nat.toDigits 10 n :=
  List.takeWhile_eq_self_iff.mpr isDigit_of_mem

theorem dropWhile_toDigits (n : Nat) : (Nat.toDigits 10 n).dropWhile Char.isDigit = [] :=
  List.dropWhile_eq_nil_iff.mpr isDigit_of_mem

theorem takeSign_toDigits (n : Nat) : takeSign (Nat.toDigits 10 n) = (false, Nat.toDigits 10 n) := by
  obtain ⟨c, cs, hdigits⟩ := List.exists_cons_of_ne_nil (Nat.toDigits_ne_nil (n := n) (b := 10))
  have hc : c.isDigit = true := isDigit_of_mem c (hdigits ▸ List.mem_cons_self)
  rw [hdigits, takeSign_of_digit hc]

/-- **What is written is read**, to its end. -/
theorem takeInteger_toString (n : Int) : takeInteger (toString n).toList = some (n, []) := by
  cases n with
  | ofNat n =>
    show takeInteger (toString (n : Int)).toList = _
    rw [toList_toString_ofNat, takeInteger, takeSign_toDigits]
    simp only [takeWhile_toDigits, dropWhile_toDigits, Nat.ofDigitChars_ten_toDigits]
    rw [if_neg Nat.toDigits_ne_nil]
    rfl
  | negSucc n =>
    rw [toList_toString_negSucc, takeInteger, takeSign]
    simp only [takeWhile_toDigits, dropWhile_toDigits, Nat.ofDigitChars_ten_toDigits]
    rw [if_neg Nat.toDigits_ne_nil]
    rfl

/-- What is written starts with a minus or a digit. -/
theorem toString_cons (n : Int) :
    ∃ c cs, (toString n).toList = c :: cs ∧ (c = '-' ∨ c.isDigit = true) := by
  cases n with
  | ofNat n =>
    obtain ⟨c, cs, hdigits⟩ := List.exists_cons_of_ne_nil (Nat.toDigits_ne_nil (n := n) (b := 10))
    exact ⟨c, cs, (toList_toString_ofNat n).trans hdigits,
      .inr (isDigit_of_mem c (hdigits ▸ List.mem_cons_self))⟩
  | negSucc n => exact ⟨'-', _, toList_toString_negSucc n, .inl rfl⟩

/-- A minus is written of the negative only. -/
theorem minus_notMem_toString {n : Int} (hn : 0 ≤ n) : '-' ∉ (toString n).toList := by
  obtain ⟨n, rfl⟩ := Int.eq_ofNat_of_zero_le hn
  rw [toList_toString_ofNat]
  intro hminus
  exact absurd (isDigit_of_mem '-' hminus) (by decide)

/-- It comes first. -/
theorem toString_of_neg {n : Int} (hn : n < 0) : ∃ digits, (toString n).toList = '-' :: digits := by
  obtain ⟨n, rfl⟩ := Int.eq_negSucc_of_lt_zero hn
  exact ⟨_, toList_toString_negSucc n⟩

end HexWar.Lib
