import Mathlib

/-!
# Integers as single-precision floats

A float has 24 significant bits. An integer that needs more is converted to the nearest one that does
not, and to the even multiple of the last bit if two are as near (`ofInt`). Such values are integers
again, and those of an `int` are far below the largest float.
-/

namespace SinglePrecision

/-- What the last of the 24 significant bits stands for. -/
def lastBit (n : ℕ) : ℕ := 2 ^ (n.size - 24)

/-- The nearest multiple of `unit`, the even one of two. -/
def nearestMultiple (unit n : ℕ) : ℕ :=
  let q := n / unit
  let r := n % unit
  if 2 * r < unit ∨ 2 * r = unit ∧ q % 2 = 0 then q * unit else (q + 1) * unit

/-- The value of the float that an integer is converted to. -/
def ofInt (z : ℤ) : ℤ := z.sign * nearestMultiple (lastBit z.natAbs) z.natAbs

/-- The integer has at most 24 significant bits. -/
def Representable (z : ℤ) : Prop := lastBit z.natAbs ∣ z.natAbs

instance (z : ℤ) : Decidable (Representable z) := by unfold Representable; infer_instance

theorem nearestMultiple_eq_self_iff {unit n : ℕ} (hunit : 0 < unit) :
    nearestMultiple unit n = n ↔ unit ∣ n := by
  unfold nearestMultiple
  dsimp only
  constructor
  · intro h
    rw [← h]
    split
    · exact Nat.dvd_mul_left _ _
    · exact Nat.dvd_mul_left _ _
  · intro h
    rw [Nat.mod_eq_zero_of_dvd h, if_pos (.inl hunit)]
    exact Nat.div_mul_cancel h

/-- Exactly the integers of at most 24 significant bits keep their value. -/
theorem ofInt_eq_self_iff (z : ℤ) : ofInt z = z ↔ Representable z := by
  have hpos : 0 < lastBit z.natAbs := Nat.two_pow_pos _
  unfold ofInt Representable
  rw [← nearestMultiple_eq_self_iff hpos]
  rcases eq_or_ne z 0 with rfl | hz
  · decide
  · constructor
    · intro h
      have habs := congrArg Int.natAbs h
      rwa [Int.natAbs_mul, Int.natAbs_sign_of_ne_zero hz, Nat.one_mul, Int.natAbs_natCast] at habs
    · intro h
      rw [h]
      exact Int.sign_mul_natAbs z

/-- An odd number above `2 ^ 24` lies between two floats, and goes to the even one. -/
example : ofInt 16777217 = 16777216 ∧ ofInt (-16777219) = -16777220 := by decide

end SinglePrecision
