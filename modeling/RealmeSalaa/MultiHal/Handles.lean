import RealmeSalaa.MultiHal.Types

/-!
# Handles as numbers

Below `2 ^ 24` a handle leaves its first byte to the sub-HAL index. `setSubHalIndex` then adds the
index there, for all 256 values (`toNat_setSubHalIndex`), so that distinct pairs get distinct
handles. The way back is shorter: `extractSubHalIndex` shifts a signed handle, and an index whose
top bit is set comes back as a number above any sub-HAL (`extractSubHalIndex_eq`), not as the one
that was put there (`encodedSubHalIndex`).
-/

namespace RealmeSalaa.MultiHal

/-- The first byte is clear exactly below `2 ^ 24`. -/
theorem toNat_lt_of_clear {h : Int32} (hh : subHalIndexIsClear h = true) :
    h.toBitVec.toNat < 2 ^ 24 := by
  have hand : h.toBitVec.toNat &&& 0xFF000000 = 0 := by
    have := congrArg (fun x : Int32 => x.toBitVec.toNat) (beq_iff_eq.1 hh)
    simpa [kSensorHandleSubHalIndexMask] using this
  refine Nat.lt_pow_two_of_testBit _ fun i hi => ?_
  by_cases h32 : i < 32
  · have hbit : (h.toBitVec.toNat &&& 0xFF000000).testBit i = false := by rw [hand]; simp
    rw [Nat.testBit_and] at hbit
    have hmask : Nat.testBit 0xFF000000 i = true := by interval_cases i <;> rfl
    rwa [hmask, Bool.and_true] at hbit
  · exact Nat.testBit_lt_two_pow (lt_of_lt_of_le h.toBitVec.isLt (Nat.pow_le_pow_right (by omega) (by omega)))

theorem toNat_setSubHalIndex {h : Int32} {i : ℕ} (hh : subHalIndexIsClear h = true)
    (hi : i < 256) : (setSubHalIndex h i).toBitVec.toNat = h.toBitVec.toNat + i * 2 ^ 24 := by
  have hlt := toNat_lt_of_clear hh
  have hshift : (Int32.ofNat i <<< kBitsAfterSubHalIndex).toBitVec.toNat = i <<< 24 := by
    have h24 : (kBitsAfterSubHalIndex.toBitVec.smod 32) = 24#32 := by decide
    rw [Int32.toBitVec_shiftLeft, h24]
    simp [Nat.shiftLeft_eq]
    omega
  unfold setSubHalIndex
  rw [Int32.toBitVec_or, BitVec.toNat_or, hshift, Nat.or_comm,
    ← Nat.shiftLeft_add_eq_or_of_lt hlt, Nat.shiftLeft_eq]
  omega

theorem clearSubHalIndex_setSubHalIndex {h : Int32} {i : ℕ} (hh : subHalIndexIsClear h = true)
    (hi : i < 256) : clearSubHalIndex (setSubHalIndex h i) = h := by
  have hlt := toNat_lt_of_clear hh
  have hmask : (~~~kSensorHandleSubHalIndexMask).toBitVec.toNat = 2 ^ 24 - 1 := by decide
  apply Int32.toBitVec_inj.1
  apply BitVec.eq_of_toNat_eq
  unfold clearSubHalIndex
  rw [Int32.toBitVec_and, BitVec.toNat_and, hmask, Nat.and_two_pow_sub_one_eq_mod,
    toNat_setSubHalIndex hh hi]
  omega

/-- The first byte of a handle, as the number it is. -/
def encodedSubHalIndex (p : Int32) : ℕ := p.toBitVec.toNat / 2 ^ 24

/-- A handle that the proxy publishes carries the index of its sub-HAL. -/
theorem encodedSubHalIndex_setSubHalIndex {h : Int32} {i : ℕ} (hh : subHalIndexIsClear h = true)
    (hi : i < 256) : encodedSubHalIndex (setSubHalIndex h i) = i := by
  have hlt := toNat_lt_of_clear hh
  unfold encodedSubHalIndex
  rw [toNat_setSubHalIndex hh hi]
  omega

/-- What the arithmetic shift and the cast to `size_t` make of a handle. -/
theorem extractSubHalIndex_eq (p : Int32) :
    extractSubHalIndex p =
      if p.toBitVec.toNat < 2 ^ 31 then p.toBitVec.toNat / 2 ^ 24
      else 2 ^ 64 - 2 ^ 8 + p.toBitVec.toNat / 2 ^ 24 := by
  have h24 : (kBitsAfterSubHalIndex.toBitVec.smod 32).toNat = 24 := by decide
  set y := (p.toBitVec.sshiftRight 24).signExtend 64 with hy
  have hext : extractSubHalIndex p = y.toNat := by
    unfold extractSubHalIndex
    rw [hy, ← h24]; rfl
  have hint : y.toInt = p.toBitVec.toInt / 2 ^ 24 := by
    rw [hy, BitVec.toInt_signExtend_of_le (by omega), BitVec.toInt_sshiftRight,
      Int.shiftRight_eq_div_pow]
    norm_num
  have hp := p.toBitVec.isLt
  have hy64 := y.isLt
  rw [BitVec.toInt_eq_toNat_cond, BitVec.toInt_eq_toNat_cond] at hint
  rw [hext]
  split_ifs at hint ⊢ <;> omega

theorem extractSubHalIndex_setSubHalIndex {h : Int32} {i : ℕ} (hh : subHalIndexIsClear h = true)
    (hi : i < 128) : extractSubHalIndex (setSubHalIndex h i) = i := by
  have hlt := toNat_lt_of_clear hh
  rw [extractSubHalIndex_eq, toNat_setSubHalIndex hh (by omega), if_pos (by omega)]
  omega

/-- From 128 on the decoded index is out of any list's range. -/
theorem le_extractSubHalIndex {h : Int32} {i : ℕ} (hh : subHalIndexIsClear h = true)
    (hi : 128 ≤ i) (hi' : i < 256) : 256 ≤ extractSubHalIndex (setSubHalIndex h i) := by
  rw [extractSubHalIndex_eq, toNat_setSubHalIndex hh hi', if_neg (by omega)]
  omega

/-- An index that is decoded as one of a list's is the one that was put there. -/
theorem encodedSubHalIndex_of_lt {p : Int32} (h : extractSubHalIndex p < 256) :
    encodedSubHalIndex p = extractSubHalIndex p := by
  unfold encodedSubHalIndex
  rw [extractSubHalIndex_eq] at h ⊢
  split_ifs at h ⊢ <;> omega

theorem setSubHalIndex_injective {h h' : Int32} {i i' : ℕ} (hh : subHalIndexIsClear h = true)
    (hh' : subHalIndexIsClear h' = true) (hi : i < 256) (hi' : i' < 256)
    (heq : setSubHalIndex h' i' = setSubHalIndex h i) : i' = i ∧ h' = h := by
  have hlt := toNat_lt_of_clear hh
  have hlt' := toNat_lt_of_clear hh'
  have hnat := congrArg (fun p : Int32 => p.toBitVec.toNat) heq
  simp only [toNat_setSubHalIndex hh hi, toNat_setSubHalIndex hh' hi'] at hnat
  refine ⟨by omega, Int32.toBitVec_inj.1 (BitVec.eq_of_toNat_eq ?_)⟩
  omega

end RealmeSalaa.MultiHal
