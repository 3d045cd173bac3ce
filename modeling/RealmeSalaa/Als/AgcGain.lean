import RealmeSalaa.Als.ScreenLight
import RealmeSalaa.Lib.StepTable

/-!
# The gain table

The loop over the calibration points overwrites the gain at every point below the estimate, so it
keeps the one of the last such point in the table, and not of the largest (`agc_gain_eq`). On an
ascending table the two are the same. The shipped table ends with the point 0, which is below every
positive estimate.
-/

namespace RealmeSalaa.Als

open StepTable

variable {conf : AlsConfig} {data2 raw e : ℚ}

/-! ## The estimate -/

/-- The divisor of the estimate. -/
def estimateDivisor (conf : AlsConfig) (data2 raw : ℚ) : ℚ := if conf.hbr then raw else data2

/-- `gain_estimate`, over a divisor other than zero. -/
def estimate (conf : AlsConfig) (data2 raw : ℚ) : ℚ :=
  if conf.hbr then data2 * 1000 / raw else raw / data2

theorem gain_estimate_eq (hdivisor : estimateDivisor conf data2 raw ≠ 0) :
    gain_estimate conf data2 raw = ((estimate conf data2 raw : ℚ) : WithTop ℚ) := by
  unfold gain_estimate estimate
  unfold estimateDivisor at hdivisor
  split_ifs at hdivisor ⊢
  · exact if_pos hdivisor
  · exact if_pos hdivisor

/-! ## Points below the estimate -/

/-- The point is below the estimate, and no other one below it is larger. -/
def IsLargestBelow (conf : AlsConfig) (e : ℚ) (i : Fin 4) : Prop :=
  conf.sensor_gaincal_points i < e ∧
    ∀ j, conf.sensor_gaincal_points j < e →
      conf.sensor_gaincal_points j ≤ conf.sensor_gaincal_points i

/-- The point is below the estimate, and none after it in the table is. -/
def IsLastBelow (conf : AlsConfig) (e : ℚ) (i : Fin 4) : Prop :=
  conf.sensor_gaincal_points i < e ∧ ∀ j, i < j → ¬conf.sensor_gaincal_points j < e

/-- The gain of the largest point below the estimate, or the first one if there is none. -/
def FollowsTable (conf : AlsConfig) (e gain : ℚ) : Prop :=
  (∃ i, IsLargestBelow conf e i ∧ gain = conf.sensor_inverse_gain i) ∨
    (∀ i, ¬conf.sensor_gaincal_points i < e) ∧ gain = firstInverseGain conf

/-- The last point below the estimate has the gain of a largest one. -/
def LastIsLargest (conf : AlsConfig) (e : ℚ) : Prop :=
  ∀ i, IsLastBelow conf e i →
    ∃ k, IsLargestBelow conf e k ∧ conf.sensor_inverse_gain k = conf.sensor_inverse_gain i

instance (conf : AlsConfig) (e : ℚ) (i : Fin 4) : Decidable (IsLargestBelow conf e i) := by
  unfold IsLargestBelow; infer_instance

instance (conf : AlsConfig) (e gain : ℚ) : Decidable (FollowsTable conf e gain) := by
  unfold FollowsTable; infer_instance

theorem IsLastBelow.unique {i j : Fin 4} (hi : IsLastBelow conf e i) (hj : IsLastBelow conf e j) :
    i = j := by
  rcases lt_trichotomy i j with hlt | heq | hlt
  · exact absurd hj.1 (hi.2 j hlt)
  · exact heq
  · exact absurd hi.1 (hj.2 i hlt)

/-- An ascending table. -/
theorem lastIsLargest_of_monotone (h : Monotone conf.sensor_gaincal_points) (e : ℚ) :
    LastIsLargest conf e := by
  intro i hi
  refine ⟨i, ⟨hi.1, fun j hj => h ?_⟩, rfl⟩
  by_contra hlt
  exact hi.2 j (not_le.1 hlt) hj

/-! ## The loop -/

/-- Past the threshold the gain is that of the last point below the estimate. -/
theorem agc_gain_eq (hraw : conf.agc_threshold < raw)
    (hdivisor : estimateDivisor conf data2 raw ≠ 0) :
    (∀ i, ¬conf.sensor_gaincal_points i < estimate conf data2 raw) ∧
      agc_gain conf data2 raw = conf.sensor_inverse_gain 0 ∨
    ∃ i, IsLastBelow conf (estimate conf data2 raw) i ∧
      agc_gain conf data2 raw = conf.sensor_inverse_gain i := by
  have hbelow : ∀ i, gain_estimate conf data2 raw > ((conf.sensor_gaincal_points i : ℚ) : WithTop ℚ) ↔
      conf.sensor_gaincal_points i < estimate conf data2 raw := by
    intro i
    rw [gain_estimate_eq hdivisor]
    exact WithBot.coe_lt_coe.trans WithTop.coe_lt_coe
  unfold agc_gain
  rw [if_pos hraw]
  simp only [hbelow]
  rcases foldl_keepLast (p := fun i => conf.sensor_gaincal_points i < estimate conf data2 raw)
    conf.sensor_inverse_gain (List.pairwise_lt_finRange 4) (conf.sensor_inverse_gain 0) with
    ⟨hnone, heq⟩ | ⟨i, -, hi, hlast, heq⟩
  · exact .inl ⟨fun i => hnone i (List.mem_finRange i), heq⟩
  · exact .inr ⟨i, ⟨hi, fun j => hlast j (List.mem_finRange j)⟩, heq⟩

theorem followsTable_agc_gain_iff (hraw : conf.agc_threshold < raw)
    (hdivisor : estimateDivisor conf data2 raw ≠ 0) :
    FollowsTable conf (estimate conf data2 raw) (agc_gain conf data2 raw) ↔
      LastIsLargest conf (estimate conf data2 raw) := by
  rcases agc_gain_eq hraw hdivisor with ⟨hnone, heq⟩ | ⟨i, hi, heq⟩
  · exact iff_of_true (.inr ⟨hnone, heq⟩) fun i hi => absurd hi.1 (hnone i)
  · constructor
    · rintro (⟨k, hk, hgain⟩ | ⟨hnone, -⟩) j hj
      · rw [hj.unique hi]
        exact ⟨k, hk, hgain.symm.trans heq⟩
      · exact absurd hi.1 (hnone i)
    · intro h
      obtain ⟨k, hk, hgain⟩ := h i hi
      exact .inl ⟨k, hk, heq.trans hgain.symm⟩

/-! ## A call of `process` -/

theorem last_agc_gain_setWindow (ranges : List HysteresisRange) (fullwhite corrected : ℚ)
    (s : AlsState) : (setWindow ranges fullwhite corrected s).last_agc_gain = s.last_agc_gain := by
  unfold setWindow
  split <;> rfl

/-- **The gain table.** Past the threshold, the gain that `process` selects for a reading is that of
the largest calibration point below the estimate if and only if the last point below it has that
gain. A full correction leaves it in `last_agc_gain`. -/
theorem selected_gain_iff (pow : ℚ → ℚ) (m : AlsCorrection) (call : Call) (event : SensorsEvent)
    {screenshot : AreaRgbCaptureResult} (hcapture : call.capture = .captured screenshot) :
    let reading := unbiasedEvent m.conf event
    let raw := sensor_raw_corrected pow m.conf screenshot call.brightness reading.light
    let gain := selected_gain pow m.conf screenshot call.brightness reading
    let out := m.process pow call event
    (out.1.path = .corrected → out.2.state.last_agc_gain = gain) ∧
    (m.conf.agc_threshold < raw → estimateDivisor m.conf reading.data2 raw ≠ 0 →
      (FollowsTable m.conf (estimate m.conf reading.data2 raw) gain ↔
        LastIsLargest m.conf (estimate m.conf reading.data2 raw))) := by
  intro reading raw gain out
  refine ⟨fun hpath => ?_, fun hraw hdivisor => followsTable_agc_gain_iff hraw hdivisor⟩
  obtain ⟨screenshot', hcapture', heq⟩ := exists_of_corrected hpath
  cases hcapture.symm.trans hcapture'
  have hstate : out.2.state = (fullyCorrect pow m.conf m.hysteresis_ranges call.brightness
      screenshot reading (arrive call m.state)).state := congrArg Processed.state heq
  rw [hstate]
  exact last_agc_gain_setWindow _ _ _ _

/-- Under a dark screen a reading of 10000 with 2000 in `data[2]` has the estimate 200. -/
theorem selected_gain_iff_sample :
    let call : Call := ⟨1000000000, 0, .captured ⟨0, 0, 0⟩⟩
    (shippedModule.process id call ⟨3, 65627, 10000, 2000⟩).2.state.last_agc_gain = 35 / 1000 ∧
      (FollowsTable shippedModule.conf 200 (35 / 1000) ↔ LastIsLargest shippedModule.conf 200) := by
  intro call
  have hpath : (shippedModule.process id call ⟨3, 65627, 10000, 2000⟩).1.path = .corrected := by
    decide +kernel
  obtain ⟨hgain, hiff⟩ := selected_gain_iff id shippedModule call ⟨3, 65627, 10000, 2000⟩ rfl
  have hselected : selected_gain id shippedModule.conf ⟨0, 0, 0⟩ call.brightness
      (unbiasedEvent shippedModule.conf ⟨3, 65627, 10000, 2000⟩) = 35 / 1000 := by decide +kernel
  have hiff := hiff (by decide +kernel) (by decide +kernel)
  rw [hselected] at hiff
  refine ⟨(hgain hpath).trans hselected, ?_⟩
  convert hiff using 2 <;> decide +kernel

/-- The table of `vendor.prop` is followed for estimates up to 45. -/
theorem lastIsLargest_shipped_iff (e : ℚ) : LastIsLargest shippedModule.conf e ↔ e ≤ 45 := by
  have hpoints : ∀ i, shippedModule.conf.sensor_gaincal_points i = ![45, 115, 170, 0] i := by
    decide
  have hgains : ∀ i, shippedModule.conf.sensor_inverse_gain i =
      shippedModule.conf.sensor_inverse_gain 3 → i = 3 := by decide +kernel
  constructor
  · intro h
    by_contra hlt
    have hlast : IsLastBelow shippedModule.conf e 3 := by
      refine ⟨?_, fun j hj => absurd hj (by omega)⟩
      rw [hpoints]
      exact lt_trans (by decide) (not_le.1 hlt)
    obtain ⟨k, hk, hgain⟩ := h 3 hlast
    have hle := hk.2 0 (by rw [hpoints]; exact not_le.1 hlt)
    rw [hgains k hgain, hpoints, hpoints] at hle
    exact absurd hle (by decide)
  · intro hle i hi
    -- below 45 there is only the last point
    have hbelow : ∀ j, shippedModule.conf.sensor_gaincal_points j < 45 → j = 3 := by
      decide
    have hthree : ∀ j, shippedModule.conf.sensor_gaincal_points j < e → j = 3 :=
      fun j hj => hbelow j (hj.trans_le hle)
    refine ⟨i, ⟨hi.1, fun j hj => ?_⟩, rfl⟩
    rw [hthree j hj, hthree i hi.1]

/-- With the shipped table the estimate 200 selects the gain of the point 0, and not of the
point 170. -/
theorem shipped_table_not_followed :
    let call : Call := ⟨1000000000, 0, .captured ⟨0, 0, 0⟩⟩
    let out := shippedModule.process id call ⟨3, 65627, 10000, 2000⟩
    out.1.path = .corrected ∧ estimate shippedModule.conf 2000 10000 = 200 ∧
      ¬FollowsTable shippedModule.conf 200 out.2.state.last_agc_gain := by
  decide +kernel

end RealmeSalaa.Als
