import RealmeSalaa.Als.ScreenLight
import RealmeSalaa.Lib.StepTable

/-!
# The hysteresis window

After a full correction the window is the row of the table that the corrected value falls into.
The value is in lux at the gain selected for the reading; the bounds of the rows were divided once
by the first gain, so they bound the reading in lux at the first gain. Between the two scales the
screen's light and the ratio of the gains stand.

At the first gain the corrected value is at most the reading and at least the reading less a white
screen, and every row reaches down to the middle of the row before it, except that the second row
starts at 1 where the first one ends at 0.
-/

namespace RealmeSalaa.Als

open StepTable

/-! ## The table -/

theorem pairwise_middle :
    hysteresis_ranges.Pairwise fun r r' => r.middle ≤ r'.middle := by decide

theorem pairwise_min : hysteresis_ranges.Pairwise fun r r' => r.min ≤ r'.min := by decide

theorem pairwise_max : hysteresis_ranges.Pairwise fun r r' => r.max ≤ r'.max := by decide

theorem middle_nonneg : ∀ r ∈ hysteresis_ranges, ((0 : ℚ) : WithTop ℚ) ≤ r.middle := by decide

theorem middle_le_max :
    ∀ r ∈ hysteresis_ranges, (r.middle : WithBot (WithTop ℚ)) ≤ r.max := by decide

/-- From the second row on, a row reaches down to the middle of the one before. -/
theorem isChain_tail :
    hysteresis_ranges.tail.IsChain fun r r' => (r'.min : WithTop ℚ) ≤ r.middle := by
  decide

theorem exists_row (y : WithTop ℚ) :
    ∃ r, lookup HysteresisRange.middle hysteresis_ranges y = some r :=
  exists_lookup ⟨⟨⊤, 8000, ⊤⟩, by decide, le_top⟩

/-- The row that `init` opens to zero. -/
def firstRow : HysteresisRange := ⟨(0 : ℚ), 0, (4 : ℚ)⟩

theorem table_eq : hysteresis_ranges = firstRow :: hysteresis_ranges.tail := rfl

theorem firstRow_middle_lt {y : ℚ} (h : ¬y ≤ 0) : firstRow.middle < (y : WithTop ℚ) :=
  WithTop.coe_lt_coe.2 (not_le.1 h)

/-! ## The window after a correction -/

section

variable {gain : ℚ}

theorem scaleRanges_eq (gain : ℚ) : scaleRanges gain hysteresis_ranges =
    ⟨firstRow.middle, -1, divideBound gain firstRow.max⟩ ::
      hysteresis_ranges.tail.map (·.scale gain) := rfl

/-- The table after `init` is looked up as the one before. -/
theorem find_scaleRanges {y : ℚ} {r : HysteresisRange}
    (h : lookup HysteresisRange.middle hysteresis_ranges y = some r) :
    (scaleRanges gain hysteresis_ranges).find? (fun range => (y : WithTop ℚ) ≤ range.middle) =
      some { r.scale gain with min := if y ≤ 0 then -1 else r.min / gain } := by
  rw [table_eq] at h
  by_cases hy : y ≤ 0
  · have hle : (y : WithTop ℚ) ≤ firstRow.middle := WithTop.coe_le_coe.2 hy
    rw [lookup_cons_of_le hle, Option.some_inj] at h
    subst h
    rw [if_pos hy]
    rw [scaleRanges_eq, List.find?_cons_of_pos (by simpa using hle)]
    rfl
  · have hlt := firstRow_middle_lt hy
    rw [lookup_cons_of_lt hlt] at h
    rw [if_neg hy]
    have htail : (hysteresis_ranges.tail.map (·.scale gain)).find?
        (fun range => (y : WithTop ℚ) ≤ range.middle) = some (r.scale gain) := by
      rw [List.find?_map]
      exact congrArg (Option.map (·.scale gain)) h
    rw [scaleRanges_eq, List.find?_cons_of_neg (by simpa using hlt)]
    exact htail

/-- A bound of a scaled row in the units of the table. -/
theorem le_scaled_add_iff (hgain : 0 < gain) (bound : WithBot (WithTop ℚ)) (light fullwhite : ℚ) :
    (light : WithTop ℚ) ≤ divideBound gain bound + (fullwhite : WithTop ℚ) ↔
      ((light * gain : ℚ) : WithTop ℚ) ≤ bound + ((fullwhite * gain : ℚ) : WithTop ℚ) := by
  cases bound with
  | bot =>
    rw [divideBound_bot, if_pos hgain, WithBot.bot_add, WithBot.bot_add]
    exact iff_of_false (WithBot.not_coe_le_bot _) (WithBot.not_coe_le_bot _)
  | coe bound =>
    cases bound with
    | top =>
      rw [divideBound_top, if_pos hgain, ← WithBot.coe_add, ← WithBot.coe_add, WithTop.top_add,
        WithTop.top_add]
      exact iff_of_true (WithBot.coe_le_coe.2 le_top) (WithBot.coe_le_coe.2 le_top)
    | coe b =>
      rw [divideBound_coe, ← WithBot.coe_add, ← WithBot.coe_add, WithBot.coe_le_coe,
        WithBot.coe_le_coe, ← WithTop.coe_add, ← WithTop.coe_add, WithTop.coe_le_coe,
        WithTop.coe_le_coe, ← le_div_iff₀ hgain, add_div, mul_div_cancel_right₀ _ hgain.ne']

/-- The window contains a reading if each row whose key is below the corrected value leads to a row
that starts at or below the reading, and each row from there on ends at or above it. -/
theorem setWindow_contains_iff (hgain : 0 < gain) {light : ℚ} (hlight : 0 ≤ light)
    (fullwhite y : ℚ) (s : AlsState) :
    let windowed := setWindow (scaleRanges gain hysteresis_ranges) fullwhite y s
    (windowed.hyst_min ≤ light ∧ (light : WithTop ℚ) ≤ windowed.hyst_max) ↔
      hysteresis_ranges.IsChain (fun r r' => r.middle < (y : WithTop ℚ) → r'.min ≤ light * gain) ∧
      ∀ r ∈ hysteresis_ranges, (y : WithTop ℚ) ≤ r.middle →
        ((light * gain : ℚ) : WithTop ℚ) ≤ r.max + ((fullwhite * gain : ℚ) : WithTop ℚ) := by
  intro windowed
  obtain ⟨r, hr⟩ := exists_row y
  have hwindowed : windowed = { s with
      hyst_min := if y ≤ 0 then -1 else r.min / gain
      hyst_max := divideBound gain r.max + (fullwhite : WithTop ℚ) } := by
    show setWindow _ _ _ _ = _
    rw [setWindow, find_scaleRanges hr]
    rfl
  have hupper := lookup_upper_iff (P := fun r : HysteresisRange =>
    (((light * gain : ℚ) : WithTop ℚ) : WithBot (WithTop ℚ)) ≤
      r.max + ((fullwhite * gain : ℚ) : WithTop ℚ))
    (pairwise_max.imp fun hmax hp => hp.trans (add_le_add_left hmax _)) hr
  rw [hwindowed]
  refine and_congr ?_ ((le_scaled_add_iff hgain _ _ _).trans hupper)
  by_cases hy : y ≤ 0
  · rw [if_pos hy]
    have hpast : ∀ r ∈ hysteresis_ranges, (y : WithTop ℚ) ≤ r.middle := fun r hr =>
      (WithTop.coe_le_coe.2 hy).trans (middle_nonneg r hr)
    exact iff_of_true (by linarith) (isChain_of_le hpast)
  · have hlt := firstRow_middle_lt hy
    have hmiddle := pairwise_middle
    have hmin := pairwise_min
    rw [table_eq] at hr hmiddle hmin ⊢
    rw [lookup_cons_of_lt hlt] at hr
    rw [if_neg hy, div_le_iff₀ hgain]
    exact lookup_lower_iff (P := fun r => r.min ≤ light * gain) hmiddle
      ((List.pairwise_cons.1 hmin).2.imp fun hmin hp => hmin.trans hp) hlt hr

end

/-! ## The two scales -/

variable (pow : ℚ → ℚ) (conf : AlsConfig) (screenshot : AreaRgbCaptureResult) (brightness : ℚ)
  (event : SensorsEvent)

/-- The reading at the first gain, and the light of it that is not the screen's at the gain it
selects, fall into the same rows. The reading is not below 1 lux unless it is all light of the
screen. Under a larger gain that light is not past the middle of a row unless the reading reaches
the next one, and under a smaller one it is, unless the reading does not exceed the row with a white
screen. -/
def Fits : Prop :=
  let own := event.light - cumulative_correction pow conf screenshot brightness
  let gain := agc_gain conf event.data2 (max own 0)
  let x := event.light * firstGain conf
  let y := own * (conf.calib_gain * gain)
  (own ≤ 0 ∨ 1 ≤ x) ∧
  (firstInverseGain conf < gain →
    hysteresis_ranges.IsChain fun r r' => (y : WithTop ℚ) ≤ r.middle ∨ r'.min ≤ x) ∧
  (gain < firstInverseGain conf → ∀ r ∈ hysteresis_ranges, r.middle < (y : WithTop ℚ) ∨
    (x : WithTop ℚ) ≤ r.max +
      ((brightness_fullwhite conf brightness * firstGain conf : ℚ) : WithTop ℚ))

/-- To a row it is the same if the light below the screen's is taken as dark. -/
theorem middle_lt_iff (hconf : conf.Sound) {r : HysteresisRange} (hr : r ∈ hysteresis_ranges) :
    r.middle < (sensor_corrected pow conf screenshot brightness event : WithTop ℚ) ↔
      r.middle < (((event.light - cumulative_correction pow conf screenshot brightness) *
        (conf.calib_gain * selected_gain pow conf screenshot brightness event) : ℚ) :
          WithTop ℚ) := by
  have hgain : 0 < conf.calib_gain * selected_gain pow conf screenshot brightness event :=
    mul_pos hconf.calib_gain (agc_gain_pos hconf _ _)
  rw [sensor_corrected, mul_assoc, sensor_raw_corrected]
  rcases le_total (event.light - cumulative_correction pow conf screenshot brightness) 0 with
    hdark | hlit
  · have hle : (((event.light - cumulative_correction pow conf screenshot brightness) *
        (conf.calib_gain * selected_gain pow conf screenshot brightness event) : ℚ) : WithTop ℚ) ≤
          ((0 : ℚ) : WithTop ℚ) :=
      WithTop.coe_le_coe.2 (mul_nonpos_of_nonpos_of_nonneg hdark hgain.le)
    have hmiddle := middle_nonneg r hr
    rw [max_eq_right hdark, zero_mul]
    exact iff_of_false (not_lt.2 hmiddle) (not_lt.2 (hle.trans hmiddle))
  · rw [max_eq_left hlit]

section

variable {pow conf screenshot brightness event}
variable (hpow : UnitMap pow) (hconf : conf.Sound) (hshot : screenshot.InRange)
  (hbrightness : 0 ≤ brightness) (hlight : 0 ≤ event.light)

include hconf

theorem firstGain_pos : 0 < firstGain conf :=
  mul_pos hconf.calib_gain (hconf.sensor_inverse_gain 0)

theorem sensor_corrected_pos_iff :
    0 < sensor_corrected pow conf screenshot brightness event ↔
      cumulative_correction pow conf screenshot brightness < event.light := by
  have hgain : 0 < selected_gain pow conf screenshot brightness event := agc_gain_pos hconf _ _
  rw [sensor_corrected, mul_pos_iff_of_pos_right hgain, mul_pos_iff_of_pos_right hconf.calib_gain,
    sensor_raw_corrected, lt_max_iff, sub_pos]
  simp

theorem raw_mul_calib_gain_nonneg :
    0 ≤ sensor_raw_corrected pow conf screenshot brightness event.light * conf.calib_gain :=
  mul_nonneg (le_max_right _ _) hconf.calib_gain.le

include hpow hshot hbrightness hlight

/-- Under a gain up to the first one the corrected value is at most the reading. -/
theorem sensor_corrected_le (hgain :
    selected_gain pow conf screenshot brightness event ≤ firstInverseGain conf) :
    sensor_corrected pow conf screenshot brightness event ≤ event.light * firstGain conf := by
  have hraw := (sensor_raw_corrected_mem hpow hconf hshot hbrightness hlight).2
  calc sensor_corrected pow conf screenshot brightness event
      ≤ sensor_raw_corrected pow conf screenshot brightness event.light * conf.calib_gain
          * firstInverseGain conf :=
        mul_le_mul_of_nonneg_left hgain (raw_mul_calib_gain_nonneg hconf)
    _ = sensor_raw_corrected pow conf screenshot brightness event.light * firstGain conf :=
        mul_assoc _ _ _
    _ ≤ event.light * firstGain conf :=
        mul_le_mul_of_nonneg_right hraw (firstGain_pos hconf).le

/-- Under a gain from the first one on the reading is at most the corrected value and a white
screen. -/
theorem le_sensor_corrected (hgain :
    firstInverseGain conf ≤ selected_gain pow conf screenshot brightness event) :
    event.light * firstGain conf ≤ sensor_corrected pow conf screenshot brightness event
      + brightness_fullwhite conf brightness * firstGain conf := by
  have hraw := (sensor_raw_corrected_mem hpow hconf hshot hbrightness hlight).1
  have hreading : event.light ≤ sensor_raw_corrected pow conf screenshot brightness event.light
      + brightness_fullwhite conf brightness :=
    sub_le_iff_le_add.1 ((le_max_left _ _).trans hraw)
  calc event.light * firstGain conf
      ≤ (sensor_raw_corrected pow conf screenshot brightness event.light
          + brightness_fullwhite conf brightness) * firstGain conf :=
        mul_le_mul_of_nonneg_right hreading (firstGain_pos hconf).le
    _ = sensor_raw_corrected pow conf screenshot brightness event.light * conf.calib_gain
          * firstInverseGain conf + brightness_fullwhite conf brightness * firstGain conf := by
        rw [add_mul, firstGain, mul_assoc]
    _ ≤ _ := add_le_add_left (mul_le_mul_of_nonneg_left hgain (raw_mul_calib_gain_nonneg hconf)) _

/-- Under a gain up to the first one only the second row can start above the reading. -/
theorem isChain_of_gain_le (hgain :
    selected_gain pow conf screenshot brightness event ≤ firstInverseGain conf)
    (hdim : event.light ≤ cumulative_correction pow conf screenshot brightness ∨
      1 ≤ event.light * firstGain conf) :
    hysteresis_ranges.IsChain fun r r' =>
      r.middle < (sensor_corrected pow conf screenshot brightness event : WithTop ℚ) →
        r'.min ≤ event.light * firstGain conf := by
  have hle := sensor_corrected_le hpow hconf hshot hbrightness hlight hgain
  have htail : hysteresis_ranges.tail.IsChain fun r r' =>
      r.middle < (sensor_corrected pow conf screenshot brightness event : WithTop ℚ) →
        r'.min ≤ event.light * firstGain conf :=
    isChain_tail.imp fun r r' hmin hlt =>
      (WithTop.coe_lt_coe.1 (hmin.trans_lt hlt)).le.trans hle
  refine List.isChain_cons_cons.2 ⟨fun hlt => ?_, htail⟩
  have hscreen := (sensor_corrected_pos_iff hconf).1 (WithTop.coe_lt_coe.1 hlt)
  exact hdim.resolve_left (not_le.2 hscreen)

/-- Under a gain from the first one on no row ends below the reading. -/
theorem upper_of_le_gain (hgain :
    firstInverseGain conf ≤ selected_gain pow conf screenshot brightness event) :
    ∀ r ∈ hysteresis_ranges,
      (sensor_corrected pow conf screenshot brightness event : WithTop ℚ) ≤ r.middle →
        ((event.light * firstGain conf : ℚ) : WithTop ℚ) ≤ r.max +
          ((brightness_fullwhite conf brightness * firstGain conf : ℚ) : WithTop ℚ) := by
  intro r hr hmiddle
  have hle := le_sensor_corrected hpow hconf hshot hbrightness hlight hgain
  have hmax : ((sensor_corrected pow conf screenshot brightness event : WithTop ℚ) :
      WithBot (WithTop ℚ)) ≤ r.max := (WithBot.coe_le_coe.2 hmiddle).trans (middle_le_max r hr)
  calc (((event.light * firstGain conf : ℚ) : WithTop ℚ) : WithBot (WithTop ℚ))
      ≤ ((sensor_corrected pow conf screenshot brightness event
          + brightness_fullwhite conf brightness * firstGain conf : ℚ) : WithTop ℚ) :=
        WithBot.coe_le_coe.2 (WithTop.coe_le_coe.2 hle)
    _ = ((sensor_corrected pow conf screenshot brightness event : WithTop ℚ) : WithBot (WithTop ℚ))
          + ((brightness_fullwhite conf brightness * firstGain conf : ℚ) : WithTop ℚ) := by
        rw [WithTop.coe_add, WithBot.coe_add]
    _ ≤ r.max + ((brightness_fullwhite conf brightness * firstGain conf : ℚ) : WithTop ℚ) :=
        add_le_add_left hmax _

/-- The window contains the reading if the two scales fit. -/
theorem fits_iff :
    (hysteresis_ranges.IsChain (fun r r' =>
        r.middle < (sensor_corrected pow conf screenshot brightness event : WithTop ℚ) →
          r'.min ≤ event.light * firstGain conf) ∧
      ∀ r ∈ hysteresis_ranges,
        (sensor_corrected pow conf screenshot brightness event : WithTop ℚ) ≤ r.middle →
          ((event.light * firstGain conf : ℚ) : WithTop ℚ) ≤ r.max +
            ((brightness_fullwhite conf brightness * firstGain conf : ℚ) : WithTop ℚ)) ↔
      Fits pow conf screenshot brightness event := by
  set y := (event.light - cumulative_correction pow conf screenshot brightness) *
    (conf.calib_gain * selected_gain pow conf screenshot brightness event)
  have hrows : hysteresis_ranges.IsChain (fun r r' =>
        r.middle < (sensor_corrected pow conf screenshot brightness event : WithTop ℚ) →
          r'.min ≤ event.light * firstGain conf) ↔
      hysteresis_ranges.IsChain fun r r' =>
        (y : WithTop ℚ) ≤ r.middle ∨ r'.min ≤ event.light * firstGain conf := by
    refine List.IsChain.iff_of_mem_imp fun r r' hr _ => ?_
    rw [middle_lt_iff _ _ _ _ _ hconf hr, ← not_le, imp_iff_not_or, not_not]
  have hends : ∀ r ∈ hysteresis_ranges,
      ((sensor_corrected pow conf screenshot brightness event : WithTop ℚ) ≤ r.middle →
        ((event.light * firstGain conf : ℚ) : WithTop ℚ) ≤ r.max +
          ((brightness_fullwhite conf brightness * firstGain conf : ℚ) : WithTop ℚ)) ↔
      (r.middle < (y : WithTop ℚ) ∨ ((event.light * firstGain conf : ℚ) : WithTop ℚ) ≤ r.max +
        ((brightness_fullwhite conf brightness * firstGain conf : ℚ) : WithTop ℚ)) := by
    intro r hr
    rw [← middle_lt_iff _ _ _ _ _ hconf hr, imp_iff_not_or, not_le]
  have hfirst : event.light ≤ cumulative_correction pow conf screenshot brightness ↔
      event.light - cumulative_correction pow conf screenshot brightness ≤ 0 := sub_nonpos.symm
  constructor
  · rintro ⟨hchain, hupper⟩
    refine ⟨?_, fun _ => hrows.1 hchain, fun _ r hr => (hends r hr).1 (hupper r hr)⟩
    have hsecond := (List.isChain_cons_cons.1 hchain).1
    rcases le_or_gt event.light (cumulative_correction pow conf screenshot brightness) with hle | hlt
    · exact .inl (hfirst.1 hle)
    · exact .inr (hsecond (WithTop.coe_lt_coe.2 ((sensor_corrected_pos_iff hconf).2 hlt)))
  · rintro ⟨hdim, hchain, hupper⟩
    constructor
    · rcases lt_or_ge (firstInverseGain conf)
        (selected_gain pow conf screenshot brightness event) with hgain | hgain
      · exact hrows.2 (hchain hgain)
      · exact isChain_of_gain_le hpow hconf hshot hbrightness hlight hgain (hdim.imp_left hfirst.2)
    · rcases lt_or_ge (selected_gain pow conf screenshot brightness event)
        (firstInverseGain conf) with hgain | hgain
      · exact fun r hr => (hends r hr).2 (hupper hgain r hr)
      · exact upper_of_le_gain hpow hconf hshot hbrightness hlight hgain

end

/-! ## A full correction after `init` -/

/-- Inside the window, and with no request, a call does not take a screenshot. -/
theorem captures_eq_false {pow : ℚ → ℚ} {conf : AlsConfig} {ranges : List HysteresisRange}
    {call : Call} {event : SensorsEvent} {s : AlsState} (hforce : s.force_update = false)
    (htimer : timerForces call s = false)
    (hwindow : s.hyst_min ≤ unbiased conf event.light ∧
      (unbiased conf event.light : WithTop ℚ) ≤ s.hyst_max) :
    (processEvent pow conf ranges call event s).path.captures = false := by
  have harrive : (arrive call s).force_update = false ∧
      (arrive call s).hyst_min = s.hyst_min ∧ (arrive call s).hyst_max = s.hyst_max := by
    unfold arrive runTimer
    simp only [htimer, Bool.false_eq_true, if_false]
    split_ifs <;> exact ⟨hforce, rfl, rfl⟩
  have hwants : wantsScreenshot conf (unbiasedEvent conf event).light (arrive call s) = false := by
    unfold wantsScreenshot
    rw [harrive.1, harrive.2.1, harrive.2.2]
    simp [unbiasedEvent, not_lt.2 hwindow.1, not_lt.2 hwindow.2]
  rcases processEvent_cases pow conf ranges call event s with
    ⟨-, heq⟩ | ⟨-, ⟨-, heq⟩ | ⟨hwants', -⟩⟩
  · rw [heq]
    rfl
  · rw [heq]
    rfl
  · rw [hwants] at hwants'
    cases hwants'

/-- **The hysteresis window.** After one `init` and any history, a full correction leaves a window
that contains its reading if and only if the two scales fit. The same reading then takes no further
screenshot unless the timer asks for one. -/
theorem window_contains_iff {pow : ℚ → ℚ} (hpow : UnitMap pow) {m : AlsCorrection}
    (hm : m.hysteresis_ranges = hysteresis_ranges) (i : AlsInputs)
    (hconf : (m.init i).conf.Sound) (call : Call) (hbrightness : 0 ≤ call.brightness)
    {screenshot : AreaRgbCaptureResult} (hcapture : call.capture = .captured screenshot)
    (hshot : screenshot.InRange) (event : SensorsEvent)
    (hlight : 0 ≤ unbiased (m.init i).conf event.light) (s : AlsState) :
    let L := unbiased (m.init i).conf event.light
    let out := (({ m.init i with state := s } : AlsCorrection).process pow call event)
    out.1.path = .corrected →
      (out.2.state.hyst_min ≤ L ∧ (L : WithTop ℚ) ≤ out.2.state.hyst_max ↔
        Fits pow (m.init i).conf screenshot call.brightness
          (unbiasedEvent (m.init i).conf event)) ∧
      (out.2.state.hyst_min ≤ L ∧ (L : WithTop ℚ) ≤ out.2.state.hyst_max →
        ∀ call', timerForces call' out.2.state = false →
          (out.2.process pow call' event).1.path.captures = false) := by
  intro L out hpath
  obtain ⟨screenshot', hcapture', heq⟩ := exists_of_corrected hpath
  cases hcapture.symm.trans hcapture'
  have hstate : out.2.state = (fullyCorrect pow (m.init i).conf (m.init i).hysteresis_ranges
      call.brightness screenshot (unbiasedEvent (m.init i).conf event) (arrive call s)).state :=
    congrArg Processed.state heq
  have hranges : (m.init i).hysteresis_ranges =
      scaleRanges (firstGain (m.init i).conf) hysteresis_ranges :=
    congrArg (scaleRanges _) hm
  have hreading : 0 ≤ (unbiasedEvent (m.init i).conf event).light := hlight
  refine ⟨?_, fun hwindow call' htimer => ?_⟩
  · rw [hstate, hranges, ← fits_iff hpow hconf hshot hbrightness hreading]
    exact setWindow_contains_iff (firstGain_pos hconf) hlight _ _ _
  · refine captures_eq_false ?_ htimer hwindow
    rw [hstate]
    rfl

theorem window_contains_iff_sample :
    let call : Call := ⟨1000000000, 100, .captured ⟨10, 20, 30⟩⟩
    let out := shippedModule.process id call ⟨3, 65627, 1000, 0⟩
    out.2.state.hyst_min ≤ 1000 ∧ ((1000 : ℚ) : WithTop ℚ) ≤ out.2.state.hyst_max ↔
      Fits id shippedModule.conf ⟨10, 20, 30⟩ 100 ⟨3, 65627, 1000, 0⟩ := by
  intro call out
  have hshot : (⟨10, 20, 30⟩ : AreaRgbCaptureResult).InRange := by
    constructor <;> decide +kernel
  have hpath : out.1.path = .corrected := by decide +kernel
  have hlight : unbiased shippedModule.conf 1000 = 1000 := by decide +kernel
  have hiff := (window_contains_iff unitMap_id (m := .boot) rfl shipped sound_shipped call
    (by decide +kernel) rfl hshot ⟨3, 65627, 1000, 0⟩ (by decide +kernel) .boot hpath).1
  have hevent : unbiasedEvent (AlsCorrection.boot.init shipped).conf ⟨3, 65627, 1000, 0⟩ =
      ⟨3, 65627, 1000, 0⟩ := by decide +kernel
  rw [hevent, show unbiased (AlsCorrection.boot.init shipped).conf 1000 = 1000 from hlight] at hiff
  exact hiff

/-- Under a dark screen a reading of 5 counts is 0.55 lux, and falls into the row from 1 to 12. The
same reading 200 ms later takes another screenshot. -/
theorem dim_reading_outside_window :
    let dark : Capture := .captured ⟨0, 0, 0⟩
    let out := shippedModule.process id ⟨1000000000, 0, dark⟩ ⟨3, 65627, 5, 0⟩
    out.1.path = .corrected ∧ ¬out.2.state.hyst_min ≤ 5 ∧
      (out.2.process id ⟨1200000000, 0, dark⟩ ⟨3, 65627, 5, 0⟩).1.path.captures = true := by
  decide +kernel

-- the last calibration point is below every estimate, so a bright reading is scaled by 0.035
example :
    let dark : Capture := .captured ⟨0, 0, 0⟩
    let out := shippedModule.process id ⟨1000000000, 0, dark⟩ ⟨3, 65627, 7300, 7⟩
    out.1.path = .corrected ∧ ¬((7300 : ℚ) : WithTop ℚ) ≤ out.2.state.hyst_max := by
  decide +kernel

end RealmeSalaa.Als
