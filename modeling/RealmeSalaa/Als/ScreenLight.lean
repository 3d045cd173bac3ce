import RealmeSalaa.Als.AlsCorrection

/-!
# The light of the screen is bounded

The sum over the channels can be anything, but the clamp leaves a value between the grayscale
estimate and the light of a white screen: the estimate is `pow` of a grayscale value in `[0, 1]`
times that light, so the upper clamp, which comes first, is not undone by the lower one
(`cumulative_correction_mem`). What is published then lies between the reading less a white screen
and the reading itself, both scaled and offset.
-/

namespace RealmeSalaa.Als

/-! ## Configurations, screenshots and `pow` -/

/-- Positive gains and brightness, and grayscale weights of a mean. -/
structure AlsConfig.Sound (conf : AlsConfig) : Prop where
  calib_gain : 0 < conf.calib_gain
  sensor_inverse_gain : ∀ i, 0 < conf.sensor_inverse_gain i
  max_brightness : 0 < conf.max_brightness
  rgbw_max_lux : 0 ≤ conf.rgbw_max_lux 3
  grayscale_weights : ∀ i, 0 ≤ conf.grayscale_weights i
  weights_le : conf.grayscale_weights 0 + conf.grayscale_weights 1 + conf.grayscale_weights 2 ≤ 1

/-- Channels of a byte. -/
structure AreaRgbCaptureResult.InRange (screenshot : AreaRgbCaptureResult) : Prop where
  r : 0 ≤ screenshot.r ∧ screenshot.r ≤ 255
  g : 0 ≤ screenshot.g ∧ screenshot.g ≤ 255
  b : 0 ≤ screenshot.b ∧ screenshot.b ≤ 255

/-- A map of `[0, 1]` to itself. -/
def UnitMap (pow : ℚ → ℚ) : Prop := ∀ x, 0 ≤ x → x ≤ 1 → 0 ≤ pow x ∧ pow x ≤ 1

variable {pow : ℚ → ℚ} {conf : AlsConfig} {screenshot : AreaRgbCaptureResult}

theorem rgbw_white (conf : AlsConfig) (screenshot : AreaRgbCaptureResult) :
    rgbw conf screenshot 3 = screenshot.r * conf.grayscale_weights 0
      + screenshot.g * conf.grayscale_weights 1 + screenshot.b * conf.grayscale_weights 2 := rfl

/-- The grayscale value of a screenshot is that of a byte. -/
theorem AreaRgbCaptureResult.InRange.white (hshot : screenshot.InRange) (hconf : conf.Sound) :
    0 ≤ rgbw conf screenshot 3 / 255 ∧ rgbw conf screenshot 3 / 255 ≤ 1 := by
  have hw := hconf.grayscale_weights
  have hr := mul_le_mul_of_nonneg_right hshot.r.2 (hw 0)
  have hg := mul_le_mul_of_nonneg_right hshot.g.2 (hw 1)
  have hb := mul_le_mul_of_nonneg_right hshot.b.2 (hw 2)
  have hr₀ := mul_nonneg hshot.r.1 (hw 0)
  have hg₀ := mul_nonneg hshot.g.1 (hw 1)
  have hb₀ := mul_nonneg hshot.b.1 (hw 2)
  have hsum := hconf.weights_le
  rw [rgbw_white]
  constructor
  · positivity
  · rw [div_le_one (by norm_num)]
    linarith

/-! ## The clamp -/

section

variable (hpow : UnitMap pow) (hconf : conf.Sound) (hshot : screenshot.InRange) {brightness : ℚ}
  (hbrightness : 0 ≤ brightness)

include hconf hbrightness

theorem brightness_fullwhite_nonneg : 0 ≤ brightness_fullwhite conf brightness :=
  div_nonneg (mul_nonneg hconf.rgbw_max_lux hbrightness) hconf.max_brightness.le

include hpow hshot

theorem brightness_grayscale_gamma_mem :
    0 ≤ brightness_grayscale_gamma pow conf screenshot brightness ∧
      brightness_grayscale_gamma pow conf screenshot brightness ≤
        brightness_fullwhite conf brightness := by
  obtain ⟨hwhite, hwhite'⟩ := hshot.white hconf
  obtain ⟨hgamma, hgamma'⟩ := hpow _ hwhite hwhite'
  have hfull := brightness_fullwhite_nonneg hconf hbrightness
  exact ⟨mul_nonneg hgamma hfull, mul_le_of_le_one_left hfull hgamma'⟩

/-- The light taken off is at most that of a white screen, whatever the polynomials say. -/
theorem cumulative_correction_mem :
    0 ≤ cumulative_correction pow conf screenshot brightness ∧
      cumulative_correction pow conf screenshot brightness ≤
        brightness_fullwhite conf brightness := by
  obtain ⟨hgamma, hgamma'⟩ := brightness_grayscale_gamma_mem hpow hconf hshot hbrightness
  exact ⟨hgamma.trans (le_max_right _ _), max_le (min_le_right _ _) hgamma'⟩

theorem sensor_raw_corrected_mem {light : ℚ} (hlight : 0 ≤ light) :
    max (light - brightness_fullwhite conf brightness) 0 ≤
        sensor_raw_corrected pow conf screenshot brightness light ∧
      sensor_raw_corrected pow conf screenshot brightness light ≤ light := by
  obtain ⟨hlight₀, hfull⟩ := cumulative_correction_mem hpow hconf hshot hbrightness
  exact ⟨max_le_max_right 0 (sub_le_sub_left hfull light), max_le (sub_le_self _ hlight₀) hlight⟩

end

/-! ## The gain is one of the table -/

theorem agc_gain_mem (conf : AlsConfig) (data2 raw_corrected : ℚ) :
    ∃ i, agc_gain conf data2 raw_corrected = conf.sensor_inverse_gain i := by
  have hfold : ∀ (is : List (Fin 4)) (i : Fin 4), ∃ k, is.foldl (fun agc_gain i =>
      if gain_estimate conf data2 raw_corrected > ((conf.sensor_gaincal_points i : ℚ) : WithTop ℚ)
      then conf.sensor_inverse_gain i else agc_gain) (conf.sensor_inverse_gain i) =
        conf.sensor_inverse_gain k := by
    intro is
    induction is with
    | nil => exact fun i => ⟨i, rfl⟩
    | cons j is ih =>
      intro i
      rw [List.foldl_cons]
      split_ifs
      · exact ih j
      · exact ih i
  unfold agc_gain
  split_ifs
  · exact hfold _ 0
  · exact ⟨0, rfl⟩

theorem agc_gain_pos (hconf : conf.Sound) (data2 raw_corrected : ℚ) :
    0 < agc_gain conf data2 raw_corrected := by
  obtain ⟨i, hi⟩ := agc_gain_mem conf data2 raw_corrected
  rw [hi]
  exact hconf.sensor_inverse_gain i

/-- The corrected value lies between those of the reading less a white screen and of the
reading. -/
theorem sensor_corrected_mem (hpow : UnitMap pow) (hconf : conf.Sound)
    (hshot : screenshot.InRange) {brightness : ℚ} (hbrightness : 0 ≤ brightness)
    {e : SensorsEvent} (hlight : 0 ≤ e.light) :
    max (e.light - brightness_fullwhite conf brightness) 0 * conf.calib_gain
          * selected_gain pow conf screenshot brightness e ≤
        sensor_corrected pow conf screenshot brightness e ∧
      sensor_corrected pow conf screenshot brightness e ≤
        e.light * conf.calib_gain * selected_gain pow conf screenshot brightness e := by
  obtain ⟨hlow, hhigh⟩ := sensor_raw_corrected_mem hpow hconf hshot hbrightness hlight
  have hcalib := hconf.calib_gain.le
  have hgain : 0 ≤ selected_gain pow conf screenshot brightness e := (agc_gain_pos hconf _ _).le
  exact ⟨mul_le_mul_of_nonneg_right (mul_le_mul_of_nonneg_right hlow hcalib) hgain,
    mul_le_mul_of_nonneg_right (mul_le_mul_of_nonneg_right hhigh hcalib) hgain⟩

/-! ## What is published -/

/-- A call on the path `corrected` has a screenshot, and corrects the reading by it. -/
theorem exists_of_corrected {ranges : List HysteresisRange} {call : Call} {event : SensorsEvent}
    {s : AlsState} (h : (processEvent pow conf ranges call event s).path = .corrected) :
    ∃ screenshot, call.capture = .captured screenshot ∧
      processEvent pow conf ranges call event s =
        fullyCorrect pow conf ranges call.brightness screenshot (unbiasedEvent conf event)
          (arrive call s) := by
  rcases processEvent_cases pow conf ranges call event s with
    ⟨-, heq⟩ | ⟨-, ⟨-, heq⟩ | ⟨-, ⟨path, hpath, heq⟩ | ⟨screenshot, hcapture, heq⟩⟩⟩
  · rw [heq] at h
    cases h
  · rw [heq] at h
    cases h
  · rw [heq] at h
    rcases hpath with ⟨rfl, -⟩ | ⟨rfl, -⟩ <;> cases h
  · refine ⟨screenshot, hcapture, ?_⟩
    rcases correct_cases pow conf ranges (unbiasedEvent conf event) (arrive call s)
      call.brightness screenshot with hfull | ⟨-, hreused⟩
    · rw [heq, hfull]
    · rw [heq, hreused] at h
      cases h

theorem last_corrected_value_arrive (call : Call) (s : AlsState) :
    (arrive call s).last_corrected_value = s.last_corrected_value := by
  unfold arrive runTimer
  split_ifs <;> rfl

/-- A call that does not drop its event publishes `last_corrected_value`, and keeps it
nonnegative; a call that drops it leaves the value alone. -/
theorem last_corrected_value_process (pow : ℚ → ℚ) (conf : AlsConfig)
    (ranges : List HysteresisRange) (call : Call) (event : SensorsEvent) {s : AlsState}
    (h : 0 ≤ s.last_corrected_value) :
    let out := processEvent pow conf ranges call event s
    0 ≤ out.state.last_corrected_value ∧
      (out.path.drops = false → out.event.light = out.state.last_corrected_value) := by
  intro out
  have harrive : 0 ≤ (arrive call s).last_corrected_value := by
    rw [last_corrected_value_arrive]
    exact h
  rcases processEvent_cases pow conf ranges call event s with
    ⟨-, heq⟩ | ⟨-, ⟨-, heq⟩ | ⟨-, ⟨path, hpath, heq⟩ | ⟨screenshot, -, heq⟩⟩⟩
  · rw [show out = _ from heq]
    exact ⟨harrive, fun hdrops => by cases hdrops⟩
  · rw [show out = _ from heq]
    exact ⟨harrive, fun _ => rfl⟩
  · rw [show out = _ from heq]
    refine ⟨harrive, fun hdrops => ?_⟩
    rcases hpath with ⟨rfl, -⟩ | ⟨rfl, -⟩ <;> cases hdrops
  · rcases correct_cases pow conf ranges (unbiasedEvent conf event) (arrive call s)
      call.brightness screenshot with hfull | ⟨-, hreused⟩
    · rw [show out = _ from heq.trans hfull]
      exact ⟨le_max_right _ _, fun _ => rfl⟩
    · rw [show out = _ from heq.trans hreused]
      exact ⟨harrive, fun _ => rfl⟩

theorem last_corrected_value_of_reach {m s : AlsCorrection}
    (h : (alsSystem pow).Reach (fun _ _ => True) { m with state := .boot } s) :
    0 ≤ s.state.last_corrected_value := by
  refine h.invariant (I := fun m => 0 ≤ m.state.last_corrected_value) (le_refl 0)
    fun m a hm _ _ => ?_
  cases a with
  | init i => exact hm
  | process call event =>
    exact (last_corrected_value_process pow m.conf m.hysteresis_ranges call event hm).1

/-- **The light of the screen.** A full correction takes off between nothing and the light of a
white screen, so that what is published is bounded by the reading with and without a white screen.
In every run, what is not dropped is published nonnegative and as `last_corrected_value`. -/
theorem published_bounds (hpow : UnitMap pow) :
    (∀ (conf : AlsConfig) (ranges : List HysteresisRange) (call : Call) (event : SensorsEvent)
      (s : AlsState), conf.Sound → 0 ≤ call.brightness → 0 ≤ unbiased conf event.light →
      (∀ screenshot, call.capture = .captured screenshot → screenshot.InRange) →
      (processEvent pow conf ranges call event s).path = .corrected →
      ∃ screenshot, call.capture = .captured screenshot ∧
        let L := unbiased conf event.light
        let F := brightness_fullwhite conf call.brightness
        let C := cumulative_correction pow conf screenshot call.brightness
        let g := agc_gain conf event.data2 (max (L - C) 0)
        let v := (processEvent pow conf ranges call event s).event.light
        (0 ≤ C ∧ C ≤ F) ∧ max (max (L - F) 0 * conf.calib_gain * g - 14) 0 ≤ v ∧
          v ≤ max (L * conf.calib_gain * g - 14) 0) ∧
    ∀ m s : AlsCorrection, (alsSystem pow).Reach (fun _ _ => True) { m with state := .boot } s →
      ∀ (call : Call) (event : SensorsEvent), (s.process pow call event).1.path.drops = false →
        0 ≤ (s.process pow call event).1.event.light ∧
          (s.process pow call event).1.event.light =
            (s.process pow call event).2.state.last_corrected_value := by
  constructor
  · intro conf ranges call event s hconf hbrightness hlight hshots hpath
    obtain ⟨screenshot, hcapture, heq⟩ := exists_of_corrected hpath
    have hshot := hshots screenshot hcapture
    refine ⟨screenshot, hcapture, ?_⟩
    intro L F C g v
    have hv : v = max (sensor_corrected pow conf screenshot call.brightness
        (unbiasedEvent conf event) - 14) 0 := congrArg (fun out => out.event.light) heq
    obtain ⟨hlow, hhigh⟩ := sensor_corrected_mem hpow hconf hshot hbrightness
      (e := unbiasedEvent conf event) hlight
    rw [hv]
    exact ⟨cumulative_correction_mem hpow hconf hshot hbrightness,
      max_le_max_right 0 (sub_le_sub_right hlow 14), max_le_max_right 0 (sub_le_sub_right hhigh 14)⟩
  · intro m s hreach call event hdrops
    obtain ⟨hvalue, hpublished⟩ := last_corrected_value_process pow s.conf
      s.hysteresis_ranges call event (last_corrected_value_of_reach hreach)
    have hlight := hpublished hdrops
    exact ⟨hlight.symm ▸ hvalue, hlight⟩

theorem unitMap_id : UnitMap id := fun _ h₀ h₁ => ⟨h₀, h₁⟩

theorem sound_shipped : shippedModule.conf.Sound := by
  constructor <;> decide +kernel

theorem published_bounds_sample :
    let call : Call := ⟨1000000000, 1000, .captured ⟨0, 0, 255⟩⟩
    let out := (shippedModule.process id call ⟨3, 65627, 1000, 0⟩).1
    out.path = .corrected ∧ out.event.light ≤ max (1000 * 1 * (11 / 100) - 14) 0 ∧
      out.event.light = out.state.last_corrected_value := by
  intro call out
  have hpath : out.path = .corrected := by decide +kernel
  obtain ⟨hbounds, hrun⟩ := published_bounds unitMap_id
  obtain ⟨screenshot, hcapture, -, -, hle⟩ := hbounds shippedModule.conf
    shippedModule.hysteresis_ranges call ⟨3, 65627, 1000, 0⟩ .boot sound_shipped
    (by decide +kernel) (by decide +kernel)
    (fun screenshot h => by
      cases h
      constructor <;> decide) hpath
  cases hcapture
  have hgain : agc_gain shippedModule.conf 0 (max (unbiased shippedModule.conf 1000 -
      cumulative_correction id shippedModule.conf ⟨0, 0, 255⟩ 1000) 0) = 11 / 100 := by
    decide +kernel
  have hreach : (alsSystem id).Reach (fun _ _ => True) .boot shippedModule :=
    .step (a := AlsAction.init shipped) .refl trivial trivial
  refine ⟨hpath, ?_, (hrun .boot shippedModule hreach call _ ?_).2⟩
  · exact hle.trans (le_of_eq (by rw [hgain]; decide +kernel))
  · rw [show _ = Path.corrected from hpath]
    rfl

end RealmeSalaa.Als
