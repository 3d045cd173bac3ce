import Mathlib
import RealmeSalaa.Lib.GuardedSystem

/-!
# The ambient light correction

The light sensor sits under the screen. `AlsCorrection::process` takes the light of the screen off
a reading, which it estimates from the colour above the sensor, scales the rest by a gain, and
keeps the result until a reading leaves the window around it.

The floats are rationals, with `HUGE_VALF` as `⊤` and its negative as `⊥`. `pow` stands for `std::pow(x, 2.2)`. What a call
reads from outside (the clock, the brightness, the capture service) is its `Call`.
-/

namespace RealmeSalaa.Als

/-! ## Data -/

/-- `als_config` -/
structure AlsConfig where
  hbr : Bool
  rgbw_max_lux : Fin 4 → ℚ
  rgbw_max_lux_div : Fin 4 → ℚ
  rgbw_lux_postmul : Fin 4 → ℚ
  rgbw_poly : Fin 4 → Fin 4 → ℚ
  grayscale_weights : Fin 3 → ℚ
  sensor_gaincal_points : Fin 4 → ℚ
  sensor_inverse_gain : Fin 4 → ℚ
  agc_threshold : ℚ
  calib_gain : ℚ
  bias : ℚ
  max_brightness : ℚ

/-- A row of `hysteresis_ranges`. -/
structure HysteresisRange where
  middle : WithTop ℚ
  min : ℚ
  max : WithBot (WithTop ℚ)
deriving DecidableEq

/-- The table as it stands in the source. -/
def hysteresis_ranges : List HysteresisRange :=
  [⟨(0 : ℚ), 0, (4 : ℚ)⟩, ⟨(7 : ℚ), 1, (12 : ℚ)⟩, ⟨(15 : ℚ), 5, (30 : ℚ)⟩,
    ⟨(30 : ℚ), 10, (50 : ℚ)⟩, ⟨(360 : ℚ), 25, (700 : ℚ)⟩, ⟨(1200 : ℚ), 300, (1600 : ℚ)⟩,
    ⟨(2250 : ℚ), 1000, (2940 : ℚ)⟩, ⟨(4600 : ℚ), 2000, (5900 : ℚ)⟩,
    ⟨(10000 : ℚ), 4000, (80000 : ℚ)⟩, ⟨⊤, 8000, ⊤⟩]

/-- `state` -/
structure AlsState where
  last_update : ℤ
  last_forced_update : ℤ
  force_update : Bool
  hyst_min : ℚ
  hyst_max : WithBot (WithTop ℚ)
  last_corrected_value : ℚ
  last_agc_gain : ℚ
deriving DecidableEq

/-- `state` as it is initialized. -/
def AlsState.boot : AlsState := ⟨0, 0, true, -1, (-1 : ℚ), 0, 0⟩

/-- The static data of the module. -/
structure AlsCorrection where
  conf : AlsConfig
  hysteresis_ranges : List HysteresisRange
  state : AlsState

/-- `AreaRgbCaptureResult` -/
structure AreaRgbCaptureResult where
  r : ℚ
  g : ℚ
  b : ℚ

/-- The fields of a `sensors_event_t` that are read or written. `light` is `data[0]`, and `data2`
is `data[2]`. -/
structure SensorsEvent where
  sensor : ℤ
  type : ℤ
  light : ℚ
  data2 : ℚ
deriving DecidableEq

/-- What `getAreaBrightness` would do, `unavailable` where `service` is null. -/
inductive Capture
  | unavailable
  | failed
  | captured (screenshot : AreaRgbCaptureResult)

/-- What a call of `process` reads: `systemTime`, `oplus_brightness` and the screenshot. -/
structure Call where
  now : ℤ
  brightness : ℚ
  capture : Capture

/-! ## Initialization -/

/-- What `init` reads. A property is the list of the numbers that its stream stores. -/
structure AlsInputs where
  hbr : Bool
  bias : ℤ
  rgbw_max_lux_div : List ℚ
  rgbw_poly : Fin 4 → List ℚ
  grayscale_weights : List ℚ
  sensor_gaincal_points : List ℚ
  sensor_inverse_gain : List ℚ
  rgbw_max_lux : Fin 4 → Option ℚ
  row_coe : Option ℚ
  cali_coe : Option ℚ
  oplus_max_brightness : Option ℚ

/-- `is >> a[0] >> a[1] >> …`: the entries the stream has no number for keep their value. -/
def extract {n : ℕ} (stored : List ℚ) (a : Fin n → ℚ) : Fin n → ℚ :=
  fun i => stored.getD i (a i)

/-- The configuration after `init`, from the one before. -/
def AlsConfig.init (i : AlsInputs) (conf : AlsConfig) : AlsConfig :=
  let rgbw_max_lux_div := extract i.rgbw_max_lux_div conf.rgbw_max_lux_div
  let rgbw_max_lux := fun k =>
    let max_lux := (i.rgbw_max_lux k).getD 0
    if max_lux ≠ 0 then max_lux else conf.rgbw_max_lux k
  let rgbw_acc := rgbw_max_lux 0 + rgbw_max_lux 1 + rgbw_max_lux 2 - rgbw_max_lux 3
  let stored_gain := extract i.sensor_inverse_gain conf.sensor_inverse_gain
  let row_coe := i.row_coe.getD 0
  let sensor_inverse_gain :=
    if row_coe ≠ 0 then Function.update stored_gain 0 (row_coe / 1000) else stored_gain
  let cali_coe := i.cali_coe.getD 0
  { hbr := i.hbr
    rgbw_max_lux := rgbw_max_lux
    rgbw_max_lux_div := rgbw_max_lux_div
    rgbw_lux_postmul := fun k =>
      (if k < 3 then rgbw_max_lux k else rgbw_acc) / rgbw_max_lux_div k
    rgbw_poly := fun k => extract (i.rgbw_poly k) (conf.rgbw_poly k)
    grayscale_weights := extract i.grayscale_weights conf.grayscale_weights
    sensor_gaincal_points := extract i.sensor_gaincal_points conf.sensor_gaincal_points
    sensor_inverse_gain := sensor_inverse_gain
    agc_threshold := 800 / sensor_inverse_gain 0
    calib_gain := if cali_coe > 0 then cali_coe / 1000 else 1
    bias := i.bias
    max_brightness := i.oplus_max_brightness.getD 1023 }

/-- A bound divided by the gain, which is not zero. An infinite one takes its sign. -/
def divideBound (gain : ℚ) : WithBot (WithTop ℚ) → WithBot (WithTop ℚ)
  | none => if 0 < gain then ⊥ else ((⊤ : WithTop ℚ) : WithBot (WithTop ℚ))
  | some none => if 0 < gain then ((⊤ : WithTop ℚ) : WithBot (WithTop ℚ)) else ⊥
  | some (some bound) => ((bound / gain : ℚ) : WithTop ℚ)

theorem divideBound_bot (gain : ℚ) :
    divideBound gain ⊥ = if 0 < gain then ⊥ else ((⊤ : WithTop ℚ) : WithBot (WithTop ℚ)) := rfl

theorem divideBound_top (gain : ℚ) : divideBound gain (⊤ : WithTop ℚ) =
    if 0 < gain then ((⊤ : WithTop ℚ) : WithBot (WithTop ℚ)) else ⊥ := rfl

theorem divideBound_coe (gain bound : ℚ) :
    divideBound gain (bound : WithTop ℚ) = ((bound / gain : ℚ) : WithTop ℚ) := rfl

/-- A row divided by the gain. -/
def HysteresisRange.scale (gain : ℚ) (range : HysteresisRange) : HysteresisRange :=
  { range with min := range.min / gain, max := divideBound gain range.max }

/-- The table after `init`: every row divided by the gain, and the first row open to zero. -/
def scaleRanges (gain : ℚ) (ranges : List HysteresisRange) : List HysteresisRange :=
  (ranges.map (·.scale gain)).modify 0 ({ · with min := -1 })

/-- The first gain of the sensor, which holds below `agc_threshold`. -/
def firstInverseGain (conf : AlsConfig) : ℚ := conf.sensor_inverse_gain 0

/-- The gain that the bounds of the table are divided by. -/
def firstGain (conf : AlsConfig) : ℚ := conf.calib_gain * firstInverseGain conf

def AlsCorrection.init (i : AlsInputs) (m : AlsCorrection) : AlsCorrection :=
  let conf := m.conf.init i
  { m with
    conf := conf
    hysteresis_ranges := scaleRanges (firstGain conf) m.hysteresis_ranges }

/-- The static data before the first `init`. -/
def AlsCorrection.boot : AlsCorrection :=
  ⟨⟨false, 0, 0, 0, 0, 0, 0, 0, 0, 0, 0, 0⟩, RealmeSalaa.Als.hysteresis_ranges, .boot⟩

/-- The properties of `vendor.prop`, with calibration files of a device. -/
def shipped : AlsInputs where
  hbr := true
  bias := 0
  rgbw_max_lux_div := [829, 1537, 1319, 673]
  rgbw_poly := ![[24 / 1000000, 599 / 100000, 21617 / 100000, 0],
    [48 / 1000000, 108 / 10000, 24531 / 100000, 0],
    [37 / 1000000, 1138 / 100000, 5037 / 100000, 0],
    [74 / 1000000, 1022 / 100000, 53187 / 100000, 0]]
  grayscale_weights := [232 / 1000, 415 / 1000, 353 / 1000]
  sensor_gaincal_points := [45, 115, 170, 0]
  sensor_inverse_gain := [11 / 100, 282 / 1000, 140 / 1000, 35 / 1000]
  rgbw_max_lux := ![some 829, some 1537, some 1319, some 2300]
  row_coe := none
  cali_coe := none
  oplus_max_brightness := some 2047

/-- The module with the shipped properties, after its one `init`. -/
def shippedModule : AlsCorrection := AlsCorrection.boot.init shipped

/-! ## The light of the screen -/

variable (pow : ℚ → ℚ) (conf : AlsConfig)

/-- `rgbw` -/
def rgbw (screenshot : AreaRgbCaptureResult) : Fin 4 → ℚ :=
  ![screenshot.r, screenshot.g, screenshot.b,
    screenshot.r * conf.grayscale_weights 0 + screenshot.g * conf.grayscale_weights 1
      + screenshot.b * conf.grayscale_weights 2]

/-- `corr` for channel `i` at `x`. -/
def corr (i : Fin 4) (x : ℚ) : ℚ :=
  (List.finRange 4).foldl (fun corr j => corr * x + conf.rgbw_poly i j) 0
    * conf.rgbw_lux_postmul i

/-- The sum over the channels, before it is scaled and clamped. -/
def channelSum (screenshot : AreaRgbCaptureResult) : ℚ :=
  (List.finRange 4).foldl (fun cumulative_correction i =>
    let corr := corr conf i (rgbw conf screenshot i)
    if i < 3 then cumulative_correction + max corr 0 else cumulative_correction - corr) 0

def brightness_fullwhite (brightness : ℚ) : ℚ :=
  conf.rgbw_max_lux 3 * brightness / conf.max_brightness

def brightness_grayscale_gamma (screenshot : AreaRgbCaptureResult) (brightness : ℚ) : ℚ :=
  pow (rgbw conf screenshot 3 / 255) * brightness_fullwhite conf brightness

def cumulative_correction (screenshot : AreaRgbCaptureResult) (brightness : ℚ) : ℚ :=
  max (min (channelSum conf screenshot * (brightness / conf.max_brightness))
      (brightness_fullwhite conf brightness))
    (brightness_grayscale_gamma pow conf screenshot brightness)

/-- `sensor_raw_corrected` -/
def sensor_raw_corrected (screenshot : AreaRgbCaptureResult) (brightness light : ℚ) : ℚ :=
  max (light - cumulative_correction pow conf screenshot brightness) 0

/-! ## The gain -/

/-- A quotient of floats. By zero it is infinite or not a number; the latter, like `-∞`, exceeds
nothing. -/
def quotient (a b : ℚ) : WithBot (WithTop ℚ) :=
  if b ≠ 0 then ((a / b : ℚ) : WithTop ℚ) else if 0 < a then ((⊤ : WithTop ℚ) : _) else ⊥

def gain_estimate (data2 raw_corrected : ℚ) : WithBot (WithTop ℚ) :=
  if conf.hbr then quotient (data2 * 1000) raw_corrected else quotient raw_corrected data2

def agc_gain (data2 raw_corrected : ℚ) : ℚ :=
  if raw_corrected > conf.agc_threshold then
    (List.finRange 4).foldl (fun agc_gain i =>
      if gain_estimate conf data2 raw_corrected > ((conf.sensor_gaincal_points i : ℚ) : WithTop ℚ)
      then conf.sensor_inverse_gain i else agc_gain) (conf.sensor_inverse_gain 0)
  else conf.sensor_inverse_gain 0

/-! ## An event -/

/-- Where a call of `process` ends. -/
inductive Path
  | tooFast
  | noService
  | captureFailed
  | corrected
  | reused
  | cached
deriving DecidableEq

/-- The paths that call `getAreaBrightness`. -/
def Path.captures : Path → Bool
  | .captureFailed | .corrected | .reused => true
  | .tooFast | .noService | .cached => false

/-- The paths that overwrite the handle. -/
def Path.drops : Path → Bool
  | .tooFast | .noService | .captureFailed => true
  | .corrected | .reused | .cached => false

structure Processed where
  path : Path
  event : SensorsEvent
  state : AlsState

/-- The reading less the bias. -/
def unbiased (light : ℚ) : ℚ := if light > conf.bias then light - conf.bias else light

/-- The timer asks for a screenshot. -/
def timerForces (call : Call) (s : AlsState) : Bool :=
  s.last_update ≠ 0 ∧ call.brightness > 0 ∧ call.now - s.last_forced_update > 3000000000

/-- The rate limiter drops the event. -/
def tooFast (call : Call) (s : AlsState) : Bool :=
  s.last_update ≠ 0 ∧ call.now - s.last_update < 100000000

/-- The timer. The first event starts it. -/
def runTimer (call : Call) (s : AlsState) : AlsState :=
  if s.last_update = 0 then { s with last_forced_update := call.now }
  else if timerForces call s then
    { s with last_forced_update := call.now, force_update := true }
  else s

/-- The state after the timer and the rate limiter. -/
def arrive (call : Call) (s : AlsState) : AlsState :=
  let timed := runTimer call s
  -- an event that is dropped has run the timer all the same
  if tooFast call s then timed else { timed with last_update := call.now }

/-- The window or `force_update` asks for a screenshot. -/
def wantsScreenshot (light : ℚ) (s : AlsState) : Bool :=
  let sensor_raw_calibrated := light * conf.calib_gain * s.last_agc_gain
  s.force_update ∨ (light < s.hyst_min ∨ ((light : WithTop ℚ) : WithBot (WithTop ℚ)) > s.hyst_max) ∧
    (sensor_raw_calibrated < 10 ∨ sensor_raw_calibrated > 500 / 7)

/-- The window around a corrected value. -/
def setWindow (ranges : List HysteresisRange) (fullwhite corrected : ℚ) (s : AlsState) : AlsState :=
  match ranges.find? (fun range => (corrected : WithTop ℚ) ≤ range.middle) with
  | some range =>
    { s with hyst_min := range.min, hyst_max := range.max + ((fullwhite : WithTop ℚ) : WithBot _) }
  | none => s

/-- The gain for the event, with the light of the screen taken off. -/
def selected_gain (screenshot : AreaRgbCaptureResult) (brightness : ℚ) (event : SensorsEvent) : ℚ :=
  agc_gain conf event.data2 (sensor_raw_corrected pow conf screenshot brightness event.light)

/-- `sensor_corrected`, before the offset. -/
def sensor_corrected (screenshot : AreaRgbCaptureResult) (brightness : ℚ) (event : SensorsEvent) :
    ℚ :=
  sensor_raw_corrected pow conf screenshot brightness event.light * conf.calib_gain
    * selected_gain pow conf screenshot brightness event

/-- The full correction of an event. -/
def fullyCorrect (ranges : List HysteresisRange) (brightness : ℚ)
    (screenshot : AreaRgbCaptureResult) (event : SensorsEvent) (s : AlsState) : Processed :=
  let corrected := sensor_corrected pow conf screenshot brightness event
  let windowed := setWindow ranges (brightness_fullwhite conf brightness) corrected
    { s with last_agc_gain := selected_gain pow conf screenshot brightness event }
  let value := max (corrected - 14) 0
  ⟨.corrected, { event with light := value },
    { windowed with last_corrected_value := value, force_update := false }⟩

/-- The branch of `process` that has a screenshot. -/
def correct (ranges : List HysteresisRange) (brightness : ℚ) (screenshot : AreaRgbCaptureResult)
    (event : SensorsEvent) (s : AlsState) : Processed :=
  if cumulative_correction pow conf screenshot brightness ≤ event.light * (27 / 20) ∨
      event.light * conf.calib_gain * selected_gain pow conf screenshot brightness event < 10000 ∨
      s.force_update then
    fullyCorrect pow conf ranges brightness screenshot event s
  else ⟨.reused, { event with light := s.last_corrected_value }, { s with force_update := false }⟩

/-- The event less the bias. -/
def unbiasedEvent (event : SensorsEvent) : SensorsEvent :=
  { event with light := unbiased conf event.light }

/-- `AlsCorrection::process`, on the configuration, the table and `state`. -/
def processEvent (ranges : List HysteresisRange) (call : Call) (event : SensorsEvent)
    (s : AlsState) : Processed :=
  let event := unbiasedEvent conf event
  let arrived := arrive call s
  -- a dropped event is marked by the handle 0
  if tooFast call s then ⟨.tooFast, { event with sensor := 0 }, arrived⟩
  else if wantsScreenshot conf event.light arrived then
    match call.capture with
    | .unavailable => ⟨.noService, { event with sensor := 0 }, arrived⟩
    | .failed => ⟨.captureFailed, { event with sensor := 0 }, arrived⟩
    | .captured screenshot => correct pow conf ranges call.brightness screenshot event arrived
  else ⟨.cached, { event with light := arrived.last_corrected_value }, arrived⟩

/-- A call of `process`, with what it leaves in the module's data. -/
def AlsCorrection.process (call : Call) (event : SensorsEvent) (m : AlsCorrection) :
    Processed × AlsCorrection :=
  let processed := processEvent pow m.conf m.hysteresis_ranges call event m.state
  (processed, { m with state := processed.state })

/-! ## What a call can do -/

section

variable (ranges : List HysteresisRange) (call : Call) (event : SensorsEvent) (s : AlsState)

/-- The two ends of the branch that has a screenshot. -/
theorem correct_cases (brightness : ℚ) (screenshot : AreaRgbCaptureResult) :
    correct pow conf ranges brightness screenshot event s =
      fullyCorrect pow conf ranges brightness screenshot event s ∨
    s.force_update = false ∧ correct pow conf ranges brightness screenshot event s =
      ⟨.reused, { event with light := s.last_corrected_value }, s⟩ := by
  unfold correct
  split_ifs with h
  · exact .inl rfl
  · have hforce : s.force_update = false := by
      simpa using fun hs => h (.inr (.inr hs))
    refine .inr ⟨hforce, ?_⟩
    rw [← hforce]

/-- The ends of `process`, with the way to each. -/
theorem processEvent_cases :
    (tooFast call s = true ∧ processEvent pow conf ranges call event s =
      ⟨.tooFast, { unbiasedEvent conf event with sensor := 0 }, arrive call s⟩) ∨
    tooFast call s = false ∧
    ((wantsScreenshot conf (unbiasedEvent conf event).light (arrive call s) = false ∧
      processEvent pow conf ranges call event s =
        ⟨.cached, { unbiasedEvent conf event with light := (arrive call s).last_corrected_value },
          arrive call s⟩) ∨
    wantsScreenshot conf (unbiasedEvent conf event).light (arrive call s) = true ∧
    ((∃ path, (path = .noService ∧ call.capture = .unavailable ∨
        path = .captureFailed ∧ call.capture = .failed) ∧
      processEvent pow conf ranges call event s =
        ⟨path, { unbiasedEvent conf event with sensor := 0 }, arrive call s⟩) ∨
    ∃ screenshot, call.capture = .captured screenshot ∧
      processEvent pow conf ranges call event s =
        correct pow conf ranges call.brightness screenshot (unbiasedEvent conf event)
          (arrive call s))) := by
  unfold processEvent
  cases hfast : tooFast call s with
  | true => exact .inl ⟨rfl, rfl⟩
  | false =>
    refine .inr ⟨rfl, ?_⟩
    cases hwants : wantsScreenshot conf (unbiasedEvent conf event).light (arrive call s) with
    | false => exact .inl ⟨rfl, by simp [hwants]⟩
    | true =>
      refine .inr ⟨rfl, ?_⟩
      cases hcapture : call.capture with
      | unavailable => exact .inl ⟨.noService, .inl ⟨rfl, rfl⟩, by simp [hwants]⟩
      | failed => exact .inl ⟨.captureFailed, .inr ⟨rfl, rfl⟩, by simp [hwants]⟩
      | captured screenshot => exact .inr ⟨screenshot, rfl, by simp [hwants]⟩

end

/-! ## Runs -/

/-- What happens to the module: `init`, or an event. -/
inductive AlsAction
  | init (i : AlsInputs)
  | process (call : Call) (event : SensorsEvent)

/-- Boot times are positive. -/
def AlsAction.Timely : AlsAction → Prop
  | .init _ => True
  | .process call _ => 0 < call.now

instance : DecidablePred AlsAction.Timely
  | .init _ => inferInstanceAs (Decidable True)
  | .process call _ => inferInstanceAs (Decidable (0 < call.now))

def alsSystem : GuardedSystem AlsCorrection AlsAction where
  guard _ a := a.Timely
  next m a :=
    match a with
    | .init i => m.init i
    | .process call event => (m.process pow call event).2

instance (m : AlsCorrection) (a : AlsAction) : Decidable ((alsSystem pow).guard m a) :=
  inferInstanceAs (Decidable a.Timely)

end RealmeSalaa.Als
