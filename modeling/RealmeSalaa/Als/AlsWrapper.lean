import RealmeSalaa.Als.AlsCorrection

/-!
# The wrapper of the sensors module

The wrapper advertises the list of the wrapped HAL after it has rewritten, in place, the type of
the first wise light sensor that still has it. It polls the wrapped HAL and passes every wise light
event to `AlsCorrection::process`. The type in the event is left alone, and a dropped event keeps
its place in the batch with its handle overwritten by 0.

So an event agrees with the list when it is no wise light event, or one of a sensor that has not
been rewritten and is not dropped (`agrees_iff`), and over a batch the calls of `process` follow
one another (`forall₂_pollEvents_iff`).
-/

namespace RealmeSalaa.Als

/-! ## The list -/

def SENSOR_TYPE_LIGHT : ℤ := 5

def SENSOR_TYPE_ANDROID_WISE_LIGHT : ℤ := 65627

def ENODEV : ℤ := 19

/-- The fields of a `sensor_t` that are read or written here. -/
structure Sensor where
  handle : ℤ
  type : ℤ
deriving DecidableEq

/-- The array of the wrapped HAL, and the data of the correction. -/
structure Wrapper where
  sensors : List Sensor
  als : AlsCorrection

/-- The loop over the list: the array after it, and whether a sensor was rewritten. -/
def patchSensors : List Sensor → List Sensor × Bool
  | [] => ([], false)
  | sensor :: sensors =>
    if sensor.type = SENSOR_TYPE_ANDROID_WISE_LIGHT then
      ({ sensor with type := SENSOR_TYPE_LIGHT } :: sensors, true)
    else (sensor :: (patchSensors sensors).1, (patchSensors sensors).2)

/-- The wrapped HAL answers with its array, or with an error; `none` is the wrapper without a
context. The list returned is the array. -/
def als_wrapper_get_sensors_list (i : AlsInputs) (answer : Option (Except ℤ Unit)) (w : Wrapper) :
    ℤ × Wrapper :=
  match answer with
  | none => (-ENODEV, w)
  | some (.error rc) => (rc, w)
  | some (.ok ()) =>
    let patched := patchSensors w.sensors
    (w.sensors.length, ⟨patched.1, if patched.2 then w.als.init i else w.als⟩)

/-! ## Polling -/

section

variable (pow : ℚ → ℚ) (calls : ℕ → Call)

/-- The loop over the events from position `k` on: each with the end of `process`, if it went
through it. -/
def pollEvents : ℕ → List SensorsEvent → AlsCorrection →
    List (SensorsEvent × Option Path) × AlsCorrection
  | _, [], als => ([], als)
  | k, event :: events, als =>
    if event.type = SENSOR_TYPE_ANDROID_WISE_LIGHT then
      -- the type stays that of a wise light sensor
      let processed := als.process pow (calls k) event
      let rest := pollEvents (k + 1) events processed.2
      ((processed.1.event, some processed.1.path) :: rest.1, rest.2)
    else
      let rest := pollEvents (k + 1) events als
      ((event, none) :: rest.1, rest.2)

/-- The result of `als_wrapper_poll`, and the first `rc` entries of `data`. The wrapped HAL has no
`poll`, or returns `rc` with what it put into `data`. -/
def als_wrapper_poll (answer : Option (ℤ × List SensorsEvent)) (als : AlsCorrection) :
    ℤ × List (SensorsEvent × Option Path) × AlsCorrection :=
  match answer with
  | none => (0, [], als)
  | some (rc, data) =>
    if rc < 0 then (0, [], als) else (rc, pollEvents pow calls 0 (data.take rc.toNat) als)

end

/-! ## The advertised list -/

/-- The first `n` wise light sensors rewritten. -/
def patchFirst : ℕ → List Sensor → List Sensor
  | 0, sensors => sensors
  | _ + 1, [] => []
  | n + 1, sensor :: sensors =>
    if sensor.type = SENSOR_TYPE_ANDROID_WISE_LIGHT then
      { sensor with type := SENSOR_TYPE_LIGHT } :: patchFirst n sensors
    else sensor :: patchFirst (n + 1) sensors

/-- The sensor at a position is one of the first `n` wise light sensors. -/
def Patched (sensors : List Sensor) (n i : ℕ) : Prop :=
  (∃ sensor, sensors[i]? = some sensor ∧ sensor.type = SENSOR_TYPE_ANDROID_WISE_LIGHT) ∧
    (sensors.take i).countP (·.type = SENSOR_TYPE_ANDROID_WISE_LIGHT) < n

theorem patchSensors_patchFirst (sensors : List Sensor) (n : ℕ) :
    (patchSensors (patchFirst n sensors)).1 = patchFirst (n + 1) sensors := by
  induction sensors generalizing n with
  | nil => cases n <;> rfl
  | cons sensor sensors ih =>
    by_cases hwise : sensor.type = SENSOR_TYPE_ANDROID_WISE_LIGHT
    · cases n with
      | zero => simp [patchFirst, patchSensors, hwise]
      | succ n =>
        have hlight : ¬SENSOR_TYPE_LIGHT = SENSOR_TYPE_ANDROID_WISE_LIGHT := by decide
        simp [patchFirst, patchSensors, hwise, hlight, ih]
    · cases n with
      | zero => simpa [patchFirst, patchSensors, hwise] using ih 0
      | succ n => simp [patchFirst, patchSensors, hwise, ih]

/-- After the list has been asked for with inputs `is`. -/
theorem sensors_after (is : List AlsInputs) (w : Wrapper) (n : ℕ) (sensors : List Sensor)
    (h : w.sensors = patchFirst n sensors) :
    (is.foldl (fun w i => (als_wrapper_get_sensors_list i (some (.ok ())) w).2) w).sensors =
      patchFirst (n + is.length) sensors := by
  induction is generalizing w n with
  | nil => exact h
  | cons i is ih =>
    rw [List.foldl_cons, ih _ (n + 1), List.length_cons, Nat.add_assoc, Nat.add_comm 1]
    show (patchSensors w.sensors).1 = _
    rw [h, patchSensors_patchFirst]

theorem patched_zero_iff (sensor : Sensor) (sensors : List Sensor) (n : ℕ) :
    Patched (sensor :: sensors) (n + 1) 0 ↔ sensor.type = SENSOR_TYPE_ANDROID_WISE_LIGHT := by
  simp [Patched]

theorem patched_succ_iff_of_wise {sensor : Sensor}
    (h : sensor.type = SENSOR_TYPE_ANDROID_WISE_LIGHT) (sensors : List Sensor) (n i : ℕ) :
    Patched (sensor :: sensors) (n + 1) (i + 1) ↔ Patched sensors n i := by
  simp [Patched, h]

theorem patched_succ_iff_of_not_wise {sensor : Sensor}
    (h : sensor.type ≠ SENSOR_TYPE_ANDROID_WISE_LIGHT) (sensors : List Sensor) (n i : ℕ) :
    Patched (sensor :: sensors) (n + 1) (i + 1) ↔ Patched sensors (n + 1) i := by
  simp [Patched, h]

/-- The rewriting keeps the handle, and the type of every other sensor. -/
theorem getElem?_patchFirst {sensors : List Sensor} {n i : ℕ} {sensor : Sensor}
    (h : sensors[i]? = some sensor) :
    (Patched sensors n i → (patchFirst n sensors)[i]? = some ⟨sensor.handle, SENSOR_TYPE_LIGHT⟩) ∧
      (¬Patched sensors n i → (patchFirst n sensors)[i]? = some sensor) := by
  induction sensors generalizing n i with
  | nil => simp at h
  | cons a sensors ih =>
    cases n with
    | zero => exact ⟨fun hpatched => absurd hpatched.2 (Nat.not_lt_zero _), fun _ => h⟩
    | succ n =>
      by_cases hwise : a.type = SENSOR_TYPE_ANDROID_WISE_LIGHT
      · rw [patchFirst, if_pos hwise]
        cases i with
        | zero =>
          rw [List.getElem?_cons_zero, Option.some_inj] at h
          rw [patched_zero_iff, ← h]
          exact ⟨fun _ => rfl, fun hnot => absurd hwise hnot⟩
        | succ i =>
          rw [patched_succ_iff_of_wise hwise]
          exact ih h
      · rw [patchFirst, if_neg hwise]
        cases i with
        | zero =>
          rw [patched_zero_iff]
          exact ⟨fun hpos => absurd hpos hwise, fun _ => h⟩
        | succ i =>
          rw [patched_succ_iff_of_not_wise hwise]
          exact ih h

/-! ## One event -/

/-- An event of the wrapped HAL, with the position of its sensor in the list. -/
abbrev Produced := ℕ × SensorsEvent

/-- The event carries the handle and the type of a sensor of the list. -/
def SensorsEvent.IsOf (event : SensorsEvent) (sensor : Sensor) : Prop :=
  event.sensor = sensor.handle ∧ event.type = sensor.type

/-- What the wrapper makes of an event agrees with the advertised list: it is an event of its own
sensor, it is the same event if `process` has no part in it, and if it is dropped no other
sensor has its handle. -/
structure Agrees (advertised : List Sensor) (produced : Produced)
    (polled : SensorsEvent × Option Path) : Prop where
  own : ∃ sensor, advertised[produced.1]? = some sensor ∧ polled.1.IsOf sensor
  unchanged : produced.2.type ≠ SENSOR_TYPE_ANDROID_WISE_LIGHT → polled.1 = produced.2
  dropped : (∃ path, polled.2 = some path ∧ path.drops = true) →
    ∀ i sensor, i ≠ produced.1 → advertised[i]? = some sensor → polled.1.sensor ≠ sensor.handle

/-- `process` drops an event: it comes too fast, or the screenshot it wants is not to be had. -/
def Drops (als : AlsCorrection) (call : Call) (event : SensorsEvent) : Prop :=
  tooFast call als.state = true ∨
    wantsScreenshot als.conf (unbiased als.conf event.light) (arrive call als.state) = true ∧
      ∀ screenshot, call.capture ≠ .captured screenshot

section

variable (pow : ℚ → ℚ) (als : AlsCorrection) (call : Call) (event : SensorsEvent)

/-- `process` keeps the type, and overwrites the handle of what it drops. -/
theorem process_event :
    (als.process pow call event).1.event.type = event.type ∧
      ((als.process pow call event).1.path.drops = true ↔ Drops als call event) ∧
      (als.process pow call event).1.event.sensor =
        if (als.process pow call event).1.path.drops then 0 else event.sensor := by
  show (processEvent pow als.conf als.hysteresis_ranges call event als.state).event.type = _ ∧
    ((processEvent pow als.conf als.hysteresis_ranges call event als.state).path.drops = true ↔ _) ∧
    (processEvent pow als.conf als.hysteresis_ranges call event als.state).event.sensor =
      if (processEvent pow als.conf als.hysteresis_ranges call event als.state).path.drops then 0
      else _
  rcases processEvent_cases pow als.conf als.hysteresis_ranges call event als.state with
    ⟨hfast, heq⟩ | ⟨hfast, ⟨hwants, heq⟩ | ⟨hwants, ⟨path, hpath, heq⟩ |
      ⟨screenshot, hcapture, heq⟩⟩⟩
  · rw [heq]
    exact ⟨rfl, iff_of_true rfl (.inl hfast), rfl⟩
  · rw [heq]
    refine ⟨rfl, iff_of_false Bool.false_ne_true ?_, rfl⟩
    rintro (hfast' | ⟨hwants', -⟩)
    · exact absurd hfast' (by simp [hfast])
    · exact absurd hwants' (by simp [show wantsScreenshot _ (unbiased _ _) _ = false from hwants])
  · rw [heq]
    rcases hpath with ⟨rfl, hcapture⟩ | ⟨rfl, hcapture⟩ <;>
      exact ⟨rfl, iff_of_true rfl (.inr ⟨hwants, by simp [hcapture]⟩), rfl⟩
  · have hnot : ¬Drops als call event := by
      rintro (hfast' | ⟨-, hnone⟩)
      · exact absurd hfast' (by simp [hfast])
      · exact hnone screenshot hcapture
    rcases correct_cases pow als.conf als.hysteresis_ranges (unbiasedEvent als.conf event)
      (arrive call als.state) call.brightness screenshot with hfull | ⟨-, hreused⟩
    · rw [heq, hfull]
      exact ⟨rfl, iff_of_false Bool.false_ne_true hnot, rfl⟩
    · rw [heq, hreused]
      exact ⟨rfl, iff_of_false Bool.false_ne_true hnot, rfl⟩

end

/-- The sensor of the event is not rewritten, and if the event is dropped, 0 is its handle and of
no other sensor. -/
def Harmless (sensors : List Sensor) (n : ℕ) (als : AlsCorrection) (call : Call)
    (produced : Produced) : Prop :=
  ¬Patched sensors n produced.1 ∧
    (Drops als call produced.2 → produced.2.sensor = 0 ∧
      ∀ i sensor, i ≠ produced.1 → (patchFirst n sensors)[i]? = some sensor → sensor.handle ≠ 0)

variable {pow : ℚ → ℚ} {sensors : List Sensor} {n : ℕ} {produced : Produced} {sensor : Sensor}

/-- The advertised sensor of an event differs from the wrapped one if it is rewritten. -/
theorem isOf_advertised (hsensor : sensors[produced.1]? = some sensor)
    (hof : produced.2.IsOf sensor) :
    ∃ advertised, (patchFirst n sensors)[produced.1]? = some advertised ∧
      advertised.handle = produced.2.sensor ∧
      (advertised.type = produced.2.type ↔ ¬Patched sensors n produced.1) := by
  obtain ⟨hpatched, hnot⟩ := getElem?_patchFirst (n := n) hsensor
  by_cases h : Patched sensors n produced.1
  · refine ⟨_, hpatched h, hof.1.symm, iff_of_false ?_ (not_not.2 h)⟩
    obtain ⟨⟨wise, hwise, htype⟩, -⟩ := h
    rw [hsensor, Option.some_inj] at hwise
    rw [hof.2, hwise, htype]
    show ¬SENSOR_TYPE_LIGHT = SENSOR_TYPE_ANDROID_WISE_LIGHT
    decide
  · exact ⟨_, hnot h, hof.1.symm, iff_of_true hof.2.symm h⟩

/-- An event that does not go through `process` agrees. -/
theorem agrees_of_not_wise (hsensor : sensors[produced.1]? = some sensor)
    (hof : produced.2.IsOf sensor) (htype : produced.2.type ≠ SENSOR_TYPE_ANDROID_WISE_LIGHT) :
    Agrees (patchFirst n sensors) produced (produced.2, none) := by
  obtain ⟨advertised, hget, hhandle, hiff⟩ := isOf_advertised (n := n) hsensor hof
  have hnot : ¬Patched sensors n produced.1 := by
    rintro ⟨⟨wise, hwise, hwiseType⟩, -⟩
    rw [hsensor, Option.some_inj] at hwise
    exact htype (by rw [hof.2, hwise, hwiseType])
  refine ⟨⟨advertised, hget, hhandle.symm, (hiff.2 hnot).symm⟩, fun _ => rfl, ?_⟩
  rintro ⟨path, hpath, -⟩
  cases hpath

/-- A wise light event agrees if and only if it is harmless. -/
theorem agrees_iff (hsensor : sensors[produced.1]? = some sensor) (hof : produced.2.IsOf sensor)
    (htype : produced.2.type = SENSOR_TYPE_ANDROID_WISE_LIGHT) (als : AlsCorrection) (call : Call) :
    Agrees (patchFirst n sensors) produced ((als.process pow call produced.2).1.event,
        some (als.process pow call produced.2).1.path) ↔
      Harmless sensors n als call produced := by
  obtain ⟨advertised, hget, hhandle, hiff⟩ := isOf_advertised (n := n) hsensor hof
  obtain ⟨hkept, hdrops, hsensor'⟩ := process_event pow als call produced.2
  constructor
  · rintro ⟨⟨own, hown, hisOf⟩, -, hother⟩
    rw [hget, Option.some_inj] at hown
    subst hown
    refine ⟨hiff.1 (hisOf.2.symm.trans hkept), fun hdropped => ?_⟩
    have hzero : (als.process pow call produced.2).1.event.sensor = 0 := by
      rw [hsensor', if_pos (hdrops.2 hdropped)]
    refine ⟨by rw [← hhandle, ← hisOf.1, hzero], fun i other hi hother' h => ?_⟩
    exact hother ⟨_, rfl, hdrops.2 hdropped⟩ i other hi hother' (hzero.trans h.symm)
  · rintro ⟨hnot, hzero⟩
    refine ⟨⟨advertised, hget, ?_, hkept.trans (hiff.2 hnot).symm⟩, fun h => absurd htype h, ?_⟩
    · rw [hhandle]
      refine hsensor'.trans ?_
      split_ifs with hpath
      · exact (hzero (hdrops.1 hpath)).1.symm
      · rfl
    · rintro ⟨path, hpath, hdropped⟩ i other hi hother h
      obtain rfl : _ = path := Option.some_inj.1 hpath
      rw [show ((als.process pow call produced.2).1.event, _).1.sensor = 0 by
        rw [hsensor', if_pos hdropped]] at h
      exact (hzero (hdrops.1 hdropped)).2 i other hi hother h.symm

/-! ## A batch -/

/-- Every wise light event of the batch is harmless where `process` meets it. -/
def BatchHarmless (pow : ℚ → ℚ) (sensors : List Sensor) (n : ℕ) (calls : ℕ → Call) :
    ℕ → List Produced → AlsCorrection → Prop
  | _, [], _ => True
  | k, produced :: batch, als =>
    if produced.2.type = SENSOR_TYPE_ANDROID_WISE_LIGHT then
      Harmless sensors n als (calls k) produced ∧
        BatchHarmless pow sensors n calls (k + 1) batch (als.process pow (calls k) produced.2).2
    else BatchHarmless pow sensors n calls (k + 1) batch als

/-- The wrapped HAL only emits events of the sensors in its list. -/
def Emitted (sensors : List Sensor) (batch : List Produced) : Prop :=
  ∀ produced ∈ batch, ∃ sensor, sensors[produced.1]? = some sensor ∧ produced.2.IsOf sensor

theorem forall₂_pollEvents_iff (calls : ℕ → Call) {batch : List Produced}
    (hbatch : Emitted sensors batch) (k : ℕ) (als : AlsCorrection) :
    List.Forall₂ (Agrees (patchFirst n sensors)) batch
        (pollEvents pow calls k (batch.map Prod.snd) als).1 ↔
      BatchHarmless pow sensors n calls k batch als := by
  induction batch generalizing k als with
  | nil => exact iff_of_true .nil trivial
  | cons produced batch ih =>
    obtain ⟨⟨sensor, hsensor, hof⟩, hbatch⟩ := List.forall_mem_cons.1 hbatch
    rw [List.map_cons, pollEvents, BatchHarmless]
    by_cases htype : produced.2.type = SENSOR_TYPE_ANDROID_WISE_LIGHT
    · simp only [if_pos htype]
      rw [List.forall₂_cons, agrees_iff hsensor hof htype, ih hbatch]
    · simp only [if_neg htype]
      rw [List.forall₂_cons, ih hbatch]
      exact and_iff_right (agrees_of_not_wise hsensor hof htype)

/-- **The wrapper.** After the list has been asked for with the inputs `is`, the events of a batch
agree with it if and only if no wise light event of the batch is of a rewritten sensor, and none of
another sensor is dropped, unless 0 is the handle of that sensor alone. -/
theorem poll_agrees_iff (pow : ℚ → ℚ) {batch : List Produced} (hbatch : Emitted sensors batch)
    (is : List AlsInputs) (als₀ als : AlsCorrection) (calls : ℕ → Call)
    (rest : List SensorsEvent) :
    let advertised := (is.foldl
      (fun w i => (als_wrapper_get_sensors_list i (some (.ok ())) w).2) ⟨sensors, als₀⟩).sensors
    let polled := als_wrapper_poll pow calls
      (some (batch.length, batch.map Prod.snd ++ rest)) als
    polled.1 = batch.length ∧ (List.Forall₂ (Agrees advertised) batch polled.2.1 ↔
      BatchHarmless pow sensors is.length calls 0 batch als) := by
  intro advertised polled
  have hadvertised : advertised = patchFirst is.length sensors := by
    have h := sensors_after is ⟨sensors, als₀⟩ 0 sensors (by rw [patchFirst])
    rwa [Nat.zero_add] at h
  have hpolled : polled = (↑batch.length, pollEvents pow calls 0 (batch.map Prod.snd) als) := by
    show als_wrapper_poll _ _ _ _ = _
    simp [als_wrapper_poll]
  rw [hpolled, hadvertised]
  exact ⟨rfl, forall₂_pollEvents_iff calls hbatch 0 als⟩

/-- A device with the wise light sensor at handle 3 and another sensor at handle 0. -/
def sampleSensors : List Sensor := [⟨0, 1⟩, ⟨3, SENSOR_TYPE_ANDROID_WISE_LIGHT⟩]

/-- Next to the two sensors a second wise light sensor, which one call does not rewrite. Its event
is corrected and stays its own. -/
theorem poll_agrees_iff_sample :
    let sensors := sampleSensors ++ [⟨4, SENSOR_TYPE_ANDROID_WISE_LIGHT⟩]
    let batch : List Produced :=
      [(0, ⟨0, 1, 9, 0⟩), (2, ⟨4, SENSOR_TYPE_ANDROID_WISE_LIGHT, 500, 0⟩)]
    let call : Call := ⟨1000000000, 100, .captured ⟨10, 20, 30⟩⟩
    let polled := als_wrapper_poll id (fun _ => call)
      (some (batch.length, batch.map Prod.snd)) shippedModule
    Emitted sensors batch ∧ polled.2.1.map Prod.snd = [none, some .corrected] ∧
      List.Forall₂ (Agrees
        [⟨0, 1⟩, ⟨3, SENSOR_TYPE_LIGHT⟩, ⟨4, SENSOR_TYPE_ANDROID_WISE_LIGHT⟩]) batch polled.2.1 := by
  intro sensors batch call polled
  have hbatch : Emitted sensors batch := by
    refine List.forall_mem_cons.2 ⟨⟨⟨0, 1⟩, rfl, rfl, rfl⟩, List.forall_mem_singleton.2 ?_⟩
    exact ⟨⟨4, SENSOR_TYPE_ANDROID_WISE_LIGHT⟩, rfl, rfl, rfl⟩
  have hharmless : BatchHarmless id sensors 1 (fun _ => call) 0 batch shippedModule := by
    -- the second wise light sensor is not rewritten, and the screenshot is there
    have hkept : ¬Patched sensors 1 2 := fun h => absurd h.2 (by decide)
    have hkeeps : ¬Drops shippedModule call ⟨4, SENSOR_TYPE_ANDROID_WISE_LIGHT, 500, 0⟩ := by
      rintro (hfast | ⟨-, hnone⟩)
      · exact absurd hfast (by decide +kernel)
      · exact hnone _ rfl
    exact ⟨⟨hkept, fun hdrops => absurd hdrops hkeeps⟩, trivial⟩
  have h := (poll_agrees_iff id hbatch [shipped] .boot shippedModule (fun _ => call) []).2
  rw [List.append_nil] at h
  exact ⟨hbatch, by decide +kernel, h.2 hharmless⟩

/-- The type of an event of the rewritten sensor is not the advertised one; and when the screenshot
fails the event is that of the sensor with handle 0. -/
theorem wise_event_disagrees :
    let call : Call := ⟨1000000000, 100, .failed⟩
    let w := (als_wrapper_get_sensors_list shipped (some (.ok ())) ⟨sampleSensors, .boot⟩).2
    let polled := als_wrapper_poll id (fun _ => call)
      (some (1, [⟨3, SENSOR_TYPE_ANDROID_WISE_LIGHT, 100, 0⟩])) w.als
    w.sensors = [⟨0, 1⟩, ⟨3, SENSOR_TYPE_LIGHT⟩] ∧
      polled.2.1 = [(⟨0, SENSOR_TYPE_ANDROID_WISE_LIGHT, 100, 0⟩, some .captureFailed)] := by
  decide +kernel

end RealmeSalaa.Als
