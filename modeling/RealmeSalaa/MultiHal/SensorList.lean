import RealmeSalaa.MultiHal.HalProxy

/-!
# Sensor lists, dynamic sensors and commands

How the proxy builds the list it advertises, keeps track of dynamic sensors, re-encodes the
handles of posted events, and forwards the framework's commands. A command is answered with a
`Reply`: an error of the proxy itself, or a call to one sub-HAL.
-/

namespace RealmeSalaa.MultiHal

variable {P : Type}

/-! ## The static sensor list -/

namespace HalProxy

variable (K : Constants)

/-- The two masks of direct channels. -/
def directFlags : UInt32 := K.MASK_DIRECT_REPORT ||| K.MASK_DIRECT_CHANNEL

/-- The new `mDirectChannelSubHal`, and the sensor with its flags. -/
def setDirectChannelFlags (mDirectChannelSubHal : Option ℕ) (sensorInfo : SensorInfo)
    (subHal : ℕ) : Option ℕ × SensorInfo :=
  let sensorSupportsDirectChannel := sensorInfo.flags &&& directFlags K != 0
  match mDirectChannelSubHal with
  | none => (if sensorSupportsDirectChannel then some subHal else none, sensorInfo)
  | some owner =>
    if subHal = owner then (some owner, sensorInfo)
    else (some owner, { sensorInfo with flags := sensorInfo.flags &&& ~~~directFlags K })

/-- The wise light sensor is advertised as a plain light sensor. -/
def renameWiseLight (sensor : SensorInfo) : SensorInfo :=
  if sensor.typeAsString = "android.sensor.wise_light" then
    { sensor with type := .LIGHT, typeAsString := "" }
  else sensor

@[simp] theorem setDirectChannelFlags_sensorHandle (owner : Option ℕ) (sensor : SensorInfo)
    (subHal : ℕ) :
    (setDirectChannelFlags K owner sensor subHal).2.sensorHandle = sensor.sensorHandle := by
  unfold setDirectChannelFlags
  cases owner with
  | none => rfl
  | some owner => dsimp only; split <;> rfl

@[simp] theorem renameWiseLight_sensorHandle (sensor : SensorInfo) :
    (renameWiseLight sensor).sensorHandle = sensor.sensorHandle := by
  unfold renameWiseLight; split <;> rfl

/-- The loop body of `initializeSensorList`, for a sensor of sub-HAL `subHalIndex`. -/
def addSensor (subHalIndex : ℕ) (s : HalProxy P) (sensor : SensorInfo) : HalProxy P :=
  if !subHalIndexIsClear sensor.sensorHandle then s
  else
    let sensor := { sensor with sensorHandle := setSubHalIndex sensor.sensorHandle subHalIndex }
    let flagged := setDirectChannelFlags K s.mDirectChannelSubHal sensor subHalIndex
    let sensor := renameWiseLight flagged.2
    { s with
      mDirectChannelSubHal := flagged.1
      mSensors := s.mSensors.insert sensor.sensorHandle sensor }

/-- The sensors of the sub-HALs from index `i` on. -/
def addSubHals : ℕ → List SubHal → HalProxy P → HalProxy P
  | _, [], s => s
  | i, subHal :: subHals, s =>
    addSubHals (i + 1) subHals (subHal.sensors.foldl (addSensor K i) s)

def initializeSensorList (s : HalProxy P) : HalProxy P := addSubHals K 0 s.mSubHalList s

/-- The member initializers of the header. -/
def initial (subHals : List SubHal) : HalProxy P where
  mSubHalList := subHals
  mSensors := ∅
  mDynamicSensors := ∅
  mDirectChannelSubHal := none
  mCurrentOperationMode := .NORMAL
  mThreadsRun := false
  wakelock := ⟨0, 0, 0, false⟩
  mEventQueue := ⟨0, []⟩
  mEventQueueFlag := false
  mWakelockQueueFlag := false
  mPendingWriteEventsQueue := []
  mSizePendingWriteEventsQueue := 0
  mMostEventsObservedPendingWriteEventsQueue := 0

/-- The constructor. -/
def construct (subHals : List SubHal) : HalProxy P := initializeSensorList K (initial subHals)

/-! ### What the list leaves alone -/

theorem addSensor_frame (i : ℕ) (s : HalProxy P) (sensor : SensorInfo) :
    ∃ owner m, addSensor K i s sensor = { s with mDirectChannelSubHal := owner, mSensors := m } := by
  unfold addSensor
  split
  · exact ⟨_, _, rfl⟩
  · exact ⟨_, _, rfl⟩

theorem foldl_addSensor_frame (i : ℕ) (s : HalProxy P) (sensors : List SensorInfo) :
    ∃ owner m, sensors.foldl (addSensor K i) s =
      { s with mDirectChannelSubHal := owner, mSensors := m } := by
  induction sensors generalizing s with
  | nil => exact ⟨_, _, rfl⟩
  | cons sensor sensors ih =>
    obtain ⟨_, _, hfirst⟩ := addSensor_frame K i s sensor
    obtain ⟨owner, m, hrest⟩ := ih (addSensor K i s sensor)
    rw [hfirst] at hrest
    exact ⟨owner, m, by rw [List.foldl_cons, hfirst, hrest]⟩

theorem addSubHals_frame (i : ℕ) (subHals : List SubHal) (s : HalProxy P) :
    ∃ owner m, addSubHals K i subHals s =
      { s with mDirectChannelSubHal := owner, mSensors := m } := by
  induction subHals generalizing i s with
  | nil => exact ⟨_, _, rfl⟩
  | cons subHal subHals ih =>
    obtain ⟨_, _, hfirst⟩ := foldl_addSensor_frame K i s subHal.sensors
    obtain ⟨owner, m, hrest⟩ := ih (i + 1) (subHal.sensors.foldl (addSensor K i) s)
    rw [hfirst] at hrest
    exact ⟨owner, m, by rw [addSubHals, hfirst, hrest]⟩

/-- The constructor only fills the sensor list and picks the owner of direct channels. -/
theorem construct_frame (subHals : List SubHal) :
    ∃ owner m, (construct K subHals : HalProxy P) =
      { initial subHals with mDirectChannelSubHal := owner, mSensors := m } :=
  addSubHals_frame K 0 subHals _

theorem mSubHalList_construct (subHals : List SubHal) :
    (construct K subHals : HalProxy P).mSubHalList = subHals := by
  obtain ⟨owner, m, h⟩ := construct_frame (P := P) K subHals
  rw [h]; rfl

theorem wakelock_construct (subHals : List SubHal) :
    (construct K subHals : HalProxy P).wakelock = ⟨0, 0, 0, false⟩ := by
  obtain ⟨owner, m, h⟩ := construct_frame (P := P) K subHals
  rw [h]; rfl

/-! ## Dynamic sensors -/

/-- The locked update of `onDynamicSensorsConnected`: the map, and the sensors for the callback. -/
def onDynamicSensorsConnected (subHalIndex : ℕ) :
    SensorMap → List SensorInfo → SensorMap × List SensorInfo
  | mDynamicSensors, [] => (mDynamicSensors, [])
  | mDynamicSensors, sensor :: dynamicSensorsAdded =>
    if !subHalIndexIsClear sensor.sensorHandle then
      onDynamicSensorsConnected subHalIndex mDynamicSensors dynamicSensorsAdded
    else
      let sensor := { sensor with sensorHandle := setSubHalIndex sensor.sensorHandle subHalIndex }
      let rest := onDynamicSensorsConnected subHalIndex
        (mDynamicSensors.insert sensor.sensorHandle sensor) dynamicSensorsAdded
      (rest.1, sensor :: rest.2)

/-- The locked update of `onDynamicSensorsDisconnected`: the map, and the handles for the
callback. -/
def onDynamicSensorsDisconnected (subHalIndex : ℕ) :
    SensorMap → List Int32 → SensorMap × List Int32
  | mDynamicSensors, [] => (mDynamicSensors, [])
  | mDynamicSensors, sensorHandle :: dynamicSensorHandlesRemoved =>
    if !subHalIndexIsClear sensorHandle then
      onDynamicSensorsDisconnected subHalIndex mDynamicSensors dynamicSensorHandlesRemoved
    else
      let sensorHandle := setSubHalIndex sensorHandle subHalIndex
      if sensorHandle ∈ mDynamicSensors then
        let rest := onDynamicSensorsDisconnected subHalIndex (mDynamicSensors.erase sensorHandle)
          dynamicSensorHandlesRemoved
        (rest.1, sensorHandle :: rest.2)
      else onDynamicSensorsDisconnected subHalIndex mDynamicSensors dynamicSensorHandlesRemoved

end HalProxy

/-! ## Events of a sub-HAL -/

namespace HalProxyCallbackBase

/-- `HalProxyCallback.cpp` has a `setSubHalIndex` of its own. -/
def setSubHalIndex (sensorHandle : Int32) (subHalIndex : ℕ) : Int32 :=
  sensorHandle ||| (Int32.ofNat subHalIndex <<< kBitsAfterSubHalIndex)

/-- The loop body of `processEvents`. -/
def processEvent (mSubHalIndex : ℕ) (event : Event P) : Event P :=
  let event := { event with sensorHandle := setSubHalIndex event.sensorHandle mSubHalIndex }
  if event.sensorType = .DYNAMIC_SENSOR_META then
    { event with dynamicSensorHandle := setSubHalIndex event.dynamicSensorHandle mSubHalIndex }
  else event

/-- The re-encoded events and the number of wake-up events among them; `getSensorInfo` is in
`HalProxy.h`. -/
def processEvents (K : Constants) (getSensorInfo : Int32 → SensorInfo) (mSubHalIndex : ℕ) :
    List (Event P) → List (Event P) × ℕ
  | [] => ([], 0)
  | event :: events =>
    let event := processEvent mSubHalIndex event
    let rest := processEvents K getSensorInfo mSubHalIndex events
    (event :: rest.1,
      rest.2 + if (getSensorInfo event.sensorHandle).flags &&& K.WAKE_UP != 0 then 1 else 0)

end HalProxyCallbackBase

/-! ## Commands -/

/-- A call of the proxy to a sub-HAL. -/
inductive SubHalCall (P : Type)
  | activate (sensorHandle : Int32) (enabled : Bool)
  | batch (sensorHandle : Int32) (samplingPeriodNs maxReportLatencyNs : ℤ)
  | flush (sensorHandle : Int32)
  | injectSensorData (event : Event P)
  | configDirectReport (sensorHandle : Int32) (channelHandle : Int32) (rate : RateLevel)
  deriving DecidableEq, Repr

/-- The handle a call is about. -/
def SubHalCall.sensorHandle : SubHalCall P → Int32
  | .activate sensorHandle _ => sensorHandle
  | .batch sensorHandle _ _ => sensorHandle
  | .flush sensorHandle => sensorHandle
  | .injectSensorData event => event.sensorHandle
  | .configDirectReport sensorHandle _ _ => sensorHandle

/-- What the proxy does with a command. -/
inductive Reply (P : Type)
  | error (result : Result)
  | forward (subHal : ℕ) (call : SubHalCall P)
  deriving DecidableEq, Repr

namespace HalProxy

variable (s : HalProxy P)

def isSubHalIndexValid (sensorHandle : Int32) : Bool :=
  extractSubHalIndex sensorHandle < s.mSubHalList.length

/-- The shape of the commands on one sensor: a handle with an invalid index is refused, any other
goes to its sub-HAL with the index cleared. -/
def forwardToSubHal (sensorHandle : Int32) (call : Int32 → SubHalCall P) : Reply P :=
  if !s.isSubHalIndexValid sensorHandle then .error .BAD_VALUE
  else .forward (extractSubHalIndex sensorHandle) (call (clearSubHalIndex sensorHandle))

def activate (sensorHandle : Int32) (enabled : Bool) : Reply P :=
  s.forwardToSubHal sensorHandle (.activate · enabled)

def batch (sensorHandle : Int32) (samplingPeriodNs maxReportLatencyNs : ℤ) : Reply P :=
  s.forwardToSubHal sensorHandle (.batch · samplingPeriodNs maxReportLatencyNs)

def flush (sensorHandle : Int32) : Reply P := s.forwardToSubHal sensorHandle .flush

/-- The conversions between event versions keep every field. -/
def injectSensorData (event : Event P) : Reply P :=
  if s.mCurrentOperationMode = .NORMAL ∧ event.sensorType ≠ .ADDITIONAL_INFO then
    .error .BAD_VALUE
  else
    s.forwardToSubHal event.sensorHandle fun sensorHandle =>
      .injectSensorData { event with sensorHandle := sensorHandle }

def configDirectReport (sensorHandle channelHandle : Int32) (rate : RateLevel) : Reply P :=
  match s.mDirectChannelSubHal with
  | none => .error .INVALID_OPERATION
  | some subHal =>
    if sensorHandle = -1 ∧ rate ≠ .STOP then .error .BAD_VALUE
    else
      let sensorHandle := if sensorHandle ≠ -1 then clearSubHalIndex sensorHandle else sensorHandle
      .forward subHal (.configDirectReport sensorHandle channelHandle rate)

end HalProxy

end RealmeSalaa.MultiHal
