import Mathlib

/-!
# Data of the sensors multi-HAL

The sensor records, events, results and constants that `HalProxy.cpp` and `HalProxyCallback.cpp`
work on. A sensor handle is an `int32_t` whose first byte the proxy uses for the index of the
sub-HAL; `setSubHalIndex` and `extractSubHalIndex` are its two ends. What the two files take from
headers outside the repository is the record `Constants`.
-/

namespace RealmeSalaa.MultiHal

/-! ## Constants of the headers -/

/-- The constants of `HalProxy.h` and of the 1.0 HAL interface that the code compares with. -/
structure Constants where
  kMaxSizePendingWriteEventsQueue : UInt64
  kWakelockTimeoutNs : ℤ
  kWakelockTimeoutNs_pos : 0 < kWakelockTimeoutNs
  /-- `V1_0::SensorFlagBits` -/
  WAKE_UP : UInt32
  MASK_DIRECT_REPORT : UInt32
  MASK_DIRECT_CHANNEL : UInt32

/-- Values for concrete runs: a pending queue of four events, a timeout of 500 ms. -/
def sampleConstants : Constants where
  kMaxSizePendingWriteEventsQueue := 4
  kWakelockTimeoutNs := 500000000
  kWakelockTimeoutNs_pos := by decide
  WAKE_UP := 1
  MASK_DIRECT_REPORT := 0x380
  MASK_DIRECT_CHANNEL := 0xC00

/-- The first byte of a sensor handle. -/
def kSensorHandleSubHalIndexMask : Int32 := 0xFF000000

def kBitsAfterSubHalIndex : Int32 := 24

/-! ## Enumerations -/

/-- `V2_1::SensorType`: the values the code compares with, and all others. -/
inductive SensorType
  | LIGHT
  | DYNAMIC_SENSOR_META
  | ADDITIONAL_INFO
  | HINGE_ANGLE
  | other (value : Int32)
  deriving DecidableEq, Repr

/-- `V1_0::Result`. -/
inductive Result
  | OK
  | PERMISSION_DENIED
  | NO_MEMORY
  | BAD_VALUE
  | INVALID_OPERATION
  deriving DecidableEq, Repr

inductive OperationMode
  | NORMAL
  | DATA_INJECTION
  deriving DecidableEq, Repr

inductive RateLevel
  | STOP
  | NORMAL
  | FAST
  | VERY_FAST
  deriving DecidableEq, Repr

/-! ## Sensors and events -/

/-- `V2_1::SensorInfo`, the fields the proxy reads or writes. -/
structure SensorInfo where
  sensorHandle : Int32
  flags : UInt32
  type : SensorType
  typeAsString : String
  deriving DecidableEq, Repr

/-- The value-initialised record, which `std::map::operator[]` inserts. -/
instance : Inhabited SensorInfo := ⟨⟨0, 0, .other 0, ""⟩⟩

@[simp] theorem default_flags : (default : SensorInfo).flags = 0 := rfl

/-- `V2_1::Event`. `dynamicSensorHandle` is `u.dynamic.sensorHandle`, which is read for
`DYNAMIC_SENSOR_META` events only; `payload` is the timestamp and the rest of `u`. -/
structure Event (P : Type) where
  sensorHandle : Int32
  sensorType : SensorType
  dynamicSensorHandle : Int32
  payload : P
  deriving DecidableEq, Repr

/-- `std::map<int32_t, SensorInfo>`. -/
abbrev SensorMap := Std.ExtTreeMap Int32 SensorInfo

namespace SensorMap

/-- `std::map::operator[]`: a missing key is inserted with a value-initialised record. -/
def subscript (m : SensorMap) (sensorHandle : Int32) : SensorMap :=
  m.insertIfNew sensorHandle default

/-- The flags that `operator[]` reads. -/
def flags (m : SensorMap) (sensorHandle : Int32) : UInt32 := (m.getD sensorHandle default).flags

/-- Inserting a missing key does not change what any lookup reads. -/
@[simp] theorem flags_subscript (m : SensorMap) (h k : Int32) :
    (m.subscript h).flags k = m.flags k := by
  unfold flags subscript
  rw [Std.ExtTreeMap.getD_insertIfNew]
  split
  · next hk =>
    rw [Std.LawfulEqCmp.compare_eq_iff_eq] at hk
    obtain ⟨rfl, hm⟩ := hk
    rw [Std.ExtTreeMap.getD_eq_fallback hm]
  · rfl

end SensorMap

/-! ## Handles -/

/-- Set the sub-HAL index as first byte of a handle; the `size_t` index is cast to `int32_t`. -/
def setSubHalIndex (sensorHandle : Int32) (subHalIndex : ℕ) : Int32 :=
  sensorHandle ||| (Int32.ofNat subHalIndex <<< kBitsAfterSubHalIndex)

/-- The sub-HAL index of a handle: an arithmetic shift of the signed handle, cast to `size_t`. -/
def extractSubHalIndex (sensorHandle : Int32) : ℕ :=
  (sensorHandle >>> kBitsAfterSubHalIndex).toInt64.toUInt64.toNat

def clearSubHalIndex (sensorHandle : Int32) : Int32 :=
  sensorHandle &&& ~~~kSensorHandleSubHalIndexMask

def subHalIndexIsClear (sensorHandle : Int32) : Bool :=
  sensorHandle &&& kSensorHandleSubHalIndexMask == 0

end RealmeSalaa.MultiHal
