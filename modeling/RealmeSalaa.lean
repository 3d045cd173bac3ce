import RealmeSalaa.Lib.GuardedSystem
import RealmeSalaa.Lib.Progress
import RealmeSalaa.Lib.ConditionVariable
import RealmeSalaa.Lib.LossyFifo
import RealmeSalaa.Lib.Notice
import RealmeSalaa.Lib.UnlockedTest
import RealmeSalaa.MultiHal.Types
import RealmeSalaa.MultiHal.SharedWakelock
import RealmeSalaa.MultiHal.HalProxy
import RealmeSalaa.MultiHal.SensorList
import RealmeSalaa.MultiHal.System
import RealmeSalaa.MultiHal.Routing
import RealmeSalaa.MultiHal.DynamicSensors
import RealmeSalaa.MultiHal.WakelockBalance
import RealmeSalaa.MultiHal.PendingWrites
import RealmeSalaa.MultiHal.Delivery
import RealmeSalaa.MultiHal.PendingSize
import RealmeSalaa.MultiHal.WakeupReferences
import RealmeSalaa.MultiHal.WakelockCredit
import RealmeSalaa.MultiHal.Reinitialization
import RealmeSalaa.MultiHal.DirectChannel
import RealmeSalaa.MultiHal.StaticSensors
import RealmeSalaa.MultiHal.EventFlags
import RealmeSalaa.MultiHal.WakelockDeadline
import RealmeSalaa.MultiHal.References
import RealmeSalaa.MultiHal.OperationModes
import RealmeSalaa.MultiHal.ConditionVariables
import RealmeSalaa.MultiHal.Draining
import RealmeSalaa.MultiHal.ThreadsRunTests
import RealmeSalaa.MultiHal.StoppedWakelock
import RealmeSalaa.MultiHal.Releasing
import RealmeSalaa.MultiHal.Mutexes
import RealmeSalaa.MultiHal.StopThreads
import RealmeSalaa.MultiHal.ConfigFile
import RealmeSalaa.MultiHal.Session
import RealmeSalaa.MultiHal.HighWater
import RealmeSalaa.Als.AlsCorrection
import RealmeSalaa.Als.Screenshots
import RealmeSalaa.Als.ScreenLight
import RealmeSalaa.Als.Hysteresis
import RealmeSalaa.Als.AlsWrapper
import RealmeSalaa.Als.AgcGain
import RealmeSalaa.Als.Initialization
import RealmeSalaa.Als.AreaCapture
import RealmeSalaa.Als.Freshness
import RealmeSalaa.Lib.Scanf
import RealmeSalaa.Lib.SinglePrecision
import RealmeSalaa.Lib.Printf
import RealmeSalaa.VirtualSensors.OplusVirtual
import RealmeSalaa.Lights.Light
import RealmeSalaa.Fingerprint.UdfpsPoll
import RealmeSalaa.Lib.Overrides
import RealmeSalaa.DeviceInit.DeviceProps
import RealmeSalaa.DeviceInit.VendorProperties
import RealmeSalaa.Parts.ModeSwitches
import RealmeSalaa.Parts.ClearSpeaker
import RealmeSalaa.AodHelper.DozeCustomService
import RealmeSalaa.Doze.PickupSensor
import RealmeSalaa.Doze.DozeService
import RealmeSalaa.Lib.PyText
import RealmeSalaa.Lib.Sorting
import RealmeSalaa.Lib.FirstDifference
import RealmeSalaa.Lib.PyLines
import RealmeSalaa.Scripts.UpdateSha1sums
import RealmeSalaa.Scripts.Cleanup
import RealmeSalaa.Scripts.BlobSections
import RealmeSalaa.Scripts.ReorderLibs
import RealmeSalaa.Scripts.SortOrder
import RealmeSalaa.Scripts.ReorderProps
import RealmeSalaa.Lib.PySections
import RealmeSalaa.Scripts.LibSections
