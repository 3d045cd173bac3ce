import RealmeSalaa.MultiHal.Types
import RealmeSalaa.MultiHal.SharedWakelock

/-!
# The proxy and its event path

The state of `HalProxy` and the sections of its event path under `mEventQueueWriteMutex`:
`postEventsToMessageQueue` and the phases of `handlePendingWrites`. What an FMQ call answers (free
space, whether a write succeeds) is an argument. `mSizePendingWriteEventsQueue` is a 64-bit
`size_t`, since it is decremented unguarded.
-/

namespace RealmeSalaa.MultiHal

variable {P : Type}

/-! ## State -/

/-- The FMQ of events. `written` is everything written to it since it was installed, oldest
first; the framework's reads do not remove from it. -/
structure EventMessageQueue (P : Type) where
  quantumCount : ℕ
  written : List (Event P)

def EventMessageQueue.write (q : EventMessageQueue P) (events : List (Event P)) :
    EventMessageQueue P :=
  { q with written := q.written ++ events }

/-- A sub-HAL is known by the list its `getSensorsList` returns. -/
structure SubHal where
  sensors : List SensorInfo

/-- `mEventQueueFlag` and `mWakelockQueueFlag` say that the pointer is not null,
`mDirectChannelSubHal` is an index of `mSubHalList`. -/
structure HalProxy (P : Type) where
  mSubHalList : List SubHal
  mSensors : SensorMap
  mDynamicSensors : SensorMap
  mDirectChannelSubHal : Option ℕ
  mCurrentOperationMode : OperationMode
  mThreadsRun : Bool
  wakelock : SharedWakelock
  mEventQueue : EventMessageQueue P
  mEventQueueFlag : Bool
  mWakelockQueueFlag : Bool
  mPendingWriteEventsQueue : List (List (Event P) × ℕ)
  mSizePendingWriteEventsQueue : UInt64
  mMostEventsObservedPendingWriteEventsQueue : UInt64

/-! ## Wake-up events -/

/-- The test of a single event against `SensorFlagBits::WAKE_UP`. -/
def isWakeup (K : Constants) (mSensors : SensorMap) (event : Event P) : Bool :=
  mSensors.flags event.sensorHandle &&& K.WAKE_UP != 0

/-- The true number of wake-up events of a batch. -/
def numWakeups (K : Constants) (mSensors : SensorMap) (events : List (Event P)) : ℕ :=
  events.countP (isWakeup K mSensors)

/-- The count over the first `n` events, and the map after the lookups by `operator[]`. -/
def countNumWakeupEvents (K : Constants) : SensorMap → List (Event P) → ℕ → ℕ × SensorMap
  | mSensors, event :: events, n + 1 =>
    let rest := countNumWakeupEvents K (mSensors.subscript event.sensorHandle) events n
    (rest.1 + if isWakeup K (mSensors.subscript event.sensorHandle) event then 1 else 0, rest.2)
  | mSensors, _, _ => (0, mSensors)

theorem isWakeup_congr {K : Constants} {m m' : SensorMap} (h : ∀ k, m'.flags k = m.flags k)
    (event : Event P) : isWakeup K m' event = isWakeup K m event := by
  unfold isWakeup; rw [h]

theorem numWakeups_congr {K : Constants} {m m' : SensorMap} (h : ∀ k, m'.flags k = m.flags k)
    (events : List (Event P)) : numWakeups K m' events = numWakeups K m events :=
  List.countP_congr fun event _ => by rw [isWakeup_congr h]

@[simp] theorem numWakeups_nil (K : Constants) (m : SensorMap) :
    numWakeups K m ([] : List (Event P)) = 0 := rfl

@[simp] theorem numWakeups_append (K : Constants) (m : SensorMap) (xs ys : List (Event P)) :
    numWakeups K m (xs ++ ys) = numWakeups K m xs + numWakeups K m ys :=
  List.countP_append

theorem numWakeups_take_add_drop (K : Constants) (m : SensorMap) (events : List (Event P)) (n : ℕ) :
    numWakeups K m (events.take n) + numWakeups K m (events.drop n) = numWakeups K m events := by
  rw [← numWakeups_append, List.take_append_drop]

/-- The lookups of the count change no flags that any lookup reads. -/
theorem flags_countNumWakeupEvents (K : Constants) (m : SensorMap) (events : List (Event P))
    (n : ℕ) (k : Int32) : (countNumWakeupEvents K m events n).2.flags k = m.flags k := by
  induction events generalizing m n with
  | nil => rfl
  | cons event events ih =>
    cases n with
    | zero => rfl
    | succ n => exact (ih _ n).trans (SensorMap.flags_subscript m _ k)

theorem countNumWakeupEvents_eq (K : Constants) (m : SensorMap) (events : List (Event P)) (n : ℕ) :
    (countNumWakeupEvents K m events n).1 = numWakeups K m (events.take n) := by
  induction events generalizing m n with
  | nil => rw [List.take_nil]; rfl
  | cons event events ih =>
    cases n with
    | zero => rfl
    | succ n =>
      have hm := SensorMap.flags_subscript m event.sensorHandle
      have hrest := (ih (m.subscript event.sensorHandle) n).trans (numWakeups_congr hm _)
      show (countNumWakeupEvents K _ events n).1 + _ = numWakeups K m (event :: events.take n)
      rw [hrest, isWakeup_congr hm, numWakeups, numWakeups, List.countP_cons]

namespace HalProxy

/-! ## Posting a batch -/

variable (K : Constants) (s : HalProxy P) (events : List (Event P))

/-- All events of the pending entries, in order. -/
def pendingEvents : List (Event P) := (s.mPendingWriteEventsQueue.map Prod.fst).flatten

/-- How many events of the batch go straight to the FMQ; `write` is called for a positive number
only, and all or nothing. -/
def numToWrite (availableToWrite : ℕ) (writeOk : Bool) : ℕ :=
  if s.mPendingWriteEventsQueue.isEmpty then
    let numToWrite := min events.length availableToWrite
    if numToWrite > 0 then if writeOk then numToWrite else 0 else numToWrite
  else 0

/-- Whether `mEventQueue->write` is called. -/
def CallsWrite (availableToWrite : ℕ) : Prop :=
  s.mPendingWriteEventsQueue.isEmpty ∧ min events.length availableToWrite > 0

/-- What the batch leaves after `numToWrite` events fits in the pending queue. -/
def Queues (numToWrite : ℕ) : Prop :=
  numToWrite < events.length ∧
    s.mSizePendingWriteEventsQueue + UInt64.ofNat (events.length - numToWrite) ≤
      K.kMaxSizePendingWriteEventsQueue

instance (numToWrite : ℕ) : Decidable (s.Queues K events numToWrite) := by
  unfold Queues; infer_instance

def postEventsToMessageQueue (numWakeupEvents : ℕ) (wakelock : ScopedWakelock)
    (availableToWrite : ℕ) (writeOk : Bool) (now : ℤ) : HalProxy P :=
  let s := { s with
    wakelock :=
      if wakelock.mLocked then
        (s.wakelock.incrementRefCountAndMaybeAcquireWakelock s.mThreadsRun numWakeupEvents now).1
      else s.wakelock }
  let numToWrite := s.numToWrite events availableToWrite writeOk
  let s := { s with mEventQueue := s.mEventQueue.write (events.take numToWrite) }
  let numLeft := UInt64.ofNat (events.length - numToWrite)
  if s.Queues K events numToWrite then
    let eventsLeft := events.drop numToWrite
    let size := s.mSizePendingWriteEventsQueue + numLeft
    { s with
      mPendingWriteEventsQueue := s.mPendingWriteEventsQueue ++ [(eventsLeft, numWakeupEvents)]
      mSizePendingWriteEventsQueue := size
      mMostEventsObservedPendingWriteEventsQueue :=
        max s.mMostEventsObservedPendingWriteEventsQueue size }
  else s

/-- The part of the batch that the call puts in the pending queue. -/
def queuedPart (numToWrite : ℕ) : List (Event P) :=
  if s.Queues K events numToWrite then events.drop numToWrite else []

/-- The part of the batch that the call discards. -/
def refusedPart (numToWrite : ℕ) : List (Event P) :=
  if s.Queues K events numToWrite then [] else events.drop numToWrite

section PostEvents

variable (numWakeupEvents : ℕ) (wakelock : ScopedWakelock) (availableToWrite : ℕ) (writeOk : Bool)
  (now : ℤ)

/-- The call as one update: what it writes and what it queues are parts of the batch that depend
on the state before the call only. -/
theorem postEventsToMessageQueue_eq :
    s.postEventsToMessageQueue K events numWakeupEvents wakelock availableToWrite writeOk now =
      let n := s.numToWrite events availableToWrite writeOk
      let size := s.mSizePendingWriteEventsQueue + UInt64.ofNat (events.length - n)
      { s with
        wakelock :=
          if wakelock.mLocked then
            (s.wakelock.incrementRefCountAndMaybeAcquireWakelock s.mThreadsRun numWakeupEvents now).1
          else s.wakelock
        mEventQueue := s.mEventQueue.write (events.take n)
        mPendingWriteEventsQueue :=
          if s.Queues K events n then
            s.mPendingWriteEventsQueue ++ [(events.drop n, numWakeupEvents)]
          else s.mPendingWriteEventsQueue
        mSizePendingWriteEventsQueue :=
          if s.Queues K events n then size else s.mSizePendingWriteEventsQueue
        mMostEventsObservedPendingWriteEventsQueue :=
          if s.Queues K events n then max s.mMostEventsObservedPendingWriteEventsQueue size
          else s.mMostEventsObservedPendingWriteEventsQueue } := by
  by_cases hq : s.Queues K events (s.numToWrite events availableToWrite writeOk)
  · refine (if_pos hq).trans ?_
    simp only [if_pos hq]; rfl
  · refine (if_neg hq).trans ?_
    simp only [if_neg hq]; rfl

theorem mEventQueue_postEventsToMessageQueue :
    (s.postEventsToMessageQueue K events numWakeupEvents wakelock availableToWrite writeOk
      now).mEventQueue =
      s.mEventQueue.write (events.take (s.numToWrite events availableToWrite writeOk)) := by
  rw [postEventsToMessageQueue_eq]

theorem wakelock_postEventsToMessageQueue :
    (s.postEventsToMessageQueue K events numWakeupEvents wakelock availableToWrite writeOk
      now).wakelock =
      if wakelock.mLocked then
        (s.wakelock.incrementRefCountAndMaybeAcquireWakelock s.mThreadsRun numWakeupEvents now).1
      else s.wakelock := by
  rw [postEventsToMessageQueue_eq]

theorem mPendingWriteEventsQueue_postEventsToMessageQueue :
    (s.postEventsToMessageQueue K events numWakeupEvents wakelock availableToWrite writeOk
      now).mPendingWriteEventsQueue =
      let n := s.numToWrite events availableToWrite writeOk
      if s.Queues K events n then
        s.mPendingWriteEventsQueue ++ [(events.drop n, numWakeupEvents)]
      else s.mPendingWriteEventsQueue := by
  rw [postEventsToMessageQueue_eq]

theorem pendingEvents_postEventsToMessageQueue :
    (s.postEventsToMessageQueue K events numWakeupEvents wakelock availableToWrite writeOk
      now).pendingEvents =
      s.pendingEvents ++ s.queuedPart K events (s.numToWrite events availableToWrite writeOk) := by
  unfold pendingEvents queuedPart
  rw [mPendingWriteEventsQueue_postEventsToMessageQueue]
  dsimp only
  split
  · simp
  · simp

/-- The batch splits into what is written, queued and refused. -/
theorem take_append_queuedPart_append_refusedPart (n : ℕ) :
    events.take n ++ s.queuedPart K events n ++ s.refusedPart K events n = events := by
  unfold queuedPart refusedPart
  split <;> simp

end PostEvents

/-! ## The phases of `handlePendingWrites` -/

/-- `mPendingWriteEventsQueue.front().first` -/
def pendingWriteEvents : List (Event P) :=
  match s.mPendingWriteEventsQueue with
  | [] => []
  | (events, _) :: _ => events

/-- `mPendingWriteEventsQueue.front().second` -/
def pendingWakeupEvents : ℕ :=
  match s.mPendingWriteEventsQueue with
  | [] => 0
  | (_, numWakeupEvents) :: _ => numWakeupEvents

/-- What a failed `writeBlocking` passes to `decrementRefCountAndMaybeReleaseWakelock`, with the
sensor map after the count; `none` when the decrement is not called. -/
def failedWriteDecrement (eventQueueSize : ℕ) : Option (ℕ × SensorMap) :=
  if s.pendingWakeupEvents > 0 then
    if s.pendingWriteEvents.length > eventQueueSize then
      some (countNumWakeupEvents K s.mSensors s.pendingWriteEvents eventQueueSize)
    else some (s.pendingWakeupEvents, s.mSensors)
  else none

/-- The error path of `handlePendingWrites`. -/
def dropPendingWrites (eventQueueSize : ℕ) : HalProxy P :=
  match s.failedWriteDecrement K eventQueueSize with
  | none => s
  | some (delta, mSensors) =>
    { s with
      mSensors := mSensors
      wakelock :=
        s.wakelock.decrementRefCountAndMaybeReleaseWakelock s.mThreadsRun delta (-1) }

/-- The error path changes no flags that any lookup reads, and besides only the wakelock. -/
theorem dropPendingWrites_frame (eventQueueSize : ℕ) :
    ∃ m w, s.dropPendingWrites K eventQueueSize = { s with mSensors := m, wakelock := w } ∧
      ∀ k, m.flags k = s.mSensors.flags k := by
  unfold dropPendingWrites
  cases h : s.failedWriteDecrement K eventQueueSize with
  | none => exact ⟨_, _, rfl, fun _ => rfl⟩
  | some dropped =>
    refine ⟨_, _, rfl, fun k => ?_⟩
    unfold failedWriteDecrement at h
    split at h
    · split at h
      · cases h; exact flags_countNumWakeupEvents K s.mSensors _ _ k
      · cases h; rfl
    · cases h

/-- The locked phase after a chunk: shorten the front entry, or pop it. -/
def finishPendingWrites (numToWrite eventQueueSize : ℕ) : HalProxy P :=
  { s with
    mSizePendingWriteEventsQueue := s.mSizePendingWriteEventsQueue - UInt64.ofNat numToWrite
    mPendingWriteEventsQueue :=
      match s.mPendingWriteEventsQueue with
      | [] => []
      | (events, numWakeupEvents) :: rest =>
        if events.length > eventQueueSize then (events.drop eventQueueSize, numWakeupEvents) :: rest
        else rest }

end HalProxy

end RealmeSalaa.MultiHal
