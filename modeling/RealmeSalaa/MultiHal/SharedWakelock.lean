import Mathlib

/-!
# The shared wakelock

The reference count behind the one kernel wakelock of the multi-HAL. Every function below is one
section under `mWakelockMutex`. An increment or decrement tests `mThreadsRun` before it takes the
mutex, and `threadsRun` is what that test read; `now` is what `getTimeNow()` returns in the section.
The count is unbounded: `std::min` keeps it from going below zero, and 2⁶⁴ outstanding references
are out of reach.

`Balanced` relates the count and the kernel wakelock. Decrements and resets keep it;
`balanced_increment_iff` says when an increment does.
-/

namespace RealmeSalaa.MultiHal

/-- The fields under `mWakelockMutex`. `held` says that the last call to the kernel was
`acquire_wake_lock`. -/
structure SharedWakelock where
  mWakelockRefCount : ℕ
  mWakelockTimeoutStartTime : ℤ
  mWakelockTimeoutResetTime : ℤ
  held : Bool
  deriving DecidableEq, Repr

namespace SharedWakelock

variable (w : SharedWakelock) (threadsRun : Bool)

/-- The result is `none` for the return value false, otherwise `*timeoutStart`. -/
def incrementRefCountAndMaybeAcquireWakelock (delta : ℕ) (now : ℤ) : SharedWakelock × Option ℤ :=
  if !threadsRun then (w, none)
  else
    ({ w with
        held := if w.mWakelockRefCount = 0 then true else w.held
        mWakelockTimeoutStartTime := now
        mWakelockRefCount := w.mWakelockRefCount + delta },
      some now)

/-- `-1` stands for the time of the latest reset. -/
def decrementRefCountAndMaybeReleaseWakelock (delta : ℕ) (timeoutStart : ℤ) : SharedWakelock :=
  if !threadsRun then w
  else
    let timeoutStart := if timeoutStart = -1 then w.mWakelockTimeoutResetTime else timeoutStart
    if w.mWakelockRefCount = 0 ∨ timeoutStart < w.mWakelockTimeoutResetTime then w
    else
      let count := w.mWakelockRefCount - min w.mWakelockRefCount delta
      { w with
        mWakelockRefCount := count
        held := if count = 0 then false else w.held }

def resetSharedWakelock (now : ℤ) : SharedWakelock :=
  { w.decrementRefCountAndMaybeReleaseWakelock threadsRun w.mWakelockRefCount (-1) with
    mWakelockTimeoutResetTime := now }

/-- `none` when the wakelock timed out, otherwise the time that is left. -/
def sharedWakelockDidTimeout (kWakelockTimeoutNs now : ℤ) : Option ℤ :=
  let duration := now - w.mWakelockTimeoutStartTime
  if duration > kWakelockTimeoutNs then none else some (kWakelockTimeoutNs - duration)

/-! ## What each section does -/

variable {w threadsRun} {delta : ℕ} {timeoutStart now : ℤ}

@[simp] theorem increment_stopped :
    w.incrementRefCountAndMaybeAcquireWakelock false delta now = (w, none) := rfl

@[simp] theorem decrement_stopped :
    w.decrementRefCountAndMaybeReleaseWakelock false delta timeoutStart = w := rfl

/-- A reset that finds `mThreadsRun` cleared only moves the reset time. -/
@[simp] theorem reset_stopped :
    w.resetSharedWakelock false now = { w with mWakelockTimeoutResetTime := now } := rfl

theorem increment_running :
    w.incrementRefCountAndMaybeAcquireWakelock true delta now =
      ({ w with
          held := if w.mWakelockRefCount = 0 then true else w.held
          mWakelockTimeoutStartTime := now
          mWakelockRefCount := w.mWakelockRefCount + delta },
        some now) := rfl

/-- A decrement is dropped: nothing is counted, or its time is before the latest reset. -/
theorem decrement_of_stale
    (h : timeoutStart ≠ -1) (ht : timeoutStart < w.mWakelockTimeoutResetTime) :
    w.decrementRefCountAndMaybeReleaseWakelock threadsRun delta timeoutStart = w := by
  cases threadsRun with
  | false => rfl
  | true => simp [decrementRefCountAndMaybeReleaseWakelock, h, ht]

variable (w threadsRun delta timeoutStart now) in
/-- What a decrement may change, and how far: at most `delta` references go. -/
theorem decrement_cases :
    w.decrementRefCountAndMaybeReleaseWakelock threadsRun delta timeoutStart = w ∨
      0 < w.mWakelockRefCount ∧
      w.decrementRefCountAndMaybeReleaseWakelock threadsRun delta timeoutStart =
        { w with
          mWakelockRefCount := w.mWakelockRefCount - delta
          held := if w.mWakelockRefCount - delta = 0 then false else w.held } := by
  have hmin : w.mWakelockRefCount - min w.mWakelockRefCount delta = w.mWakelockRefCount - delta := by
    omega
  unfold decrementRefCountAndMaybeReleaseWakelock
  cases threadsRun with
  | false => exact .inl rfl
  | true =>
    by_cases h : w.mWakelockRefCount = 0 ∨
        (if timeoutStart = -1 then w.mWakelockTimeoutResetTime else timeoutStart) <
          w.mWakelockTimeoutResetTime
    · simp [h]
    · refine .inr ⟨by omega, ?_⟩
      simp [h, hmin]

@[simp] theorem decrement_timeoutStartTime :
    (w.decrementRefCountAndMaybeReleaseWakelock threadsRun delta timeoutStart).mWakelockTimeoutStartTime
      = w.mWakelockTimeoutStartTime := by
  rcases decrement_cases w threadsRun delta timeoutStart with h | ⟨-, h⟩ <;> rw [h]

@[simp] theorem decrement_timeoutResetTime :
    (w.decrementRefCountAndMaybeReleaseWakelock threadsRun delta timeoutStart).mWakelockTimeoutResetTime
      = w.mWakelockTimeoutResetTime := by
  rcases decrement_cases w threadsRun delta timeoutStart with h | ⟨-, h⟩ <;> rw [h]

theorem refCount_le_decrement :
    w.mWakelockRefCount ≤
      (w.decrementRefCountAndMaybeReleaseWakelock threadsRun delta timeoutStart).mWakelockRefCount
        + delta := by
  rcases decrement_cases w threadsRun delta timeoutStart with h | ⟨-, h⟩ <;> rw [h]
  · omega
  · show w.mWakelockRefCount ≤ w.mWakelockRefCount - delta + delta
    omega

theorem refCount_decrement_le :
    (w.decrementRefCountAndMaybeReleaseWakelock threadsRun delta timeoutStart).mWakelockRefCount ≤
      w.mWakelockRefCount := by
  rcases decrement_cases w threadsRun delta timeoutStart with h | ⟨-, h⟩ <;> rw [h]
  exact Nat.sub_le _ _

/-- A decrement that is not stale takes `delta` references, or all. -/
theorem refCount_decrement (h : timeoutStart = -1 ∨ w.mWakelockTimeoutResetTime ≤ timeoutStart) :
    (w.decrementRefCountAndMaybeReleaseWakelock true delta timeoutStart).mWakelockRefCount =
      w.mWakelockRefCount - delta := by
  have hfresh : ¬(if timeoutStart = -1 then w.mWakelockTimeoutResetTime else timeoutStart) <
      w.mWakelockTimeoutResetTime := by
    split
    · exact lt_irrefl _
    · next hne => exact not_lt.2 (h.resolve_left hne)
  unfold decrementRefCountAndMaybeReleaseWakelock
  by_cases hzero : w.mWakelockRefCount = 0
  · simp [hzero]
  · simp only [Bool.not_true, Bool.false_eq_true, if_false, hzero, hfresh, or_self]
    omega

@[simp] theorem increment_timeoutResetTime :
    (w.incrementRefCountAndMaybeAcquireWakelock threadsRun delta now).1.mWakelockTimeoutResetTime
      = w.mWakelockTimeoutResetTime := by
  cases threadsRun <;> rfl

/-- While the threads run, a reset leaves nothing counted. -/
theorem refCount_reset : (w.resetSharedWakelock true now).mWakelockRefCount = 0 := by
  unfold resetSharedWakelock
  exact (refCount_decrement (.inl rfl)).trans (Nat.sub_self _)

@[simp] theorem reset_timeoutStartTime :
    (w.resetSharedWakelock threadsRun now).mWakelockTimeoutStartTime = w.mWakelockTimeoutStartTime := by
  simp [resetSharedWakelock]

@[simp] theorem reset_timeoutResetTime :
    (w.resetSharedWakelock threadsRun now).mWakelockTimeoutResetTime = now := rfl

/-- A timeout is found strictly after its start. -/
theorem lt_of_didTimeout {kWakelockTimeoutNs : ℤ} (hpos : 0 < kWakelockTimeoutNs)
    (h : w.sharedWakelockDidTimeout kWakelockTimeoutNs now = none) :
    w.mWakelockTimeoutStartTime < now := by
  unfold sharedWakelockDidTimeout at h
  dsimp only at h
  split at h
  · omega
  · cases h

/-! ## The count and the kernel wakelock -/

/-- The kernel wakelock is held exactly while something is counted. -/
def Balanced (w : SharedWakelock) : Prop := w.held = true ↔ 0 < w.mWakelockRefCount

instance (w : SharedWakelock) : Decidable w.Balanced := by unfold Balanced; infer_instance

/-- The increment that takes the kernel wakelock and counts nothing. -/
def EmptyAcquire (w : SharedWakelock) (threadsRun : Bool) (delta : ℕ) : Prop :=
  threadsRun = true ∧ w.mWakelockRefCount = 0 ∧ delta = 0

instance (w : SharedWakelock) : Decidable (w.EmptyAcquire threadsRun delta) := by
  unfold EmptyAcquire; infer_instance

theorem balanced_increment_iff (h : w.Balanced) :
    (w.incrementRefCountAndMaybeAcquireWakelock threadsRun delta now).1.Balanced ↔
      ¬ w.EmptyAcquire threadsRun delta := by
  cases threadsRun with
  | false => simp [h, EmptyAcquire]
  | true =>
    rw [increment_running]
    unfold Balanced EmptyAcquire at *
    by_cases hc : w.mWakelockRefCount = 0
    · simp [hc, Nat.pos_iff_ne_zero]
    · have hpos : 0 < w.mWakelockRefCount := Nat.pos_of_ne_zero hc
      simp [hc, h, hpos]

theorem balanced_decrement (h : w.Balanced) :
    (w.decrementRefCountAndMaybeReleaseWakelock threadsRun delta timeoutStart).Balanced := by
  rcases decrement_cases w threadsRun delta timeoutStart with heq | ⟨hpos, heq⟩
  · rwa [heq]
  · rw [heq]
    unfold Balanced at *
    by_cases hc : w.mWakelockRefCount - delta = 0
    · simp [hc]
    · have hheld : w.held = true := h.2 hpos
      simp only [if_neg hc, hheld, true_iff]
      omega

theorem balanced_reset (h : w.Balanced) : (w.resetSharedWakelock threadsRun now).Balanced :=
  balanced_decrement h

end SharedWakelock

/-! ## Scoped wakelocks -/

/-- A `ScopedWakelock`, of the library outside the repository: it takes one reference when it is
created locked, keeps the time the increment returned, and gives the reference back with that
time when it is destroyed. -/
structure ScopedWakelock where
  mLocked : Bool
  mCreatedAtTimeNs : ℤ
  deriving DecidableEq, Repr

namespace ScopedWakelock

/-- The constructor: an increment that returns false leaves the scoped wakelock unlocked. -/
def create (w : SharedWakelock) (threadsRun lock : Bool) (now : ℤ) :
    SharedWakelock × ScopedWakelock :=
  if lock then
    match w.incrementRefCountAndMaybeAcquireWakelock threadsRun 1 now with
    | (w', some timeoutStart) => (w', ⟨true, timeoutStart⟩)
    | (w', none) => (w', ⟨false, 0⟩)
  else (w, ⟨false, 0⟩)

/-- The destructor. -/
def release (wakelock : ScopedWakelock) (w : SharedWakelock) (threadsRun : Bool) :
    SharedWakelock :=
  if wakelock.mLocked then
    w.decrementRefCountAndMaybeReleaseWakelock threadsRun 1 wakelock.mCreatedAtTimeNs
  else w

variable {w : SharedWakelock} {threadsRun lock : Bool} {now : ℤ}

theorem create_unlocked (h : lock = false ∨ threadsRun = false) :
    create w threadsRun lock now = (w, ⟨false, 0⟩) := by
  rcases h with rfl | rfl
  · rfl
  · cases lock <;> rfl

theorem create_locked :
    create w true true now =
      ((w.incrementRefCountAndMaybeAcquireWakelock true 1 now).1, ⟨true, now⟩) := rfl

variable (w threadsRun lock now) in
/-- A new scoped wakelock changes nothing, or counts one reference at the time it keeps. -/
theorem create_cases :
    create w threadsRun lock now = (w, ⟨false, 0⟩) ∨ threadsRun = true ∧ lock = true ∧
      create w threadsRun lock now =
        ((w.incrementRefCountAndMaybeAcquireWakelock true 1 now).1, ⟨true, now⟩) := by
  cases threadsRun with
  | false => exact .inl (create_unlocked (.inr rfl))
  | true =>
    cases lock with
    | false => exact .inl (create_unlocked (.inl rfl))
    | true => exact .inr ⟨rfl, rfl, create_locked⟩

@[simp] theorem create_timeoutResetTime :
    (create w threadsRun lock now).1.mWakelockTimeoutResetTime = w.mWakelockTimeoutResetTime := by
  rcases create_cases w threadsRun lock now with h | ⟨-, -, h⟩ <;> rw [h]
  exact SharedWakelock.increment_timeoutResetTime

@[simp] theorem release_timeoutStartTime (wakelock : ScopedWakelock) :
    (wakelock.release w threadsRun).mWakelockTimeoutStartTime = w.mWakelockTimeoutStartTime := by
  unfold release
  split
  · exact SharedWakelock.decrement_timeoutStartTime
  · rfl

@[simp] theorem release_timeoutResetTime (wakelock : ScopedWakelock) :
    (wakelock.release w threadsRun).mWakelockTimeoutResetTime = w.mWakelockTimeoutResetTime := by
  unfold release
  split
  · exact SharedWakelock.decrement_timeoutResetTime
  · rfl

/-- A scoped wakelock gives back its own reference at most. -/
theorem refCount_le_release (wakelock : ScopedWakelock) :
    w.mWakelockRefCount ≤ (wakelock.release w threadsRun).mWakelockRefCount + 1 := by
  unfold release
  split
  · exact SharedWakelock.refCount_le_decrement
  · exact Nat.le_succ _

theorem refCount_release_le (wakelock : ScopedWakelock) :
    (wakelock.release w threadsRun).mWakelockRefCount ≤ w.mWakelockRefCount := by
  unfold release
  split
  · exact SharedWakelock.refCount_decrement_le
  · exact le_refl _

/-- While the threads run, it gives back one reference, unless it is stale. -/
theorem refCount_release {wakelock : ScopedWakelock} (hlocked : wakelock.mLocked = true)
    (h : w.mWakelockTimeoutResetTime ≤ wakelock.mCreatedAtTimeNs) :
    (wakelock.release w true).mWakelockRefCount = w.mWakelockRefCount - 1 := by
  unfold release
  rw [if_pos hlocked]
  exact SharedWakelock.refCount_decrement (.inr h)

/-- Unlocked or stale, it gives back nothing. -/
theorem release_eq {wakelock : ScopedWakelock}
    (h : wakelock.mLocked = true → 0 ≤ wakelock.mCreatedAtTimeNs ∧
      wakelock.mCreatedAtTimeNs < w.mWakelockTimeoutResetTime) :
    wakelock.release w threadsRun = w := by
  unfold release
  split
  · next hlocked =>
    obtain ⟨hnonneg, hstale⟩ := h hlocked
    exact SharedWakelock.decrement_of_stale (by omega) hstale
  · rfl

/-- Taking a scoped wakelock counts what it acquires. -/
theorem balanced_create (h : w.Balanced) : (create w threadsRun lock now).1.Balanced := by
  rcases create_cases w threadsRun lock now with heq | ⟨-, -, heq⟩
  · rwa [heq]
  · rw [heq]
    exact (SharedWakelock.balanced_increment_iff h).2 fun hempty => absurd hempty.2.2 one_ne_zero

theorem balanced_release (wakelock : ScopedWakelock) (h : w.Balanced) :
    (wakelock.release w threadsRun).Balanced := by
  unfold release
  split
  · exact SharedWakelock.balanced_decrement h
  · exact h

end ScopedWakelock

end RealmeSalaa.MultiHal
