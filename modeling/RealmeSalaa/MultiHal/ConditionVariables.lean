import RealmeSalaa.Lib.ConditionVariable
import RealmeSalaa.MultiHal.PendingWrites
import RealmeSalaa.MultiHal.WakelockBalance

/-!
# Waiting threads

`handlePendingWrites` waits on `mEventQueueWriteCV`, `handleWakelocks` on `mWakelockCV`. In `System`
a thread between two rounds of its loop just goes on when there is something to do. Here it tests,
waits and wakes up step by step, holding its mutex or not, and may wake up for no reason; every other
action is one of `System`, and takes the mutexes that the code takes.

The front of the pending queue is read without a test. That the queue is not empty there
(`guard_of_waitingGuard`) is what makes each of these finer runs a run of `System`
(`reach_of_waiting`).
-/

namespace RealmeSalaa.MultiHal

open HalProxy
open ConditionVariable (Point Consistent)

variable {P : Type} {K : Constants}

/-! ## The two loops -/

/-- The threads that wait. -/
inductive Waiter
  /-- on `mEventQueueWriteCV` -/
  | pendingWrites
  /-- on `mWakelockCV` -/
  | wakelocks
  deriving DecidableEq

/-- The first part of the predicate of the wait. -/
def System.work (s : System P) : Waiter → Bool
  | .pendingWrites => !s.proxy.mPendingWriteEventsQueue.isEmpty
  | .wakelocks => decide (0 < s.proxy.wakelock.mWakelockRefCount)

/-- The thread is in its loop, outside the part of the body that releases the mutex. -/
def System.inLoop (s : System P) : Waiter → Bool
  | .pendingWrites => s.pendingWrites = .locked
  | .wakelocks => s.wakelocks = .locked

/-- An action of another thread that takes the mutex of a waiter. The increments and decrements test
`mThreadsRun` before they take `mWakelockMutex`. -/
def System.takesMutex (K : Constants) (s : System P) : Waiter → Action P → Bool
  | .pendingWrites, .postEventsToMessageQueue .. => true
  | .wakelocks, .createScopedWakelock _ lock _ => lock && s.proxy.mThreadsRun
  | .wakelocks, .postEventsToMessageQueue t _ _ _ =>
    ((s.subHals t).wakelock?.any ScopedWakelock.mLocked) && s.proxy.mThreadsRun
  | .wakelocks, .destroyScopedWakelock t =>
    ((s.subHals t).wakelock?.any ScopedWakelock.mLocked) && s.proxy.mThreadsRun
  | .wakelocks, .writeBlocking ok =>
    match s.pendingWrites with
    | .writing _ eventQueueSize =>
      !ok && (s.proxy.failedWriteDecrement K eventQueueSize).isSome && s.proxy.mThreadsRun
    | _ => false
  | .wakelocks, .mainStep _ =>
    match s.main with
    | .resetSharedWakelock _ => true
    | _ => false
  | _, _ => false

/-- The wakelock is taken by an increment of a count of zero. -/
def System.acquires (s : System P) (locked : Bool) : Bool :=
  locked && s.proxy.mThreadsRun && !s.work .wakelocks

/-- `notify_one` of a post that queues, of an increment that takes the wakelock, or of
`stopThreads`. -/
def System.notifies (K : Constants) (s : System P) : Waiter → Action P → Bool
  | .pendingWrites, .postEventsToMessageQueue t availableToWrite writeOk _ =>
    match s.subHals t with
    | .posting events _ _ _ =>
      s.proxy.Queues K events (s.proxy.numToWrite events availableToWrite writeOk)
    | _ => false
  | .wakelocks, .createScopedWakelock _ lock _ => s.acquires lock
  | .wakelocks, .postEventsToMessageQueue t _ _ _ =>
    s.acquires ((s.subHals t).wakelock?.any ScopedWakelock.mLocked)
  | _, .mainStep _ =>
    match s.main with
    | .wakeThreads _ => true
    | _ => false
  | _, _ => false

/-- The thread is started, or comes back to the test of its loop with the mutex. -/
def System.enters (s : System P) : Waiter → Action P → Option Point
  | .pendingWrites, .finishPendingWrites => some .loopTest
  | .pendingWrites, .mainStep _ =>
    match s.main with
    | .startPendingWritesThread _ _ => some .starting
    | _ => none
  -- after a reset; what is said of a thread that goes on to `readBlocking` has no meaning
  | .wakelocks, .checkTimeout _ _ => some .loopTest
  | .wakelocks, .readBlocking _ => some .loopTest
  | .wakelocks, .mainStep _ =>
    match s.main with
    | .startWakelockThread _ _ => some .starting
    | _ => none
  | _, _ => none

/-! ## The system -/

/-- The multi-HAL with the points at which its two threads are. -/
structure WaitingSystem (P : Type) where
  sys : System P
  point : Waiter → Point

def WaitingSystem.constructed (K : Constants) (P : Type) (subHals : List SubHal) (clock : ℤ) :
    WaitingSystem P :=
  ⟨.constructed K P subHals clock, fun _ => .starting⟩

inductive WaitingAction (P : Type)
  | sys (a : Action P)
  /-- the waiter goes on to its next point -/
  | next (w : Waiter)
  | wakeSpuriously (w : Waiter)

namespace WaitingSystem

variable (s : WaitingSystem P)

def MutexFree (w : Waiter) : Prop := s.sys.inLoop w = true → (s.point w).holdsMutex = false

instance (w : Waiter) : Decidable (s.MutexFree w) := by unfold MutexFree; infer_instance

/-- The value of the predicate of the wait. -/
def ready (w : Waiter) : Bool := s.sys.work w || !s.sys.proxy.mThreadsRun

/-- The waiters take a round of their loop after the second test of `mThreadsRun`, and leave it at
the first; whether there is something to do is not tested again. -/
def guard (K : Constants) : WaitingAction P → Prop
  | .sys .takePendingWrites =>
    s.sys.inLoop .pendingWrites ∧ s.point .pendingWrites = .tested ∧ s.sys.proxy.mThreadsRun
  | .sys .exitPendingWrites =>
    s.sys.inLoop .pendingWrites ∧ s.point .pendingWrites = .loopTest ∧ ¬s.sys.proxy.mThreadsRun
  | .sys (.checkTimeout now now') =>
    s.sys.inLoop .wakelocks ∧ s.point .wakelocks = .tested ∧ s.sys.proxy.mThreadsRun ∧
      s.sys.clock ≤ now ∧ now ≤ now'
  | .sys (.exitWakelocks now) =>
    s.sys.inLoop .wakelocks ∧ s.point .wakelocks = .loopTest ∧ ¬s.sys.proxy.mThreadsRun ∧
      s.sys.clock ≤ now
  | .sys a => s.sys.guard a ∧ ∀ w, s.sys.takesMutex K w a = true → s.MutexFree w
  | .next w => s.sys.inLoop w ∧ (s.point w).waits s.sys.proxy.mThreadsRun
  | .wakeSpuriously w => s.sys.inLoop w ∧ s.point w = .parked

/-- The point of a waiter after an action of the system. -/
def pointAfter (K : Constants) (a : Action P) (w : Waiter) : Point :=
  if s.sys.notifies K w a then (s.point w).notify else (s.sys.enters w a).getD (s.point w)

def next (K : Constants) : WaitingAction P → WaitingSystem P
  | .sys a => ⟨System.next K s.sys a, s.pointAfter K a⟩
  | .next w => { s with point := Function.update s.point w ((s.point w).next (s.ready w)) }
  | .wakeSpuriously w => { s with point := Function.update s.point w .woken }

end WaitingSystem

/-- The multi-HAL with its waiting threads as a transition system. -/
def waitingHal (K : Constants) (P : Type) : GuardedSystem (WaitingSystem P) (WaitingAction P) :=
  ⟨fun s => s.guard K, fun s => s.next K⟩

instance WaitingSystem.decidableSysGuard (K : Constants) (s : WaitingSystem P) (a : Action P) :
    Decidable (s.sys.guard a ∧ ∀ w, s.sys.takesMutex K w a = true → s.MutexFree w) :=
  have : Decidable (s.sys.guard a) := inferInstanceAs (Decidable ((multiHal K P).guard s.sys a))
  decidable_of_iff (s.sys.guard a ∧
      (s.sys.takesMutex K .pendingWrites a = true → s.MutexFree .pendingWrites) ∧
      (s.sys.takesMutex K .wakelocks a = true → s.MutexFree .wakelocks))
    ⟨fun h => ⟨h.1, fun w => Waiter.casesOn w h.2.1 h.2.2⟩, fun h => ⟨h.1, h.2 _, h.2 _⟩⟩

instance (K : Constants) (s : WaitingSystem P) :
    (b : WaitingAction P) → Decidable ((waitingHal K P).guard s b)
  | .sys .takePendingWrites | .sys .exitPendingWrites => inferInstanceAs (Decidable (_ ∧ _ ∧ _))
  | .sys (.checkTimeout _ _) => inferInstanceAs (Decidable (_ ∧ _ ∧ _ ∧ _ ∧ _))
  | .sys (.exitWakelocks _) => inferInstanceAs (Decidable (_ ∧ _ ∧ _ ∧ _))
  | .sys (.createScopedWakelock ..) | .sys (.postEvents ..) | .sys (.postEventsToMessageQueue ..)
  | .sys (.destroyScopedWakelock _) | .sys (.writeBlocking _) | .sys .finishPendingWrites
  | .sys (.readBlocking _) | .sys (.initializeCommon _) | .sys .destroy | .sys (.mainStep _) =>
    WaitingSystem.decidableSysGuard K s _
  | .next _ | .wakeSpuriously _ => inferInstanceAs (Decidable (_ ∧ _))

variable {s : System P} {a : Action P} {w : Waiter}

/-! ## The threads and the other threads -/

/-- The actions of the thread itself. -/
def Action.isOf : Waiter → Action P → Bool
  | .pendingWrites, .takePendingWrites => true
  | .pendingWrites, .writeBlocking _ => true
  | .pendingWrites, .finishPendingWrites => true
  | .pendingWrites, .exitPendingWrites => true
  | .wakelocks, .checkTimeout _ _ => true
  | .wakelocks, .readBlocking _ => true
  | .wakelocks, .exitWakelocks _ => true
  | _, _ => false

theorem wakelocks_next_of_other (K : Constants) (s : System P)
    (ha : a.isOf .wakelocks = false) (hmain : a.isMain = false) :
    (System.next K s a).wakelocks = s.wakelocks := by
  cases a with
  | checkTimeout now now' => cases ha
  | readBlocking r => cases ha
  | exitWakelocks now => cases ha
  | mainStep now => cases hmain
  | postEvents t i events n => cases h : s.subHals t <;> simp only [System.next, h]
  | postEventsToMessageQueue t avail ok now =>
    cases h : s.subHals t with
    | posting events n wakelock began => rw [System.next_post h]; rfl
    | _ => simp only [System.next, h]
  | destroyScopedWakelock t => cases h : (s.subHals t).wakelock? <;> simp only [System.next, h]
  | writeBlocking ok =>
    cases h : s.pendingWrites with
    | writing n q => simp only [System.next, h]; cases ok <;> rfl
    | _ => simp only [System.next, h]
  | finishPendingWrites => cases h : s.pendingWrites <;> simp only [System.next, h]; rfl
  | _ => rfl

theorem pendingWrites_next_of_other (K : Constants) (s : System P)
    (ha : a.isOf .pendingWrites = false) (hmain : a.isMain = false) :
    (System.next K s a).pendingWrites = s.pendingWrites := by
  rcases eventMove_next K s hmain with ⟨hsame, -⟩ | ⟨-, -, hs'⟩ | ⟨rfl, -⟩ | ⟨rfl, -, -⟩ |
    ⟨rfl, -, -, -⟩ | ⟨rfl, -, -⟩ | ⟨rfl, -⟩
  · exact hsame.pendingWrites
  · rw [hs']; rfl
  all_goals cases ha

theorem inLoop_next_of_other (K : Constants) (s : System P) (ha : a.isOf w = false)
    (hmain : a.isMain = false) : (System.next K s a).inLoop w = s.inLoop w := by
  cases w with
  | pendingWrites => simp only [System.inLoop, pendingWrites_next_of_other K s ha hmain]
  | wakelocks => simp only [System.inLoop, wakelocks_next_of_other K s ha hmain]

/-- Another thread of the proxy, or a sub-HAL, does not bring a waiter to a point of its loop. -/
theorem enters_of_other (s : System P) (ha : a.isOf w = false) (hmain : a.isMain = false) :
    s.enters w a = none := by
  cases a with
  | finishPendingWrites => cases w <;> first | rfl | cases ha
  | checkTimeout now now' => cases w <;> first | rfl | cases ha
  | readBlocking r => cases w <;> first | rfl | cases ha
  | mainStep now => cases hmain
  | _ => cases w <;> rfl

theorem pointAfter_of_other (s : WaitingSystem P) (ha : a.isOf w = false)
    (hmain : a.isMain = false) (hnot : s.sys.notifies K w a = false) :
    s.pointAfter K a w = s.point w := by
  unfold WaitingSystem.pointAfter
  rw [hnot, enters_of_other s.sys ha hmain]
  rfl

/-! ## A step of a thread -/

/-- The steps of the pending-writes thread. -/
inductive PendingWritesStep (K : Constants) (s : System P) : Action P → Prop
  | take (hw : s.pendingWrites = .locked) (hrun : s.proxy.mThreadsRun = true) :
    PendingWritesStep K s .takePendingWrites
  | write {ok : Bool} {n q : ℕ} (hw : s.pendingWrites = .writing n q)
      (hw' : (System.next K s (.writeBlocking ok)).pendingWrites = .wrote n q) :
    PendingWritesStep K s (.writeBlocking ok)
  | finish {n q : ℕ} (hw : s.pendingWrites = .wrote n q)
      (hnext : System.next K s .finishPendingWrites = s.finish n q) :
    PendingWritesStep K s .finishPendingWrites
  | exit (hw : s.pendingWrites = .locked) (hrun : s.proxy.mThreadsRun = false) :
    PendingWritesStep K s .exitPendingWrites

/-- The steps of the wakelock thread. -/
inductive WakelocksStep (K : Constants) (s : System P) : Action P → Prop
  | timedOut {now now' : ℤ} (hw : s.wakelocks = .locked) (hrun : s.proxy.mThreadsRun = true)
      (hcount : 0 < s.proxy.wakelock.mWakelockRefCount)
      (hnext : System.next K s (.checkTimeout now now') = s.reset now') :
    WakelocksStep K s (.checkTimeout now now')
  | wait {now now' timeLeft : ℤ} (hw : s.wakelocks = .locked) (hrun : s.proxy.mThreadsRun = true)
      (hnow : s.clock ≤ now)
      (htime : s.proxy.wakelock.sharedWakelockDidTimeout K.kWakelockTimeoutNs now = some timeLeft)
      (hw' : (System.next K s (.checkTimeout now now')).wakelocks = .reading timeLeft) :
    WakelocksStep K s (.checkTimeout now now')
  | read {timeLeft : ℤ} {r : Option ℕ} (hw : s.wakelocks = .reading timeLeft)
      (hw' : (System.next K s (.readBlocking r)).wakelocks = .locked) :
    WakelocksStep K s (.readBlocking r)
  | exit {now : ℤ} (hw : s.wakelocks = .locked) (hrun : s.proxy.mThreadsRun = false) :
    WakelocksStep K s (.exitWakelocks now)

theorem pendingWritesStep (K : Constants) (hg : s.guard a) (hown : a.isOf .pendingWrites = true) :
    PendingWritesStep K s a := by
  cases a with
  | takePendingWrites => exact .take hg.1 hg.2.1
  | writeBlocking ok =>
    cases hw : s.pendingWrites with
    | writing n q =>
      refine .write hw ?_
      simp only [System.next, hw]
      cases ok <;> rfl
    | _ => simp [System.guard, hw] at hg
  | finishPendingWrites =>
    cases hw : s.pendingWrites with
    | wrote n q => exact .finish hw (by simp only [System.next, hw])
    | _ => simp [System.guard, hw] at hg
  | exitPendingWrites => exact .exit hg.1 (Bool.eq_false_iff.2 hg.2)
  | _ => cases hown

theorem wakelocksStep (K : Constants) (hg : s.guard a) (hown : a.isOf .wakelocks = true) :
    WakelocksStep K s a := by
  cases a with
  | checkTimeout now now' =>
    obtain ⟨hw, hrun, hcount, hnow, -⟩ := hg
    cases htime : s.proxy.wakelock.sharedWakelockDidTimeout K.kWakelockTimeoutNs now with
    | none => exact .timedOut hw hrun hcount (by simp only [System.next, htime])
    | some timeLeft => exact .wait hw hrun hnow htime (by simp only [System.next, htime])
  | readBlocking r =>
    cases hw : s.wakelocks with
    | reading timeLeft => exact .read hw (by cases r <;> rfl)
    | _ => simp [System.guard, hw, WakelockThread.isReading] at hg
  | exitWakelocks now => exact .exit hg.1 (Bool.eq_false_iff.2 hg.2.1)
  | _ => cases hown

/-! ## Each thread is joined before it is started again -/

/-- After the join of the wakelock thread, before it is started again. -/
def MainThread.isWakelockJoined : MainThread → Bool
  | .joinWakelockThread _ => false
  | .startWakelockThread _ _ => true
  | m => m.isJoined

/-- The threads are joined before `mThreadsRun` is set again. -/
structure Joined (s : System P) : Prop where
  writes : WritesQueued s
  wakelocks : s.main.isWakelockJoined = true → s.wakelocks = .notRunning

theorem wakelocks_mainNext_cases (s : System P) (now : ℤ) :
    (s.mainNext now).wakelocks = s.wakelocks ∧
        ((s.mainNext now).main.isWakelockJoined = true →
          s.main.isWakelockJoined = true ∨ ∃ caller, s.main = .joinWakelockThread caller) ∨
      (s.mainNext now).wakelocks = .locked ∧ (s.mainNext now).main.isWakelockJoined = false := by
  unfold System.mainNext
  cases hm : s.main with
  | joinWakelockThread caller => cases caller <;> exact .inl ⟨rfl, fun _ => .inr ⟨_, rfl⟩⟩
  | startWakelockThread args result => exact .inr ⟨rfl, rfl⟩
  | initializeSubHal i args result =>
    dsimp only
    split <;> exact .inl ⟨rfl, fun h => absurd h Bool.false_ne_true⟩
  | returned result => exact .inl ⟨rfl, fun h => .inl (by rw [hm] at h; exact h)⟩
  | idle => exact .inl ⟨rfl, fun h => .inl (by rw [hm] at h; exact h)⟩
  | _ => first
    | exact .inl ⟨rfl, fun _ => .inl rfl⟩
    | exact .inl ⟨rfl, fun h => absurd h Bool.false_ne_true⟩

theorem wakelocks_notRunning_next (hw : s.wakelocks = .notRunning) (hg : s.guard a)
    (hmain : a.isMain = false) : (System.next K s a).wakelocks = .notRunning := by
  cases ha : a.isOf .wakelocks with
  | false => rw [wakelocks_next_of_other K s ha hmain, hw]
  | true =>
    cases a with
    | checkTimeout now now' => cases hw.symm.trans hg.1
    | readBlocking r =>
      have hreading : s.wakelocks.isReading = true := hg
      rw [hw] at hreading
      cases hreading
    | exitWakelocks now => rfl
    | _ => cases ha

theorem joined_next (hs : Joined s) (hg : s.guard a) : Joined (System.next K s a) := by
  refine ⟨writesQueued_next hs.writes hg, fun hj => ?_⟩
  cases hmain : a.isMain with
  | false =>
    rw [(sameRound_next K s hmain).main] at hj
    exact wakelocks_notRunning_next (hs.wakelocks hj) hg hmain
  | true =>
    rcases main_next K s hmain with ⟨caller, hnext, -⟩ | ⟨now, rfl⟩
    · rw [hnext] at hj
      exact absurd hj Bool.false_ne_true
    · show (s.mainNext now).wakelocks = _
      rcases wakelocks_mainNext_cases s now with ⟨hsame, hfrom⟩ | ⟨-, hnot⟩
      · rw [hsame]
        rcases hfrom hj with hj' | ⟨caller, hm⟩
        · exact hs.wakelocks hj'
        · have hready := hg.1
          rw [hm] at hready
          exact hready
      · exact absurd (hj.symm.trans hnot) Bool.noConfusion

theorem joined_constructed (K : Constants) (P : Type) (subHals : List SubHal) (clock : ℤ) :
    Joined (System.constructed K P subHals clock) :=
  ⟨⟨fun _ _ hchunk => (by cases hchunk), fun _ => rfl⟩, fun _ => rfl⟩

/-! ## What an action does to a waiter -/

/-- What an action of `System` does to a waiter. -/
inductive WaiterMove (K : Constants) (s : System P) (a : Action P) (w : Waiter) : Prop
  /-- it leaves the loop, or is not in it -/
  | outside (h : (System.next K s a).inLoop w = false)
  | entered (p : Point) (henters : s.enters w a = some p) (hp : p = .starting ∨ p = .loopTest)
      (hnotifies : s.notifies K w a = false)
  /-- under its mutex, what gives it work notifies it -/
  | locked (htakes : s.takesMutex K w a = true) (henters : s.enters w a = none)
      (hin : (System.next K s a).inLoop w = s.inLoop w)
      (hwork : s.notifies K w a = false → (System.next K s a).work w = true → s.work w = true)
      (hrun : (System.next K s a).proxy.mThreadsRun = s.proxy.mThreadsRun)
  /-- without its mutex, at most `mThreadsRun` is cleared -/
  | unlocked (henters : s.enters w a = none) (hin : (System.next K s a).inLoop w = s.inLoop w)
      (hwork : (System.next K s a).work w = s.work w)
      (hrun : (System.next K s a).proxy.mThreadsRun = s.proxy.mThreadsRun ∨
        (System.next K s a).proxy.mThreadsRun = false)

/-- What is not notified is not queued. -/
theorem mPendingWriteEventsQueue_next_of_other (K : Constants) {s : System P} {a : Action P}
    (ha : a.isOf .pendingWrites = false) (hmain : a.isMain = false)
    (hnot : s.notifies K .pendingWrites a = false) :
    (System.next K s a).proxy.mPendingWriteEventsQueue = s.proxy.mPendingWriteEventsQueue := by
  rcases eventMove_next K s hmain with ⟨hsame, -⟩ | @⟨t, events, n, wakelock, began, avail, ok,
    now, rfl, hpost, hs'⟩ | ⟨rfl, -⟩ | ⟨rfl, -, -⟩ | ⟨rfl, -, -, -⟩ | ⟨rfl, -, -⟩ | ⟨rfl, -⟩
  · exact hsame.mPendingWriteEventsQueue
  · have hq : ¬s.proxy.Queues K events (s.proxy.numToWrite events avail ok) := by
      simpa [System.notifies, hpost] using hnot
    rw [hs']
    refine (mPendingWriteEventsQueue_postEventsToMessageQueue ..).trans ?_
    simp only [if_neg hq]
  all_goals cases ha

theorem waiterMove_pendingWrites (K : Constants) {s : System P} {a : Action P} (hg : s.guard a)
    (hmain : a.isMain = false) : WaiterMove K s a .pendingWrites := by
  have hrun := (sameRound_next K s hmain).mThreadsRun
  cases ha : a.isOf .pendingWrites with
  | true =>
    cases pendingWritesStep K hg ha with
    | take hw hrun => exact .outside rfl
    | write hw hw' => exact .outside (by simp [System.inLoop, hw'])
    | finish hw hnext => exact .entered .loopTest rfl (.inr rfl) rfl
    | exit hw hrun => exact .outside rfl
  | false =>
    have hin := inLoop_next_of_other K s ha hmain
    have hwork : s.notifies K .pendingWrites a = false →
        (System.next K s a).work .pendingWrites = s.work .pendingWrites := fun hnot => by
      simp only [System.work, mPendingWriteEventsQueue_next_of_other K ha hmain hnot]
    cases a with
    | postEventsToMessageQueue t avail ok now =>
      exact .locked rfl rfl hin (fun hnot h => (hwork hnot).symm.trans h) hrun
    | finishPendingWrites => cases ha
    | mainStep now => cases hmain
    | _ => exact .unlocked rfl hin (hwork rfl) (.inl hrun)

/-- A decrement leaves nothing counted where nothing was. -/
theorem SharedWakelock.pos_of_decrement {v : SharedWakelock} {threadsRun : Bool} {delta : ℕ}
    {timeoutStart : ℤ}
    (h : 0 < (v.decrementRefCountAndMaybeReleaseWakelock threadsRun delta
      timeoutStart).mWakelockRefCount) : 0 < v.mWakelockRefCount := by
  rcases v.decrement_cases threadsRun delta timeoutStart with heq | ⟨hpos, -⟩
  · rwa [heq] at h
  · exact hpos

/-- An action that neither takes the mutex nor changes the shared wakelock, or that takes it and
only gives references back. -/
theorem work_of_less {s s' : System P} {takes notifies : Bool}
    (hsame : takes = false → s'.proxy.wakelock = s.proxy.wakelock)
    (hless : 0 < s'.proxy.wakelock.mWakelockRefCount → 0 < s.proxy.wakelock.mWakelockRefCount) :
    (takes = false → s'.work .wakelocks = s.work .wakelocks) ∧
      (notifies = false → s'.work .wakelocks = true → s.work .wakelocks = true) :=
  ⟨fun h => by simp only [System.work, hsame h],
    fun _ h => decide_eq_true (hless (of_decide_eq_true h))⟩

/-- An increment takes the mutex and notifies, unless the count is not zero or it does nothing. -/
theorem work_of_increment {s s' : System P} {locked takes : Bool}
    (hsame : (locked && s.proxy.mThreadsRun) = false → s'.proxy.wakelock = s.proxy.wakelock)
    (htakes : takes = (locked && s.proxy.mThreadsRun)) :
    (takes = false → s'.work .wakelocks = s.work .wakelocks) ∧
      (s.acquires locked = false → s'.work .wakelocks = true → s.work .wakelocks = true) := by
  rw [htakes]
  refine ⟨fun h => by simp only [System.work, hsame h], fun hnot hwork => ?_⟩
  by_cases h : (locked && s.proxy.mThreadsRun) = true
  · simpa [System.acquires, h] using hnot
  · rwa [System.work, hsame (Bool.eq_false_iff.2 h)] at hwork

/-- Without its mutex the count stays; under it, only what notifies makes it positive. -/
theorem work_wakelocks_next (K : Constants) {s : System P} {a : Action P} (hg : s.guard a)
    (hmain : a.isMain = false) (ha : a.isOf .wakelocks = false) :
    (s.takesMutex K .wakelocks a = false →
      (System.next K s a).work .wakelocks = s.work .wakelocks) ∧
    (s.notifies K .wakelocks a = false → (System.next K s a).work .wakelocks = true →
      s.work .wakelocks = true) := by
  have hstay : (System.next K s a).proxy.wakelock = s.proxy.wakelock →
      (s.takesMutex K .wakelocks a = false →
        (System.next K s a).work .wakelocks = s.work .wakelocks) ∧
      (s.notifies K .wakelocks a = false → (System.next K s a).work .wakelocks = true →
        s.work .wakelocks = true) :=
    fun h => work_of_less (fun _ => h) fun hpos => by rwa [h] at hpos
  cases a with
  | createScopedWakelock t lock now =>
    refine work_of_increment (fun h => ?_) rfl
    exact congrArg Prod.fst (ScopedWakelock.create_unlocked (Bool.and_eq_false_iff.1 h))
  | postEventsToMessageQueue t avail ok now =>
    cases hpost : s.subHals t with
    | posting events n wakelock began =>
      have hlocked : (s.subHals t).wakelock?.any ScopedWakelock.mLocked = wakelock.mLocked := by
        rw [hpost]; rfl
      refine work_of_increment (fun h => ?_) rfl
      rw [hlocked] at h
      rw [System.next_post hpost]
      refine (wakelock_postEventsToMessageQueue ..).trans ?_
      split
      · next hw =>
        rw [hw, Bool.true_and] at h
        rw [h, SharedWakelock.increment_stopped]
      · rfl
    | _ => simp [System.guard, hpost, SubHalThread.isPosting] at hg
  | destroyScopedWakelock t =>
    cases hwl : (s.subHals t).wakelock? with
    | none => exact hstay (by simp only [System.next, hwl])
    | some wakelock =>
      have hnext : (System.next K s (.destroyScopedWakelock t)).proxy.wakelock =
          wakelock.release s.proxy.wakelock s.proxy.mThreadsRun := by
        simp only [System.next, hwl]
      refine work_of_less (fun h => ?_) fun hpos => ?_
      · have hnot : (wakelock.mLocked && s.proxy.mThreadsRun) = false := by
          simpa [System.takesMutex, hwl] using h
        rw [hnext]
        unfold ScopedWakelock.release
        split
        · next hl =>
          rw [hl, Bool.true_and] at hnot
          rw [hnot, SharedWakelock.decrement_stopped]
        · rfl
      · rw [hnext] at hpos
        unfold ScopedWakelock.release at hpos
        split at hpos
        · exact SharedWakelock.pos_of_decrement hpos
        · exact hpos
  | writeBlocking ok =>
    cases hw : s.pendingWrites with
    | writing n q =>
      cases ok with
      | true => exact hstay (by simp only [System.next, hw]; rfl)
      | false =>
        have hnext : (System.next K s (.writeBlocking false)).proxy.wakelock =
            (s.proxy.dropPendingWrites K q).wakelock := by simp only [System.next, hw]; rfl
        have htakes : s.takesMutex K .wakelocks (.writeBlocking false) =
            ((s.proxy.failedWriteDecrement K q).isSome && s.proxy.mThreadsRun) := by
          simp [System.takesMutex, hw]
        rw [htakes]
        unfold HalProxy.dropPendingWrites at hnext
        cases hf : s.proxy.failedWriteDecrement K q with
        | none => exact work_of_less (fun _ => by rw [hnext, hf]) fun h => by rwa [hnext, hf] at h
        | some dropped =>
          rw [hf] at hnext
          refine work_of_less (fun h => ?_) fun hpos => ?_
          · rw [Option.isSome_some, Bool.true_and] at h
            rw [hnext]
            dsimp only
            rw [h, SharedWakelock.decrement_stopped]
          · rw [hnext] at hpos
            exact SharedWakelock.pos_of_decrement hpos
    | _ => exact hstay (by simp only [System.next, hw])
  | postEvents t i events n =>
    exact hstay (by cases h : s.subHals t <;> simp only [System.next, h])
  | finishPendingWrites =>
    exact hstay (by cases h : s.pendingWrites <;> simp only [System.next, h]; rfl)
  | checkTimeout now now' => cases ha
  | readBlocking r => cases ha
  | exitWakelocks now => cases ha
  | mainStep now => cases hmain
  | _ => exact hstay rfl

theorem waiterMove_wakelocks (K : Constants) {s : System P} {a : Action P} (hg : s.guard a)
    (hmain : a.isMain = false) : WaiterMove K s a .wakelocks := by
  have hrun := (sameRound_next K s hmain).mThreadsRun
  cases ha : a.isOf .wakelocks with
  | true =>
    cases a with
    | checkTimeout now now' => exact .entered .loopTest rfl (.inr rfl) rfl
    | readBlocking r => exact .entered .loopTest rfl (.inr rfl) rfl
    | exitWakelocks now => exact .outside rfl
    | _ => cases ha
  | false =>
    obtain ⟨hsame, hless⟩ := work_wakelocks_next K hg hmain ha
    have hin := inLoop_next_of_other K s ha hmain
    have henters := enters_of_other s ha hmain
    cases htakes : s.takesMutex K .wakelocks a with
    | true => exact .locked htakes henters hin hless hrun
    | false => exact .unlocked henters hin (hsame htakes) (.inl hrun)

/-- The statements of the binder thread between the joins and the starts find no waiter. -/
theorem inLoop_of_joined (hs : Joined s) (hwrites : s.main.isJoined = true)
    (hwakelocks : s.main.isWakelockJoined = true) (w : Waiter) : s.inLoop w = false := by
  cases w
  · simp [System.inLoop, hs.writes.joined hwrites]
  · simp [System.inLoop, hs.wakelocks hwakelocks]

theorem waiterMove_mainStep (K : Constants) {s : System P} {now : ℤ} (hs : Joined s) (w : Waiter) :
    WaiterMove K s (.mainStep now) w := by
  cases hm : s.main with
  | storeStopped caller =>
    refine .unlocked ?_ ?_ ?_ (.inr ?_) <;> cases w <;>
      simp [System.enters, System.next, System.mainNext, System.inLoop, System.work, hm]
  | clearPendingWriteEventsQueue args =>
    have hout := inLoop_of_joined hs (by rw [hm]; rfl) (by rw [hm]; rfl) w
    refine .outside (Eq.trans ?_ hout)
    cases w <;> simp [System.next, System.mainNext, System.inLoop, hm]
  | storeRunning args result =>
    have hout := inLoop_of_joined hs (by rw [hm]; rfl) (by rw [hm]; rfl) w
    refine .outside (Eq.trans ?_ hout)
    cases w <;> simp [System.next, System.mainNext, System.inLoop, hm]
  | resetSharedWakelock args =>
    cases w with
    | pendingWrites =>
      refine .unlocked ?_ ?_ ?_ (.inl ?_) <;>
        simp [System.enters, System.next, System.mainNext, System.reset, System.inLoop,
          System.work, hm]
    | wakelocks =>
      refine .locked ?_ ?_ ?_ (fun _ hwork => ?_) ?_
      · simp [System.takesMutex, hm]
      · simp [System.enters, hm]
      · simp [System.next, System.mainNext, System.reset, System.inLoop, hm]
      · have hpos := of_decide_eq_true hwork
        simp only [System.next, System.mainNext, System.reset, hm] at hpos
        exact decide_eq_true (SharedWakelock.pos_of_decrement hpos)
      · simp [System.next, System.mainNext, System.reset, hm]
  | startPendingWritesThread args result =>
    cases w with
    | pendingWrites =>
      refine .entered .starting ?_ (.inl rfl) ?_ <;> simp [System.enters, System.notifies, hm]
    | wakelocks =>
      refine .unlocked ?_ ?_ ?_ (.inl ?_) <;>
        simp [System.enters, System.next, System.mainNext, System.inLoop, System.work, hm]
  | startWakelockThread args result =>
    cases w with
    | wakelocks =>
      refine .entered .starting ?_ (.inl rfl) ?_ <;> simp [System.enters, System.notifies, hm]
    | pendingWrites =>
      refine .unlocked ?_ ?_ ?_ (.inl ?_) <;>
        simp [System.enters, System.next, System.mainNext, System.inLoop, System.work, hm]
  | joinWakelockThread caller =>
    refine .unlocked ?_ ?_ ?_ (.inl ?_) <;> cases w <;> cases caller <;>
      simp [System.enters, System.next, System.mainNext, System.inLoop, System.work, hm]
  | initializeSubHal i args result =>
    refine .unlocked ?_ ?_ ?_ (.inl ?_) <;> cases w <;>
      simp only [System.enters, System.next, System.mainNext, System.inLoop, System.work, hm] <;>
      split <;> rfl
  | _ =>
    refine .unlocked ?_ ?_ ?_ (.inl ?_) <;> cases w <;>
      simp [System.enters, System.next, System.mainNext, System.inLoop, System.work, hm]

theorem waiterMove_next (K : Constants) {s : System P} {a : Action P} (hs : Joined s)
    (hg : s.guard a) (w : Waiter) : WaiterMove K s a w := by
  cases hmain : a.isMain with
  | false =>
    cases w with
    | pendingWrites => exact waiterMove_pendingWrites K hg hmain
    | wakelocks => exact waiterMove_wakelocks K hg hmain
  | true =>
    cases a with
    | initializeCommon args => exact .unlocked (by cases w <;> rfl) rfl rfl (.inl rfl)
    | destroy => exact .unlocked (by cases w <;> rfl) rfl rfl (.inl rfl)
    | mainStep now => exact waiterMove_mainStep K hs w
    | _ => cases hmain

/-! ## What the waiters know -/

/-- Each waiter knows what its point says. -/
structure Knows (s : WaitingSystem P) : Prop where
  joined : Joined s.sys
  consistent : ∀ w, s.sys.inLoop w = true →
    Consistent (s.sys.work w) s.sys.proxy.mThreadsRun (s.point w)

section Knows

variable {s : WaitingSystem P} {b : WaitingAction P}

/-- The round is taken only when there is something to do: the front of the pending queue exists,
and a timeout is tested for only while something is counted. -/
theorem guard_of_waitingGuard (hs : Knows s) {a : Action P} (hg : s.guard K (.sys a)) :
    s.sys.guard a := by
  have hwork : ∀ w, s.sys.inLoop w = true → s.point w = .tested →
      s.sys.proxy.mThreadsRun = true → s.sys.work w = true := by
    intro w hin htested hrun
    rcases (hs.consistent w hin).tested htested with h | h
    · exact h
    · exact absurd (hrun.symm.trans h) Bool.noConfusion
  cases a with
  | takePendingWrites =>
    obtain ⟨hin, htested, hrun⟩ := hg
    have hqueue := hwork _ hin htested hrun
    exact ⟨of_decide_eq_true hin, hrun, by simpa [System.work] using hqueue⟩
  | checkTimeout now now' =>
    obtain ⟨hin, htested, hrun, hnow⟩ := hg
    exact ⟨of_decide_eq_true hin, hrun, of_decide_eq_true (hwork _ hin htested hrun), hnow⟩
  | exitPendingWrites => exact ⟨of_decide_eq_true hg.1, hg.2.2⟩
  | exitWakelocks now => exact ⟨of_decide_eq_true hg.1, hg.2.2⟩
  | _ => exact hg.1

/-- An action that takes a mutex finds it free. -/
theorem mutexFree_of_guard {a : Action P} (hg : s.guard K (.sys a))
    (htakes : s.sys.takesMutex K w a = true) : s.MutexFree w := by
  cases a with
  | takePendingWrites => cases w <;> cases htakes
  | checkTimeout now now' => cases w <;> cases htakes
  | exitPendingWrites => cases w <;> cases htakes
  | exitWakelocks now => cases w <;> cases htakes
  | _ => exact hg.2 w htakes

theorem consistent_next (hs : Knows s) {a : Action P} (hg : s.guard K (.sys a)) (w : Waiter)
    (hin : (System.next K s.sys a).inLoop w = true) :
    Consistent ((System.next K s.sys a).work w) (System.next K s.sys a).proxy.mThreadsRun
      (s.pointAfter K a w) := by
  have hguard := guard_of_waitingGuard hs hg
  unfold WaitingSystem.pointAfter
  rcases waiterMove_next K hs.joined hguard w with hout | ⟨p, henters, hp, hnot⟩ |
    ⟨htakes, henters, hsame, hwork, hrun⟩ | ⟨henters, hsame, hwork, hrun⟩
  · exact absurd (hin.symm.trans hout) Bool.noConfusion
  · rw [hnot, henters]
    rcases hp with rfl | rfl
    · exact .starting
    · exact .loopTest
  · rw [hsame] at hin
    have hfree := mutexFree_of_guard hg htakes hin
    cases hnotifies : s.sys.notifies K w a with
    | true => exact .notify hfree
    | false =>
      rw [henters]
      exact (hs.consistent w hin).less hfree (hwork hnotifies)
  · rw [hsame] at hin
    have hold := hs.consistent w hin
    rw [hwork, henters]
    rcases hrun with hrun | hrun <;> rw [hrun]
    · split
      · exact hold.notify_any
      · exact hold
    · split
      · exact hold.stop.notify_any
      · exact hold.stop

theorem knows_next (hs : Knows s) (hg : s.guard K b) : Knows (s.next K b) := by
  cases b with
  | sys a => exact ⟨joined_next hs.joined (guard_of_waitingGuard hs hg), consistent_next hs hg⟩
  | next v =>
    refine ⟨hs.joined, fun w hin => ?_⟩
    show Consistent _ _ (Function.update s.point v _ w)
    by_cases h : w = v
    · rw [h, Function.update_self]
      rw [h] at hin
      exact (hs.consistent v hin).next
    · rw [Function.update_of_ne h]
      exact hs.consistent w hin
  | wakeSpuriously v =>
    refine ⟨hs.joined, fun w hin => ?_⟩
    show Consistent _ _ (Function.update s.point v _ w)
    by_cases h : w = v
    · rw [h, Function.update_self]
      exact .woken
    · rw [Function.update_of_ne h]
      exact hs.consistent w hin

theorem knows_constructed (K : Constants) (P : Type) (subHals : List SubHal) (clock : ℤ) :
    Knows (WaitingSystem.constructed K P subHals clock) :=
  ⟨joined_constructed K P subHals clock, fun w hin => by cases w <;> cases hin⟩

theorem knows_of_reach {R : WaitingSystem P → WaitingAction P → Prop} {subHals : List SubHal}
    {clock : ℤ} (h : (waitingHal K P).Reach R (.constructed K P subHals clock) s) : Knows s :=
  h.invariant (knows_constructed K P subHals clock) fun _ _ hs hg _ => knows_next hs hg

/-- A run with waiting threads is a run of the multi-HAL. -/
theorem reach_of_waiting {R : WaitingSystem P → WaitingAction P → Prop} {subHals : List SubHal}
    {clock : ℤ} (h : (waitingHal K P).Reach R (.constructed K P subHals clock) s) :
    (multiHal K P).Reach (fun _ _ => True) (.constructed K P subHals clock) s.sys := by
  refine GuardedSystem.Reach.simulate WaitingSystem.sys (fun _ => knows_of_reach) ?_ h
  intro s b hs hg _
  cases b with
  | sys a => exact .step .refl (guard_of_waitingGuard hs hg) trivial
  | next v => exact .refl
  | wakeSpuriously v => exact .refl

/-- **No lost wake-up.** In every run with waiting threads, the mutexes and spurious wake-ups
included: a thread that has something to do is not asleep, nor about to be; and the run is one of
the multi-HAL in which each round of a thread has something to do. -/
theorem awake_of_work {R : WaitingSystem P → WaitingAction P → Prop} {subHals : List SubHal}
    {clock : ℤ} (h : (waitingHal K P).Reach R (.constructed K P subHals clock) s) :
    (∀ w, s.sys.inLoop w = true → s.sys.work w = true → (s.point w).isAsleep = false) ∧
      (multiHal K P).Reach (fun _ _ => True) (.constructed K P subHals clock) s.sys ∧
      ∀ a, s.guard K (.sys a) → s.sys.guard a := by
  have hs := knows_of_reach h
  refine ⟨fun w hin hwork => ?_, reach_of_waiting h, fun a => guard_of_waitingGuard hs⟩
  cases hasleep : (s.point w).isAsleep with
  | false => rfl
  | true => exact absurd (hwork.symm.trans ((hs.consistent w hin).asleep hasleep)) Bool.noConfusion

end Knows

/-! ## Concrete runs -/

/-- The constructed multi-HAL over `sampleSubHals`. -/
def waitingSample : WaitingSystem ℕ := .constructed sampleConstants ℕ sampleSubHals 0

/-- After the first initialization the pending-writes thread goes to sleep. -/
def sleepRun : List (WaitingAction ℕ) :=
  (initializeRun 4).map .sys ++ List.replicate 4 (.next .pendingWrites)

/-- Two events find no room in the FMQ. -/
def queueBatch : List (WaitingAction ℕ) :=
  [.sys (.createScopedWakelock 0 true 1),
    .sys (.postEvents 0 0 [⟨1, .other 1, 0, 7⟩, ⟨2, .LIGHT, 0, 8⟩] 1),
    .sys (.postEventsToMessageQueue 0 0 true 2)]

/-- The pending-writes thread was woken to write them. -/
def waitingQueued : WaitingSystem ℕ :=
  (waitingHal sampleConstants ℕ).exec waitingSample (sleepRun ++ queueBatch)

theorem awake_of_work_sample :
    (∀ w, waitingQueued.sys.inLoop w = true → waitingQueued.sys.work w = true →
      (waitingQueued.point w).isAsleep = false) ∧
    (multiHal sampleConstants ℕ).Reach (fun _ _ => True) sample waitingQueued.sys ∧
    ∀ a, waitingQueued.guard sampleConstants (.sys a) → waitingQueued.sys.guard a :=
  awake_of_work (R := fun _ _ => True) (GuardedSystem.reach_exec (by decide))

end RealmeSalaa.MultiHal
