import RealmeSalaa.Lib.UnlockedTest
import RealmeSalaa.MultiHal.Draining

/-!
# The tests of `mThreadsRun`

`incrementRefCountAndMaybeAcquireWakelock` and `decrementRefCountAndMaybeReleaseWakelock` test
`mThreadsRun` before they take `mWakelockMutex`, and `stopThreads` clears it without a mutex. In
`testingHal` the test and the section are steps of their own: for the scoped wakelocks, the increment
of a post, which comes under `mEventQueueWriteMutex`, the decrement of a failed write, and that of
acknowledged events, which comes with `mWakelockMutex` held already. Before a timeout the wakelock
thread tests once, and the reset tests again.

The resets of `initializeCommon` and at the end of `handleWakelocks` follow a statement of the same
thread that left or found `mThreadsRun` cleared, and it is set again only after that thread is joined.
-/

namespace RealmeSalaa.MultiHal

open HalProxy GuardedSystem
open ConditionVariable (Point)

variable {P : Type} {K : Constants}

/-! ## The threads and their tests -/

/-- The threads that test `mThreadsRun` some time before they act on it. -/
inductive Tester
  | subHal (t : ℕ)
  | pendingWrites
  | wakelocks
  deriving DecidableEq

/-- The action is one of sub-HAL thread `t`. -/
def Action.isOfSubHal (t : ℕ) : Action P → Bool
  | .createScopedWakelock t' _ _ => t' = t
  | .postEvents t' _ _ _ => t' = t
  | .postEventsToMessageQueue t' _ _ _ => t' = t
  | .destroyScopedWakelock t' => t' = t
  | _ => false

/-- The action may increment the count of the shared wakelock. -/
def Action.increments : Action P → Bool
  | .createScopedWakelock .. => true
  | .postEventsToMessageQueue .. => true
  | _ => false

namespace Tester

def isOf : Tester → WaitingAction P → Bool
  | .subHal t, .sys a => a.isOfSubHal t
  | .subHal _, _ => false
  | .pendingWrites, b => b.isOf .pendingWrites
  | .wakelocks, b => b.isOf .wakelocks

/-- A locked scoped wakelock is created, posted with or destroyed, a write has failed, events are
acknowledged, or the wakelock thread looks for a timeout. -/
def begins : WaitingAction P → Bool
  | .sys (.createScopedWakelock _ lock _) => lock
  | .sys (.postEventsToMessageQueue ..) => true
  | .sys (.destroyScopedWakelock _) => true
  | .sys (.writeBlocking ok) => !ok
  | .sys (.checkTimeout _ _) => true
  | .sys (.readBlocking r) => r.isSome
  | _ => false

/-- The reset after a timeout. -/
def again : WaitingAction P → Bool
  | .sys (.checkTimeout _ _) => true
  | _ => false

/-- A post takes `mEventQueueWriteMutex` before its increment, and needs a locked scoped wakelock for
it; so does a destructor for its decrement. -/
def atTest (K : Constants) (s : WaitingSystem P) : Tester → Bool
  | .subHal t =>
    match s.sys.subHals t with
    | .idle => true
    | .holding wakelock => wakelock.mLocked
    | .posting _ _ wakelock _ => wakelock.mLocked && s.MutexFree .pendingWrites
    | .leaving wakelock => wakelock.mLocked
  | .pendingWrites =>
    match s.sys.pendingWrites with
    | .writing _ eventQueueSize => (s.sys.proxy.failedWriteDecrement K eventQueueSize).isSome
    | _ => false
  | .wakelocks => s.sys.wakelocks.isReading || s.sys.inLoop .wakelocks && s.point .wakelocks = .tested

/-- The step takes `mEventQueueWriteMutex`. -/
def locksWrites (K : Constants) (s : WaitingSystem P) :
    TestingAction Tester (WaitingAction P) → Bool
  | .test (.subHal t) => (s.sys.subHals t).isPosting
  | .act (.sys .finishPendingWrites) => true
  | .act (.sys a) => s.sys.takesMutex K .pendingWrites a
  | .act (.next .pendingWrites) => !(s.point .pendingWrites).holdsMutex
  | _ => false

/-- A post past its test holds `mEventQueueWriteMutex`, and the wakelock thread `mWakelockMutex` after
`readBlocking`. That it holds it before a timeout is part of `WaitingSystem.guard`. -/
def blocks (K : Constants) (s : WaitingSystem P) :
    Tester → TestingAction Tester (WaitingAction P) → Bool
  | .subHal t, b => (s.sys.subHals t).isPosting && locksWrites K s b
  | .wakelocks, .act (.sys a) => s.sys.wakelocks.isReading && s.sys.takesMutex K .wakelocks a
  | _, _ => false

end Tester

def WaitingSystem.setThreadsRun (threadsRun : Bool) (s : WaitingSystem P) : WaitingSystem P :=
  { s with sys := { s.sys with proxy := { s.sys.proxy with mThreadsRun := threadsRun } } }

theorem Tester.isMain_of_isOf {i : Tester} {a : Action P}
    (h : i.isOf (.sys a) = true) : a.isMain = false := by
  cases a with
  | initializeCommon args => cases i <;> cases h
  | destroy => cases i <;> cases h
  | mainStep now => cases i <;> cases h
  | _ => rfl

/-- The tests of `mThreadsRun` as steps of their own. -/
def threadsRunTest (K : Constants) (P : Type) : UnlockedTest (waitingHal K P) Tester where
  flag s := s.sys.proxy.mThreadsRun
  setFlag := WaitingSystem.setThreadsRun
  isOf := Tester.isOf
  begins := Tester.begins
  again := Tester.again
  atTest := Tester.atTest K
  blocks := Tester.blocks K
  setFlag_flag _ := rfl
  flag_next s i b h := by
    cases b with
    | sys a => exact (sameRound_next K s.sys (Tester.isMain_of_isOf h)).mThreadsRun
    | _ => rfl

/-- The multi-HAL with its waiting threads and their tests of `mThreadsRun`. -/
def testingHal (K : Constants) (P : Type) :
    GuardedSystem (TestingState (WaitingSystem P) Tester) (TestingAction Tester (WaitingAction P)) :=
  (threadsRunTest K P).system

instance (K : Constants) (x : TestingState (WaitingSystem P) Tester)
    (b : TestingAction Tester (WaitingAction P)) : Decidable ((testingHal K P).guard x b) :=
  inferInstanceAs (Decidable ((threadsRunTest K P).system.guard x b))

/-- No thread is past a test of the proxy that was just constructed. -/
def testingConstructed (K : Constants) (P : Type) (subHals : List SubHal) (clock : ℤ) :
    TestingState (WaitingSystem P) Tester := ⟨.constructed K P subHals clock, ∅⟩

/-- A run with waiting threads is one in which each test comes with its section. -/
theorem testingReach_of_reach {R : WaitingSystem P → WaitingAction P → Prop}
    {subHals : List SubHal} {clock : ℤ} {s : WaitingSystem P}
    (h : (waitingHal K P).Reach R (.constructed K P subHals clock) s) :
    (testingHal K P).Reach (fun _ _ => True) (testingConstructed K P subHals clock) ⟨s, ∅⟩ :=
  UnlockedTest.reach_of_reach (fun _ _ _ => trivial) h

/-! ## What is left of an action -/

section Rest

variable {s : WaitingSystem P} {a : Action P}

/-- A test is made by a thread of the proxy or of a sub-HAL. -/
theorem exists_action_of_late {x : TestingState (WaitingSystem P) Tester} {b : WaitingAction P}
    (hlate : (threadsRunTest K P).Late x b) (hbegins : Tester.begins b = true) :
    ∃ a, b = .sys a ∧ a.isMain = false := by
  obtain ⟨i, -, hof⟩ := hlate
  cases b with
  | sys a => exact ⟨a, rfl, Tester.isMain_of_isOf hof⟩
  | _ => cases hbegins

/-- What is left is the action with `mThreadsRun` as it is, or as the test found it. -/
theorem sys_rest (K : Constants) (s : WaitingSystem P) (hmain : a.isMain = false) : ∃ threadsRun,
    ((threadsRunTest K P).rest (.sys a) s).sys =
      let s' := System.next K (s.setThreadsRun threadsRun).sys a
      { s' with proxy := { s'.proxy with mThreadsRun := s.sys.proxy.mThreadsRun } } := by
  show ∃ threadsRun, WaitingSystem.sys (if Tester.again (.sys a) then s.next K (.sys a) else
    ((s.setThreadsRun true).next K (.sys a)).setThreadsRun s.sys.proxy.mThreadsRun) = _
  split
  · refine ⟨s.sys.proxy.mThreadsRun, ?_⟩
    show System.next K s.sys a = { System.next K s.sys a with
      proxy := { (System.next K s.sys a).proxy with mThreadsRun := s.sys.proxy.mThreadsRun } }
    rw [← (sameRound_next K s.sys hmain).mThreadsRun]
  · exact ⟨true, rfl⟩

theorem sameRound_rest (K : Constants) (s : WaitingSystem P) (hmain : a.isMain = false) :
    SameRound s.sys ((threadsRunTest K P).rest (.sys a) s).sys := by
  obtain ⟨threadsRun, hrest⟩ := sys_rest K s hmain
  have h := sameRound_next K (s.setThreadsRun threadsRun).sys hmain
  rw [hrest]
  exact { h with mThreadsRun := rfl }

/-- What is left changes the shared wakelock as the action would, with `mThreadsRun` set or not. -/
theorem wakelockMove_rest (K : Constants) (s : WaitingSystem P) (hmain : a.isMain = false) :
    ∃ threadsRun, WakelockMove s.sys.proxy.wakelock threadsRun (s.sys.postedCount a)
      a.takesWakelock ((threadsRunTest K P).rest (.sys a) s).sys.proxy.wakelock := by
  obtain ⟨threadsRun, hrest⟩ := sys_rest K s hmain
  have h := wakelockMove_next K (s.setThreadsRun threadsRun).sys a
  refine ⟨threadsRun, ?_⟩
  rw [hrest]
  cases a <;> exact h

end Rest

/-! ## While the threads are stopped -/

/-- From the clearing of `mThreadsRun` to its setting, and after the destructor. -/
def MainThread.isStopped : MainThread → Bool
  | .wakeThreads _ => true
  | .joinPendingWritesThread _ => true
  | .joinWakelockThread _ => true
  | .resetSharedWakelock _ => true
  | .disableAllSensors _ => true
  | .clearPendingWriteEventsQueue _ => true
  | .clearSizePendingWriteEventsQueue _ => true
  | .clearDynamicSensors _ => true
  | .moveEventQueue _ => true
  | .deleteEventFlags _ => true
  | .createEventFlags _ => true
  | .storeRunning _ _ => true
  | .destroyed => true
  | _ => false

/-- From the setting of `mThreadsRun` to the next stop. -/
def MainThread.isRestarted : MainThread → Bool
  | .startPendingWritesThread _ _ => true
  | .startWakelockThread _ _ => true
  | .initializeSubHal _ _ _ => true
  | .setNormalMode _ => true
  | .returned _ => true
  | _ => false

/-- Where the binder thread is says whether `mThreadsRun` is set. -/
structure RunKnown (s : System P) : Prop where
  stopped : s.main.isStopped = true → s.proxy.mThreadsRun = false
  restarted : s.main.isRestarted = true → s.proxy.mThreadsRun = true

theorem runKnown_mainNext {s : System P} (hs : RunKnown s) (now : ℤ) : RunKnown (s.mainNext now) := by
  obtain ⟨hstopped, hrestarted⟩ := hs
  unfold System.mainNext
  cases hm : s.main with
  | storeStopped caller => exact ⟨fun _ => rfl, fun h => absurd h Bool.false_ne_true⟩
  | storeRunning args result => exact ⟨fun h => absurd h Bool.false_ne_true, fun _ => rfl⟩
  | idle => exact ⟨hstopped, hrestarted⟩
  | returned result => exact ⟨hstopped, hrestarted⟩
  | destroyed => exact ⟨hstopped, hrestarted⟩
  | joinWakelockThread caller =>
    rw [hm] at hstopped
    cases caller <;> exact ⟨hstopped, fun h => absurd h Bool.false_ne_true⟩
  | startPendingWritesThread args result =>
    rw [hm] at hrestarted
    exact ⟨fun h => absurd h Bool.false_ne_true, hrestarted⟩
  | startWakelockThread args result =>
    rw [hm] at hrestarted
    exact ⟨fun h => absurd h Bool.false_ne_true, hrestarted⟩
  | initializeSubHal i args result =>
    rw [hm] at hrestarted
    dsimp only
    split <;> exact ⟨fun h => absurd h Bool.false_ne_true, hrestarted⟩
  | setNormalMode result =>
    rw [hm] at hrestarted
    exact ⟨fun h => absurd h Bool.false_ne_true, hrestarted⟩
  | _ =>
    rw [hm] at hstopped
    exact ⟨hstopped, fun h => absurd h Bool.false_ne_true⟩

theorem RunKnown.of_sameRound {s s' : System P} (hs : RunKnown s) (h : SameRound s s') :
    RunKnown s' := by
  constructor
  · rw [h.main, h.mThreadsRun]
    exact hs.stopped
  · rw [h.main, h.mThreadsRun]
    exact hs.restarted

theorem runKnown_next {s : System P} (hs : RunKnown s) (a : Action P) :
    RunKnown (System.next K s a) := by
  cases hmain : a.isMain with
  | false => exact hs.of_sameRound (sameRound_next K s hmain)
  | true =>
    rcases main_next K s hmain with ⟨caller, hnext, -⟩ | ⟨now, rfl⟩
    · rw [hnext]
      exact ⟨fun h => absurd h Bool.false_ne_true, fun h => absurd h Bool.false_ne_true⟩
    · exact ⟨(runKnown_mainNext hs now).stopped, (runKnown_mainNext hs now).restarted⟩

theorem runKnown_waitingNext {s : WaitingSystem P} (hs : RunKnown s.sys) (b : WaitingAction P) :
    RunKnown (s.next K b).sys := by
  cases b with
  | sys a => exact runKnown_next hs a
  | _ => exact hs

theorem runKnown_constructed (K : Constants) (P : Type) (subHals : List SubHal) (clock : ℤ) :
    RunKnown (System.constructed K P subHals clock) :=
  ⟨fun h => absurd h Bool.false_ne_true, fun h => absurd h Bool.false_ne_true⟩

/-- In every run, between `stopThreads` and the setting of `mThreadsRun` it is cleared, and between
this and the next call set; what was tested before changes nothing about that. -/
theorem runKnown_of_reach
    {Q : TestingState (WaitingSystem P) Tester → TestingAction Tester (WaitingAction P) → Prop}
    {x₀ x : TestingState (WaitingSystem P) Tester} (h₀ : RunKnown x₀.state.sys)
    (h : (testingHal K P).Reach Q x₀ x) : RunKnown x.state.sys := by
  refine UnlockedTest.invariant (I := fun s : WaitingSystem P => RunKnown s.sys) h₀
    (fun _ b hs _ _ _ => runKnown_waitingNext hs b) ?_ h
  intro x b hs _ hlate hbegins _ _
  obtain ⟨a, rfl, hmain⟩ := exists_action_of_late hlate hbegins
  exact hs.of_sameRound (sameRound_rest K x.state hmain)

end RealmeSalaa.MultiHal
