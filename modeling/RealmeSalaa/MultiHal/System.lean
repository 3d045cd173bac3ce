import RealmeSalaa.Lib.GuardedSystem
import RealmeSalaa.MultiHal.SensorList

/-!
# The threads of the multi-HAL

The proxy with all its threads: any number of sub-HAL threads, the pending-writes thread, the
wakelock thread and the one binder thread that runs `initializeCommon` and the destructor. An
action is one step of one thread: a section under a mutex, or a statement of `initializeCommon`.
What the kernel, the FMQs and the clock answer is part of the action; the clock never goes back. The
test of `mThreadsRun` before a section of the shared wakelock is taken together with the section;
`ThreadsRunTests` takes the two apart.

The state also records a history that no code reads: what became of each posted event, the counts
of posted and acknowledged wake-up events, and the rounds of initialization. Posted events carry
the sub-HAL they come from and how often it had been initialized when their `postEvents` began.
-/

namespace RealmeSalaa.MultiHal

open HalProxy

/-! ## Threads -/

/-- Where a posted event comes from: the sub-HAL, and how often `initialize` had been called on it
when the call of `postEvents` passed its check. -/
structure Origin where
  subHalIndex : ℕ
  began : ℕ
  deriving DecidableEq, Repr

/-- Events as they travel through the proxy. -/
abbrev PostedEvent (P : Type) := Event (Origin × P)

def Event.stamp {P : Type} (o : Origin) (e : Event P) : PostedEvent P :=
  { e with payload := (o, e.payload) }

/-- A sub-HAL thread takes a scoped wakelock, calls `postEvents` with it, and destroys it. -/
inductive SubHalThread (P : Type)
  | idle
  | holding (wakelock : ScopedWakelock)
  /-- past `areThreadsRunning`, before the locked body of `postEventsToMessageQueue` -/
  | posting (events : List (PostedEvent P)) (numWakeupEvents : ℕ) (wakelock : ScopedWakelock)
      (began : ℕ)
  | leaving (wakelock : ScopedWakelock)

/-- The thread of `handlePendingWrites`. -/
inductive PendingWritesThread
  | notRunning
  | locked
  /-- inside the unlocked `writeBlocking` -/
  | writing (numToWrite eventQueueSize : ℕ)
  /-- after `writeBlocking` and its error path, before the mutex is taken again -/
  | wrote (numToWrite eventQueueSize : ℕ)
  deriving DecidableEq, Repr

/-- The thread of `handleWakelocks`. -/
inductive WakelockThread
  | notRunning
  | locked
  /-- inside the unlocked `readBlocking` -/
  | reading (timeLeft : ℤ)
  deriving DecidableEq, Repr

/-- The arguments of `initializeCommon`, and what its callees answer. -/
structure InitArgs where
  quantumCount : ℕ
  callbackOk : Bool
  eventFlagOk : Bool
  wakelockFlagOk : Bool
  subHalResult : ℕ → Result

inductive Caller
  | initializeCommon (args : InitArgs)
  | destructor

/-- The binder thread, by the statement it executes next. -/
inductive MainThread
  | idle
  -- stopThreads
  | storeStopped (caller : Caller)
  | wakeThreads (caller : Caller)
  | joinPendingWritesThread (caller : Caller)
  | joinWakelockThread (caller : Caller)
  -- initializeCommon after stopThreads
  | resetSharedWakelock (args : InitArgs)
  | disableAllSensors (args : InitArgs)
  | clearPendingWriteEventsQueue (args : InitArgs)
  | clearSizePendingWriteEventsQueue (args : InitArgs)
  | clearDynamicSensors (args : InitArgs)
  | moveEventQueue (args : InitArgs)
  | deleteEventFlags (args : InitArgs)
  | createEventFlags (args : InitArgs)
  | storeRunning (args : InitArgs) (result : Result)
  | startPendingWritesThread (args : InitArgs) (result : Result)
  | startWakelockThread (args : InitArgs) (result : Result)
  | initializeSubHal (i : ℕ) (args : InitArgs) (result : Result)
  | setNormalMode (result : Result)
  | returned (result : Result)
  | destroyed

/-- What happened so far. -/
structure History (P : Type) where
  /-- the posted batches in the order of the locked bodies, flattened -/
  posted : List (PostedEvent P)
  /-- the chunks whose `writeBlocking` failed -/
  failed : List (List (PostedEvent P))
  /-- the remainders that the full pending queue refused -/
  refused : List (List (PostedEvent P))
  /-- the posted batch of each pending entry -/
  batches : List (List (PostedEvent P))
  wakeupsPosted : ℕ
  wakeupsAcked : ℕ
  /-- both counts at the latest reset -/
  postedAtReset : ℕ
  ackedAtReset : ℕ
  /-- no sub-HAL posted or took a scoped wakelock since the threads were last started -/
  quiet : Bool
  /-- how often each sub-HAL was initialized, the pending queue cleared, and a queue installed -/
  initialized : ℕ → ℕ
  cleared : ℕ
  installed : ℕ

def History.empty (P : Type) : History P where
  posted := []
  failed := []
  refused := []
  batches := []
  wakeupsPosted := 0
  wakeupsAcked := 0
  postedAtReset := 0
  ackedAtReset := 0
  quiet := true
  initialized := fun _ => 0
  cleared := 0
  installed := 0

structure System (P : Type) where
  proxy : HalProxy (Origin × P)
  subHals : ℕ → SubHalThread P
  pendingWrites : PendingWritesThread
  wakelocks : WakelockThread
  main : MainThread
  clock : ℤ
  hist : History P

/-- A proxy that was just constructed over its sub-HALs. -/
def System.constructed (K : Constants) (P : Type) (subHals : List SubHal) (clock : ℤ) :
    System P where
  proxy := construct K subHals
  subHals := fun _ => .idle
  pendingWrites := .notRunning
  wakelocks := .notRunning
  main := .idle
  clock := clock
  hist := .empty P

/-! ## Actions -/

/-- `t` is a sub-HAL thread, `now` a time read from the clock. -/
inductive Action (P : Type)
  | createScopedWakelock (t : ℕ) (lock : Bool) (now : ℤ)
  /-- the check of `postEvents`; `events` and `numWakeupEvents` are those passed on -/
  | postEvents (t : ℕ) (subHalIndex : ℕ) (events : List (Event P)) (numWakeupEvents : ℕ)
  | postEventsToMessageQueue (t : ℕ) (availableToWrite : ℕ) (writeOk : Bool) (now : ℤ)
  | destroyScopedWakelock (t : ℕ)
  | takePendingWrites
  | writeBlocking (ok : Bool)
  | finishPendingWrites
  | exitPendingWrites
  /-- the test for a timeout at `now`, and the reset at `now'` if there is one -/
  | checkTimeout (now now' : ℤ)
  /-- `readBlocking` times out, or returns the number of wakelocks processed -/
  | readBlocking (numWakeLocksProcessed : Option ℕ)
  | exitWakelocks (now : ℤ)
  | initializeCommon (args : InitArgs)
  | destroy
  /-- the next statement of the binder thread -/
  | mainStep (now : ℤ)

variable {P : Type}

/-! ## Guards -/

namespace SubHalThread

def isIdle : SubHalThread P → Bool
  | .idle => true
  | _ => false

def isHolding : SubHalThread P → Bool
  | .holding _ => true
  | _ => false

def isPosting : SubHalThread P → Bool
  | .posting .. => true
  | _ => false

/-- The scoped wakelock of the thread. -/
def wakelock? : SubHalThread P → Option ScopedWakelock
  | .idle => none
  | .holding wakelock => some wakelock
  | .posting _ _ wakelock _ => some wakelock
  | .leaving wakelock => some wakelock

end SubHalThread

/-- The chunk between `takePendingWrites` and its removal: its length, and the capacity read. -/
def PendingWritesThread.chunk? : PendingWritesThread → Option (ℕ × ℕ)
  | .writing numToWrite eventQueueSize => some (numToWrite, eventQueueSize)
  | .wrote numToWrite eventQueueSize => some (numToWrite, eventQueueSize)
  | _ => none

/-- The action belongs to the binder thread. -/
def Action.isMain : Action P → Bool
  | .initializeCommon _ => true
  | .destroy => true
  | .mainStep _ => true
  | _ => false

def WakelockThread.isReading : WakelockThread → Bool
  | .reading _ => true
  | _ => false

namespace MainThread

/-- A call of `initialize` or the destructor can begin. -/
def isFree : MainThread → Bool
  | .idle => true
  | .returned _ => true
  | _ => false

/-- The statement can be executed: a join waits for its thread. -/
def Ready (pendingWrites : PendingWritesThread) (wakelocks : WakelockThread) : MainThread → Prop
  | .idle => False
  | .returned _ => False
  | .destroyed => False
  | .joinPendingWritesThread _ => pendingWrites = .notRunning
  | .joinWakelockThread _ => wakelocks = .notRunning
  | _ => True

instance (pendingWrites : PendingWritesThread) (wakelocks : WakelockThread) (m : MainThread) :
    Decidable (m.Ready pendingWrites wakelocks) := by
  cases m <;> unfold Ready <;> infer_instance

end MainThread

namespace System

/-- When an action can be taken. -/
def guard (s : System P) : Action P → Prop
  | .createScopedWakelock t _ now => (s.subHals t).isIdle ∧ s.clock ≤ now
  | .postEvents t _ _ _ => (s.subHals t).isHolding
  | .postEventsToMessageQueue t _ _ now => (s.subHals t).isPosting ∧ s.clock ≤ now
  | .destroyScopedWakelock t => (s.subHals t).wakelock?.isSome ∧ ¬ (s.subHals t).isPosting
  | .takePendingWrites =>
    s.pendingWrites = .locked ∧ s.proxy.mThreadsRun ∧ ¬ s.proxy.mPendingWriteEventsQueue.isEmpty
  | .writeBlocking _ =>
    match s.pendingWrites with
    | .writing _ _ => True
    | _ => False
  | .finishPendingWrites =>
    match s.pendingWrites with
    | .wrote _ _ => True
    | _ => False
  | .exitPendingWrites => s.pendingWrites = .locked ∧ ¬ s.proxy.mThreadsRun
  | .checkTimeout now now' =>
    s.wakelocks = .locked ∧ s.proxy.mThreadsRun ∧ 0 < s.proxy.wakelock.mWakelockRefCount ∧
      s.clock ≤ now ∧ now ≤ now'
  | .readBlocking _ => s.wakelocks.isReading
  | .exitWakelocks now => s.wakelocks = .locked ∧ ¬ s.proxy.mThreadsRun ∧ s.clock ≤ now
  | .initializeCommon _ => s.main.isFree
  | .destroy => s.main.isFree
  | .mainStep now => s.main.Ready s.pendingWrites s.wakelocks ∧ s.clock ≤ now

/-! ## Effects -/

/-- The locked body of `postEventsToMessageQueue`, run by sub-HAL thread `t`. -/
def post (K : Constants) (s : System P) (t : ℕ) (events : List (PostedEvent P))
    (numWakeupEvents : ℕ) (wakelock : ScopedWakelock) (availableToWrite : ℕ) (writeOk : Bool)
    (now : ℤ) : System P :=
  let n := s.proxy.numToWrite events availableToWrite writeOk
  { s with
    proxy := s.proxy.postEventsToMessageQueue K events numWakeupEvents wakelock availableToWrite
      writeOk now
    subHals := Function.update s.subHals t (.leaving wakelock)
    clock := now
    hist :=
      { s.hist with
        posted := s.hist.posted ++ events
        refused := s.hist.refused ++ [s.proxy.refusedPart K events n]
        batches :=
          if s.proxy.Queues K events n then s.hist.batches ++ [events] else s.hist.batches
        wakeupsPosted := s.hist.wakeupsPosted + numWakeupEvents
        quiet := false } }

/-- A reset of the shared wakelock. -/
def reset (s : System P) (now : ℤ) : System P :=
  { s with
    proxy :=
      { s.proxy with wakelock := s.proxy.wakelock.resetSharedWakelock s.proxy.mThreadsRun now }
    clock := now
    hist :=
      { s.hist with
        postedAtReset := s.hist.wakeupsPosted
        ackedAtReset := s.hist.wakeupsAcked } }

/-- The end of the unlocked phase of `handlePendingWrites`. -/
def write (K : Constants) (s : System P) (numToWrite eventQueueSize : ℕ) (ok : Bool) : System P :=
  let chunk := s.proxy.pendingWriteEvents.take numToWrite
  if ok then
    { s with
      proxy := { s.proxy with mEventQueue := s.proxy.mEventQueue.write chunk }
      pendingWrites := .wrote numToWrite eventQueueSize }
  else
    { s with
      proxy := s.proxy.dropPendingWrites K eventQueueSize
      pendingWrites := .wrote numToWrite eventQueueSize
      hist := { s.hist with failed := s.hist.failed ++ [chunk] } }

/-- The locked phase after a chunk. -/
def finish (s : System P) (numToWrite eventQueueSize : ℕ) : System P :=
  { s with
    proxy := s.proxy.finishPendingWrites numToWrite eventQueueSize
    pendingWrites := .locked
    hist :=
      { s.hist with
        batches :=
          if s.proxy.pendingWriteEvents.length > eventQueueSize then s.hist.batches
          else s.hist.batches.tail } }

/-- One statement of `stopThreads`, `initializeCommon` or the destructor. -/
def mainNext (s : System P) (now : ℤ) : System P :=
  match s.main with
  | .idle => s
  | .storeStopped caller =>
    { s with
      proxy := { s.proxy with mThreadsRun := false }
      main := .wakeThreads caller }
  -- the FMQs are drained and the threads notified, for the joins to end
  | .wakeThreads caller => { s with main := .joinPendingWritesThread caller }
  | .joinPendingWritesThread caller => { s with main := .joinWakelockThread caller }
  | .joinWakelockThread (.initializeCommon args) => { s with main := .resetSharedWakelock args }
  | .joinWakelockThread .destructor => { s with main := .destroyed }
  | .resetSharedWakelock args => { s.reset now with main := .disableAllSensors args }
  -- `activate(handle, false)` on every sensor, which only calls sub-HALs
  | .disableAllSensors args => { s with main := .clearPendingWriteEventsQueue args }
  | .clearPendingWriteEventsQueue args =>
    { s with
      proxy := { s.proxy with mPendingWriteEventsQueue := [] }
      main := .clearSizePendingWriteEventsQueue args
      hist := { s.hist with batches := [], cleared := s.hist.cleared + 1 } }
  | .clearSizePendingWriteEventsQueue args =>
    { s with
      proxy := { s.proxy with mSizePendingWriteEventsQueue := 0 }
      main := .clearDynamicSensors args }
  | .clearDynamicSensors args =>
    { s with
      proxy := { s.proxy with mDynamicSensors := ∅ }
      main := .moveEventQueue args }
  | .moveEventQueue args =>
    { s with
      proxy := { s.proxy with mEventQueue := ⟨args.quantumCount, []⟩ }
      main := .deleteEventFlags args
      hist := { s.hist with installed := s.hist.installed + 1 } }
  | .deleteEventFlags args =>
    { s with
      proxy := { s.proxy with mEventQueueFlag := false, mWakelockQueueFlag := false }
      main := .createEventFlags args }
  | .createEventFlags args =>
    { s with
      proxy :=
        { s.proxy with
          mEventQueueFlag := args.eventFlagOk
          mWakelockQueueFlag := args.wakelockFlagOk }
      main := .storeRunning args
        (if args.eventFlagOk && args.wakelockFlagOk && args.callbackOk then .OK else .BAD_VALUE) }
  | .storeRunning args result =>
    { s with
      proxy := { s.proxy with mThreadsRun := true }
      main := .startPendingWritesThread args result
      hist := { s.hist with quiet := true } }
  | .startPendingWritesThread args result =>
    { s with pendingWrites := .locked, main := .startWakelockThread args result }
  | .startWakelockThread args result =>
    { s with wakelocks := .locked, main := .initializeSubHal 0 args result }
  | .initializeSubHal i args result =>
    if i < s.proxy.mSubHalList.length then
      { s with
        main := .initializeSubHal (i + 1) args
          (if args.subHalResult i = .OK then result else args.subHalResult i)
        hist :=
          { s.hist with
            initialized := Function.update s.hist.initialized i (s.hist.initialized i + 1) } }
    else { s with main := .setNormalMode result }
  | .setNormalMode result =>
    { s with
      proxy := { s.proxy with mCurrentOperationMode := .NORMAL }
      main := .returned result }
  | .returned _ => s
  | .destroyed => s

/-- The state after an action. -/
def next (K : Constants) (s : System P) : Action P → System P
  | .createScopedWakelock t lock now =>
    let created := ScopedWakelock.create s.proxy.wakelock s.proxy.mThreadsRun lock now
    { s with
      proxy := { s.proxy with wakelock := created.1 }
      subHals := Function.update s.subHals t (.holding created.2)
      clock := now
      hist := { s.hist with quiet := false } }
  | .postEvents t subHalIndex events numWakeupEvents =>
    match s.subHals t with
    | .holding wakelock =>
      let began := s.hist.initialized subHalIndex
      { s with
        subHals := Function.update s.subHals t
          (if events.isEmpty || !s.proxy.mThreadsRun then .leaving wakelock
            else .posting (events.map (Event.stamp ⟨subHalIndex, began⟩)) numWakeupEvents wakelock
              began) }
    | _ => s
  | .postEventsToMessageQueue t availableToWrite writeOk now =>
    match s.subHals t with
    | .posting events numWakeupEvents wakelock _ =>
      s.post K t events numWakeupEvents wakelock availableToWrite writeOk now
    | _ => s
  | .destroyScopedWakelock t =>
    match (s.subHals t).wakelock? with
    | some wakelock =>
      { s with
        proxy :=
          { s.proxy with wakelock := wakelock.release s.proxy.wakelock s.proxy.mThreadsRun }
        subHals := Function.update s.subHals t .idle }
    | none => s
  | .takePendingWrites =>
    let eventQueueSize := s.proxy.mEventQueue.quantumCount
    { s with
      pendingWrites :=
        .writing (min s.proxy.pendingWriteEvents.length eventQueueSize) eventQueueSize }
  | .writeBlocking ok =>
    match s.pendingWrites with
    | .writing numToWrite eventQueueSize => s.write K numToWrite eventQueueSize ok
    | _ => s
  | .finishPendingWrites =>
    match s.pendingWrites with
    | .wrote numToWrite eventQueueSize => s.finish numToWrite eventQueueSize
    | _ => s
  | .exitPendingWrites => { s with pendingWrites := .notRunning }
  | .checkTimeout now now' =>
    match s.proxy.wakelock.sharedWakelockDidTimeout K.kWakelockTimeoutNs now with
    | none => s.reset now'
    | some timeLeft => { s with wakelocks := .reading timeLeft, clock := now' }
  | .readBlocking none => { s with wakelocks := .locked }
  | .readBlocking (some numWakeLocksProcessed) =>
    { s with
      proxy :=
        { s.proxy with
          wakelock := s.proxy.wakelock.decrementRefCountAndMaybeReleaseWakelock s.proxy.mThreadsRun
            numWakeLocksProcessed (-1) }
      wakelocks := .locked
      hist := { s.hist with wakeupsAcked := s.hist.wakeupsAcked + numWakeLocksProcessed } }
  | .exitWakelocks now => { s.reset now with wakelocks := .notRunning }
  | .initializeCommon args => { s with main := .storeStopped (.initializeCommon args) }
  | .destroy => { s with main := .storeStopped .destructor }
  | .mainStep now => { s.mainNext now with clock := now }

theorem next_post {K : Constants} {s : System P} {t : ℕ} {events : List (PostedEvent P)}
    {numWakeupEvents : ℕ} {wakelock : ScopedWakelock} {began availableToWrite : ℕ} {writeOk : Bool}
    {now : ℤ} (h : s.subHals t = .posting events numWakeupEvents wakelock began) :
    next K s (.postEventsToMessageQueue t availableToWrite writeOk now) =
      s.post K t events numWakeupEvents wakelock availableToWrite writeOk now := by
  simp only [next, h]

end System

/-- The multi-HAL as a transition system. -/
def multiHal (K : Constants) (P : Type) : GuardedSystem (System P) (Action P) :=
  ⟨System.guard, System.next K⟩

instance (K : Constants) (s : System P) (a : Action P) : Decidable ((multiHal K P).guard s a) := by
  show Decidable (s.guard a)
  cases a <;> unfold System.guard
  case writeBlocking => cases s.pendingWrites <;> infer_instance
  case finishPendingWrites => cases s.pendingWrites <;> infer_instance
  all_goals infer_instance

/-- What the steps of the multi-HAL keep holds in every state of a run. -/
theorem invariant_of_reach {K : Constants} {R : System P → Action P → Prop} {I : System P → Prop}
    {s₀ s : System P} (h : (multiHal K P).Reach R s₀ s) (h₀ : I s₀)
    (hstep : ∀ s a, I s → s.guard a → R s a → I (System.next K s a)) : I s :=
  h.invariant h₀ hstep

/-! ## Conditions on actions -/

/-- If the action is a locked body of `postEventsToMessageQueue`, then `R` holds of its batch: the
events, their count, the scoped wakelock, the round of the call, and what the FMQ answers. -/
def System.OnPost (s : System P)
    (R : List (PostedEvent P) → ℕ → ScopedWakelock → ℕ → ℕ → Bool → Prop) : Action P → Prop
  | .postEventsToMessageQueue t availableToWrite writeOk _ =>
    match s.subHals t with
    | .posting events numWakeupEvents wakelock began =>
      R events numWakeupEvents wakelock began availableToWrite writeOk
    | _ => True
  | _ => True

section OnPost

variable {s : System P} {R : List (PostedEvent P) → ℕ → ScopedWakelock → ℕ → ℕ → Bool → Prop}

theorem System.onPost_posting {t : ℕ} {events : List (PostedEvent P)} {n : ℕ}
    {wakelock : ScopedWakelock} {began avail : ℕ} {ok : Bool} {now : ℤ}
    (h : s.subHals t = .posting events n wakelock began) :
    s.OnPost R (.postEventsToMessageQueue t avail ok now) ↔ R events n wakelock began avail ok := by
  simp only [OnPost, h]

theorem System.onPost_of_isMain {a : Action P} (ha : a.isMain = true) : s.OnPost R a := by
  cases a with
  | postEventsToMessageQueue t avail ok now => cases ha
  | _ => trivial

instance [∀ events n wakelock began avail ok, Decidable (R events n wakelock began avail ok)]
    (a : Action P) : Decidable (s.OnPost R a) := by
  cases a with
  | postEventsToMessageQueue t avail ok now =>
    cases h : s.subHals t with
    | posting events n wakelock began => exact decidable_of_iff _ (System.onPost_posting h).symm
    | _ => exact isTrue (by simp only [System.OnPost, h])
  | _ => exact isTrue trivial

end OnPost

/-- A `writeBlocking` that fails. -/
def Action.failsWrite : Action P → Bool
  | .writeBlocking ok => !ok
  | _ => false

/-- How many events the framework acknowledges. -/
def Action.acked : Action P → ℕ
  | .readBlocking (some numWakeLocksProcessed) => numWakeLocksProcessed
  | _ => 0

/-! ## Rounds of initialization -/

/-- What only the binder thread changes, and the flag `quiet`, which others only take away. -/
structure SameRound (s s' : System P) : Prop where
  main : s'.main = s.main
  mSubHalList : s'.proxy.mSubHalList = s.proxy.mSubHalList
  mThreadsRun : s'.proxy.mThreadsRun = s.proxy.mThreadsRun
  quiet : s'.hist.quiet = true → s.hist.quiet = true
  initialized : s'.hist.initialized = s.hist.initialized
  cleared : s'.hist.cleared = s.hist.cleared
  installed : s'.hist.installed = s.hist.installed

theorem SameRound.refl (s : System P) : SameRound s s :=
  ⟨rfl, rfl, rfl, id, rfl, rfl, rfl⟩

theorem sameRound_post (K : Constants) (s : System P) (t : ℕ) (events : List (PostedEvent P))
    (n : ℕ) (wakelock : ScopedWakelock) (avail : ℕ) (ok : Bool) (now : ℤ) :
    SameRound s (s.post K t events n wakelock avail ok now) where
  main := rfl
  mSubHalList := by
    show (s.proxy.postEventsToMessageQueue K events n wakelock avail ok now).mSubHalList = _
    rw [HalProxy.postEventsToMessageQueue_eq]
  mThreadsRun := by
    show (s.proxy.postEventsToMessageQueue K events n wakelock avail ok now).mThreadsRun = _
    rw [HalProxy.postEventsToMessageQueue_eq]
  quiet h := absurd h Bool.false_ne_true
  initialized := rfl
  cleared := rfl
  installed := rfl

theorem sameRound_write (K : Constants) (s : System P) (n q : ℕ) (ok : Bool) :
    SameRound s (s.write K n q ok) := by
  cases ok with
  | true => exact ⟨rfl, rfl, rfl, id, rfl, rfl, rfl⟩
  | false =>
    obtain ⟨sensors, wakelock, hdrop, -⟩ := s.proxy.dropPendingWrites_frame K q
    refine ⟨rfl, ?_, ?_, id, rfl, rfl, rfl⟩
    · show (s.proxy.dropPendingWrites K q).mSubHalList = _
      rw [hdrop]
    · show (s.proxy.dropPendingWrites K q).mThreadsRun = _
      rw [hdrop]

/-- The sub-HAL threads and the two threads of the proxy leave the round alone. -/
theorem sameRound_next (K : Constants) (s : System P) {a : Action P} (ha : a.isMain = false) :
    SameRound s (System.next K s a) := by
  cases a with
  | initializeCommon args => cases ha
  | destroy => cases ha
  | mainStep now => cases ha
  | postEventsToMessageQueue t avail ok now =>
    cases h : s.subHals t with
    | posting events n wakelock began =>
      rw [System.next_post h]
      exact sameRound_post K s t events n wakelock avail ok now
    | _ => simp only [System.next, h]; exact .refl s
  | writeBlocking ok =>
    cases h : s.pendingWrites with
    | writing n q => simp only [System.next, h]; exact sameRound_write K s n q ok
    | _ => simp only [System.next, h]; exact .refl s
  | createScopedWakelock t lock now =>
    exact ⟨rfl, rfl, rfl, fun h => absurd h Bool.false_ne_true, rfl, rfl, rfl⟩
  | postEvents t i events n =>
    cases h : s.subHals t <;> simp only [System.next, h] <;>
      exact ⟨rfl, rfl, rfl, id, rfl, rfl, rfl⟩
  | destroyScopedWakelock t =>
    cases h : (s.subHals t).wakelock? <;> simp only [System.next, h] <;>
      exact ⟨rfl, rfl, rfl, id, rfl, rfl, rfl⟩
  | finishPendingWrites =>
    cases h : s.pendingWrites <;> simp only [System.next, h] <;>
      exact ⟨rfl, rfl, rfl, id, rfl, rfl, rfl⟩
  | checkTimeout now now' =>
    cases h : s.proxy.wakelock.sharedWakelockDidTimeout K.kWakelockTimeoutNs now <;>
      simp only [System.next, h] <;> exact ⟨rfl, rfl, rfl, id, rfl, rfl, rfl⟩
  | readBlocking r => cases r <;> exact ⟨rfl, rfl, rfl, id, rfl, rfl, rfl⟩
  | takePendingWrites => exact ⟨rfl, rfl, rfl, id, rfl, rfl, rfl⟩
  | exitPendingWrites => exact ⟨rfl, rfl, rfl, id, rfl, rfl, rfl⟩
  | exitWakelocks now => exact ⟨rfl, rfl, rfl, id, rfl, rfl, rfl⟩

/-- The fields of the proxy that its threads leave to the binder thread and to dynamic sensors. -/
structure SameSetup (s s' : System P) : Prop where
  mDynamicSensors : s'.proxy.mDynamicSensors = s.proxy.mDynamicSensors
  mEventQueueFlag : s'.proxy.mEventQueueFlag = s.proxy.mEventQueueFlag
  mWakelockQueueFlag : s'.proxy.mWakelockQueueFlag = s.proxy.mWakelockQueueFlag

theorem SameSetup.refl (s : System P) : SameSetup s s := ⟨rfl, rfl, rfl⟩

theorem sameSetup_next (K : Constants) (s : System P) {a : Action P} (ha : a.isMain = false) :
    SameSetup s (System.next K s a) := by
  cases a with
  | initializeCommon args => cases ha
  | destroy => cases ha
  | mainStep now => cases ha
  | postEventsToMessageQueue t avail ok now =>
    cases h : s.subHals t with
    | posting events n wakelock began =>
      have hpost : (System.next K s (.postEventsToMessageQueue t avail ok now)).proxy =
          s.proxy.postEventsToMessageQueue K events n wakelock avail ok now := by
        rw [System.next_post h]; rfl
      constructor <;> rw [hpost, HalProxy.postEventsToMessageQueue_eq]
    | _ => simp only [System.next, h]; exact .refl s
  | writeBlocking ok =>
    cases h : s.pendingWrites with
    | writing n q =>
      simp only [System.next, h]
      cases ok with
      | true => exact ⟨rfl, rfl, rfl⟩
      | false =>
        obtain ⟨sensors, wakelock, hdrop, -⟩ := s.proxy.dropPendingWrites_frame K q
        have hwrite : (s.write K n q false).proxy = s.proxy.dropPendingWrites K q := rfl
        constructor <;> rw [hwrite, hdrop]
    | _ => simp only [System.next, h]; exact .refl s
  | postEvents t i events n =>
    cases h : s.subHals t <;> simp only [System.next, h] <;> exact ⟨rfl, rfl, rfl⟩
  | destroyScopedWakelock t =>
    cases h : (s.subHals t).wakelock? <;> simp only [System.next, h] <;> exact ⟨rfl, rfl, rfl⟩
  | finishPendingWrites =>
    cases h : s.pendingWrites <;> simp only [System.next, h] <;> exact ⟨rfl, rfl, rfl⟩
  | checkTimeout now now' =>
    cases h : s.proxy.wakelock.sharedWakelockDidTimeout K.kWakelockTimeoutNs now <;>
      simp only [System.next, h] <;> exact ⟨rfl, rfl, rfl⟩
  | readBlocking r => cases r <;> exact ⟨rfl, rfl, rfl⟩
  | _ => exact ⟨rfl, rfl, rfl⟩

/-- The binder thread begins a call, or executes a statement. -/
theorem main_next (K : Constants) (s : System P) {a : Action P} (ha : a.isMain = true) :
    (∃ caller, System.next K s a = { s with main := .storeStopped caller } ∧
      (s.guard a → s.main.isFree = true)) ∨ ∃ now, a = .mainStep now := by
  cases a with
  | initializeCommon args => exact .inl ⟨.initializeCommon args, rfl, id⟩
  | destroy => exact .inl ⟨.destructor, rfl, id⟩
  | mainStep now => exact .inr ⟨now, rfl⟩
  | _ => cases ha

/-! ## A concrete multi-HAL -/

/-- One sub-HAL with a wake-up sensor 1 and a sensor 2 that is none. -/
def sampleSubHals : List SubHal := [⟨[⟨1, 1, .other 1, ""⟩, ⟨2, 0, .LIGHT, ""⟩]⟩]

/-- The multi-HAL over `sampleSubHals` at time 0; events are told apart by a number. -/
def sample : System ℕ := .constructed sampleConstants ℕ sampleSubHals 0

/-- `initializeCommon` on a proxy whose threads do not run, with an FMQ of `quantumCount` events. -/
def initializeRun (quantumCount : ℕ) : List (Action ℕ) :=
  .initializeCommon ⟨quantumCount, true, true, true, fun _ => .OK⟩ ::
    List.replicate 18 (.mainStep 0)

/-- The multi-HAL after its first initialization. -/
def sampleStarted (quantumCount : ℕ) : System ℕ :=
  (multiHal sampleConstants ℕ).exec sample (initializeRun quantumCount)

/-- `stopThreads` with both threads of the proxy running. -/
def stopRun : List (Action ℕ) :=
  [.mainStep 2, .mainStep 2, .exitPendingWrites, .exitWakelocks 2, .mainStep 2, .mainStep 2]

/-- `initializeCommon` on a proxy whose threads run. -/
def reinitializeRun : List (Action ℕ) :=
  .initializeCommon ⟨4, true, true, true, fun _ => .OK⟩ :: stopRun ++
    List.replicate 14 (.mainStep 2)

end RealmeSalaa.MultiHal
