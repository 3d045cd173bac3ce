import RealmeSalaa.MultiHal.ThreadsRunTests

/-!
# Stopping and the shared wakelock

Both resets that follow a stop run with `mThreadsRun` already cleared, so that a re-initialization or
the destructor drops nothing that was counted when the threads were stopped. What was not counted
then may still come: an increment that made its test before the stop takes the wakelock after it, and
no reset that follows has an effect. Only a stop that finds the wakelock unused, and that no such
increment outlives, leaves it unused (`unused_after_stop`).
-/

namespace RealmeSalaa.MultiHal

open GuardedSystem

variable {P : Type} {K : Constants} {s : System P} {a : Action P}

/-! ## What a stop must find -/

/-- The next statement clears `mThreadsRun`. -/
def MainThread.isStop : MainThread → Bool
  | .storeStopped _ => true
  | _ => false

/-- If the action clears `mThreadsRun`, the wakelock is unused. -/
def StopsUnused (s : System P) (a : Action P) : Prop :=
  a.isMain = true → s.main.isStop = true → s.proxy.wakelock.Unused

instance (s : System P) (a : Action P) : Decidable (StopsUnused s a) := by
  unfold StopsUnused; infer_instance

/-- No increment that made its test before `mThreadsRun` was cleared comes after it. -/
def NoLateIncrement (K : Constants) (x : TestingState (WaitingSystem P) Tester)
    (a : Action P) : Prop :=
  a.increments = true → (threadsRunTest K P).Late x (.sys a) → x.state.sys.proxy.mThreadsRun = true

instance (x : TestingState (WaitingSystem P) Tester) (a : Action P) :
    Decidable (NoLateIncrement K x a) := by
  unfold NoLateIncrement; infer_instance

/-- If the step is an action of `System`, it meets `R`. -/
def OnSys (R : Action P → Prop) : TestingAction Tester (WaitingAction P) → Prop
  | .act (.sys a) => R a
  | _ => True

instance (R : Action P → Prop) [DecidablePred R] :
    (b : TestingAction Tester (WaitingAction P)) → Decidable (OnSys R b)
  | .act (.sys a) => inferInstanceAs (Decidable (R a))
  | .act (.next _) | .act (.wakeSpuriously _) | .test _ => isTrue trivial

/-- The stops find the wakelock unused, and no increment is under way past them. -/
def StopsClean (K : Constants) (x : TestingState (WaitingSystem P) Tester) :
    TestingAction Tester (WaitingAction P) → Prop :=
  OnSys fun a => StopsUnused x.state.sys a ∧ NoLateIncrement K x a

instance (x : TestingState (WaitingSystem P) Tester)
    (b : TestingAction Tester (WaitingAction P)) : Decidable (StopsClean K x b) :=
  inferInstanceAs (Decidable (OnSys _ b))

/-! ## What the runs keep -/

/-- While the threads are stopped the wakelock is unused, and after that until a sub-HAL uses it. -/
structure Dropped (s : System P) : Prop extends RunKnown s where
  unused : s.main.isStopped = true → s.proxy.wakelock.Unused
  quiet : s.main.isRestarted = true → s.hist.quiet = true → s.proxy.wakelock.Unused

/-- The binder thread stops the threads, or was already past that. -/
theorem isStopped_mainNext (s : System P) (now : ℤ) (h : (s.mainNext now).main.isStopped = true) :
    s.main.isStop = true ∧ (s.mainNext now).proxy.wakelock = s.proxy.wakelock ∨
      s.main.isStopped = true := by
  unfold System.mainNext at h ⊢
  cases hm : s.main with
  | storeStopped caller => exact .inl ⟨rfl, rfl⟩
  | idle => simp only [hm] at h; cases h
  | storeRunning args result => simp only [hm] at h; cases h
  | startPendingWritesThread args result => simp only [hm] at h; cases h
  | startWakelockThread args result => simp only [hm] at h; cases h
  | initializeSubHal i args result =>
    simp only [hm] at h
    split at h <;> cases h
  | setNormalMode result => simp only [hm] at h; cases h
  | returned result => simp only [hm] at h; cases h
  | _ => exact .inr rfl

/-- The binder thread restarts the threads, or already had. -/
theorem isRestarted_mainNext (s : System P) (now : ℤ)
    (h : (s.mainNext now).main.isRestarted = true) :
    (s.mainNext now).proxy.wakelock = s.proxy.wakelock ∧
      (s.main.isStopped = true ∨
        s.main.isRestarted = true ∧ (s.mainNext now).hist.quiet = s.hist.quiet) := by
  unfold System.mainNext at h ⊢
  cases hm : s.main with
  | storeRunning args result => exact ⟨rfl, .inl rfl⟩
  | startPendingWritesThread args result => exact ⟨rfl, .inr ⟨rfl, rfl⟩⟩
  | startWakelockThread args result => exact ⟨rfl, .inr ⟨rfl, rfl⟩⟩
  | initializeSubHal i args result =>
    dsimp only
    split <;> exact ⟨rfl, .inr ⟨rfl, rfl⟩⟩
  | setNormalMode result => exact ⟨rfl, .inr ⟨rfl, rfl⟩⟩
  | returned result => exact ⟨rfl, .inr ⟨rfl, rfl⟩⟩
  | joinWakelockThread caller => cases caller <;> (simp only [hm] at h; cases h)
  | _ => simp only [hm] at h; cases h

/-- A step that leaves the threads quiet posts nothing and takes no scoped wakelock. -/
theorem wakelockMove_of_quiet (s : System P) {a : Action P} (ha : a.isMain = false)
    (hq : (System.next K s a).hist.quiet = true) :
    WakelockMove s.proxy.wakelock s.proxy.mThreadsRun none false
      (System.next K s a).proxy.wakelock := by
  have hmove := wakelockMove_next K s a
  cases a with
  | createScopedWakelock t lock now => cases hq
  | postEventsToMessageQueue t avail ok now =>
    cases hpost : s.subHals t with
    | posting events n wakelock began =>
      rw [System.next_post hpost] at hq
      cases hq
    | _ => simp only [System.next, hpost]; exact .stay
  | _ => exact hmove

/-- With `mThreadsRun` cleared a section that finds it so increments nothing. -/
theorem WakelockMove.unused_of_stopped {w w' : SharedWakelock} {posted : Option ℕ} {taken : Bool}
    (h : WakelockMove w false posted taken w') (hw : w.Unused) : w'.Unused := by
  cases h with
  | post delta now h => exact hw
  | create lock now h => rwa [ScopedWakelock.create_unlocked (.inr rfl)]
  | stay => exact hw
  | release wakelock => exact WakelockMove.unused (.release wakelock) hw
  | decrement delta => exact hw
  | reset now => exact hw

theorem dropped_next (hs : Dropped s) (hstop : StopsUnused s a) : Dropped (System.next K s a) := by
  have hmove := wakelockMove_next K s a
  refine { runKnown_next hs.toRunKnown a with unused := fun hstopped => ?_, quiet := ?_ }
  · have hkeeps : s.main.isStopped = true → (System.next K s a).proxy.wakelock.Unused := fun h => by
      rw [hs.stopped h] at hmove
      exact hmove.unused_of_stopped (hs.unused h)
    cases ha : a.isMain with
    | false =>
      rw [(sameRound_next K s ha).main] at hstopped
      exact hkeeps hstopped
    | true =>
      rcases main_next K s ha with ⟨caller, hnext, -⟩ | ⟨now, rfl⟩
      · rw [hnext] at hstopped
        cases hstopped
      · rcases isStopped_mainNext s now hstopped with ⟨hm, hw⟩ | h
        · show (s.mainNext now).proxy.wakelock.Unused
          rw [hw]
          exact hstop rfl hm
        · exact hkeeps h
  · intro hre hquiet
    cases ha : a.isMain with
    | false =>
      have hround := sameRound_next K s ha
      rw [hround.main] at hre
      exact (wakelockMove_of_quiet s ha hquiet).unused (hs.quiet hre (hround.quiet hquiet))
    | true =>
      rcases main_next K s ha with ⟨caller, hnext, -⟩ | ⟨now, rfl⟩
      · rw [hnext] at hre
        cases hre
      · obtain ⟨hw, hfrom⟩ := isRestarted_mainNext s now hre
        show (s.mainNext now).proxy.wakelock.Unused
        rw [hw]
        rcases hfrom with hstopped | ⟨hre', hq⟩
        · exact hs.unused hstopped
        · exact hs.quiet hre' (hq.symm.trans hquiet)

/-- What a thread past its test still does after the stop gives nothing back, where nothing is
counted. -/
theorem dropped_rest {s : WaitingSystem P} (hs : Dropped s.sys) (hmain : a.isMain = false)
    (hrun : s.sys.proxy.mThreadsRun = false) (hnone : a.increments = false) :
    Dropped ((threadsRunTest K P).rest (.sys a) s).sys := by
  have hround := sameRound_rest K s hmain
  obtain ⟨threadsRun, hmove⟩ := wakelockMove_rest K s hmain
  refine { hs.toRunKnown.of_sameRound hround with unused := fun hstopped => ?_, quiet := ?_ }
  · rw [hround.main] at hstopped
    have hposted : s.sys.postedCount a = none := by cases a <;> first | rfl | cases hnone
    have htaken : a.takesWakelock = false := by cases a <;> first | rfl | cases hnone
    rw [hposted, htaken] at hmove
    exact hmove.unused (hs.unused hstopped)
  · intro hre _
    rw [hround.main] at hre
    exact absurd ((hs.restarted hre).symm.trans hrun) Bool.noConfusion

/-! ## What a re-initialization and the destructor leave -/

/-- **Re-initialization and destruction.** In every run that stops the threads only while the
wakelock is unused, and in which no increment that made its test before comes after that, a round of
initialization that no sub-HAL has disturbed yet, and the destructor, leave nothing counted and the
kernel wakelock not held. -/
theorem unused_after_stop {subHals : List SubHal} {clock : ℤ}
    {x : TestingState (WaitingSystem P) Tester}
    (h : (testingHal K P).Reach (StopsClean K) (testingConstructed K P subHals clock) x) :
    let s := x.state.sys
    (∀ result, s.main = .returned result → s.hist.quiet = true →
      s.proxy.wakelock.mWakelockRefCount = 0 ∧ s.proxy.wakelock.held = false) ∧
    (s.main = .destroyed → s.proxy.wakelock.held = false) := by
  have h₀ : Dropped (System.constructed K P subHals clock) :=
    { runKnown_constructed K P subHals clock with
      unused := fun h => absurd h Bool.false_ne_true
      quiet := fun h => absurd h Bool.false_ne_true }
  have hs : Dropped x.state.sys := by
    refine UnlockedTest.invariant (I := fun s : WaitingSystem P => Dropped s.sys) h₀ ?_ ?_ h
    · intro x b hs _ _ hclean
      cases b with
      | sys a => exact dropped_next hs hclean.1
      | _ => exact hs
    · intro x b hs hflag hlate hbegins _ hclean
      obtain ⟨a, rfl, hmain⟩ := exists_action_of_late hlate hbegins
      refine dropped_rest hs hmain hflag (Bool.eq_false_iff.2 fun hincrements => ?_)
      exact absurd ((hclean.2 hincrements hlate).symm.trans hflag) Bool.noConfusion
  exact ⟨fun result hm => hs.quiet (by rw [hm]; rfl), fun hm => (hs.unused (by rw [hm]; rfl)).2⟩

/-! ## Concrete runs -/

/-- `stopThreads`, called from `initializeCommon` or the destructor. -/
def stopThreadsRun (call : Action ℕ) (now : ℤ) : List (TestingAction Tester (WaitingAction ℕ)) :=
  [call, .mainStep now, .mainStep now, .exitPendingWrites, .exitWakelocks now, .mainStep now,
    .mainStep now].map fun a => .act (.sys a)

/-- `initializeCommon`, with steps of other threads after `stopThreads`. -/
def reinitialize (late : List (TestingAction Tester (WaitingAction ℕ))) (now : ℤ) :
    List (TestingAction Tester (WaitingAction ℕ)) :=
  stopThreadsRun (.initializeCommon ⟨4, true, true, true, fun _ => .OK⟩) now ++ late ++
    List.replicate 14 (.act (.sys (.mainStep now)))

def testingSample : TestingState (WaitingSystem ℕ) Tester :=
  testingConstructed sampleConstants ℕ sampleSubHals 0

/-- The first initialization; then `first`, before the wakelock thread takes its mutex. -/
def startRun (first : TestingAction Tester (WaitingAction ℕ)) :
    List (TestingAction Tester (WaitingAction ℕ)) :=
  (initializeRun 4).map (fun a => .act (.sys a)) ++
    [first, .act (.next .pendingWrites), .act (.next .wakelocks)]

def created : TestingAction Tester (WaitingAction ℕ) :=
  .act (.sys (.createScopedWakelock 0 true 1))

/-- A scoped wakelock is about to be destroyed, past its test, when its reference times out. -/
def timeoutRun : List (TestingAction Tester (WaitingAction ℕ)) :=
  [.test (.subHal 0), .act (.next .wakelocks), .act (.next .wakelocks),
    .act (.sys (.checkTimeout 600000000 600000000))]

/-- The destructor goes on after the stop. -/
theorem unused_after_stop_sample :
    let x := (testingHal sampleConstants ℕ).exec testingSample
      (startRun created ++ timeoutRun ++
        reinitialize [.act (.sys (.destroyScopedWakelock 0))] 600000000)
    let s := x.state.sys
    s.main = .returned .OK ∧ s.hist.quiet = true ∧
      (∀ result, s.main = .returned result → s.hist.quiet = true →
        s.proxy.wakelock.mWakelockRefCount = 0 ∧ s.proxy.wakelock.held = false) ∧
      (s.main = .destroyed → s.proxy.wakelock.held = false) :=
  ⟨by rfl, by rfl, unused_after_stop (GuardedSystem.reach_exec (by decide))⟩

/-- A round of initialization that returned and was not disturbed, with the wakelock in use. -/
def RestartedInUse (s : System ℕ) : Prop :=
  s.main = .returned .OK ∧ s.hist.quiet = true ∧ s.proxy.wakelock.mWakelockRefCount = 1 ∧
    s.proxy.wakelock.held = true

/-- With one scoped wakelock outstanding, the re-initialization and the destructor both leave the
kernel wakelock held. So does a re-initialization that stops an unused wakelock, when a scoped one
is being created and has made its test before. -/
theorem held_after_stop :
    (∃ x, (testingHal sampleConstants ℕ).Reach (fun _ _ => True) testingSample x ∧
      RestartedInUse x.state.sys) ∧
    (∃ x, (testingHal sampleConstants ℕ).Reach (fun _ _ => True) testingSample x ∧
      x.state.sys.main = .destroyed ∧ x.state.sys.proxy.wakelock.held = true) ∧
    ∃ x, (testingHal sampleConstants ℕ).Reach (fun x => OnSys (StopsUnused x.state.sys))
      testingSample x ∧ RestartedInUse x.state.sys := by
  refine ⟨?_, ?_, ?_⟩
  · exact ⟨(testingHal sampleConstants ℕ).exec testingSample
      (startRun created ++ reinitialize [] 2),
      GuardedSystem.reach_exec (by decide), rfl, rfl, by decide, by decide⟩
  · exact ⟨(testingHal sampleConstants ℕ).exec testingSample
      (startRun created ++ stopThreadsRun .destroy 2),
      GuardedSystem.reach_exec (by decide), rfl, by decide⟩
  · exact ⟨(testingHal sampleConstants ℕ).exec testingSample
      (startRun (.test (.subHal 0)) ++
        reinitialize [.act (.sys (.createScopedWakelock 0 true 2))] 2),
      GuardedSystem.reach_exec (by decide), rfl, rfl, by decide, by decide⟩

end RealmeSalaa.MultiHal
