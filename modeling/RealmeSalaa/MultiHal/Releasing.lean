import RealmeSalaa.MultiHal.Draining
import RealmeSalaa.MultiHal.WakelockDeadline

/-!
# Releasing the shared wakelock

An acknowledgement of the framework may never come, and a sub-HAL may keep its scoped wakelock.
Once the shared wakelock has timed out, and until something takes a reference again, the wakelock
thread has at most seven steps before nothing is counted: whatever it waits for, it comes back to
the test for a timeout, finds it, and resets the count (`releases_of_reach`). The start of the
timeout stays (`startTime_next_of_noReference`), and the clock only goes forward. A thread that
already waits must do so with a timeout, which `deadline_of_reach` is about; after the deadline it
never waits again.
-/

namespace RealmeSalaa.MultiHal

open HalProxy
open ConditionVariable (Point Consistent)

variable {P : Type} {K : Constants}

/-! ## Runs without a new reference -/

section Reference

variable {s : System P} {a : Action P}

/-- The action may take a reference: a locked scoped wakelock, or a batch posted with one. -/
def System.takesReference (s : System P) : Action P → Bool
  | .createScopedWakelock _ lock _ => lock
  | .postEventsToMessageQueue t _ _ _ => (s.subHals t).wakelock?.any ScopedWakelock.mLocked
  | _ => false

theorem postedCount_of_noReference (hno : s.takesReference a = false) : s.postedCount a = none := by
  cases a with
  | postEventsToMessageQueue t avail ok now =>
    cases hpost : s.subHals t with
    | posting events n wakelock began =>
      have hunlocked : wakelock.mLocked = false := by
        simpa [System.takesReference, hpost, SubHalThread.wakelock?] using hno
      simp [System.postedCount, hpost, hunlocked]
    | _ => simp only [System.postedCount, hpost]
  | _ => rfl

/-- The timeout keeps its start, and the count does not grow. -/
theorem startTime_next_of_noReference (K : Constants) (hno : s.takesReference a = false) :
    (System.next K s a).proxy.wakelock.mWakelockTimeoutStartTime =
        s.proxy.wakelock.mWakelockTimeoutStartTime ∧
      (System.next K s a).proxy.wakelock.mWakelockRefCount ≤
        s.proxy.wakelock.mWakelockRefCount := by
  cases htakes : a.takesWakelock with
  | true =>
    cases a with
    | createScopedWakelock t lock now =>
      have hlock : lock = false := hno
      have hsame : (System.next K s (.createScopedWakelock t lock now)).proxy.wakelock =
          s.proxy.wakelock :=
        congrArg Prod.fst (ScopedWakelock.create_unlocked (.inl hlock))
      rw [hsame]
      exact ⟨rfl, le_refl _⟩
    | _ => cases htakes
  | false =>
    have hmove := wakelockMove_next K s a
    rw [htakes, postedCount_of_noReference hno] at hmove
    exact hmove.startTime

/-- Nor is the thread notified. -/
theorem notifies_of_noReference (K : Constants) (hno : s.takesReference a = false)
    (hmain : a.isMain = false) : s.notifies K .wakelocks a = false := by
  cases a with
  | createScopedWakelock t lock now =>
    have hlock : lock = false := hno
    simp [System.notifies, System.acquires, hlock]
  | postEventsToMessageQueue t avail ok now =>
    have hunlocked : (s.subHals t).wakelock?.any ScopedWakelock.mLocked = false := hno
    simp [System.notifies, System.acquires, hunlocked]
  | mainStep now => cases hmain
  | _ => rfl

end Reference

/-- The action takes no reference, is none of the binder thread, and does not wake the wakelock
thread for no reason. -/
def NoReference (s : WaitingSystem P) : WaitingAction P → Prop
  | .sys a => a.isMain = false ∧ s.sys.takesReference a = false
  | .next _ => True
  | .wakeSpuriously w => w ≠ .wakelocks

instance (s : WaitingSystem P) : (b : WaitingAction P) → Decidable (NoReference s b)
  | .sys _ => inferInstanceAs (Decidable (_ ∧ _))
  | .next _ => isTrue trivial
  | .wakeSpuriously w => inferInstanceAs (Decidable (w ≠ .wakelocks))

/-! ## The steps that are left -/

/-- One reset, and the three points after it. -/
def System.stepsToReset (s : System P) : ℕ := if s.work .wakelocks then 3 else 0

/-- How many steps the wakelock thread has at most before it sleeps with nothing counted. -/
def WaitingSystem.stepsToRelease (s : WaitingSystem P) : ℕ :=
  match s.sys.wakelocks with
  | .notRunning => 0
  | .locked => (s.point .wakelocks).left + s.sys.stepsToReset
  | .reading _ => 4 + s.sys.stepsToReset

theorem stepsToReset_of_refCount {s s' : System P}
    (h : s'.proxy.wakelock.mWakelockRefCount ≤ s.proxy.wakelock.mWakelockRefCount) :
    s'.stepsToReset ≤ s.stepsToReset := by
  unfold System.stepsToReset System.work
  by_cases hpos : 0 < s'.proxy.wakelock.mWakelockRefCount
  · simp [hpos, hpos.trans_le h]
  · simp [hpos]

theorem stepsToReset_eq_zero_iff {s : System P} :
    s.stepsToReset = 0 ↔ s.proxy.wakelock.mWakelockRefCount = 0 := by
  simp [System.stepsToReset, System.work, Nat.pos_iff_ne_zero]

section Releasing

variable {s : WaitingSystem P} {b : WaitingAction P}

/-- Where the thread waits, `readBlocking` returns in the end. -/
def Timed (s : System P) : Prop := ∀ timeLeft, s.wakelocks = .reading timeLeft → 0 < timeLeft

/-- The threads run, and the shared wakelock has timed out. -/
structure Releases (K : Constants) (s : WaitingSystem P) : Prop where
  knows : Knows s
  running : s.sys.proxy.mThreadsRun = true
  started : s.sys.wakelocks ≠ .notRunning
  timed : Timed s.sys
  due : s.sys.proxy.wakelock.mWakelockTimeoutStartTime + K.kWakelockTimeoutNs < s.sys.clock

/-- Past the deadline the timeout is found. -/
theorem didTimeout_of_due {w : SharedWakelock} {kWakelockTimeoutNs now : ℤ}
    (hdue : w.mWakelockTimeoutStartTime + kWakelockTimeoutNs < now) :
    w.sharedWakelockDidTimeout kWakelockTimeoutNs now = none := by
  unfold SharedWakelock.sharedWakelockDidTimeout
  exact if_pos (by omega)

theorem stepsToRelease_le (s : WaitingSystem P) : s.stepsToRelease ≤ 7 := by
  have hreset : s.sys.stepsToReset ≤ 3 := by unfold System.stepsToReset; split <;> omega
  have hleft : (s.point .wakelocks).left ≤ 4 := by cases s.point .wakelocks <;> simp [Point.left]
  unfold WaitingSystem.stepsToRelease
  cases s.sys.wakelocks <;> dsimp only <;> omega

theorem releases_next (hs : Releases K s) (hg : s.guard K b) (hb : NoReference s b) :
    Releases K (s.next K b) := by
  have hknows := knows_next hs.knows hg
  cases b with
  | next w => exact { hs with knows := hknows }
  | wakeSpuriously w => exact { hs with knows := hknows }
  | sys a =>
    obtain ⟨hmain, hno⟩ := hb
    have hguard := guard_of_waitingGuard hs.knows hg
    refine ⟨hknows, ?_, ?_, ?_, ?_⟩
    · exact (sameRound_next K s.sys hmain).mThreadsRun.trans hs.running
    · show (System.next K s.sys a).wakelocks ≠ _
      cases ha : a.isOf .wakelocks with
      | false =>
        rw [wakelocks_next_of_other K s.sys ha hmain]
        exact hs.started
      | true =>
        cases wakelocksStep K hguard ha with
        | timedOut hw hrun hcount hnext => rw [hnext]; exact hs.started
        | wait hw hrun hnow htime hw' => rw [hw']; exact WakelockThread.noConfusion
        | read hw hw' => rw [hw']; exact WakelockThread.noConfusion
        | exit hw hstopped => exact absurd (hs.running.symm.trans hstopped) Bool.noConfusion
    · intro timeLeft hreading
      rcases wakelocks_next hreading with hold | ⟨now, now', rfl, htime⟩
      · exact hs.timed timeLeft hold
      · rw [didTimeout_of_due (hs.due.trans_le hguard.2.2.2.1)] at htime
        cases htime
    · show (System.next K s.sys a).proxy.wakelock.mWakelockTimeoutStartTime + _ < _
      rw [(startTime_next_of_noReference K hno).1]
      exact hs.due.trans_le (clock_next hguard)

/-- The other threads do not put it off. -/
theorem stepsToRelease_next_of_other (hb : NoReference s b)
    (hother : b.isOf .wakelocks = false) : (s.next K b).stepsToRelease ≤ s.stepsToRelease := by
  cases b with
  | next w =>
    have hw : Waiter.wakelocks ≠ w := fun h => by simp [WaitingAction.isOf, h] at hother
    simp only [WaitingSystem.stepsToRelease, WaitingSystem.next, Function.update_of_ne hw, le_refl]
  | wakeSpuriously w =>
    have hw : Waiter.wakelocks ≠ w := fun h => hb h.symm
    simp only [WaitingSystem.stepsToRelease, WaitingSystem.next, Function.update_of_ne hw, le_refl]
  | sys a =>
    obtain ⟨hmain, hno⟩ := hb
    have hpoint := pointAfter_of_other s hother hmain (notifies_of_noReference K hno hmain)
    have hreset := stepsToReset_of_refCount (startTime_next_of_noReference K hno).2
    unfold WaitingSystem.stepsToRelease
    simp only [WaitingSystem.next, hpoint, wakelocks_next_of_other K s.sys hother hmain]
    cases s.sys.wakelocks with
    | notRunning => exact le_refl _
    | locked => exact Nat.add_le_add_left hreset _
    | reading timeLeft => exact Nat.add_le_add_left hreset _

/-- Each of its own steps brings it closer. -/
theorem stepsToRelease_next (hs : Releases K s) (hg : s.guard K b) (hb : NoReference s b)
    (hown : b.isOf .wakelocks = true) : (s.next K b).stepsToRelease < s.stepsToRelease := by
  cases b with
  | wakeSpuriously w => cases hown
  | next w =>
    have hw : w = .wakelocks := by simpa [WaitingAction.isOf] using hown
    rw [hw] at hg ⊢
    obtain ⟨hin, hwaits⟩ := hg
    rw [hs.running] at hwaits
    have hleft := Point.left_next (s.ready .wakelocks) hwaits
    have hlocked : s.sys.wakelocks = .locked := of_decide_eq_true hin
    simp only [WaitingSystem.stepsToRelease, WaitingSystem.next, hlocked, Function.update_self]
    omega
  | sys a =>
    have hpoint : ∀ p, s.sys.enters .wakelocks a = some p →
        s.sys.notifies K .wakelocks a = false → s.pointAfter K a .wakelocks = p :=
      fun p henters hnot => by simp [WaitingSystem.pointAfter, hnot, henters]
    cases wakelocksStep K (guard_of_waitingGuard hs.knows hg) hown with
    | @timedOut now now' hlocked hrun hcount hnext =>
      have hafter : (s.sys.reset now').stepsToReset = 0 := by
        rw [stepsToReset_eq_zero_iff]
        simp only [System.reset, hs.running]
        exact SharedWakelock.refCount_reset
      have hbefore : s.sys.stepsToReset = 3 := if_pos (decide_eq_true hcount)
      have hwakelocks : (s.sys.reset now').wakelocks = .locked := hlocked
      simp only [WaitingSystem.stepsToRelease, WaitingSystem.next, hnext, hwakelocks,
        hpoint _ rfl rfl, hlocked, hg.2.1, hafter, hbefore, Point.left]
      omega
    | wait hw hrun hnow htime hw' =>
      rw [didTimeout_of_due (hs.due.trans_le hnow)] at htime
      cases htime
    | read hw hw' =>
      have hreset := stepsToReset_of_refCount (startTime_next_of_noReference K hb.2).2
      simp only [WaitingSystem.stepsToRelease, WaitingSystem.next, hw', hpoint _ rfl rfl, hw,
        Point.left]
      omega
    | exit hw hstopped => exact absurd (hs.running.symm.trans hstopped) Bool.noConfusion

/-- The number is zero only when nothing is counted and the thread sleeps. -/
theorem stepsToRelease_eq_zero (hs : Releases K s) (h : s.stepsToRelease = 0) :
    s.sys.proxy.wakelock.mWakelockRefCount = 0 ∧ s.sys.wakelocks = .locked ∧
      s.point .wakelocks = .parked := by
  unfold WaitingSystem.stepsToRelease at h
  cases hw : s.sys.wakelocks with
  | notRunning => exact absurd hw hs.started
  | locked =>
    rw [hw] at h
    dsimp only at h
    refine ⟨stepsToReset_eq_zero_iff.1 (by omega), rfl, ?_⟩
    cases hp : s.point .wakelocks <;> simp [hp, Point.left] at h ⊢
  | reading timeLeft =>
    rw [hw] at h
    dsimp only at h
    omega

/-- Unless the number is zero the thread can take a step. -/
theorem exists_step_of_stepsToRelease (hs : Releases K s) (h : 0 < s.stepsToRelease) :
    ∃ b : WaitingAction P, s.guard K b ∧ b.isOf .wakelocks = true := by
  cases hw : s.sys.wakelocks with
  | notRunning => exact absurd hw hs.started
  | reading timeLeft =>
    refine ⟨.sys (.readBlocking none), ⟨?_, fun w htakes => ?_⟩, rfl⟩
    · simp [System.guard, hw, WakelockThread.isReading]
    · cases w <;> cases htakes
  | locked =>
    have hin : s.sys.inLoop .wakelocks = true := by simp [System.inLoop, hw]
    rcases (s.point .wakelocks).waits_or with hwaits | hparked | htested
    · exact ⟨.next .wakelocks, ⟨hin, by rw [hs.running]; exact hwaits⟩, by
        simp [WaitingAction.isOf]⟩
    · -- asleep, nothing is counted
      have hnone := (hs.knows.consistent _ hin).asleep (by rw [hparked]; rfl)
      simp [WaitingSystem.stepsToRelease, System.stepsToReset, hw, hparked, hnone, Point.left] at h
    · exact ⟨.sys (.checkTimeout s.sys.clock s.sys.clock),
        ⟨hin, htested, hs.running, le_refl _, le_refl _⟩, rfl⟩

theorem balanced_next_of_noReference (hbalanced : s.sys.proxy.wakelock.Balanced)
    (hb : NoReference s b) : (s.next K b).sys.proxy.wakelock.Balanced := by
  cases b with
  | next w => exact hbalanced
  | wakeSpuriously w => exact hbalanced
  | sys a =>
    refine (wakelockMove_next K s.sys a).balanced hbalanced fun n hn => ?_
    rw [postedCount_of_noReference hb.2] at hn
    cases hn

/-- **Releasing.** In every reachable state in which the threads run and the shared wakelock has
timed out, and the wakelock thread does not wait without a timeout: in every continuation without
a binder call, a new reference or a spurious wake-up, it takes at most `stepsToRelease` steps, which
are seven at most, whatever is acknowledged and whatever else runs. It never waits without a
timeout, and as long as the number is not zero it can take a step; at zero it sleeps with nothing
counted, and the kernel wakelock is released if it was held exactly for what was counted. -/
theorem releases_of_reach {R : WaitingSystem P → WaitingAction P → Prop} {subHals : List SubHal}
    {clock : ℤ} {n : ℕ} {s' : WaitingSystem P}
    (h : (waitingHal K P).Reach R (.constructed K P subHals clock) s)
    (hrun : s.sys.proxy.mThreadsRun = true) (hstarted : s.sys.wakelocks ≠ .notRunning)
    (htimed : ∀ timeLeft, s.sys.wakelocks = .reading timeLeft → 0 < timeLeft)
    (hdue : s.sys.proxy.wakelock.mWakelockTimeoutStartTime + K.kWakelockTimeoutNs < s.sys.clock)
    (hcounts : (waitingHal K P).Counts NoReference (fun b => b.isOf .wakelocks = true) s n s') :
    n + s'.stepsToRelease ≤ s.stepsToRelease ∧ s.stepsToRelease ≤ 7 ∧
      (∀ timeLeft, s'.sys.wakelocks = .reading timeLeft → 0 < timeLeft) ∧
      (0 < s'.stepsToRelease → ∃ b : WaitingAction P, s'.guard K b ∧ b.isOf .wakelocks = true) ∧
      (s'.stepsToRelease = 0 → s'.sys.proxy.wakelock.mWakelockRefCount = 0 ∧
        s'.sys.wakelocks = .locked ∧ s'.point .wakelocks = .parked ∧
        (s.sys.proxy.wakelock.Balanced → s'.sys.proxy.wakelock.held = false)) := by
  have hs : Releases K s := ⟨knows_of_reach h, hrun, hstarted, htimed, hdue⟩
  have hother : ∀ s b, Releases K s → (waitingHal K P).guard s b → NoReference s b →
      ¬b.isOf .wakelocks = true → ((waitingHal K P).next s b).stepsToRelease ≤ s.stepsToRelease :=
    fun _ _ _ _ hb hother => stepsToRelease_next_of_other hb (Bool.eq_false_iff.2 hother)
  obtain ⟨hs', hle⟩ := hcounts.add_rank_le hs (fun _ _ => releases_next)
    (fun _ _ => stepsToRelease_next) hother
  refine ⟨hle, stepsToRelease_le s, hs'.timed, exists_step_of_stepsToRelease hs',
    fun hzero => ?_⟩
  obtain ⟨hcount, hlocked, hparked⟩ := stepsToRelease_eq_zero hs' hzero
  refine ⟨hcount, hlocked, hparked, fun hbalanced => ?_⟩
  have hbalanced' : s'.sys.proxy.wakelock.Balanced :=
    GuardedSystem.Reach.invariant (I := fun s => s.sys.proxy.wakelock.Balanced) hbalanced
      (fun _ _ hbalanced _ => balanced_next_of_noReference hbalanced) hcounts.reach
  cases hheld : s'.sys.proxy.wakelock.held with
  | false => rfl
  | true => exact absurd (hbalanced'.1 hheld) (by omega)

end Releasing

/-- Sub-HAL thread 0 takes a reference and keeps it for more than 500 ms. -/
def heldRun : List (WaitingAction ℕ) :=
  (initializeRun 4).map .sys ++
    [.sys (.createScopedWakelock 0 true 1), .sys (.createScopedWakelock 1 false 500000002)]

/-- The wakelock thread goes through one round and falls asleep. -/
def releaseRun : List (WaitingAction ℕ) :=
  [.next .wakelocks, .next .wakelocks, .next .wakelocks, .sys (.destroyScopedWakelock 1),
    .sys (.checkTimeout 500000003 500000004), .next .wakelocks, .next .wakelocks, .next .wakelocks]

theorem releases_of_reach_sample :
    let s := (waitingHal sampleConstants ℕ).exec waitingSample heldRun
    let s' := (waitingHal sampleConstants ℕ).exec s releaseRun
    s.sys.proxy.wakelock.held = true ∧ 7 + s'.stepsToRelease ≤ s.stepsToRelease ∧
      s.stepsToRelease ≤ 7 ∧ (∀ timeLeft, s'.sys.wakelocks = .reading timeLeft → 0 < timeLeft) ∧
      (0 < s'.stepsToRelease →
        ∃ b : WaitingAction ℕ, s'.guard sampleConstants b ∧ b.isOf .wakelocks = true) ∧
      (s'.stepsToRelease = 0 → s'.sys.proxy.wakelock.mWakelockRefCount = 0 ∧
        s'.sys.wakelocks = .locked ∧ s'.point .wakelocks = .parked ∧
        (s.sys.proxy.wakelock.Balanced → s'.sys.proxy.wakelock.held = false)) :=
  have hreach : (waitingHal sampleConstants ℕ).Reach (fun _ _ => True) waitingSample
    ((waitingHal sampleConstants ℕ).exec waitingSample heldRun) :=
    GuardedSystem.reach_exec (by decide)
  have hlegal : (waitingHal sampleConstants ℕ).Legal NoReference
    ((waitingHal sampleConstants ℕ).exec waitingSample heldRun) releaseRun := by decide
  have hlocked : ((waitingHal sampleConstants ℕ).exec waitingSample heldRun).sys.wakelocks =
    .locked := by decide
  ⟨by decide, releases_of_reach hreach (by decide) (by decide)
    (fun _ hreading => by rw [hlocked] at hreading; cases hreading) (by decide)
    (GuardedSystem.counts_exec (fun b => b.isOf .wakelocks = true) releaseRun hlegal)⟩

end RealmeSalaa.MultiHal
