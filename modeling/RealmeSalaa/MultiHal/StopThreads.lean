import RealmeSalaa.MultiHal.ThreadsRunTests

/-!
# Stopping the threads

`stopThreads` clears `mThreadsRun`, notifies both condition variables and joins both threads, and
takes neither mutex for it. A thread that was notified before it is asleep, but after it has found
nothing to do, does not notice.

* If the notifications find no thread there, the joins end: the two threads have at most eight
  steps left between them, and can take them (`joins_end`).
* If they find one there, it sleeps on, and the joins wait until it wakes up for no reason, or a
  sub-HAL that had passed its test of `mThreadsRun` before gives it work (`joins_never_end`).
-/

namespace RealmeSalaa.MultiHal

open HalProxy GuardedSystem
open ConditionVariable (Point Consistent)

variable {P : Type} {K : Constants}

/-! ## The joins -/

/-- The binder thread waits for a thread of the proxy. -/
def MainThread.isJoining : MainThread → Bool
  | .joinPendingWritesThread _ => true
  | .joinWakelockThread _ => true
  | _ => false

/-- The next statement notifies both threads. -/
def MainThread.isWaking : MainThread → Bool
  | .wakeThreads _ => true
  | _ => false

theorem MainThread.isStopped_of_isJoining {m : MainThread} (h : m.isJoining = true) :
    m.isStopped = true := by
  cases m <;> simp_all [isJoining, isStopped]

/-- The joins follow the notifications. -/
theorem isJoining_mainNext (s : System P) (now : ℤ)
    (h : (s.mainNext now).main.isJoining = true) :
    s.main.isWaking = true ∨ s.main.isJoining = true := by
  unfold System.mainNext at h
  cases hm : s.main with
  | wakeThreads caller => exact .inl rfl
  | joinPendingWritesThread caller => exact .inr rfl
  | joinWakelockThread caller => exact .inr rfl
  | idle => simp [hm, MainThread.isJoining] at h
  | returned result => simp [hm, MainThread.isJoining] at h
  | destroyed => simp [hm, MainThread.isJoining] at h
  | initializeSubHal i args result =>
    rw [hm] at h
    dsimp only at h
    split at h <;> cases h
  | _ => rw [hm] at h; cases h

/-- The notifications of `stopThreads` find no thread between its test and its sleep. -/
def HeardAtStop (s : WaitingSystem P) : WaitingAction P → Prop
  | .sys (.mainStep _) =>
    s.sys.main.isWaking = true → ∀ w, s.sys.inLoop w = true → s.point w ≠ .parking
  | _ => True

instance (s : WaitingSystem P) : (b : WaitingAction P) → Decidable (HeardAtStop s b)
  | .sys (.mainStep _) => decidable_of_iff (s.sys.main.isWaking = true →
      (s.sys.inLoop .pendingWrites = true → s.point .pendingWrites ≠ .parking) ∧
      (s.sys.inLoop .wakelocks = true → s.point .wakelocks ≠ .parking))
      ⟨fun h hm w => Waiter.casesOn w (h hm).1 (h hm).2, fun h hm => ⟨h hm _, h hm _⟩⟩
  | .sys (.createScopedWakelock ..) | .sys (.postEvents ..) | .sys (.postEventsToMessageQueue ..)
  | .sys (.destroyScopedWakelock _) | .sys .takePendingWrites | .sys (.writeBlocking _)
  | .sys .finishPendingWrites | .sys .exitPendingWrites | .sys (.checkTimeout _ _)
  | .sys (.readBlocking _) | .sys (.exitWakelocks _) | .sys (.initializeCommon _) | .sys .destroy
  | .next _ | .wakeSpuriously _ => isTrue trivial

/-! ## Both threads are awake at the joins -/

section Awake

variable {s : WaitingSystem P} {b : WaitingAction P}

/-- At the joins both threads are awake. -/
def AwakeAtJoin (s : WaitingSystem P) : Prop :=
  s.sys.main.isJoining = true → ∀ w, s.sys.inLoop w = true → (s.point w).isAsleep = false

/-- An action of a thread puts no waiter to sleep. -/
theorem isAsleep_pointAfter (hs : Knows s) {a : Action P} (hg : s.guard K (.sys a)) {w : Waiter}
    (hin : (System.next K s.sys a).inLoop w = true)
    (hawake : s.sys.inLoop w = true → (s.point w).isAsleep = false) :
    (s.pointAfter K a w).isAsleep = false := by
  have hold : (System.next K s.sys a).inLoop w = s.sys.inLoop w →
      s.sys.enters w a = none → (s.pointAfter K a w).isAsleep = false := by
    intro hsame henters
    have hpoint := hawake (hsame.symm.trans hin)
    unfold WaitingSystem.pointAfter
    rw [henters, Point.notify_eq_self hpoint]
    split <;> exact hpoint
  rcases waiterMove_next K hs.joined (guard_of_waitingGuard hs hg) w with
    hout | ⟨p, henters, hp, hnot⟩ | ⟨-, henters, hsame, -⟩ | ⟨henters, hsame, -⟩
  · exact absurd (hin.symm.trans hout) Bool.noConfusion
  · unfold WaitingSystem.pointAfter
    rw [hnot, henters]
    rcases hp with rfl | rfl <;> rfl
  · exact hold hsame henters
  · exact hold hsame henters

/-- At the joins the threads are to end. -/
theorem ready_of_joining (hknown : RunKnown s.sys) (hj : s.sys.main.isJoining = true) (w : Waiter) :
    s.sys.proxy.mThreadsRun = false ∧ s.ready w = true := by
  have hrun := hknown.stopped (MainThread.isStopped_of_isJoining hj)
  exact ⟨hrun, by simp [WaitingSystem.ready, hrun]⟩

theorem awakeAtJoin_next (hs : Knows s) (hknown : RunKnown s.sys) (hawake : AwakeAtJoin s)
    (hg : s.guard K b) (hheard : HeardAtStop s b) : AwakeAtJoin (s.next K b) := by
  intro hj w hin
  cases b with
  | next v =>
    have hv := (ready_of_joining hknown hj v).2
    show (Function.update s.point v _ w).isAsleep = false
    by_cases h : w = v
    · rw [h, Function.update_self, hv]
      exact Point.isAsleep_next (hawake hj v (h ▸ hin))
    · rw [Function.update_of_ne h]
      exact hawake hj w hin
  | wakeSpuriously v =>
    show (Function.update s.point v _ w).isAsleep = false
    by_cases h : w = v
    · rw [h, Function.update_self]
      rfl
    · rw [Function.update_of_ne h]
      exact hawake hj w hin
  | sys a =>
    have hj' : (System.next K s.sys a).main.isJoining = true := hj
    cases hmain : a.isMain with
    | false =>
      rw [(sameRound_next K s.sys hmain).main] at hj'
      exact isAsleep_pointAfter hs hg hin (hawake hj' w)
    | true =>
      rcases main_next K s.sys hmain with ⟨caller, hnext, -⟩ | ⟨now, rfl⟩
      · rw [hnext] at hj'
        exact absurd hj' Bool.false_ne_true
      · rcases isJoining_mainNext s.sys now hj' with hwaking | hjoining
        · -- the notifications themselves
          have hold : s.sys.inLoop w = true := by
            rw [← hin]
            cases hm : s.sys.main <;> simp [hm, MainThread.isWaking] at hwaking
            cases w <;> simp [WaitingSystem.next, System.next, System.mainNext, System.inLoop, hm]
          have hnotifies : s.sys.notifies K w (.mainStep now) = true := by
            cases hm : s.sys.main <;> simp [hm, MainThread.isWaking] at hwaking
            cases w <;> simp [System.notifies, hm]
          have hnot := hheard hwaking w hold
          show (s.pointAfter K (.mainStep now) w).isAsleep = false
          rw [WaitingSystem.pointAfter, hnotifies, if_pos rfl]
          exact Bool.eq_false_iff.2 fun h => hnot ((Point.isAsleep_notify _).1 h)
        · exact isAsleep_pointAfter hs hg hin (hawake hjoining w)

theorem awakeAtJoin_of_reach {subHals : List SubHal} {clock : ℤ}
    (h : (waitingHal K P).Reach HeardAtStop (.constructed K P subHals clock) s) :
    Knows s ∧ RunKnown s.sys ∧ AwakeAtJoin s := by
  refine h.invariant (I := fun s => Knows s ∧ RunKnown s.sys ∧ AwakeAtJoin s)
    ⟨knows_constructed K P subHals clock, runKnown_constructed K P subHals clock,
      fun hj => absurd hj Bool.false_ne_true⟩ ?_
  rintro s b ⟨hs, hknown, hawake⟩ hg hheard
  exact ⟨knows_next hs hg, runKnown_waitingNext hknown b,
    awakeAtJoin_next hs hknown hawake hg hheard⟩

end Awake

/-! ## The joins end -/

namespace WaitingSystem

/-- How many steps a thread has at most before it ends, once it is to end and awake. -/
def stepsToExit (s : WaitingSystem P) : Waiter → ℕ
  | .pendingWrites =>
    match s.sys.pendingWrites with
    | .notRunning => 0
    | .locked => (s.point .pendingWrites).rank + 1
    | .writing _ _ => 3
    | .wrote _ _ => 2
  | .wakelocks =>
    match s.sys.wakelocks with
    | .notRunning => 0
    | .locked => (s.point .wakelocks).rank + 1
    | .reading _ => 2

/-- Both threads together. -/
def stepsToJoin (s : WaitingSystem P) : ℕ := s.stepsToExit .pendingWrites + s.stepsToExit .wakelocks

theorem stepsToJoin_le (s : WaitingSystem P) : s.stepsToJoin ≤ 8 := by
  have hpoint := fun w => (s.point w).rank_le
  have hwrites : s.stepsToExit .pendingWrites ≤ 4 := by
    have := hpoint .pendingWrites
    simp only [stepsToExit]
    split <;> omega
  have hwakelocks : s.stepsToExit .wakelocks ≤ 4 := by
    have := hpoint .wakelocks
    simp only [stepsToExit]
    split <;> omega
  unfold stepsToJoin
  omega

theorem stepsToJoin_eq_zero_iff (s : WaitingSystem P) :
    s.stepsToJoin = 0 ↔ s.sys.pendingWrites = .notRunning ∧ s.sys.wakelocks = .notRunning := by
  simp only [stepsToJoin, stepsToExit]
  cases s.sys.pendingWrites <;> cases s.sys.wakelocks <;> simp

end WaitingSystem

section Ends

variable {s : WaitingSystem P} {b : WaitingAction P}

/-- The binder thread waits in a join, and both threads are awake. -/
structure Joining (s : WaitingSystem P) : Prop where
  knows : Knows s
  runKnown : RunKnown s.sys
  joining : s.sys.main.isJoining = true
  awake : AwakeAtJoin s

/-- The action is one of the two threads. -/
def WaitingAction.isOwn (b : WaitingAction P) : Bool := b.isOf .pendingWrites || b.isOf .wakelocks

/-- The action is none of the binder thread, which still waits. -/
def StillWaits (_ : WaitingSystem P) : WaitingAction P → Prop
  | .sys a => a.isMain = false
  | _ => True

instance (s : WaitingSystem P) : (b : WaitingAction P) → Decidable (StillWaits s b)
  | .sys a => inferInstanceAs (Decidable (a.isMain = false))
  | .next _ | .wakeSpuriously _ => isTrue trivial

theorem joining_next (hs : Joining s) (hg : s.guard K b) (hb : StillWaits s b) :
    Joining (s.next K b) := by
  have hheard : HeardAtStop s b := by
    cases b with
    | sys a =>
      cases a with
      | mainStep now => cases hb
      | _ => trivial
    | _ => trivial
  have hawake := awakeAtJoin_next hs.knows hs.runKnown hs.awake hg hheard
  have hknows := knows_next hs.knows hg
  refine ⟨hknows, runKnown_waitingNext hs.runKnown b, ?_, hawake⟩
  cases b with
  | sys a =>
    show (System.next K s.sys a).main.isJoining = true
    rw [(sameRound_next K s.sys hb).main]
    exact hs.joining
  | _ => exact hs.joining

/-- A thread is not woken, since it is not asleep. -/
theorem not_wakeSpuriously (hs : Joining s) {w : Waiter} : ¬s.guard K (.wakeSpuriously w) := by
  rintro ⟨hin, hparked⟩
  have hawake := hs.awake hs.joining w hin
  rw [hparked] at hawake
  cases hawake

/-- An action of another thread leaves the steps of a thread alone. -/
theorem stepsToExit_next_of_other (hs : Joining s) (hg : s.guard K b) (hb : StillWaits s b)
    {w : Waiter} (hother : b.isOf w = false) :
    (s.next K b).stepsToExit w = s.stepsToExit w := by
  cases b with
  | wakeSpuriously v => exact absurd hg (not_wakeSpuriously hs)
  | next v =>
    have hw : w ≠ v := fun h => by simp [WaitingAction.isOf, h] at hother
    cases w <;> simp only [WaitingSystem.stepsToExit, WaitingSystem.next,
      Function.update_of_ne hw]
  | sys a =>
    have henters := enters_of_other s.sys hother hb
    have hpoint : s.sys.inLoop w = true → s.pointAfter K a w = s.point w := by
      intro hin
      unfold WaitingSystem.pointAfter
      rw [henters, Point.notify_eq_self (hs.awake hs.joining w hin), Option.getD_none, ite_self]
    cases w with
    | pendingWrites =>
      have hsame := pendingWrites_next_of_other K s.sys hother hb
      cases hw : s.sys.pendingWrites <;>
        simp only [WaitingSystem.stepsToExit, WaitingSystem.next, hsame, hw]
      rw [hpoint (by simp [System.inLoop, hw])]
    | wakelocks =>
      have hsame := wakelocks_next_of_other K s.sys hother hb
      cases hw : s.sys.wakelocks <;>
        simp only [WaitingSystem.stepsToExit, WaitingSystem.next, hsame, hw]
      rw [hpoint (by simp [System.inLoop, hw])]

/-- A step of a thread brings it closer to its end. -/
theorem stepsToExit_next (hs : Joining s) (hg : s.guard K b) {w : Waiter} (hown : b.isOf w = true) :
    (s.next K b).stepsToExit w < s.stepsToExit w := by
  cases b with
  | wakeSpuriously v => cases hown
  | next v =>
    obtain rfl : v = w := by simpa [WaitingAction.isOf] using hown
    obtain ⟨hin, hwaits⟩ := hg
    obtain ⟨hrun, hready⟩ := ready_of_joining hs.runKnown hs.joining v
    rw [hrun] at hwaits
    have hlt := Point.rank_next (hs.awake hs.joining v hin) hwaits
    cases v with
    | pendingWrites =>
      have hlocked : s.sys.pendingWrites = .locked := of_decide_eq_true hin
      simp only [WaitingSystem.stepsToExit, WaitingSystem.next, hlocked, Function.update_self,
        hready]
      omega
    | wakelocks =>
      have hlocked : s.sys.wakelocks = .locked := of_decide_eq_true hin
      simp only [WaitingSystem.stepsToExit, WaitingSystem.next, hlocked, Function.update_self,
        hready]
      omega
  | sys a =>
    have hrun := (ready_of_joining hs.runKnown hs.joining w).1
    have hguard := guard_of_waitingGuard hs.knows hg
    cases w with
    | pendingWrites =>
      cases pendingWritesStep K hguard hown with
      | take hw hruns => exact absurd (hrun.symm.trans hruns) Bool.noConfusion
      | write hw hw' =>
        simp only [WaitingSystem.stepsToExit, WaitingSystem.next, hw', hw]
        omega
      | finish hw hnext =>
        have hpoint : s.pointAfter K .finishPendingWrites .pendingWrites = .loopTest := rfl
        simp only [WaitingSystem.stepsToExit, WaitingSystem.next, hnext, System.finish, hpoint, hw,
          Point.rank]
        omega
      | exit hw hstopped =>
        simp only [WaitingSystem.stepsToExit, WaitingSystem.next, System.next, hw]
        omega
    | wakelocks =>
      cases wakelocksStep K hguard hown with
      | timedOut hw hruns hcount hnext => exact absurd (hrun.symm.trans hruns) Bool.noConfusion
      | wait hw hruns hnow htime hw' => exact absurd (hrun.symm.trans hruns) Bool.noConfusion
      | @read timeLeft r hw hw' =>
        have hpoint : s.pointAfter K (.readBlocking r) .wakelocks = .loopTest := rfl
        simp only [WaitingSystem.stepsToExit, WaitingSystem.next, hw', hpoint, hw, Point.rank]
        omega
      | exit hw hstopped =>
        simp only [WaitingSystem.stepsToExit, WaitingSystem.next, System.next, hw]
        omega

/-- A thread that has not ended can take a step. -/
theorem exists_step_of_stepsToExit (K : Constants) (hs : Joining s) {w : Waiter}
    (h : 0 < s.stepsToExit w) : ∃ b : WaitingAction P, s.guard K b ∧ b.isOf w = true := by
  have hlocked : s.sys.inLoop w = true → s.point w = .loopTest ∨
      s.guard K (.next w : WaitingAction P) := by
    intro hin
    have hrun := (ready_of_joining hs.runKnown hs.joining w).1
    rcases Point.waits_of_awake (hs.awake hs.joining w hin) with hwaits | htest
    · exact .inr ⟨hin, by rw [hrun]; exact hwaits⟩
    · exact .inl htest
  have hrun : ¬s.sys.proxy.mThreadsRun = true := by
    rw [(ready_of_joining hs.runKnown hs.joining w).1]
    exact Bool.false_ne_true
  cases w with
  | pendingWrites =>
    cases hw : s.sys.pendingWrites with
    | notRunning => simp [WaitingSystem.stepsToExit, hw] at h
    | locked =>
      have hin : s.sys.inLoop .pendingWrites = true := by simp [System.inLoop, hw]
      rcases hlocked hin with htest | hnext
      · exact ⟨.sys .exitPendingWrites, ⟨hin, htest, hrun⟩, rfl⟩
      · exact ⟨_, hnext, by simp [WaitingAction.isOf]⟩
    | writing n q =>
      refine ⟨.sys (.writeBlocking true), ⟨by simp [System.guard, hw], fun w htakes => ?_⟩, rfl⟩
      cases w <;> simp [System.takesMutex, hw] at htakes
    | wrote n q =>
      refine ⟨.sys .finishPendingWrites, ⟨by simp [System.guard, hw], fun w htakes => ?_⟩, rfl⟩
      cases w <;> cases htakes
  | wakelocks =>
    cases hw : s.sys.wakelocks with
    | notRunning => simp [WaitingSystem.stepsToExit, hw] at h
    | locked =>
      have hin : s.sys.inLoop .wakelocks = true := by simp [System.inLoop, hw]
      rcases hlocked hin with htest | hnext
      · exact ⟨.sys (.exitWakelocks s.sys.clock), ⟨hin, htest, hrun, le_refl _⟩, rfl⟩
      · exact ⟨_, hnext, by simp [WaitingAction.isOf]⟩
    | reading timeLeft =>
      refine ⟨.sys (.readBlocking none),
        ⟨by simp [System.guard, hw, WakelockThread.isReading], fun w htakes => ?_⟩, rfl⟩
      cases w <;> cases htakes

/-- No action is one of both threads. -/
theorem isOf_wakelocks_of_isOf_pendingWrites (h : b.isOf .pendingWrites = true) :
    b.isOf .wakelocks = false := by
  cases b with
  | sys a => cases a <;> first | rfl | cases h
  | next v => cases v <;> simp_all [WaitingAction.isOf]
  | wakeSpuriously v => rfl

theorem stepsToJoin_next (hs : Joining s) (hg : s.guard K b) (hb : StillWaits s b) :
    (b.isOwn = true → (s.next K b).stepsToJoin < s.stepsToJoin) ∧
      (b.isOwn = false → (s.next K b).stepsToJoin = s.stepsToJoin) := by
  unfold WaitingSystem.stepsToJoin WaitingAction.isOwn
  cases hwrites : b.isOf .pendingWrites with
  | true =>
    have hother := isOf_wakelocks_of_isOf_pendingWrites hwrites
    have hlt := stepsToExit_next hs hg hwrites
    have heq := stepsToExit_next_of_other hs hg hb hother
    exact ⟨fun _ => by omega, fun h => absurd h Bool.noConfusion⟩
  | false =>
    have heq := stepsToExit_next_of_other hs hg hb hwrites
    cases hwakelocks : b.isOf .wakelocks with
    | true =>
      have hlt := stepsToExit_next hs hg hwakelocks
      exact ⟨fun _ => by omega, fun h => absurd h Bool.noConfusion⟩
    | false =>
      have heq' := stepsToExit_next_of_other hs hg hb hwakelocks
      exact ⟨fun h => absurd h Bool.noConfusion, fun _ => by omega⟩

/-- **The joins end.** In every run in which the notifications of `stopThreads` find no thread
between its test and its sleep: from any state at a join, in every continuation in which the binder
thread still waits, the two threads take at most eight steps, whatever the other threads do; and as
long as one of them has not ended, one can take a step. -/
theorem joins_end {subHals : List SubHal} {clock : ℤ} {n : ℕ} {s' : WaitingSystem P}
    (h : (waitingHal K P).Reach HeardAtStop (.constructed K P subHals clock) s)
    (hj : s.sys.main.isJoining = true)
    (hcounts : (waitingHal K P).Counts StillWaits (fun b => b.isOwn = true) s n s') :
    n ≤ 8 ∧ ((s'.sys.pendingWrites = .notRunning ∧ s'.sys.wakelocks = .notRunning) ∨
      ∃ b : WaitingAction P, s'.guard K b ∧ b.isOwn = true) := by
  obtain ⟨hknows, hknown, hawake⟩ := awakeAtJoin_of_reach h
  have hrank : Joining s' ∧ n + s'.stepsToJoin ≤ s.stepsToJoin := by
    refine hcounts.add_rank_le ⟨hknows, hknown, hj, hawake⟩ ?_ ?_ ?_
    · exact fun _ _ hs hg hb => joining_next hs hg hb
    · exact fun _ _ hs hg hb hown => (stepsToJoin_next hs hg hb).1 hown
    · exact fun _ _ hs hg hb hother =>
        ((stepsToJoin_next hs hg hb).2 (Bool.eq_false_iff.2 hother)).le
  obtain ⟨hs', hle⟩ := hrank
  have hbound := s.stepsToJoin_le
  refine ⟨by omega, ?_⟩
  by_cases hzero : s'.stepsToJoin = 0
  · exact .inl (s'.stepsToJoin_eq_zero_iff.1 hzero)
  · refine .inr ?_
    have hsome : 0 < s'.stepsToExit .pendingWrites ∨ 0 < s'.stepsToExit .wakelocks := by
      unfold WaitingSystem.stepsToJoin at hzero
      omega
    rcases hsome with hpos | hpos
    · obtain ⟨b, hg, hof⟩ := exists_step_of_stepsToExit K hs' hpos
      exact ⟨b, hg, by simp [WaitingAction.isOwn, hof]⟩
    · obtain ⟨b, hg, hof⟩ := exists_step_of_stepsToExit K hs' hpos
      exact ⟨b, hg, by simp [WaitingAction.isOwn, hof]⟩

end Ends

/-! ## A lost notification -/

section Lost

variable {s : WaitingSystem P} {b : WaitingAction P} {w : Waiter}

/-- The action neither notifies the waiter nor wakes it for no reason. -/
def NotWoken (K : Constants) (w : Waiter) (s : WaitingSystem P) : WaitingAction P → Prop
  | .sys a => s.sys.notifies K w a = false
  | .next _ => True
  | .wakeSpuriously v => v ≠ w

instance (w : Waiter) (s : WaitingSystem P) : (b : WaitingAction P) → Decidable (NotWoken K w s b)
  | .sys a => inferInstanceAs (Decidable (s.sys.notifies K w a = false))
  | .next _ => isTrue trivial
  | .wakeSpuriously v => inferInstanceAs (Decidable (v ≠ w))

/-- The binder thread waits for the thread, or for the other one before it. -/
def MainThread.waitsFor : Waiter → MainThread → Bool
  | .pendingWrites, .joinPendingWritesThread _ => true
  | .wakelocks, m => m.isJoining
  | _, _ => false

/-- The binder thread waits for a thread that is asleep. -/
structure Stuck (w : Waiter) (s : WaitingSystem P) : Prop where
  waitsFor : s.sys.main.waitsFor w = true
  inLoop : s.sys.inLoop w = true
  asleep : (s.point w).isAsleep = true

/-- Asleep, a thread takes no step that leaves the wait. -/
theorem not_isOf_of_asleep (hs : Stuck w s) {a : Action P} (hg : s.guard K (.sys a)) :
    a.isOf w = false := by
  obtain ⟨-, hin, hasleep⟩ := hs
  refine Bool.eq_false_iff.2 fun hown => ?_
  cases w with
  | pendingWrites =>
    have hlocked : s.sys.pendingWrites = .locked := of_decide_eq_true hin
    cases a with
    | takePendingWrites => rw [hg.2.1] at hasleep; cases hasleep
    | writeBlocking ok => simpa [System.guard, hlocked] using hg.1
    | finishPendingWrites => simpa [System.guard, hlocked] using hg.1
    | exitPendingWrites => rw [hg.2.1] at hasleep; cases hasleep
    | _ => cases hown
  | wakelocks =>
    have hlocked : s.sys.wakelocks = .locked := of_decide_eq_true hin
    cases a with
    | checkTimeout now now' => rw [hg.2.1] at hasleep; cases hasleep
    | readBlocking r => simpa [System.guard, hlocked, WakelockThread.isReading] using hg.1
    | exitWakelocks now => rw [hg.2.1] at hasleep; cases hasleep
    | _ => cases hown

/-- The binder thread does not get past the join of the thread. -/
theorem waitsFor_mainStep {s : System P} {now : ℤ} (hm : s.main.waitsFor w = true)
    (hin : s.inLoop w = true) (hg : s.guard (.mainStep now)) :
    (System.next K s (.mainStep now)).main.waitsFor w = true ∧
      (System.next K s (.mainStep now)).inLoop w = true ∧ s.enters w (.mainStep now) = none := by
  have hready := hg.1
  cases w with
  | pendingWrites =>
    have hlocked : s.pendingWrites = .locked := of_decide_eq_true hin
    cases hmain : s.main <;> simp only [hmain, MainThread.waitsFor, Bool.false_eq_true] at hm
    simp [hmain, MainThread.Ready, hlocked] at hready
  | wakelocks =>
    have hlocked : s.wakelocks = .locked := of_decide_eq_true hin
    cases hmain : s.main <;>
      simp only [hmain, MainThread.waitsFor, MainThread.isJoining, Bool.false_eq_true] at hm
    · refine ⟨?_, ?_, ?_⟩ <;>
        simp [System.next, System.mainNext, System.enters, System.inLoop, MainThread.waitsFor,
          MainThread.isJoining, hmain, hlocked]
    · simp [hmain, MainThread.Ready, hlocked] at hready

/-- What no action of the thread does, and no notification, leaves it where it is. -/
theorem stuck_next_of_other (hs : Stuck w s) {a : Action P} (hmain : a.isMain = false)
    (hother : a.isOf w = false) (hnot : s.sys.notifies K w a = false) :
    Stuck w (s.next K (.sys a)) := by
  refine ⟨?_, ?_, ?_⟩
  · show (System.next K s.sys a).main.waitsFor w = true
    rw [(sameRound_next K s.sys hmain).main]
    exact hs.waitsFor
  · show (System.next K s.sys a).inLoop w = true
    rw [inLoop_next_of_other K s.sys hother hmain]
    exact hs.inLoop
  · show (s.pointAfter K a w).isAsleep = true
    rw [pointAfter_of_other s hother hmain hnot]
    exact hs.asleep

theorem stuck_next (hs : Stuck w s) (hg : s.guard K b) (hb : NotWoken K w s b) :
    Stuck w (s.next K b) := by
  cases b with
  | next v =>
    refine ⟨hs.waitsFor, hs.inLoop, ?_⟩
    show (Function.update s.point v _ w).isAsleep = true
    by_cases h : w = v
    · rw [← h, Function.update_self]
      exact Point.isAsleep_next_of_asleep _ hs.asleep
    · rw [Function.update_of_ne h]
      exact hs.asleep
  | wakeSpuriously v =>
    refine ⟨hs.waitsFor, hs.inLoop, ?_⟩
    show (Function.update s.point v _ w).isAsleep = true
    rw [Function.update_of_ne (Ne.symm hb)]
    exact hs.asleep
  | sys a =>
    cases hmain : a.isMain with
    | false => exact stuck_next_of_other hs hmain (not_isOf_of_asleep hs hg) hb
    | true =>
      cases a with
      | mainStep now =>
        obtain ⟨hwaits, hin, henters⟩ := waitsFor_mainStep (K := K) hs.waitsFor hs.inLoop hg.1
        refine ⟨hwaits, hin, ?_⟩
        show (s.pointAfter K (.mainStep now) w).isAsleep = true
        rw [WaitingSystem.pointAfter, show s.sys.notifies K w (.mainStep now) = false from hb,
          henters]
        exact hs.asleep
      | initializeCommon args =>
        have hfree : s.sys.main.isFree = true := hg.1
        have hwaits := hs.waitsFor
        cases hm : s.sys.main <;> cases w <;>
          simp_all [MainThread.isFree, MainThread.waitsFor, MainThread.isJoining]
      | destroy =>
        have hfree : s.sys.main.isFree = true := hg.1
        have hwaits := hs.waitsFor
        cases hm : s.sys.main <;> cases w <;>
          simp_all [MainThread.isFree, MainThread.waitsFor, MainThread.isJoining]
      | _ => cases hmain

/-- Nor does what is left of an action past its test. -/
theorem stuck_rest (hs : Stuck w s) {a : Action P} (hmain : a.isMain = false)
    (hg : (s.setThreadsRun true).guard K (.sys a))
    (hnot : (s.setThreadsRun true).sys.notifies K w a = false) :
    Stuck w ((threadsRunTest K P).rest (.sys a) s) := by
  have htested : Stuck w (s.setThreadsRun true) := ⟨hs.waitsFor, hs.inLoop, hs.asleep⟩
  have hother : a.isOf w = false := not_isOf_of_asleep htested hg
  have hafter := stuck_next_of_other htested hmain hother hnot
  show Stuck w (if Tester.again (.sys a) then s.next K (.sys a) else
    ((s.setThreadsRun true).next K (.sys a)).setThreadsRun s.sys.proxy.mThreadsRun)
  split
  · next hagain =>
    refine stuck_next_of_other hs hmain hother ?_
    cases a with
    | checkTimeout now now' => cases w <;> rfl
    | _ => cases hagain
  · exact ⟨hafter.waitsFor, hafter.inLoop, hafter.asleep⟩

/-- The step neither notifies the waiter nor wakes it for no reason. -/
def Unwoken (K : Constants) (w : Waiter) (x : TestingState (WaitingSystem P) Tester) :
    TestingAction Tester (WaitingAction P) → Prop
  | .act b => NotWoken K w ((threadsRunTest K P).seen x b) b
  | .test _ => True

instance (w : Waiter) (x : TestingState (WaitingSystem P) Tester) :
    (b : TestingAction Tester (WaitingAction P)) → Decidable (Unwoken K w x b)
  | .act b => inferInstanceAs (Decidable (NotWoken K w _ b))
  | .test _ => isTrue trivial

/-- While the binder thread waits, only an increment notifies the wakelock thread, and it must find
`mThreadsRun` set and nothing counted. -/
theorem increments_of_notifies {s : System P} (hm : s.main.isJoining = true) {a : Action P}
    (h : s.notifies K .wakelocks a = true) :
    s.proxy.mThreadsRun = true ∧ a.increments = true ∧ s.proxy.wakelock.mWakelockRefCount = 0 := by
  have hacquires : ∀ locked, s.acquires locked = true →
      s.proxy.mThreadsRun = true ∧ s.proxy.wakelock.mWakelockRefCount = 0 := by
    intro locked h
    simp only [System.acquires, System.work, Bool.and_eq_true, Bool.not_eq_true',
      decide_eq_false_iff_not, Nat.pos_iff_ne_zero, not_not] at h
    exact ⟨h.1.2, h.2⟩
  cases a with
  | createScopedWakelock t lock now =>
    obtain ⟨hrun, hcount⟩ := hacquires _ h
    exact ⟨hrun, rfl, hcount⟩
  | postEventsToMessageQueue t avail ok now =>
    obtain ⟨hrun, hcount⟩ := hacquires _ h
    exact ⟨hrun, rfl, hcount⟩
  | mainStep now => cases hmain : s.main <;> simp_all [System.notifies, MainThread.isJoining]
  | _ => cases h

/-- A notification that finds the thread between its test and its sleep is lost. -/
theorem stuck_of_waking (hwaking : s.sys.main.isWaking = true) (hin : s.sys.inLoop w = true)
    (hparking : s.point w = .parking) (now : ℤ) : Stuck w (s.next K (.sys (.mainStep now))) := by
  cases hm : s.sys.main <;> simp only [hm, MainThread.isWaking, Bool.false_eq_true] at hwaking
  refine ⟨?_, ?_, ?_⟩
  · cases w <;> simp [WaitingSystem.next, System.next, System.mainNext, hm, MainThread.waitsFor,
      MainThread.isJoining]
  · rw [← hin]
    cases w <;> simp [WaitingSystem.next, System.next, System.mainNext, hm, System.inLoop]
  · have hnotifies : s.sys.notifies K w (.mainStep now) = true := by
      cases w <;> simp [System.notifies, hm]
    show (s.pointAfter K (.mainStep now) w).isAsleep = true
    rw [WaitingSystem.pointAfter, hnotifies, if_pos rfl]
    exact (Point.isAsleep_notify _).2 hparking

theorem stuck_of_reach {x x' : TestingState (WaitingSystem P) Tester} (hx : Stuck w x.state)
    (h : (testingHal K P).Reach (Unwoken K w) x x') : Stuck w x'.state := by
  refine UnlockedTest.invariant hx ?_ ?_ h
  · intro x b hs hseen hg hb
    have hnot : NotWoken K w ((threadsRunTest K P).seen x b) b := hb
    rw [hseen] at hnot
    exact stuck_next hs hg hnot
  · intro x b hs _ hlate hbegins hg hb
    have hnot : NotWoken K w ((threadsRunTest K P).seen x b) b := hb
    rw [UnlockedTest.seen_of_late hlate] at hnot
    obtain ⟨a, rfl, hmain⟩ := exists_action_of_late hlate hbegins
    exact stuck_rest hs hmain hg hnot

theorem Stuck.isJoining (hs : Stuck w s) : s.sys.main.isJoining = true := by
  have hwaits := hs.waitsFor
  cases w with
  | wakelocks => exact hwaits
  | pendingWrites =>
    cases hm : s.sys.main <;> simp_all [MainThread.waitsFor, MainThread.isJoining]

/-- **The joins never end.** If in a run the notifications of `stopThreads` find a thread between
its test and its sleep, then in every continuation in which it is neither notified again nor woken
for no reason, it sleeps and the binder thread waits for it. The wakelock thread is notified again
only by an increment that had passed its test of `mThreadsRun` before, and finds nothing counted. -/
theorem joins_never_end
    {Q : TestingState (WaitingSystem P) Tester → TestingAction Tester (WaitingAction P) → Prop}
    {subHals : List SubHal} {clock now : ℤ} {x x' : TestingState (WaitingSystem P) Tester}
    (hreach : (testingHal K P).Reach Q (testingConstructed K P subHals clock) x)
    (hwaking : x.state.sys.main.isWaking = true)
    (hin : x.state.sys.inLoop w = true) (hparking : x.state.point w = .parking)
    (h : (testingHal K P).Reach (Unwoken K w)
      ((testingHal K P).next x (.act (.sys (.mainStep now)))) x') :
    x'.state.sys.main.isJoining = true ∧ x'.state.sys.inLoop w = true ∧
      (x'.state.point w).isAsleep = true ∧
      ∀ a, ((threadsRunTest K P).seen x' (.sys a)).sys.notifies K .wakelocks a = true →
        (threadsRunTest K P).Late x' (.sys a) ∧ a.increments = true ∧
          x'.state.sys.proxy.wakelock.mWakelockRefCount = 0 := by
  have hnext : ((testingHal K P).next x (.act (.sys (.mainStep now)))).state =
      x.state.next K (.sys (.mainStep now)) :=
    UnlockedTest.state_next_of_not_late fun ⟨_, _, hof⟩ =>
      absurd (Tester.isMain_of_isOf hof) Bool.noConfusion
  have hs' : Stuck w x'.state :=
    stuck_of_reach (by rw [hnext]; exact stuck_of_waking hwaking hin hparking now) h
  have hjoining := hs'.isJoining
  have hknown : RunKnown x'.state.sys := by
    refine runKnown_of_reach ?_ h
    rw [hnext]
    exact runKnown_waitingNext (runKnown_of_reach (runKnown_constructed K P subHals clock) hreach) _
  have hrun := hknown.stopped (MainThread.isStopped_of_isJoining hjoining)
  refine ⟨hjoining, hs'.inLoop, hs'.asleep, fun a hnotifies => ?_⟩
  by_cases hlate : (threadsRunTest K P).Late x' (.sys a)
  · rw [UnlockedTest.seen_of_late hlate] at hnotifies
    obtain ⟨-, hincrements, hcount⟩ :=
      increments_of_notifies (s := (x'.state.setThreadsRun true).sys) hjoining hnotifies
    exact ⟨hlate, hincrements, hcount⟩
  · rw [UnlockedTest.seen_of_not_late hlate] at hnotifies
    exact absurd ((increments_of_notifies hjoining hnotifies).1.symm.trans hrun) Bool.noConfusion

end Lost

/-! ## Concrete runs -/

/-- `stopThreads` up to its notifications, as part of the destructor. -/
def stopUntilWoken : List (WaitingAction ℕ) :=
  [.sys .destroy, .sys (.mainStep 0)]

/-- Both threads asleep, the destructor notifies them. -/
def waitingStopped : WaitingSystem ℕ :=
  (waitingHal sampleConstants ℕ).exec waitingSample
    (sleepRun ++ List.replicate 4 (.next .wakelocks) ++ stopUntilWoken ++ [.sys (.mainStep 0)])

theorem joins_end_sample :
    let s' := (waitingHal sampleConstants ℕ).exec waitingStopped
      [.next .wakelocks, .next .pendingWrites, .next .wakelocks]
    3 ≤ 8 ∧ ((s'.sys.pendingWrites = .notRunning ∧ s'.sys.wakelocks = .notRunning) ∨
      ∃ b : WaitingAction ℕ, s'.guard sampleConstants b ∧ b.isOwn = true) :=
  have hreach : (waitingHal sampleConstants ℕ).Reach HeardAtStop waitingSample waitingStopped :=
    GuardedSystem.reach_exec (by decide)
  have hlegal : (waitingHal sampleConstants ℕ).Legal StillWaits waitingStopped
    [.next .wakelocks, .next .pendingWrites, .next .wakelocks] := by decide
  joins_end hreach (by decide)
    (GuardedSystem.counts_exec (fun b => b.isOwn = true) _ hlegal)

/-- Sub-HAL thread 0 is about to create a scoped wakelock, past its test, and the wakelock thread
about to go to sleep, when the destructor comes. -/
def testingMissed : TestingState (WaitingSystem ℕ) Tester :=
  (testingHal sampleConstants ℕ).exec (testingConstructed sampleConstants ℕ sampleSubHals 0)
    (sleepRun.map .act ++ .test (.subHal 0) :: List.replicate 3 (.act (.next .wakelocks)) ++
      stopUntilWoken.map .act)

/-- Sub-HAL thread 1, which comes after the stop, does not wake it. -/
theorem joins_never_end_sample :
    let x := (testingHal sampleConstants ℕ).exec
      ((testingHal sampleConstants ℕ).next testingMissed (.act (.sys (.mainStep 0))))
      [.act (.next .wakelocks), .act (.next .pendingWrites),
        .act (.sys (.createScopedWakelock 1 true 1))]
    x.state.sys.main.isJoining = true ∧ x.state.sys.inLoop .wakelocks = true ∧
      (x.state.point .wakelocks).isAsleep = true ∧
      ∀ a, ((threadsRunTest sampleConstants ℕ).seen x (.sys a)).sys.notifies sampleConstants
          .wakelocks a = true →
        (threadsRunTest sampleConstants ℕ).Late x (.sys a) ∧ a.increments = true ∧
          x.state.sys.proxy.wakelock.mWakelockRefCount = 0 :=
  have hreach : (testingHal sampleConstants ℕ).Reach (fun _ _ => True)
    (testingConstructed sampleConstants ℕ sampleSubHals 0) testingMissed :=
    GuardedSystem.reach_exec (by decide)
  have hlegal : (testingHal sampleConstants ℕ).Legal (Unwoken sampleConstants .wakelocks)
    ((testingHal sampleConstants ℕ).next testingMissed (.act (.sys (.mainStep 0))))
    [.act (.next .wakelocks), .act (.next .pendingWrites),
      .act (.sys (.createScopedWakelock 1 true 1))] := by decide
  joins_never_end hreach (by decide) (by decide) (by decide) (GuardedSystem.reach_exec hlegal)

/-- Thread 0 does, and then the wakelock thread goes on. -/
example :
    let x := (testingHal sampleConstants ℕ).exec testingMissed
      [.act (.sys (.mainStep 0)), .act (.next .wakelocks),
        .act (.sys (.createScopedWakelock 0 true 1))]
    (x.state.point .wakelocks).isAsleep = false := by decide

end RealmeSalaa.MultiHal
