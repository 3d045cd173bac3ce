import RealmeSalaa.MultiHal.Releasing

/-!
# The mutexes of the waiting threads

Each of the two threads holds its mutex from the test of its loop until it sleeps, releases it for a
blocking call, or ends; a timeout of the shared wakelock sends the wakelock thread around once more
with the mutex held. Nothing it does meanwhile waits for another mutex, so that no wait for a mutex
is a deadlock (`unlocks_of_reach`): the thread that holds it can always take a step, and has at most
nine before it releases it.

Every other section is one step, which waits for its mutexes and then runs through. That of a post
takes `mWakelockMutex` inside `mEventQueueWriteMutex`; here it takes both at once.
-/

namespace RealmeSalaa.MultiHal

open HalProxy
open ConditionVariable (Point Consistent)

variable {P : Type} {K : Constants}

/-- What a timeout of the shared wakelock adds. -/
def System.stepsToRetry (s : System P) : Waiter → ℕ
  | .pendingWrites => 0
  | .wakelocks => s.stepsToReset

namespace WaitingSystem

/-- The waiter holds its mutex. -/
def Holds (s : WaitingSystem P) (w : Waiter) : Prop :=
  s.sys.inLoop w = true ∧ (s.point w).holdsMutex = true

instance (s : WaitingSystem P) (w : Waiter) : Decidable (s.Holds w) :=
  inferInstanceAs (Decidable (_ ∧ _))

/-- How many steps a waiter takes at most before it releases its mutex. While the threads run, they
may still be stopped, after which there are up to three more. -/
def stepsToUnlock (w : Waiter) (s : WaitingSystem P) : ℕ :=
  if s.Holds w then
    if s.sys.proxy.mThreadsRun then (s.point w).left + s.sys.stepsToRetry w + 3
    else (s.point w).rank + 1
  else 0

end WaitingSystem

section Mutexes

variable {s : WaitingSystem P} {b : WaitingAction P} {w : Waiter}

theorem holds_or_mutexFree (s : WaitingSystem P) (w : Waiter) : s.Holds w ∨ s.MutexFree w := by
  by_cases hin : s.sys.inLoop w = true
  · cases hp : (s.point w).holdsMutex with
    | true => exact .inl ⟨hin, hp⟩
    | false => exact .inr fun _ => hp
  · exact .inr fun h => absurd h hin

theorem not_mutexFree_of_holds (h : s.Holds w) : ¬s.MutexFree w := fun hfree =>
  absurd (h.2.symm.trans (hfree h.1)) Bool.noConfusion

theorem stepsToUnlock_of_not_holds (h : ¬s.Holds w) : s.stepsToUnlock w = 0 := if_neg h

theorem stepsToUnlock_running (h : s.Holds w) (hrun : s.sys.proxy.mThreadsRun = true) :
    s.stepsToUnlock w = (s.point w).left + s.sys.stepsToRetry w + 3 := by
  rw [WaitingSystem.stepsToUnlock, if_pos h, if_pos hrun]

theorem stepsToUnlock_stopped (h : s.Holds w) (hrun : s.sys.proxy.mThreadsRun = false) :
    s.stepsToUnlock w = (s.point w).rank + 1 := by
  rw [WaitingSystem.stepsToUnlock, if_pos h, if_neg (by rw [hrun]; exact Bool.false_ne_true)]

/-- The number depends on the point of the waiter and the state of the multi-HAL. -/
theorem stepsToUnlock_congr {s' : WaitingSystem P} (hsys : s'.sys = s.sys)
    (hpoint : s'.point w = s.point w) : s'.stepsToUnlock w = s.stepsToUnlock w := by
  have hiff : s'.Holds w ↔ s.Holds w := by
    unfold WaitingSystem.Holds
    rw [hsys, hpoint]
  unfold WaitingSystem.stepsToUnlock
  rw [hsys, hpoint, if_congr hiff rfl rfl]

theorem stepsToRetry_le (s : System P) (w : Waiter) : s.stepsToRetry w ≤ 3 := by
  cases w with
  | pendingWrites => exact Nat.zero_le _
  | wakelocks =>
    show s.stepsToReset ≤ 3
    unfold System.stepsToReset
    split <;> omega

theorem stepsToRetry_congr {s s' : System P} (h : s'.work w = s.work w) :
    s'.stepsToRetry w = s.stepsToRetry w := by
  cases w with
  | pendingWrites => rfl
  | wakelocks => simp only [System.stepsToRetry, System.stepsToReset, h]

theorem stepsToUnlock_le (s : WaitingSystem P) (w : Waiter) : s.stepsToUnlock w ≤ 9 := by
  by_cases h : s.Holds w
  · have hretry := stepsToRetry_le s.sys w
    have hleft : (s.point w).left ≤ 3 := by
      have hheld := h.2
      cases hp : s.point w <;> simp_all [Point.left, Point.holdsMutex]
    have hrank := (s.point w).rank_le
    cases hrun : s.sys.proxy.mThreadsRun with
    | true => rw [stepsToUnlock_running h hrun]; omega
    | false => rw [stepsToUnlock_stopped h hrun]; omega
  · rw [stepsToUnlock_of_not_holds h]
    exact Nat.zero_le _

/-- A thread that is in its loop is not started. -/
theorem enters_of_holds (hs : Knows s) (h : s.Holds w) {a : Action P} (hother : a.isOf w = false) :
    s.sys.enters w a = none := by
  cases hmain : a.isMain with
  | false => exact enters_of_other s.sys hother hmain
  | true =>
    cases a with
    | mainStep now =>
      have hin := h.1
      cases w with
      | pendingWrites =>
        cases hm : s.sys.main with
        | startPendingWritesThread args result =>
          simp [System.inLoop, hs.joined.writes.joined (by rw [hm]; rfl)] at hin
        | _ => simp [System.enters, hm]
      | wakelocks =>
        cases hm : s.sys.main with
        | startWakelockThread args result =>
          simp [System.inLoop, hs.joined.wakelocks (by rw [hm]; rfl)] at hin
        | _ => simp [System.enters, hm]
    | _ => cases w <;> first | rfl | cases hmain

/-- An action of another thread leaves a waiter that holds its mutex where it is. -/
theorem stepsToUnlock_next_of_other (hs : Knows s) (hg : s.guard K b) (h : s.Holds w)
    (hother : b.isOf w = false) : (s.next K b).stepsToUnlock w ≤ s.stepsToUnlock w := by
  cases b with
  | next v =>
    have hw : w ≠ v := fun heq => by simp [WaitingAction.isOf, heq] at hother
    exact le_of_eq (stepsToUnlock_congr rfl (Function.update_of_ne hw ..))
  | wakeSpuriously v =>
    have hw : w ≠ v := by
      rintro rfl
      have hheld := h.2
      rw [hg.2] at hheld
      cases hheld
    exact le_of_eq (stepsToUnlock_congr rfl (Function.update_of_ne hw ..))
  | sys a =>
    have henters := enters_of_holds hs h hother
    have hpoint : s.pointAfter K a w = s.point w := by
      unfold WaitingSystem.pointAfter
      rw [henters, Point.notify_eq_self_of_held h.2, Option.getD_none, ite_self]
    rcases waiterMove_next K hs.joined (guard_of_waitingGuard hs hg) w with
      hout | ⟨p, henters', -, -⟩ | ⟨htakes, -, -, -, -⟩ | ⟨-, hin, hwork, hrun⟩
    · rw [stepsToUnlock_of_not_holds fun h' => absurd (h'.1.symm.trans hout) Bool.noConfusion]
      exact Nat.zero_le _
    · rw [henters] at henters'
      cases henters'
    · exact absurd (mutexFree_of_guard hg htakes) (not_mutexFree_of_holds h)
    · have h' : (s.next K (.sys a)).Holds w :=
        ⟨hin.trans h.1, (congrArg Point.holdsMutex hpoint).trans h.2⟩
      have hle := Point.rank_le_left h.2
      have hpoint' : (s.next K (.sys a)).point w = s.point w := hpoint
      cases hrunning : s.sys.proxy.mThreadsRun with
      | true =>
        rw [stepsToUnlock_running h hrunning]
        rcases hrun with hrun | hrun
        · have hretry : (s.next K (.sys a)).sys.stepsToRetry w = s.sys.stepsToRetry w :=
            stepsToRetry_congr hwork
          rw [stepsToUnlock_running h' (hrun.trans hrunning), hpoint', hretry]
        · rw [stepsToUnlock_stopped h' hrun, hpoint']
          omega
      | false =>
        have hrun' : (System.next K s.sys a).proxy.mThreadsRun = false := by
          rcases hrun with hrun | hrun
          · exact hrun.trans hrunning
          · exact hrun
        rw [stepsToUnlock_stopped h hrunning, stepsToUnlock_stopped h' hrun', hpoint']

/-- A step of the waiter itself brings it closer. -/
theorem stepsToUnlock_next (hs : Knows s) (hg : s.guard K b) (h : s.Holds w)
    (hown : b.isOf w = true) : (s.next K b).stepsToUnlock w < s.stepsToUnlock w := by
  have hpos : 0 < s.stepsToUnlock w := by
    cases hrun : s.sys.proxy.mThreadsRun with
    | true => rw [stepsToUnlock_running h hrun]; omega
    | false => rw [stepsToUnlock_stopped h hrun]; omega
  have hreleased : ¬(s.next K b).Holds w → (s.next K b).stepsToUnlock w < s.stepsToUnlock w := by
    intro hnot
    rwa [stepsToUnlock_of_not_holds hnot]
  cases b with
  | wakeSpuriously v => cases hown
  | next v =>
    obtain rfl : v = w := by simpa [WaitingAction.isOf] using hown
    by_cases h' : (s.next K (.next v : WaitingAction P)).Holds v
    · have hpoint : (s.next K (.next v : WaitingAction P)).point v =
          (s.point v).next (s.ready v) := Function.update_self ..
      cases hrun : s.sys.proxy.mThreadsRun with
      | true =>
        have hleft := Point.left_next (s.ready v) (hrun ▸ hg.2)
        rw [stepsToUnlock_running h hrun, stepsToUnlock_running h' hrun, hpoint]
        show _ + s.sys.stepsToRetry v + 3 < _
        omega
      | false =>
        have hready : s.ready v = true := by simp [WaitingSystem.ready, hrun]
        rw [stepsToUnlock_stopped h hrun, stepsToUnlock_stopped h' hrun, hpoint, hready]
        have hawake : (s.point v).isAsleep = false := by
          have hheld := h'.2
          rw [hpoint, hready] at hheld
          cases hp : s.point v <;> simp_all [Point.next, Point.isAsleep, Point.holdsMutex]
        have hlt := Point.rank_next hawake (hrun ▸ hg.2)
        omega
    · exact hreleased h'
  | sys a =>
    have hguard := guard_of_waitingGuard hs hg
    cases w with
    | pendingWrites =>
      refine hreleased fun h' => ?_
      have hlocked : s.sys.pendingWrites = .locked := of_decide_eq_true h.1
      have hafter : (System.next K s.sys a).pendingWrites = .locked := of_decide_eq_true h'.1
      cases pendingWritesStep K hguard hown with
      | take hw hrun => cases hafter
      | write hw hw' => rw [hw'] at hafter; cases hafter
      | finish hw hnext => rw [hw] at hlocked; cases hlocked
      | exit hw hrun => cases hafter
    | wakelocks =>
      have hlocked : s.sys.wakelocks = .locked := of_decide_eq_true h.1
      cases wakelocksStep K hguard hown with
      | @timedOut now now' hw hrun hcount hnext =>
        by_cases h' : (s.next K (.sys (.checkTimeout now now'))).Holds .wakelocks
        · have hafter : (System.next K s.sys (.checkTimeout now now')).stepsToReset = 0 := by
            rw [hnext, stepsToReset_eq_zero_iff]
            simp only [System.reset, hrun]
            exact SharedWakelock.refCount_reset
          have hbefore : s.sys.stepsToReset = 3 := if_pos (decide_eq_true hcount)
          have hpoint : (s.next K (.sys (.checkTimeout now now'))).point .wakelocks =
              .loopTest := rfl
          have hrun' : (s.next K (.sys (.checkTimeout now now'))).sys.proxy.mThreadsRun = true := by
            show (System.next K s.sys (.checkTimeout now now')).proxy.mThreadsRun = true
            rw [hnext]
            exact hrun
          rw [stepsToUnlock_running h hrun, stepsToUnlock_running h' hrun', hpoint, hg.2.1]
          show 3 + (System.next K s.sys (.checkTimeout now now')).stepsToReset + 3 <
            1 + s.sys.stepsToReset + 3
          omega
        · exact hreleased h'
      | @wait now now' timeLeft hw hrun hnow htime hw' =>
        refine hreleased fun h' => ?_
        have hafter : (System.next K s.sys (.checkTimeout now now')).wakelocks = .locked :=
          of_decide_eq_true h'.1
        rw [hw'] at hafter
        cases hafter
      | read hw hw' => rw [hw] at hlocked; cases hlocked
      | @exit now hw hrun =>
        refine hreleased fun h' => ?_
        have hafter : (System.next K s.sys (.exitWakelocks now)).wakelocks = .locked :=
          of_decide_eq_true h'.1
        cases hafter

/-- A waiter that holds its mutex can take a step. -/
theorem exists_step_of_holds (K : Constants) (h : s.Holds w) :
    ∃ b : WaitingAction P, s.guard K b ∧ b.isOf w = true := by
  obtain ⟨hin, hheld⟩ := h
  have hnext : (s.point w).waits s.sys.proxy.mThreadsRun = true →
      ∃ b : WaitingAction P, s.guard K b ∧ b.isOf w = true := fun hwaits =>
    ⟨.next w, ⟨hin, hwaits⟩, by simp [WaitingAction.isOf]⟩
  cases hrun : s.sys.proxy.mThreadsRun with
  | true =>
    rcases (s.point w).waits_or with hwaits | hparked | htested
    · exact hnext (hrun ▸ hwaits)
    · rw [hparked] at hheld
      cases hheld
    · cases w with
      | pendingWrites => exact ⟨.sys .takePendingWrites, ⟨hin, htested, hrun⟩, rfl⟩
      | wakelocks => exact ⟨.sys (.checkTimeout s.sys.clock s.sys.clock),
          ⟨hin, htested, hrun, le_refl _, le_refl _⟩, rfl⟩
  | false =>
    have hstopped : ¬s.sys.proxy.mThreadsRun = true := by
      rw [hrun]
      exact Bool.false_ne_true
    cases hp : s.point w with
    | loopTest =>
      cases w with
      | pendingWrites => exact ⟨.sys .exitPendingWrites, ⟨hin, hp, hstopped⟩, rfl⟩
      | wakelocks =>
        exact ⟨.sys (.exitWakelocks s.sys.clock), ⟨hin, hp, hstopped, le_refl _⟩, rfl⟩
    | predicate | parking | tested => exact hnext (by rw [hp, hrun]; rfl)
    | starting | parked | woken => rw [hp] at hheld; cases hheld

/-- An action that takes a mutex waits for nothing but the mutexes. -/
theorem guard_of_mutexFree {a : Action P} {v : Waiter} (htakes : s.sys.takesMutex K v a = true)
    (hg : s.sys.guard a) (hfree : ∀ v, s.sys.takesMutex K v a = true → s.MutexFree v) :
    s.guard K (.sys a) := by
  cases a with
  | takePendingWrites => cases v <;> cases htakes
  | exitPendingWrites => cases v <;> cases htakes
  | checkTimeout now now' => cases v <;> cases htakes
  | exitWakelocks now => cases v <;> cases htakes
  | _ => exact ⟨hg, hfree⟩

/-- **The mutexes.** In every reachable state, while a waiter holds its mutex it can take a step, and
in every continuation in which it keeps it, it takes at most nine, whatever the other threads do. A
section waits for nothing but its mutexes, so an action that takes one and could be taken otherwise
is possible, or a waiter holds a mutex that it takes, and that waiter can take a step. -/
theorem unlocks_of_reach {R : WaitingSystem P → WaitingAction P → Prop} {subHals : List SubHal}
    {clock : ℤ} (h : (waitingHal K P).Reach R (.constructed K P subHals clock) s) :
    (∀ w n s', (waitingHal K P).Counts (fun s _ => s.Holds w) (fun b => b.isOf w = true) s n s' →
      n + s'.stepsToUnlock w ≤ s.stepsToUnlock w ∧ s.stepsToUnlock w ≤ 9) ∧
    (∀ w, s.Holds w → ∃ b : WaitingAction P, s.guard K b ∧ b.isOf w = true) ∧
    ∀ a v, s.sys.guard a → s.sys.takesMutex K v a = true → s.guard K (.sys a) ∨
      ∃ w, s.sys.takesMutex K w a = true ∧ s.Holds w := by
  refine ⟨fun w n s' hcounts => ?_, fun w => exists_step_of_holds K, fun a v hg htakes => ?_⟩
  · have hrank : Knows s' ∧ n + s'.stepsToUnlock w ≤ s.stepsToUnlock w := by
      refine hcounts.add_rank_le (knows_of_reach h) ?_ ?_ ?_
      · exact fun _ _ hs hg _ => knows_next hs hg
      · exact fun _ _ hs hg h hown => stepsToUnlock_next hs hg h hown
      · exact fun _ _ hs hg h hother =>
          stepsToUnlock_next_of_other hs hg h (Bool.eq_false_iff.2 hother)
    exact ⟨hrank.2, stepsToUnlock_le s w⟩
  · by_cases hheld : ∃ w, s.sys.takesMutex K w a = true ∧ s.Holds w
    · exact .inr hheld
    · refine .inl (guard_of_mutexFree htakes hg fun w htakes' => ?_)
      rcases holds_or_mutexFree s w with hholds | hfree
      · exact absurd ⟨w, htakes', hholds⟩ hheld
      · exact hfree

end Mutexes

/-- The wakelock thread resets the wakelock and falls asleep, all with its mutex. -/
def resetRun : List (WaitingAction ℕ) :=
  [.next .wakelocks, .next .wakelocks, .sys (.destroyScopedWakelock 1),
    .sys (.checkTimeout 500000003 500000004), .next .wakelocks, .next .wakelocks, .next .wakelocks]

/-- Meanwhile sub-HAL thread 0 cannot release its reference. -/
theorem unlocks_of_reach_sample :
    let s := (waitingHal sampleConstants ℕ).exec waitingSample (heldRun ++ [.next .wakelocks])
    let s' := (waitingHal sampleConstants ℕ).exec s resetRun
    let release : Action ℕ := .destroyScopedWakelock 0
    (6 + s'.stepsToUnlock .wakelocks ≤ s.stepsToUnlock .wakelocks ∧
        s.stepsToUnlock .wakelocks ≤ 9) ∧
      (∃ b : WaitingAction ℕ, s.guard sampleConstants b ∧ b.isOf .wakelocks = true) ∧
      (s.guard sampleConstants (.sys release) ∨
        ∃ w, s.sys.takesMutex sampleConstants w release = true ∧ s.Holds w) :=
  have hreach : (waitingHal sampleConstants ℕ).Reach (fun _ _ => True) waitingSample
    ((waitingHal sampleConstants ℕ).exec waitingSample (heldRun ++ [.next .wakelocks])) :=
    GuardedSystem.reach_exec (by decide)
  have hlegal : (waitingHal sampleConstants ℕ).Legal (fun s _ => s.Holds .wakelocks)
    ((waitingHal sampleConstants ℕ).exec waitingSample (heldRun ++ [.next .wakelocks])) resetRun :=
    by decide
  have hguard : (multiHal sampleConstants ℕ).guard ((waitingHal sampleConstants ℕ).exec waitingSample
    (heldRun ++ [.next .wakelocks])).sys (.destroyScopedWakelock 0) := by decide
  have hunlocks := unlocks_of_reach hreach
  ⟨hunlocks.1 .wakelocks 6 _
      (GuardedSystem.counts_exec (fun b => b.isOf .wakelocks = true) resetRun hlegal),
    hunlocks.2.1 .wakelocks (by decide), hunlocks.2.2 _ .wakelocks hguard (by decide)⟩

end RealmeSalaa.MultiHal
