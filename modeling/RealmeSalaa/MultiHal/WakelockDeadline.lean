import RealmeSalaa.MultiHal.WakelockBalance

/-!
# The deadline of the wakelock thread

`handleWakelocks` waits for acknowledgements with the time that is left until the shared wakelock
times out, and an FMQ takes a timeout of 0 for no timeout at all. The start of the timeout never
lies ahead of the clock while something is counted (`startTime_le_of_reach`), so no more than
`kWakelockTimeoutNs` is left; nothing is left exactly at the instant `kWakelockTimeoutNs` after
the start, which `sharedWakelockDidTimeout` does not take for a timeout.
-/

namespace RealmeSalaa.MultiHal

open HalProxy

variable {P : Type} {K : Constants} {s : System P} {a : Action P}

/-! ## The start of the timeout -/

theorem clock_next (hg : s.guard a) : s.clock ≤ (System.next K s a).clock := by
  cases a with
  | createScopedWakelock t lock now => exact hg.2
  | postEvents t i events n => cases h : s.subHals t <;> simp only [System.next, h] <;> rfl
  | postEventsToMessageQueue t avail ok now =>
    cases hpost : s.subHals t with
    | posting events n wakelock began => rw [System.next_post hpost]; exact hg.2
    | _ => simp only [System.next, hpost]; rfl
  | destroyScopedWakelock t =>
    cases h : (s.subHals t).wakelock? <;> simp only [System.next, h] <;> rfl
  | writeBlocking ok =>
    cases h : s.pendingWrites with
    | writing n q => cases ok <;> simp [System.next, h, System.write]
    | _ => simp only [System.next, h]; rfl
  | finishPendingWrites => cases h : s.pendingWrites <;> simp only [System.next, h] <;> rfl
  | checkTimeout now now' =>
    have hnow : s.clock ≤ now' := hg.2.2.2.1.trans hg.2.2.2.2
    cases h : s.proxy.wakelock.sharedWakelockDidTimeout K.kWakelockTimeoutNs now <;>
      simp only [System.next, h] <;> exact hnow
  | readBlocking r => cases r <;> exact le_refl _
  | exitWakelocks now => exact hg.2.2
  | mainStep now => exact hg.2
  | _ => exact le_refl _

/-- An action without an increment keeps the start of the timeout and adds no reference. -/
theorem WakelockMove.startTime {w w' : SharedWakelock} {threadsRun : Bool}
    (h : WakelockMove w threadsRun none false w') :
    w'.mWakelockTimeoutStartTime = w.mWakelockTimeoutStartTime ∧
      w'.mWakelockRefCount ≤ w.mWakelockRefCount := by
  have hdecrement : ∀ (delta : ℕ) (timeoutStart : ℤ),
      (w.decrementRefCountAndMaybeReleaseWakelock threadsRun delta timeoutStart).mWakelockRefCount ≤
        w.mWakelockRefCount := by
    intro delta timeoutStart
    rcases SharedWakelock.decrement_cases w threadsRun delta timeoutStart with h | ⟨-, h⟩
    · rw [h]
    · rw [h]; exact Nat.sub_le _ _
  cases h with
  | stay => exact ⟨rfl, le_refl _⟩
  | post delta now h => cases h
  | create lock now h => cases h
  | release wakelock =>
    refine ⟨ScopedWakelock.release_timeoutStartTime wakelock, ?_⟩
    unfold ScopedWakelock.release
    split
    · exact hdecrement _ _
    · exact le_refl _
  | decrement delta => exact ⟨SharedWakelock.decrement_timeoutStartTime, hdecrement _ _⟩
  | reset now => exact ⟨SharedWakelock.reset_timeoutStartTime, hdecrement _ _⟩

/-- What an action does to the start of the timeout: nothing, or it starts the timeout now. -/
theorem startTime_next (hg : s.guard a) :
    (System.next K s a).proxy.wakelock.mWakelockTimeoutStartTime =
        s.proxy.wakelock.mWakelockTimeoutStartTime ∧
      (System.next K s a).proxy.wakelock.mWakelockRefCount ≤ s.proxy.wakelock.mWakelockRefCount ∨
    (System.next K s a).proxy.wakelock.mWakelockTimeoutStartTime = (System.next K s a).clock := by
  cases htakes : a.takesWakelock with
  | true =>
    cases a with
    | createScopedWakelock t lock now =>
      have hnext : (System.next K s (.createScopedWakelock t lock now)).proxy.wakelock =
        (ScopedWakelock.create s.proxy.wakelock s.proxy.mThreadsRun lock now).1 := rfl
      rw [hnext]
      rcases ScopedWakelock.create_cases s.proxy.wakelock s.proxy.mThreadsRun lock now with
        h | ⟨-, -, h⟩
      · rw [h]; exact .inl ⟨rfl, le_refl _⟩
      · rw [h]; exact .inr rfl
    | _ => cases htakes
  | false =>
    cases hposted : s.postedCount a with
    | none =>
      have hmove := wakelockMove_next K s a
      rw [htakes, hposted] at hmove
      exact .inl hmove.startTime
    | some n =>
      cases a with
      | postEventsToMessageQueue t avail ok now =>
        cases hpost : s.subHals t with
        | posting events m wakelock began =>
          rw [System.next_post hpost]
          have hw : (s.post K t events m wakelock avail ok now).proxy.wakelock =
              if wakelock.mLocked then
                (s.proxy.wakelock.incrementRefCountAndMaybeAcquireWakelock s.proxy.mThreadsRun m
                  now).1
              else s.proxy.wakelock := wakelock_postEventsToMessageQueue ..
          rw [hw]
          split
          · cases s.proxy.mThreadsRun with
            | true => exact .inr rfl
            | false => exact .inl ⟨rfl, le_refl _⟩
          · exact .inl ⟨rfl, le_refl _⟩
        | _ => simp [System.postedCount, hpost] at hposted
      | _ => cases hposted

/-- While something is counted, the timeout has started. -/
def Started (s : System P) : Prop :=
  0 < s.proxy.wakelock.mWakelockRefCount → s.proxy.wakelock.mWakelockTimeoutStartTime ≤ s.clock

theorem started_next (hs : Started s) (hg : s.guard a) : Started (System.next K s a) := by
  intro hcount
  rcases startTime_next (K := K) hg with ⟨hstart, hle⟩ | hstart
  · rw [hstart]
    exact (hs (hcount.trans_le hle)).trans (clock_next hg)
  · exact hstart.le

theorem started_constructed (K : Constants) (P : Type) (subHals : List SubHal) (clock : ℤ) :
    Started (System.constructed K P subHals clock) := by
  intro hcount
  have hw : (System.constructed K P subHals clock).proxy.wakelock = ⟨0, 0, 0, false⟩ :=
    wakelock_construct K subHals
  rw [hw] at hcount
  exact absurd hcount (lt_irrefl 0)

theorem startTime_le_of_reach {R : System P → Action P → Prop} {subHals : List SubHal} {clock : ℤ}
    (h : (multiHal K P).Reach R (.constructed K P subHals clock) s) : Started s :=
  invariant_of_reach h (started_constructed K P subHals clock) fun _ _ hs hg _ => started_next hs hg

/-! ## The wait -/

/-- The time at which the action tests for a timeout. -/
def Action.testedAt : Action P → Option ℤ
  | .checkTimeout now _ => some now
  | _ => none

/-- A timeout is not tested for exactly when it is due. -/
def OffDeadline (K : Constants) (s : System P) (a : Action P) : Prop :=
  ∀ now ∈ a.testedAt, now ≠ s.proxy.wakelock.mWakelockTimeoutStartTime + K.kWakelockTimeoutNs

instance (s : System P) (a : Action P) : Decidable (OffDeadline K s a) := by
  unfold OffDeadline; infer_instance

/-- A deadline that `readBlocking` keeps. -/
def Timely (K : Constants) (timeLeft : ℤ) : Prop := 0 < timeLeft ∧ timeLeft ≤ K.kWakelockTimeoutNs

theorem wakelocks_mainNext (s : System P) (now timeLeft : ℤ)
    (h : (s.mainNext now).wakelocks = .reading timeLeft) : s.wakelocks = .reading timeLeft := by
  unfold System.mainNext at h
  cases hm : s.main with
  | startWakelockThread args result => rw [hm] at h; cases h
  | joinWakelockThread caller => rw [hm] at h; cases caller <;> exact h
  | initializeSubHal i args result =>
    rw [hm] at h
    dsimp only at h
    split at h <;> exact h
  | _ => rw [hm] at h; exact h

/-- The thread waits only after it tested for a timeout, for the time that was left then. -/
theorem wakelocks_next {timeLeft : ℤ} (h : (System.next K s a).wakelocks = .reading timeLeft) :
    s.wakelocks = .reading timeLeft ∨ ∃ now now', a = .checkTimeout now now' ∧
      s.proxy.wakelock.sharedWakelockDidTimeout K.kWakelockTimeoutNs now = some timeLeft := by
  cases a with
  | checkTimeout now now' =>
    cases htime : s.proxy.wakelock.sharedWakelockDidTimeout K.kWakelockTimeoutNs now with
    | some timeLeft' =>
      simp only [System.next, htime] at h
      cases h
      exact .inr ⟨now, now', rfl, htime⟩
    | none =>
      simp only [System.next, htime] at h
      exact .inl h
  | readBlocking r => cases r <;> cases h
  | exitWakelocks now => cases h
  | mainStep now => exact .inl (wakelocks_mainNext s now timeLeft h)
  | postEvents t i events n =>
    cases hthread : s.subHals t <;> simp only [System.next, hthread] at h <;> exact .inl h
  | postEventsToMessageQueue t avail ok now =>
    cases hthread : s.subHals t <;> simp only [System.next, hthread] at h <;> exact .inl h
  | destroyScopedWakelock t =>
    cases hwl : (s.subHals t).wakelock? <;> simp only [System.next, hwl] at h <;> exact .inl h
  | writeBlocking ok =>
    cases hw : s.pendingWrites with
    | writing n q =>
      simp only [System.next, hw, System.write] at h
      split at h <;> exact .inl h
    | _ => simp only [System.next, hw] at h; exact .inl h
  | finishPendingWrites =>
    cases hw : s.pendingWrites <;> simp only [System.next, hw] at h <;> exact .inl h
  | _ => exact .inl h

/-- At a test the time left is a deadline, unless nothing is left. -/
theorem timely_iff (hs : Started s) {now now' timeLeft : ℤ}
    (hg : s.guard (.checkTimeout now now'))
    (h : s.proxy.wakelock.sharedWakelockDidTimeout K.kWakelockTimeoutNs now = some timeLeft) :
    Timely K timeLeft ↔ OffDeadline K s (.checkTimeout now now') := by
  obtain ⟨-, -, hcount, hnow, -⟩ := hg
  have hstart : s.proxy.wakelock.mWakelockTimeoutStartTime ≤ now := (hs hcount).trans hnow
  unfold SharedWakelock.sharedWakelockDidTimeout at h
  dsimp only at h
  split at h
  · cases h
  · next hle =>
    obtain rfl : K.kWakelockTimeoutNs - (now - s.proxy.wakelock.mWakelockTimeoutStartTime) =
      timeLeft := by simpa using h
    simp only [Timely, OffDeadline, Action.testedAt, Option.mem_def, Option.some.injEq,
      forall_eq']
    omega

/-- Where the thread waits, it waits for a deadline. -/
def Waits (K : Constants) (s : System P) : Prop :=
  ∀ timeLeft, s.wakelocks = .reading timeLeft → Timely K timeLeft

theorem waits_next (hs : Started s) (hw : Waits K s) (hg : s.guard a) (ha : OffDeadline K s a) :
    Waits K (System.next K s a) := by
  intro timeLeft h
  rcases wakelocks_next h with hold | ⟨now, now', rfl, htime⟩
  · exact hw timeLeft hold
  · exact (timely_iff hs hg htime).2 ha

/-- **The deadline.** In every run that never tests for a timeout at the instant it is due, every
call of `readBlocking` has a timeout between 1 and `kWakelockTimeoutNs`; and in such a run the
next call has one exactly if it does not follow a test at that instant. -/
theorem deadline_of_reach {subHals : List SubHal} {clock : ℤ}
    (h : (multiHal K P).Reach (OffDeadline K) (.constructed K P subHals clock) s) :
    (∀ timeLeft, s.wakelocks = .reading timeLeft →
      0 < timeLeft ∧ timeLeft ≤ K.kWakelockTimeoutNs) ∧
    ∀ now now' timeLeft, s.guard (.checkTimeout now now') →
      (System.next K s (.checkTimeout now now')).wakelocks = .reading timeLeft →
      ((0 < timeLeft ∧ timeLeft ≤ K.kWakelockTimeoutNs) ↔
        now ≠ s.proxy.wakelock.mWakelockTimeoutStartTime + K.kWakelockTimeoutNs) := by
  have hs : Started s ∧ Waits K s := by
    refine invariant_of_reach (I := fun s => Started s ∧ Waits K s) h
      ⟨started_constructed K P subHals clock, ?_⟩ ?_
    · intro timeLeft hreading
      cases hreading
    · intro s a hs hg ha
      exact ⟨started_next hs.1 hg, waits_next hs.1 hs.2 hg ha⟩
  refine ⟨hs.2, fun now now' timeLeft hg hreading => ?_⟩
  rcases wakelocks_next hreading with hold | ⟨_, _, heq, htime⟩
  · rw [hg.1] at hold
    cases hold
  · cases heq
    refine (timely_iff hs.1 hg htime).trans ?_
    simp only [OffDeadline, Action.testedAt, Option.mem_def, Option.some.injEq, forall_eq']

/-- A scoped wakelock is taken at time 1, and the timeout tested for at time `now`. -/
def waitRun (now : ℤ) : List (Action ℕ) :=
  initializeRun 4 ++ [.createScopedWakelock 0 true 1, .checkTimeout now now]

theorem deadline_of_reach_sample :
    let s := (multiHal sampleConstants ℕ).exec sample (waitRun 3)
    (∀ timeLeft, s.wakelocks = .reading timeLeft →
      0 < timeLeft ∧ timeLeft ≤ sampleConstants.kWakelockTimeoutNs) ∧
    ∀ now now' timeLeft, s.guard (.checkTimeout now now') →
      (System.next sampleConstants s (.checkTimeout now now')).wakelocks = .reading timeLeft →
      ((0 < timeLeft ∧ timeLeft ≤ sampleConstants.kWakelockTimeoutNs) ↔
        now ≠ s.proxy.wakelock.mWakelockTimeoutStartTime + sampleConstants.kWakelockTimeoutNs) :=
  deadline_of_reach (GuardedSystem.reach_exec (by decide))

/-- Tested for exactly 500 ms later, the timeout is not found, and no time is left to wait. -/
theorem waits_without_deadline :
    ∃ s timeLeft, (multiHal sampleConstants ℕ).Reach (fun _ _ => True) sample s ∧
      s.wakelocks = .reading timeLeft ∧
      ¬ (0 < timeLeft ∧ timeLeft ≤ sampleConstants.kWakelockTimeoutNs) := by
  set s := (multiHal sampleConstants ℕ).exec sample (waitRun 500000001) with hs
  exact ⟨s, 0, GuardedSystem.reach_exec (by decide), by decide, by decide⟩

end RealmeSalaa.MultiHal
