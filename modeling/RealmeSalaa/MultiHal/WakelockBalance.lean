import RealmeSalaa.MultiHal.System

/-!
# The count and the kernel wakelock over whole runs

`wakelockMove_next` says once what an action of any thread can do to the shared wakelock: nothing,
one of the sections of `SharedWakelock`, or the increment of a batch posted with a locked scoped
wakelock.

The kernel wakelock is held exactly while something is counted, as long as no batch without wake-up
events is posted with a locked wakelock while nothing is counted; one such batch breaks it
(`balanced_next_iff`).
-/

namespace RealmeSalaa.MultiHal

variable {P : Type} {K : Constants} {s s₀ : System P} {a : Action P}

/-! ## What an action does to the shared wakelock -/

/-- The wake-up count that an action adds for a batch posted with a locked wakelock. -/
def System.postedCount (s : System P) : Action P → Option ℕ
  | .postEventsToMessageQueue t _ _ _ =>
    match s.subHals t with
    | .posting _ numWakeupEvents wakelock _ => if wakelock.mLocked then some numWakeupEvents else none
    | _ => none
  | _ => none

/-- The moves of the shared wakelock; `posted` is the count of a posted batch, and `taken` says
that a scoped wakelock was asked for. -/
inductive WakelockMove (w : SharedWakelock) (threadsRun : Bool) (posted : Option ℕ) (taken : Bool) :
    SharedWakelock → Prop
  | stay : WakelockMove w threadsRun posted taken w
  | post (delta : ℕ) (now : ℤ) (h : posted = some delta) :
    WakelockMove w threadsRun posted taken
      (w.incrementRefCountAndMaybeAcquireWakelock threadsRun delta now).1
  | create (lock : Bool) (now : ℤ) (h : taken = true) :
    WakelockMove w threadsRun posted taken (ScopedWakelock.create w threadsRun lock now).1
  | release (wakelock : ScopedWakelock) :
    WakelockMove w threadsRun posted taken (wakelock.release w threadsRun)
  | decrement (delta : ℕ) :
    WakelockMove w threadsRun posted taken
      (w.decrementRefCountAndMaybeReleaseWakelock threadsRun delta (-1))
  | reset (now : ℤ) :
    WakelockMove w threadsRun posted taken (w.resetSharedWakelock threadsRun now)

/-- The action asks for a scoped wakelock. -/
def Action.takesWakelock : Action P → Bool
  | .createScopedWakelock .. => true
  | _ => false

theorem wakelock_mainNext (s : System P) (now : ℤ) :
    (s.mainNext now).proxy.wakelock = s.proxy.wakelock ∨
      (s.mainNext now).proxy.wakelock =
        s.proxy.wakelock.resetSharedWakelock s.proxy.mThreadsRun now := by
  unfold System.mainNext
  cases s.main with
  | resetSharedWakelock args => exact .inr rfl
  | joinWakelockThread caller => cases caller <;> exact .inl rfl
  | initializeSubHal i args result => dsimp only; split <;> exact .inl rfl
  | _ => exact .inl rfl

variable (K s a) in
theorem wakelockMove_next :
    WakelockMove s.proxy.wakelock s.proxy.mThreadsRun (s.postedCount a) a.takesWakelock
      (System.next K s a).proxy.wakelock := by
  cases a with
  | createScopedWakelock t lock now => exact .create lock now rfl
  | postEvents t i events n =>
    unfold System.next
    dsimp only
    split <;> exact .stay
  | postEventsToMessageQueue t avail ok now =>
    show WakelockMove _ _ (s.postedCount (.postEventsToMessageQueue t avail ok now)) _ _
    unfold System.postedCount
    cases hpost : s.subHals t with
    | posting events n wakelock began =>
      rw [System.next_post hpost]
      show WakelockMove _ _ _ _ (s.proxy.postEventsToMessageQueue K events n wakelock avail ok
        now).wakelock
      rw [HalProxy.wakelock_postEventsToMessageQueue]
      cases hlocked : wakelock.mLocked with
      | true => exact .post n now (by simp [hpost, hlocked])
      | false => exact .stay
    | _ => simp only [System.next, hpost]; exact .stay
  | destroyScopedWakelock t =>
    unfold System.next
    dsimp only
    split
    · exact .release _
    · exact .stay
  | writeBlocking ok =>
    unfold System.next
    dsimp only
    split
    · unfold System.write
      cases ok with
      | true => exact .stay
      | false =>
        show WakelockMove _ _ _ _ (s.proxy.dropPendingWrites K _).wakelock
        unfold HalProxy.dropPendingWrites
        split
        · exact .stay
        · exact .decrement _
    · exact .stay
  | checkTimeout now now' =>
    unfold System.next
    dsimp only
    split
    · exact .reset now'
    · exact .stay
  | readBlocking r =>
    cases r with
    | none => exact .stay
    | some n => exact .decrement n
  | exitWakelocks now => exact .reset now
  | finishPendingWrites =>
    unfold System.next
    dsimp only
    split <;> exact .stay
  | mainStep now =>
    have h := wakelock_mainNext s now
    show WakelockMove _ _ _ _ (s.mainNext now).proxy.wakelock
    rcases h with h | h
    · rw [h]; exact .stay
    · rw [h]; exact .reset now
  | takePendingWrites => exact .stay
  | exitPendingWrites => exact .stay
  | initializeCommon args => exact .stay
  | destroy => exact .stay

/-! ## The kernel wakelock is held exactly while something is counted -/

/-- The action posts no empty count with a locked wakelock while nothing is counted. -/
def NoEmptyAcquire (s : System P) (a : Action P) : Prop :=
  ∀ n ∈ s.postedCount a, ¬ s.proxy.wakelock.EmptyAcquire s.proxy.mThreadsRun n

instance (s : System P) (a : Action P) : Decidable (NoEmptyAcquire s a) := by
  unfold NoEmptyAcquire; infer_instance

theorem WakelockMove.balanced {w w' : SharedWakelock} {threadsRun taken : Bool} {posted : Option ℕ}
    (h : WakelockMove w threadsRun posted taken w') (hw : w.Balanced)
    (hp : ∀ n ∈ posted, ¬ w.EmptyAcquire threadsRun n) : w'.Balanced := by
  cases h with
  | stay => exact hw
  | post delta now h => exact (SharedWakelock.balanced_increment_iff hw).2 (hp delta h)
  | create lock now h => exact ScopedWakelock.balanced_create hw
  | release wakelock => exact ScopedWakelock.balanced_release wakelock hw
  | decrement delta => exact SharedWakelock.balanced_decrement hw
  | reset now => exact SharedWakelock.balanced_reset hw

/-- A batch posted with a locked wakelock makes the increment of its count. -/
theorem wakelock_next_of_postedCount (K : Constants) {n : ℕ} (h : s.postedCount a = some n) :
    ∃ now, (System.next K s a).proxy.wakelock =
      (s.proxy.wakelock.incrementRefCountAndMaybeAcquireWakelock s.proxy.mThreadsRun n now).1 := by
  cases a with
  | postEventsToMessageQueue t avail ok now =>
    cases hpost : s.subHals t with
    | posting events n' wakelock began =>
      simp only [System.postedCount, hpost] at h
      cases hlocked : wakelock.mLocked with
      | true =>
        have hn : n' = n := by simpa [hlocked] using h
        refine ⟨now, ?_⟩
        rw [System.next_post hpost, ← hn]
        show (s.proxy.postEventsToMessageQueue K events n' wakelock avail ok now).wakelock = _
        rw [HalProxy.wakelock_postEventsToMessageQueue, if_pos hlocked]
      | false => simp [hlocked] at h
    | _ => simp [System.postedCount, hpost] at h
  | _ => cases h

/-- From a balanced state exactly the empty acquisitions lead to an unbalanced one. -/
theorem balanced_next_iff (K : Constants) (hs : s.proxy.wakelock.Balanced) :
    (System.next K s a).proxy.wakelock.Balanced ↔ NoEmptyAcquire s a := by
  constructor
  · intro hnext n hn
    obtain ⟨now, heq⟩ := wakelock_next_of_postedCount K hn
    rw [heq] at hnext
    exact (SharedWakelock.balanced_increment_iff hs).1 hnext
  · exact (wakelockMove_next K s a).balanced hs

/-- Nothing is counted and the kernel wakelock is not held. -/
def SharedWakelock.Unused (w : SharedWakelock) : Prop := w.mWakelockRefCount = 0 ∧ w.held = false

instance (w : SharedWakelock) : Decidable w.Unused := by
  unfold SharedWakelock.Unused; infer_instance

/-- An unused wakelock stays so until a batch is posted or a scoped wakelock asked for. -/
theorem WakelockMove.unused {w w' : SharedWakelock} {threadsRun : Bool}
    (h : WakelockMove w threadsRun none false w') (hw : w.Unused) : w'.Unused := by
  have hdec : ∀ delta timeoutStart,
      w.decrementRefCountAndMaybeReleaseWakelock threadsRun delta timeoutStart = w := by
    intro delta timeoutStart
    rcases w.decrement_cases threadsRun delta timeoutStart with h | ⟨hpos, -⟩
    · exact h
    · exact absurd hw.1 hpos.ne'
  cases h with
  | stay => exact hw
  | post delta now h => cases h
  | create lock now h => cases h
  | release wakelock =>
    unfold ScopedWakelock.release
    rw [hdec, ite_self]
    exact hw
  | decrement delta => rw [hdec]; exact hw
  | reset now => unfold SharedWakelock.resetSharedWakelock; rw [hdec]; exact hw

end RealmeSalaa.MultiHal
