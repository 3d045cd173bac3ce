import RealmeSalaa.Lib.Progress
import RealmeSalaa.MultiHal.ConditionVariables

/-!
# Draining the pending queue

How many steps the pending-writes thread has before it sleeps on an empty queue, while the threads
run: five for each chunk, whatever the writes return, and the points of the wait. Between two posts
that queue something, no interleaving with the other threads changes this number, and the thread
can always take its next step (`drains_of_reach`). It rests on the FMQ not being replaced under a
chunk that was measured with its capacity (`chunkSized_of_reach`).
-/

namespace RealmeSalaa.MultiHal

open HalProxy
open ConditionVariable (Point Consistent)

variable {P : Type} {K : Constants}

/-! ## The capacity of the FMQ -/

section Capacity

variable {s : System P} {a : Action P}

/-- A chunk is measured with the capacity of the FMQ. -/
def ChunkSized (s : System P) : Prop :=
  ∀ n q, s.pendingWrites.chunk? = some (n, q) → q = s.proxy.mEventQueue.quantumCount

/-- The threads of the proxy and the sub-HALs write to the FMQ, and no more. -/
theorem quantumCount_next (K : Constants) (s : System P) (hmain : a.isMain = false) :
    (System.next K s a).proxy.mEventQueue.quantumCount = s.proxy.mEventQueue.quantumCount := by
  rcases eventMove_next K s hmain with ⟨hsame, -⟩ | ⟨-, -, hs'⟩ | ⟨-, hs'⟩ | ⟨-, -, hs'⟩ |
    ⟨-, -, -, hs'⟩ | ⟨-, -, hs'⟩ | ⟨-, hs'⟩
  · rw [hsame.mEventQueue]
  · rw [hs']
    exact (congrArg EventMessageQueue.quantumCount
      (mEventQueue_postEventsToMessageQueue ..)).trans rfl
  · rw [hs']
  · rw [hs']; rfl
  · rw [hs']
  · rw [hs']; rfl
  · rw [hs']

/-- The FMQ is replaced only while the thread is joined. -/
theorem quantumCount_mainNext (s : System P) (now : ℤ) :
    (s.mainNext now).proxy.mEventQueue = s.proxy.mEventQueue ∨ s.main.isJoined = true := by
  unfold System.mainNext
  cases s.main with
  | moveEventQueue args => exact .inr rfl
  | joinWakelockThread caller => cases caller <;> exact .inl rfl
  | initializeSubHal i args result => dsimp only; split <;> exact .inl rfl
  | _ => exact .inl rfl

theorem chunkSized_next (hs : ChunkSized s) (hw : WritesQueued s) (a : Action P) :
    ChunkSized (System.next K s a) := by
  intro n q hchunk
  cases hmain : a.isMain with
  | false =>
    rw [quantumCount_next K s hmain]
    rcases eventMove_next K s hmain with ⟨hsame, -⟩ | ⟨-, -, hs'⟩ | ⟨-, hs'⟩ | ⟨-, hw', hs'⟩ |
      ⟨-, hw', -, hs'⟩ | ⟨-, -, hs'⟩ | ⟨-, hs'⟩
    · rw [hsame.pendingWrites] at hchunk
      exact hs n q hchunk
    · rw [hs'] at hchunk
      exact hs n q hchunk
    · rw [hs'] at hchunk
      cases hchunk
      rfl
    · rw [hs'] at hchunk
      cases hchunk
      exact hs n q (by rw [hw']; rfl)
    · rw [hs'] at hchunk
      cases hchunk
      exact hs n q (by rw [hw']; rfl)
    · rw [hs'] at hchunk
      cases hchunk
    · rw [hs'] at hchunk
      cases hchunk
  | true =>
    rcases main_next K s hmain with ⟨caller, hnext, -⟩ | ⟨now, rfl⟩
    · rw [hnext] at hchunk ⊢
      exact hs n q hchunk
    · have hchunk' : (s.mainNext now).pendingWrites.chunk? = some (n, q) := hchunk
      show q = (s.mainNext now).proxy.mEventQueue.quantumCount
      rcases pendingWrites_mainNext s now with ⟨hsame, -⟩ | ⟨hlocked, -⟩
      · rw [hsame] at hchunk'
        rcases quantumCount_mainNext s now with hqueue | hj
        · rw [hqueue]
          exact hs n q hchunk'
        · rw [hw.joined hj] at hchunk'
          cases hchunk'
      · rw [hlocked] at hchunk'
        cases hchunk'

theorem chunkSized_of_reach {R : System P → Action P → Prop} {subHals : List SubHal} {clock : ℤ}
    (h : (multiHal K P).Reach R (.constructed K P subHals clock) s) : ChunkSized s := by
  have hs : WritesQueued s ∧ ChunkSized s :=
    invariant_of_reach (I := fun s => WritesQueued s ∧ ChunkSized s) h
      ⟨⟨fun _ _ hchunk => (by cases hchunk), fun _ => rfl⟩, fun _ _ hchunk => (by cases hchunk)⟩
      fun _ a hs hg _ => ⟨writesQueued_next hs.1 hg, chunkSized_next hs.2 hs.1 a⟩
  exact hs.2

end Capacity

/-! ## Chunks -/

namespace HalProxy

/-- In how many chunks an entry is written. -/
def entryChunks (eventQueueSize : ℕ) (entry : List (Event P) × ℕ) : ℕ :=
  (entry.1.length - 1) / eventQueueSize + 1

/-- In how many chunks the pending queue is written. -/
def chunks (s : HalProxy P) : ℕ :=
  (s.mPendingWriteEventsQueue.map (entryChunks s.mEventQueue.quantumCount)).sum

theorem chunks_eq_zero_iff (s : HalProxy P) : s.chunks = 0 ↔ s.mPendingWriteEventsQueue = [] := by
  unfold chunks
  cases s.mPendingWriteEventsQueue with
  | nil => simp
  | cons entry rest => simp [entryChunks]

theorem chunks_congr {s s' : HalProxy P}
    (hqueue : s'.mPendingWriteEventsQueue = s.mPendingWriteEventsQueue)
    (hsize : s'.mEventQueue.quantumCount = s.mEventQueue.quantumCount) : s'.chunks = s.chunks := by
  unfold chunks
  rw [hqueue, hsize]

/-- The locked phase after a chunk is done with one. -/
theorem chunks_finishPendingWrites {s : HalProxy P} (n : ℕ) {q : ℕ}
    (hq : q = s.mEventQueue.quantumCount) (hpos : 0 < q) (hne : s.mPendingWriteEventsQueue ≠ []) :
    (s.finishPendingWrites n q).chunks + 1 = s.chunks := by
  obtain ⟨⟨events, numWakeupEvents⟩, rest, hqueue⟩ := List.exists_cons_of_ne_nil hne
  unfold chunks finishPendingWrites
  rw [hqueue, ← hq]
  dsimp only
  by_cases hlong : events.length > q
  · have hdiv : (events.length - 1) / q = (events.length - q - 1) / q + 1 := by
      rw [← Nat.add_div_right _ hpos]
      congr 1
      omega
    simp only [if_pos hlong, List.map_cons, List.sum_cons, entryChunks, List.length_drop, hdiv]
    omega
  · have hzero : (events.length - 1) / q = 0 := Nat.div_eq_of_lt (by omega)
    simp only [if_neg hlong, List.map_cons, List.sum_cons, entryChunks, hzero]
    omega

end HalProxy

/-! ## The steps that are left -/

/-- The action is one of the thread. -/
def WaitingAction.isOf (w : Waiter) : WaitingAction P → Bool
  | .sys a => a.isOf w
  | .next v => v = w
  | .wakeSpuriously _ => false

/-- The action neither notifies the waiter nor wakes it for no reason, nor is one of the binder
thread. -/
def Undisturbed (K : Constants) (w : Waiter) (s : WaitingSystem P) : WaitingAction P → Prop
  | .sys a => a.isMain = false ∧ s.sys.notifies K w a = false
  | .next _ => True
  | .wakeSpuriously v => v ≠ w

instance (w : Waiter) (s : WaitingSystem P) :
    (b : WaitingAction P) → Decidable (Undisturbed K w s b)
  | .sys _ => inferInstanceAs (Decidable (_ ∧ _))
  | .next _ => isTrue trivial
  | .wakeSpuriously v => inferInstanceAs (Decidable (v ≠ w))

namespace WaitingSystem

/-- How many steps the pending-writes thread has before it sleeps on an empty queue. -/
def stepsToDrain (s : WaitingSystem P) : ℕ :=
  match s.sys.pendingWrites with
  | .notRunning => 0
  | .locked => 5 * s.sys.proxy.chunks + (s.point .pendingWrites).left
  | .writing _ _ => 5 * s.sys.proxy.chunks
  | .wrote _ _ => 5 * s.sys.proxy.chunks - 1

end WaitingSystem

section Draining

variable {s : WaitingSystem P} {b : WaitingAction P}

/-- The threads run, and the FMQ can take something. -/
structure Drains (s : WaitingSystem P) : Prop where
  knows : Knows s
  sized : ChunkSized s.sys
  running : s.sys.proxy.mThreadsRun = true
  started : s.sys.pendingWrites ≠ .notRunning
  capacity : 0 < s.sys.proxy.mEventQueue.quantumCount

theorem drains_next (hs : Drains s) (hg : s.guard K b) (hb : Undisturbed K .pendingWrites s b) :
    Drains (s.next K b) := by
  have hknows := knows_next hs.knows hg
  cases b with
  | next w => exact { hs with knows := hknows }
  | wakeSpuriously w => exact { hs with knows := hknows }
  | sys a =>
    have hmain := hb.1
    have hguard := guard_of_waitingGuard hs.knows hg
    refine ⟨hknows, chunkSized_next hs.sized hs.knows.joined.writes a, ?_, ?_, ?_⟩
    · exact (sameRound_next K s.sys hmain).mThreadsRun.trans hs.running
    · show (System.next K s.sys a).pendingWrites ≠ _
      cases ha : a.isOf .pendingWrites with
      | false =>
        rw [pendingWrites_next_of_other K s.sys ha hmain]
        exact hs.started
      | true =>
        cases pendingWritesStep K hguard ha with
        | take hw hrun => exact PendingWritesThread.noConfusion
        | write hw hw' => rw [hw']; exact PendingWritesThread.noConfusion
        | finish hw hnext => rw [hnext]; exact PendingWritesThread.noConfusion
        | exit hw hstopped => exact absurd (hs.running.symm.trans hstopped) Bool.noConfusion
    · show 0 < (System.next K s.sys a).proxy.mEventQueue.quantumCount
      rw [quantumCount_next K s.sys hmain]
      exact hs.capacity

/-- The steps of the other threads leave the number alone. -/
theorem stepsToDrain_next_of_other (hb : Undisturbed K .pendingWrites s b)
    (hother : b.isOf .pendingWrites = false) : (s.next K b).stepsToDrain = s.stepsToDrain := by
  cases b with
  | next w =>
    have hw : Waiter.pendingWrites ≠ w := fun h => by simp [WaitingAction.isOf, h] at hother
    simp only [WaitingSystem.stepsToDrain, WaitingSystem.next, Function.update_of_ne hw]
  | wakeSpuriously w =>
    have hw : Waiter.pendingWrites ≠ w := fun h => hb h.symm
    simp only [WaitingSystem.stepsToDrain, WaitingSystem.next, Function.update_of_ne hw]
  | sys a =>
    obtain ⟨hmain, hnot⟩ := hb
    have hpoint := pointAfter_of_other s hother hmain hnot
    have hchunks : (System.next K s.sys a).proxy.chunks = s.sys.proxy.chunks :=
      chunks_congr (mPendingWriteEventsQueue_next_of_other K hother hmain hnot)
        (quantumCount_next K s.sys hmain)
    simp only [WaitingSystem.stepsToDrain, WaitingSystem.next, hpoint, hchunks,
      pendingWrites_next_of_other K s.sys hother hmain]

/-- Each of its own steps is one less to go. -/
theorem stepsToDrain_next (hs : Drains s) (hg : s.guard K b)
    (hown : b.isOf .pendingWrites = true) : (s.next K b).stepsToDrain + 1 = s.stepsToDrain := by
  cases b with
  | wakeSpuriously w => cases hown
  | next w =>
    have hw : w = .pendingWrites := by simpa [WaitingAction.isOf] using hown
    rw [hw] at hg ⊢
    obtain ⟨hin, hwaits⟩ := hg
    rw [hs.running] at hwaits
    have hleft := Point.left_next (s.ready .pendingWrites) hwaits
    have hlocked : s.sys.pendingWrites = .locked := of_decide_eq_true hin
    simp only [WaitingSystem.stepsToDrain, WaitingSystem.next, hlocked, Function.update_self]
    omega
  | sys a =>
    have hchunk := hs.knows.joined.writes.chunk
    cases pendingWritesStep K (guard_of_waitingGuard hs.knows hg) hown with
    | take hlocked hrun =>
      simp only [WaitingSystem.stepsToDrain, WaitingSystem.next, System.next, hlocked, hg.2.1]
      rfl
    | @write ok n q hw hwrote =>
      obtain ⟨hne, -⟩ := hchunk n q (by rw [hw]; rfl)
      have hpos : s.sys.proxy.chunks ≠ 0 := fun h => hne ((chunks_eq_zero_iff _).1 h)
      have hnext : (System.next K s.sys (.writeBlocking ok)).proxy.chunks =
          s.sys.proxy.chunks := by
        refine chunks_congr ?_ (quantumCount_next K s.sys rfl)
        simp only [System.next, hw]
        cases ok with
        | true => rfl
        | false =>
          obtain ⟨m, v, hdrop, -⟩ := s.sys.proxy.dropPendingWrites_frame K q
          exact (congrArg mPendingWriteEventsQueue hdrop).trans rfl
      simp only [WaitingSystem.stepsToDrain, WaitingSystem.next, hwrote, hw, hnext]
      omega
    | @finish n q hw hnext =>
      have hchunk? : s.sys.pendingWrites.chunk? = some (n, q) := by rw [hw]; rfl
      have hq := hs.sized n q hchunk?
      have hchunks := chunks_finishPendingWrites n hq (hq ▸ hs.capacity) (hchunk n q hchunk?).1
      have hpoint : s.pointAfter K .finishPendingWrites .pendingWrites = .loopTest := rfl
      simp only [WaitingSystem.stepsToDrain, WaitingSystem.next, hnext, hpoint, System.finish,
        hw, Point.left]
      omega
    | exit hw hstopped => exact absurd (hs.running.symm.trans hstopped) Bool.noConfusion

/-- The number is zero only when the thread sleeps on an empty queue. -/
theorem stepsToDrain_eq_zero (hs : Drains s) (h : s.stepsToDrain = 0) :
    s.sys.proxy.mPendingWriteEventsQueue = [] ∧ s.sys.pendingWrites = .locked ∧
      s.point .pendingWrites = .parked := by
  have hchunk := hs.knows.joined.writes.chunk
  have hpos : ∀ n q, s.sys.pendingWrites.chunk? = some (n, q) → s.sys.proxy.chunks ≠ 0 :=
    fun n q hchunk? h => (hchunk n q hchunk?).1 ((chunks_eq_zero_iff _).1 h)
  unfold WaitingSystem.stepsToDrain at h
  cases hw : s.sys.pendingWrites with
  | notRunning => exact absurd hw hs.started
  | locked =>
    rw [hw] at h
    dsimp only at h
    refine ⟨(chunks_eq_zero_iff _).1 (by omega), rfl, ?_⟩
    cases hp : s.point .pendingWrites <;> simp [hp, Point.left] at h ⊢
  | writing n q =>
    rw [hw] at h hpos
    have := hpos n q rfl
    dsimp only at h
    omega
  | wrote n q =>
    rw [hw] at h hpos
    have := hpos n q rfl
    dsimp only at h
    omega

/-- Unless the number is zero the thread can take a step. -/
theorem exists_step_of_stepsToDrain (K : Constants) (hs : Drains s) (h : 0 < s.stepsToDrain) :
    ∃ b : WaitingAction P, s.guard K b ∧ b.isOf .pendingWrites = true := by
  have hfree : ∀ a : Action P, s.sys.guard a → (∀ w, s.sys.takesMutex K w a = false) →
      s.sys.guard a ∧ ∀ w, s.sys.takesMutex K w a = true → s.MutexFree w := fun a hg htakes =>
    ⟨hg, fun w htrue => absurd (htrue.symm.trans (htakes w)) Bool.noConfusion⟩
  cases hw : s.sys.pendingWrites with
  | notRunning => exact absurd hw hs.started
  | writing n q =>
    refine ⟨.sys (.writeBlocking true), hfree _ ?_ fun w => ?_, rfl⟩
    · simp [System.guard, hw]
    · cases w <;> simp [System.takesMutex, hw]
  | wrote n q =>
    refine ⟨.sys .finishPendingWrites, hfree _ ?_ fun w => ?_, rfl⟩
    · simp [System.guard, hw]
    · cases w <;> rfl
  | locked =>
    have hin : s.sys.inLoop .pendingWrites = true := by simp [System.inLoop, hw]
    rcases (s.point .pendingWrites).waits_or with hwaits | hparked | htested
    · exact ⟨.next .pendingWrites, ⟨hin, by rw [hs.running]; exact hwaits⟩, by
        simp [WaitingAction.isOf]⟩
    · -- asleep, there is nothing to do
      have hnone := (hs.knows.consistent _ hin).asleep (by rw [hparked]; rfl)
      have hempty : s.sys.proxy.mPendingWriteEventsQueue = [] := by
        simpa [System.work] using hnone
      have hzero : s.sys.proxy.chunks = 0 := (chunks_eq_zero_iff _).2 hempty
      simp [WaitingSystem.stepsToDrain, hw, hparked, hzero, Point.left] at h
    · exact ⟨.sys .takePendingWrites, ⟨hin, htested, hs.running⟩, rfl⟩

/-- **Draining.** In every reachable state in which the threads run, over an FMQ that can take
something: in every continuation without a binder call, a queueing post or a spurious wake-up, the
steps of the pending-writes thread count `stepsToDrain` down one by one, whatever else runs and
whatever the writes return. As long as it is not zero the thread can take a step; at zero it sleeps
on an empty queue. -/
theorem drains_of_reach {R : WaitingSystem P → WaitingAction P → Prop} {subHals : List SubHal}
    {clock : ℤ} {n : ℕ} {s' : WaitingSystem P}
    (h : (waitingHal K P).Reach R (.constructed K P subHals clock) s)
    (hrun : s.sys.proxy.mThreadsRun = true) (hstarted : s.sys.pendingWrites ≠ .notRunning)
    (hcapacity : 0 < s.sys.proxy.mEventQueue.quantumCount)
    (hcounts : (waitingHal K P).Counts (Undisturbed K .pendingWrites)
      (fun b => b.isOf .pendingWrites = true) s n s') :
    n + s'.stepsToDrain = s.stepsToDrain ∧
      (0 < s'.stepsToDrain → ∃ b : WaitingAction P, s'.guard K b ∧ b.isOf .pendingWrites = true) ∧
      (s'.stepsToDrain = 0 → s'.sys.proxy.mPendingWriteEventsQueue = [] ∧
        s'.sys.pendingWrites = .locked ∧ s'.point .pendingWrites = .parked) := by
  have hs : Drains s :=
    ⟨knows_of_reach h, chunkSized_of_reach (reach_of_waiting h), hrun, hstarted, hcapacity⟩
  obtain ⟨hs', heq⟩ := hcounts.add_rank_eq hs (fun s b hs hg hb => drains_next hs hg hb)
    (fun s b hs hg _ hown => stepsToDrain_next hs hg hown)
    fun s b _ _ hb hother => stepsToDrain_next_of_other hb (Bool.eq_false_iff.2 hother)
  exact ⟨heq, exists_step_of_stepsToDrain K hs', stepsToDrain_eq_zero hs'⟩

end Draining

/-- The two events are dropped by a `writeBlocking` that fails. -/
def dropRun : List (WaitingAction ℕ) :=
  [.next .pendingWrites, .next .pendingWrites, .sys .takePendingWrites,
    .sys (.destroyScopedWakelock 0), .sys (.writeBlocking false)]

theorem drains_of_reach_sample :
    let s' := (waitingHal sampleConstants ℕ).exec waitingQueued dropRun
    waitingQueued.stepsToDrain = 8 ∧ 4 + s'.stepsToDrain = waitingQueued.stepsToDrain ∧
      (0 < s'.stepsToDrain →
        ∃ b : WaitingAction ℕ, s'.guard sampleConstants b ∧ b.isOf .pendingWrites = true) ∧
      (s'.stepsToDrain = 0 → s'.sys.proxy.mPendingWriteEventsQueue = [] ∧
        s'.sys.pendingWrites = .locked ∧ s'.point .pendingWrites = .parked) :=
  have hreach : (waitingHal sampleConstants ℕ).Reach (fun _ _ => True) waitingSample
    waitingQueued := GuardedSystem.reach_exec (by decide)
  have hlegal : (waitingHal sampleConstants ℕ).Legal (Undisturbed sampleConstants .pendingWrites)
    waitingQueued dropRun := by decide
  ⟨by decide, drains_of_reach hreach (by decide) (by decide) (by decide)
    (GuardedSystem.counts_exec (fun b => b.isOf .pendingWrites = true) dropRun hlegal)⟩

end RealmeSalaa.MultiHal
