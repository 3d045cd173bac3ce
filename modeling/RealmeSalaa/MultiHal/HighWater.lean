import RealmeSalaa.MultiHal.PendingSize

/-!
# The high-water mark of the pending queue

`debug` reports `mMostEventsObservedPendingWriteEventsQueue`. Only a post that queues moves it, and
what a post queues is bounded by the counter, so the mark never passes the bound of the queue. While
the counter is exact, it is the largest number of events that were ever pending, across
initializations too, which do not reset it. A batch that is queued between the two statements that
clear is counted on top of what is gone; where there is none, the mark is right (`mark_of_reach`).
-/

namespace RealmeSalaa.MultiHal

open HalProxy

variable {P : Type} {K : Constants} {s : System P} {a : Action P}

/-- The number of events that wait to be written. -/
def HalProxy.pendingCount (p : HalProxy P) : ℕ :=
  (p.mPendingWriteEventsQueue.map fun entry => entry.1.length).sum

/-- The system with the largest number of events that were pending so far. -/
def peakSystem (K : Constants) (P : Type) : GuardedSystem (System P × ℕ) (Action P) :=
  (multiHal K P).record fun peak s a => max peak (System.next K s a).proxy.pendingCount

instance (K : Constants) (s : System P × ℕ) (a : Action P) :
    Decidable ((peakSystem K P).guard s a) :=
  inferInstanceAs (Decidable ((multiHal K P).guard s.1 a))

/-! ## Steps -/

/-- What a step of the threads can do to the mark and to what is pending. -/
inductive MarkMove (K : Constants) (s : System P) (p' : HalProxy (Origin × P)) : Prop
  /-- a post queues -/
  | raised
      (hmark : p'.mMostEventsObservedPendingWriteEventsQueue =
        max s.proxy.mMostEventsObservedPendingWriteEventsQueue p'.mSizePendingWriteEventsQueue)
      (hmax : p'.mSizePendingWriteEventsQueue ≤ K.kMaxSizePendingWriteEventsQueue)
      (hqueued : p'.mPendingWriteEventsQueue ≠ [])
  /-- `handlePendingWrites` has done with a chunk -/
  | lowered (hw : s.pendingWrites ≠ .notRunning)
      (hmark : p'.mMostEventsObservedPendingWriteEventsQueue =
        s.proxy.mMostEventsObservedPendingWriteEventsQueue)
      (hle : p'.pendingCount ≤ s.proxy.pendingCount)
  | same
      (hmark : p'.mMostEventsObservedPendingWriteEventsQueue =
        s.proxy.mMostEventsObservedPendingWriteEventsQueue)
      (hqueue : p'.mPendingWriteEventsQueue = s.proxy.mPendingWriteEventsQueue)

theorem markMove_post (K : Constants) (s : System P) (events : List (PostedEvent P)) (n : ℕ)
    (wakelock : ScopedWakelock) (avail : ℕ) (ok : Bool) (now : ℤ) :
    MarkMove K s (s.proxy.postEventsToMessageQueue K events n wakelock avail ok now) := by
  rw [postEventsToMessageQueue_eq]
  by_cases hqueues : s.proxy.Queues K events (s.proxy.numToWrite events avail ok)
  · refine .raised ?_ ?_ ?_ <;> simp only [if_pos hqueues]
    · exact hqueues.2
    · simp
  · refine .same ?_ ?_ <;> simp only [if_neg hqueues]

theorem pendingCount_finish_le (p : HalProxy P) (n q : ℕ) :
    (p.finishPendingWrites n q).pendingCount ≤ p.pendingCount := by
  unfold finishPendingWrites pendingCount
  cases p.mPendingWriteEventsQueue with
  | nil => exact le_refl _
  | cons entry rest =>
    dsimp only
    split_ifs
    · rw [List.map_cons, List.map_cons, List.sum_cons, List.sum_cons, List.length_drop]
      omega
    · rw [List.map_cons, List.sum_cons]
      omega

theorem markMove_next (K : Constants) (s : System P) (ha : a.isMain = false) :
    MarkMove K s (System.next K s a).proxy := by
  cases a with
  | postEvents t i events n =>
    cases h : s.subHals t <;> simp only [System.next, h] <;> exact .same rfl rfl
  | postEventsToMessageQueue t avail ok now =>
    cases h : s.subHals t with
    | posting events n wakelock began =>
      rw [System.next_post h]
      exact markMove_post K s events n wakelock avail ok now
    | _ => simp only [System.next, h]; exact .same rfl rfl
  | destroyScopedWakelock t =>
    cases h : (s.subHals t).wakelock? <;> simp only [System.next, h] <;> exact .same rfl rfl
  | writeBlocking ok =>
    cases h : s.pendingWrites with
    | writing n q =>
      simp only [System.next, h]
      cases ok with
      | true => exact .same rfl rfl
      | false =>
        obtain ⟨m, w, hdrop, -⟩ := s.proxy.dropPendingWrites_frame K q
        show MarkMove K s (s.proxy.dropPendingWrites K q)
        rw [hdrop]
        exact .same rfl rfl
    | _ => simp only [System.next, h]; exact .same rfl rfl
  | finishPendingWrites =>
    cases h : s.pendingWrites with
    | wrote n q =>
      simp only [System.next, h]
      refine .lowered ?_ rfl (pendingCount_finish_le s.proxy n q)
      rw [h]
      exact PendingWritesThread.noConfusion
    | _ => simp only [System.next, h]; exact .same rfl rfl
  | checkTimeout now now' => simp only [System.next]; split <;> exact .same rfl rfl
  | readBlocking r => cases r <;> exact .same rfl rfl
  | initializeCommon args => cases ha
  | destroy => cases ha
  | mainStep now => cases ha
  | _ => exact .same rfl rfl

theorem mark_mainNext (s : System P) (now : ℤ) :
    (s.mainNext now).proxy.mMostEventsObservedPendingWriteEventsQueue =
      s.proxy.mMostEventsObservedPendingWriteEventsQueue := by
  unfold System.mainNext
  cases s.main with
  | joinWakelockThread caller => cases caller <;> rfl
  | initializeSubHal i args result => dsimp only; split <;> rfl
  | _ => rfl

/-! ## The peak -/

/-- The mark is the peak, and no more is pending. -/
structure Marked (p : HalProxy P) (peak : ℕ) : Prop where
  mark : p.mMostEventsObservedPendingWriteEventsQueue.toNat = peak
  pending : p.pendingCount ≤ peak

theorem toNat_max (a b : UInt64) : (max a b).toNat = max a.toNat b.toNat := by
  show (if a ≤ b then b else a).toNat = _
  split_ifs with h
  · rw [max_eq_right (UInt64.le_iff_toNat_le.1 h)]
  · rw [max_eq_left (le_of_not_ge (mt UInt64.le_iff_toNat_le.2 h))]

theorem Marked.lowered {p p' : HalProxy P} {peak : ℕ} (h : Marked p peak)
    (hmark : p'.mMostEventsObservedPendingWriteEventsQueue =
      p.mMostEventsObservedPendingWriteEventsQueue)
    (hle : p'.pendingCount ≤ p.pendingCount) : Marked p' (max peak p'.pendingCount) := by
  rw [max_eq_left (hle.trans h.pending)]
  exact ⟨by rw [hmark, h.mark], hle.trans h.pending⟩

theorem Marked.same {p p' : HalProxy P} {peak : ℕ} (h : Marked p peak)
    (hmark : p'.mMostEventsObservedPendingWriteEventsQueue =
      p.mMostEventsObservedPendingWriteEventsQueue)
    (hqueue : p'.mPendingWriteEventsQueue = p.mPendingWriteEventsQueue) :
    Marked p' (max peak p'.pendingCount) :=
  h.lowered hmark (by rw [pendingCount, hqueue, pendingCount])

theorem Marked.raised {p p' : HalProxy P} {peak : ℕ} (h : Marked p peak)
    (hmark : p'.mMostEventsObservedPendingWriteEventsQueue =
      max p.mMostEventsObservedPendingWriteEventsQueue p'.mSizePendingWriteEventsQueue)
    (hcounted : Counted K p') : Marked p' (max peak p'.pendingCount) := by
  refine ⟨?_, le_max_right _ _⟩
  rw [hmark, toNat_max, h.mark, hcounted.sum]
  rfl

/-! ## Runs -/

/-- What is known of the mark: between the two statements that clear it is the peak as long as
nothing was queued. -/
structure MarkKnown (K : Constants) (s : System P) (peak : ℕ) : Prop where
  writes : WritesQueued s
  counted : s.main.isBetweenClears = false → Counted K s.proxy
  marked : s.main.isBetweenClears = false ∨ s.proxy.mPendingWriteEventsQueue = [] →
    Marked s.proxy peak

theorem isJoined_of_isBetweenClears {m : MainThread} (h : m.isBetweenClears = true) :
    m.isJoined = true := by
  cases m with
  | clearSizePendingWriteEventsQueue args => rfl
  | _ => cases h

theorem markKnown_next {peak : ℕ} (h : MarkKnown K s peak) (hg : s.guard a)
    (hfits : FitsSize K s a) (hzeroes : ZeroesNothing s a) :
    MarkKnown K (System.next K s a) (max peak (System.next K s a).proxy.pendingCount) := by
  have hcounted := counted_next_of_zeroesNothing h.counted h.writes hg hfits hzeroes
  refine ⟨writesQueued_next h.writes hg, hcounted, fun hknown => ?_⟩
  cases ha : a.isMain with
  | false =>
    rw [(sameRound_next K s ha).main] at hknown hcounted
    rcases markMove_next K s ha with ⟨hmark, -, hqueued⟩ | ⟨hw, hmark, hle⟩ | ⟨hmark, hqueue⟩
    · have hbetween := hknown.resolve_right hqueued
      exact (h.marked (.inl hbetween)).raised hmark (hcounted hbetween)
    · -- the thread runs, so nothing is being cleared
      have hbetween : s.main.isBetweenClears = false := by
        by_contra hnot
        exact hw (h.writes.joined (isJoined_of_isBetweenClears (Bool.eq_true_of_not_eq_false hnot)))
      exact (h.marked (.inl hbetween)).lowered hmark hle
    · rw [hqueue] at hknown
      exact (h.marked hknown).same hmark hqueue
  | true =>
    rcases main_next K s ha with ⟨caller, hnext, hfree⟩ | ⟨now, rfl⟩
    · rw [hnext]
      exact (h.marked (.inl (clears_of_isFree (hfree hg)).2)).same rfl rfl
    · have hmark := mark_mainNext s now
      show Marked (s.mainNext now).proxy (max peak (s.mainNext now).proxy.pendingCount)
      rcases clearMove_mainNext s now with ⟨hm, -, hqueue, -⟩ | ⟨hm, hqueue, -⟩ |
        ⟨-, hbetween, hqueue, -⟩
      · refine (h.marked (.inl (by rw [hm]; rfl))).lowered hmark ?_
        rw [pendingCount, hqueue]
        exact Nat.zero_le _
      · have hnil : s.proxy.mPendingWriteEventsQueue = [] :=
          List.isEmpty_iff.1 (hzeroes rfl (by rw [hm]; rfl))
        exact (h.marked (.inr hnil)).same hmark hqueue
      · exact (h.marked (.inl hbetween)).same hmark hqueue

/-- In every run the mark is within the bound of the queue. -/
theorem mark_le_next (h : s.proxy.mMostEventsObservedPendingWriteEventsQueue ≤
      K.kMaxSizePendingWriteEventsQueue) (a : Action P) :
    (System.next K s a).proxy.mMostEventsObservedPendingWriteEventsQueue ≤
      K.kMaxSizePendingWriteEventsQueue := by
  cases ha : a.isMain with
  | false =>
    rcases markMove_next K s ha with ⟨hmark, hmax, -⟩ | ⟨-, hmark, -⟩ | ⟨hmark, -⟩
    · rw [hmark, UInt64.le_iff_toNat_le, toNat_max]
      exact max_le (UInt64.le_iff_toNat_le.1 h) (UInt64.le_iff_toNat_le.1 hmax)
    · rwa [hmark]
    · rwa [hmark]
  | true =>
    rcases main_next K s ha with ⟨caller, hnext, -⟩ | ⟨now, rfl⟩
    · rwa [hnext]
    · exact (mark_mainNext s now).symm ▸ h

/-- **The high-water mark.** In every run it is within the bound of the queue; and where no event is
pending when the counter is cleared, it is the largest number of events that were ever pending. -/
theorem mark_of_reach (K : Constants) (subHals : List SubHal) (clock : ℤ) :
    (∀ s, (multiHal K P).Reach (fun _ _ => True) (.constructed K P subHals clock) s →
      s.proxy.mMostEventsObservedPendingWriteEventsQueue ≤ K.kMaxSizePendingWriteEventsQueue) ∧
    ∀ s, (peakSystem K P).Reach (fun s a => FitsSize K s.1 a ∧ ZeroesNothing s.1 a)
        (.constructed K P subHals clock, 0) s → s.1.main.isBetweenClears = false →
      s.1.proxy.mMostEventsObservedPendingWriteEventsQueue.toNat = s.2 := by
  obtain ⟨owner, m, hproxy⟩ : ∃ owner m, (System.constructed K P subHals clock).proxy =
      { initial subHals with mDirectChannelSubHal := owner, mSensors := m } :=
    construct_frame (P := Origin × P) K subHals
  constructor
  · intro s h
    refine invariant_of_reach
      (I := fun s => s.proxy.mMostEventsObservedPendingWriteEventsQueue ≤
        K.kMaxSizePendingWriteEventsQueue) h ?_ fun s a hs _ _ => mark_le_next hs a
    rw [hproxy]
    exact UInt64.le_iff_toNat_le.2 (Nat.zero_le _)
  · intro s h hbetween
    have hs : MarkKnown K s.1 s.2 := by
      refine h.invariant (I := fun s => MarkKnown K s.1 s.2) ⟨?_, ?_, fun _ => ?_⟩
        fun s a hs hg ha => markKnown_next hs hg ha.1 ha.2
      · exact writesQueued_of_reach (K := K) (R := fun _ _ => True) .refl
      · exact fun _ => counted_constructed K P subHals clock
      · show Marked (System.constructed K P subHals clock).proxy 0
        rw [hproxy]
        exact ⟨rfl, le_refl 0⟩
    exact (hs.marked (.inl hbetween)).mark

/-- The proxy is initialized again while an event waits. -/
def reinitializedPeak : System ℕ × ℕ :=
  (peakSystem sampleConstants ℕ).exec (sample, 0)
    (initializeRun 4 ++ callRun ++ queueRun ++ reinitializeRun)

theorem mark_of_reach_sample :
    reinitializedPeak.1.proxy.mMostEventsObservedPendingWriteEventsQueue.toNat =
        reinitializedPeak.2 ∧
      reinitializedPeak.1.proxy.mPendingWriteEventsQueue = [] :=
  ⟨(mark_of_reach sampleConstants sampleSubHals 0).2 reinitializedPeak
    (GuardedSystem.reach_exec (by decide)) rfl, rfl⟩

end RealmeSalaa.MultiHal
