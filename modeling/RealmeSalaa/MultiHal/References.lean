import RealmeSalaa.MultiHal.Delivery
import RealmeSalaa.MultiHal.WakelockBalance
import RealmeSalaa.MultiHal.WakelockCredit
import RealmeSalaa.MultiHal.WakelockDeadline

/-!
# What keeps the wakelock

`Credit` bounds the references from below. Here they are bounded from above: each is for a scoped
wakelock taken since the latest reset, or for a wake-up event that was delivered and not yet
acknowledged, is still to be delivered, or was refused (`references_of_reach`). Timeouts, failed
writes and late acknowledgements only take references away, so that the runs need not be orderly, and
only the counts of the batches have to be true. Of these references only those of the refused events
are given back by nobody.

Events are counted here where they were posted and where they failed. The channel, on which nothing
else is lost, says where the others are (`numWakeups_posted`).
-/

namespace RealmeSalaa.MultiHal

open HalProxy

variable {P : Type} {K : Constants} {s s₀ : System P} {a : Action P}

/-! ## The runs -/

/-- No step of the binder thread, true counts, no batch without wake-up events that takes the
kernel wakelock, and no more acknowledged than delivered. -/
def Truthful (K : Constants) (s : System P) (a : Action P) : Prop :=
  a.isMain = false ∧ TrueCounts K s a ∧ NoEmptyAcquire s a ∧
    s.hist.wakeupsAcked + a.acked ≤ numWakeups K s.proxy.mSensors s.proxy.mEventQueue.written

instance (s : System P) (a : Action P) : Decidable (Truthful K s a) := by
  unfold Truthful; infer_instance

/-- The threads run, and nothing is posted, acknowledged or counted. -/
structure UnusedStart (s : System P) : Prop extends Fresh s where
  running : s.proxy.mThreadsRun = true
  resetTime : s.proxy.wakelock.mWakelockTimeoutResetTime ≤ s.clock
  unused : s.proxy.wakelock.Unused
  batches : s.hist.batches = []
  acked : s.hist.wakeupsAcked = 0

/-! ## Where the events are -/

/-- A posted wake-up event is delivered, undelivered, failed or refused. -/
theorem numWakeups_posted (m : SensorMap)
    (h : (LossyFifo.system (PostedEvent P)).Reach (fun _ _ => True) .empty s.channel) :
    numWakeups K m s.hist.posted =
      numWakeups K m s.proxy.mEventQueue.written + numWakeups K m s.undelivered +
        numWakeups K m s.hist.failed.flatten + numWakeups K m s.hist.refused.flatten := by
  have hperm : numWakeups K m s.hist.posted = numWakeups K m (s.proxy.mEventQueue.written ++
      s.undelivered ++ s.hist.failed.flatten ++ s.hist.refused.flatten) :=
    (LossyFifo.accounted_of_reach h).perm.countP_eq _
  rw [hperm, numWakeups_append, numWakeups_append, numWakeups_append]

theorem flags_next (K : Constants) (s : System P) (ha : a.isMain = false) (k : Int32) :
    (System.next K s a).proxy.mSensors.flags k = s.proxy.mSensors.flags k := by
  rcases eventMove_next K s ha with ⟨hsame, -⟩ | ⟨-, -, hs'⟩ | ⟨-, hs'⟩ | ⟨-, -, hs'⟩ |
    ⟨-, -, hflags, hs'⟩ | ⟨-, -, hs'⟩ | ⟨-, hs'⟩
  · rw [hsame.mSensors]
  · rw [hs']
    show (s.proxy.postEventsToMessageQueue K _ _ _ _ _ _).mSensors.flags k = _
    rw [postEventsToMessageQueue_eq]
  · rw [hs']
  · rw [hs']
  · rw [hs']; exact hflags k
  · rw [hs']; rfl
  · rw [hs']

/-- What is written stays written. -/
theorem written_isPrefix_next (K : Constants) (s : System P) (ha : a.isMain = false) :
    s.proxy.mEventQueue.written <+: (System.next K s a).proxy.mEventQueue.written := by
  rcases eventMove_next K s ha with ⟨hsame, -⟩ | ⟨-, -, hs'⟩ | ⟨-, hs'⟩ | ⟨-, -, hs'⟩ |
    ⟨-, -, -, hs'⟩ | ⟨-, -, hs'⟩ | ⟨-, hs'⟩
  · rw [hsame.mEventQueue]
  · rw [hs']
    show _ <+: (s.proxy.postEventsToMessageQueue K _ _ _ _ _ _).mEventQueue.written
    rw [mEventQueue_postEventsToMessageQueue]
    exact List.prefix_append _ _
  · rw [hs']
  · rw [hs']; exact List.prefix_append _ _
  · rw [hs']
  · rw [hs']; exact List.prefix_refl _
  · rw [hs']

theorem wakeupsAcked_next (K : Constants) (s : System P) (ha : a.isMain = false) :
    (System.next K s a).hist.wakeupsAcked = s.hist.wakeupsAcked + a.acked := by
  cases a with
  | postEvents t i events n => cases h : s.subHals t <;> simp only [System.next, h] <;> rfl
  | postEventsToMessageQueue t avail ok now =>
    cases h : s.subHals t <;> simp only [System.next, h] <;> rfl
  | destroyScopedWakelock t =>
    cases h : (s.subHals t).wakelock? <;> simp only [System.next, h] <;> rfl
  | writeBlocking ok =>
    cases h : s.pendingWrites <;> simp only [System.next, h] <;> cases ok <;> rfl
  | finishPendingWrites => cases h : s.pendingWrites <;> simp only [System.next, h] <;> rfl
  | checkTimeout now now' =>
    cases h : s.proxy.wakelock.sharedWakelockDidTimeout K.kWakelockTimeoutNs now <;>
      simp only [System.next, h] <;> rfl
  | readBlocking r => cases r <;> rfl
  | initializeCommon args => cases ha
  | destroy => cases ha
  | mainStep now => cases ha
  | _ => rfl

/-! ## What a failed write gives back -/

theorem numWakeups_le_of_sublist {m : SensorMap} {xs ys : List (Event P)} (h : xs.Sublist ys) :
    numWakeups K m xs ≤ numWakeups K m ys := h.countP_le

theorem refCount_dropPendingWrites (p : HalProxy P) (hrun : p.mThreadsRun = true) (q : ℕ) :
    (p.dropPendingWrites K q).wakelock.mWakelockRefCount =
      p.wakelock.mWakelockRefCount - p.givenBack K q := by
  unfold HalProxy.dropPendingWrites HalProxy.givenBack
  cases p.failedWriteDecrement K q with
  | none => rfl
  | some dropped =>
    dsimp only
    rw [hrun]
    exact SharedWakelock.refCount_decrement (.inl rfl)

/-- A failed write gives back at least the references of the chunk. -/
theorem le_givenBack (he : Entries K s) (hs : ChunkQueued s) {n q : ℕ}
    (hw : s.pendingWrites = .writing n q) :
    numWakeups K s.proxy.mSensors (s.proxy.pendingWriteEvents.take n) ≤ s.proxy.givenBack K q := by
  obtain ⟨hne, hn⟩ := hs n q (by rw [hw]; rfl)
  obtain ⟨⟨events, numWakeupEvents⟩, rest, hp⟩ := List.exists_cons_of_ne_nil hne
  obtain ⟨batch, -, -, ⟨hsuffix, hcount⟩, -⟩ := exists_batch he hp
  have hfront : s.proxy.pendingWriteEvents = events := by rw [pendingWriteEvents, hp]
  have hwakeups : s.proxy.pendingWakeupEvents = numWakeupEvents := by rw [pendingWakeupEvents, hp]
  have hle : numWakeups K s.proxy.mSensors (events.take n) ≤ numWakeupEvents :=
    (numWakeups_le_of_sublist ((List.take_sublist n events).trans hsuffix.sublist)).trans hcount.ge
  unfold givenBack failedWriteDecrement
  rw [hwakeups, hfront]
  rw [hfront] at hn
  by_cases hsome : numWakeupEvents > 0
  · rw [if_pos hsome]
    by_cases hlong : events.length > q
    · rw [if_pos hlong, hn, min_eq_right hlong.le]
      exact (countNumWakeupEvents_eq K s.proxy.mSensors events q).ge
    · rw [if_neg hlong]
      exact hle
  · rw [if_neg hsome]
    show _ ≤ 0
    omega

/-! ## The latest reset -/

theorem resetTime_dropPendingWrites (K : Constants) (p : HalProxy P) (q : ℕ) :
    (p.dropPendingWrites K q).wakelock.mWakelockTimeoutResetTime =
      p.wakelock.mWakelockTimeoutResetTime := by
  unfold HalProxy.dropPendingWrites
  cases p.failedWriteDecrement K q with
  | none => rfl
  | some dropped => exact SharedWakelock.decrement_timeoutResetTime

theorem resetTime_post (K : Constants) (s : System P) (t : ℕ) (events : List (PostedEvent P))
    (n : ℕ) (wakelock : ScopedWakelock) (avail : ℕ) (ok : Bool) (now : ℤ) :
    (s.post K t events n wakelock avail ok now).proxy.wakelock.mWakelockTimeoutResetTime =
      s.proxy.wakelock.mWakelockTimeoutResetTime := by
  show (s.proxy.postEventsToMessageQueue K _ _ _ _ _ _).wakelock.mWakelockTimeoutResetTime = _
  rw [wakelock_postEventsToMessageQueue]
  split
  · exact SharedWakelock.increment_timeoutResetTime
  · rfl

/-- A reset is at the time of its action. -/
theorem resetTime_next (K : Constants) (s : System P) (ha : a.isMain = false) :
    (System.next K s a).proxy.wakelock.mWakelockTimeoutResetTime =
        s.proxy.wakelock.mWakelockTimeoutResetTime ∨
      (System.next K s a).proxy.wakelock.mWakelockTimeoutResetTime =
        (System.next K s a).clock := by
  cases a with
  | createScopedWakelock t lock now => exact .inl ScopedWakelock.create_timeoutResetTime
  | postEventsToMessageQueue t avail ok now =>
    cases hpost : s.subHals t with
    | posting events n wakelock began =>
      rw [System.next_post hpost]
      exact .inl (resetTime_post ..)
    | _ => exact .inl (by simp only [System.next, hpost])
  | postEvents t i events n =>
    exact .inl (by cases h : s.subHals t <;> simp only [System.next, h])
  | destroyScopedWakelock t =>
    cases h : (s.subHals t).wakelock? with
    | none => exact .inl (by simp only [System.next, h])
    | some wakelock =>
      simp only [System.next, h]
      exact .inl (ScopedWakelock.release_timeoutResetTime wakelock)
  | writeBlocking ok =>
    cases h : s.pendingWrites with
    | writing n q =>
      simp only [System.next, h]
      cases ok with
      | true => exact .inl rfl
      | false => exact .inl (resetTime_dropPendingWrites ..)
    | _ => exact .inl (by simp only [System.next, h])
  | finishPendingWrites =>
    exact .inl (by cases h : s.pendingWrites <;> simp only [System.next, h]; rfl)
  | checkTimeout now now' =>
    cases h : s.proxy.wakelock.sharedWakelockDidTimeout K.kWakelockTimeoutNs now with
    | none => exact .inr (by simp only [System.next, h]; rfl)
    | some timeLeft => exact .inl (by simp only [System.next, h])
  | readBlocking r =>
    cases r with
    | none => exact .inl rfl
    | some n => exact .inl SharedWakelock.decrement_timeoutResetTime
  | exitWakelocks now => exact .inr rfl
  | initializeCommon args => cases ha
  | destroy => cases ha
  | mainStep now => cases ha
  | _ => exact .inl rfl

/-! ## The invariant -/

/-- The scoped wakelocks of the threads in `T`, which are all fresh, and the posted wake-up events
that did not fail cover the references and the acknowledged events. -/
structure CoveredBy (K : Constants) (s : System P) (T : Finset ℕ) : Prop where
  fresh : ∀ t ∈ T, FreshWakelock s t
  le : s.proxy.wakelock.mWakelockRefCount + s.hist.wakeupsAcked +
      numWakeups K s.proxy.mSensors s.hist.failed.flatten ≤
    T.card + numWakeups K s.proxy.mSensors s.hist.posted

structure Referenced (K : Constants) (s : System P) : Prop where
  running : s.proxy.mThreadsRun = true
  resetTime : s.proxy.wakelock.mWakelockTimeoutResetTime ≤ s.clock
  entries : Entries K s
  chunk : ChunkQueued s
  channel : (LossyFifo.system (PostedEvent P)).Reach (fun _ _ => True) .empty s.channel
  balanced : s.proxy.wakelock.Balanced
  acked : s.hist.wakeupsAcked ≤ numWakeups K s.proxy.mSensors s.proxy.mEventQueue.written
  covered : ∃ T, CoveredBy K s T

theorem UnusedStart.referenced (h : UnusedStart s) : Referenced K s where
  running := h.running
  resetTime := h.resetTime
  entries := by
    unfold Entries
    rw [h.pending, h.batches]
    exact .nil
  chunk := h.chunkQueued
  channel := by rw [h.toFresh.channel]; exact .refl
  balanced := by
    unfold SharedWakelock.Balanced
    rw [h.unused.1, h.unused.2]
    simp
  acked := by rw [h.acked]; exact Nat.zero_le _
  covered := by
    refine ⟨∅, fun t ht => absurd ht (Finset.notMem_empty t), ?_⟩
    rw [h.unused.1, h.acked, h.failed, h.posted]
    exact Nat.zero_le _

/-- What is acknowledged and what failed has been posted. -/
theorem Referenced.acked_add_failed_le (hs : Referenced K s) :
    s.hist.wakeupsAcked + numWakeups K s.proxy.mSensors s.hist.failed.flatten ≤
      numWakeups K s.proxy.mSensors s.hist.posted := by
  have hposted := numWakeups_posted (K := K) s.proxy.mSensors hs.channel
  have hacked := hs.acked
  omega

section Covered

variable {s' : System P} {T : Finset ℕ} {t : ℕ}

/-- A thread that goes on keeps its scoped wakelock. -/
theorem wakelock?_update {threads : ℕ → SubHalThread P} {thread : SubHalThread P}
    (h : thread.wakelock? = (threads t).wakelock?) (t' : ℕ) :
    (Function.update threads t thread t').wakelock? = (threads t').wakelock? := by
  by_cases ht : t' = t
  · rw [ht, Function.update_self, h]
  · rw [Function.update_of_ne ht]

theorem FreshWakelock.of_wakelock (h : FreshWakelock s t)
    (hwakelock : (s'.subHals t).wakelock? = (s.subHals t).wakelock?)
    (hreset : s'.proxy.wakelock.mWakelockTimeoutResetTime =
      s.proxy.wakelock.mWakelockTimeoutResetTime) : FreshWakelock s' t := by
  obtain ⟨wakelock, ⟨hw, hlocked⟩, hfresh⟩ := h
  exact ⟨wakelock, ⟨hwakelock.trans hw, hlocked⟩, hreset.le.trans hfresh⟩

/-- Steps that give no reference and leave the events alone. -/
theorem CoveredBy.of_same (h : CoveredBy K s T)
    (hwakelock : ∀ t, (s'.subHals t).wakelock? = (s.subHals t).wakelock?)
    (hw : s'.proxy.wakelock = s.proxy.wakelock) (hsensors : s'.proxy.mSensors = s.proxy.mSensors)
    (hposted : s'.hist.posted = s.hist.posted) (hfailed : s'.hist.failed = s.hist.failed)
    (hacked : s'.hist.wakeupsAcked = s.hist.wakeupsAcked) : CoveredBy K s' T where
  fresh t ht := (h.fresh t ht).of_wakelock (hwakelock t) (by rw [hw])
  le := by rw [hw, hsensors, hposted, hfailed, hacked]; exact h.le

/-- A new scoped wakelock counts for the one reference it takes. -/
theorem covered_createScopedWakelock (hs : Referenced K s) (hidle : (s.subHals t).isIdle = true)
    (lock : Bool) {now : ℤ} (hnow : s.clock ≤ now) :
    ∃ T, CoveredBy K (System.next K s (.createScopedWakelock t lock now)) T := by
  obtain ⟨T, hT⟩ := hs.covered
  set s' := System.next K s (.createScopedWakelock t lock now) with hs'
  set created := ScopedWakelock.create s.proxy.wakelock s.proxy.mThreadsRun lock now with hcreated
  have hw : s'.proxy.wakelock = created.1 := rfl
  have hself : (s'.subHals t).wakelock? = some created.2 := by
    show (Function.update s.subHals t (.holding created.2) t).wakelock? = _
    rw [Function.update_self]
    rfl
  have hnot : t ∉ T := by
    intro ht
    obtain ⟨wakelock, ⟨hwakelock, -⟩, -⟩ := hT.fresh t ht
    cases hthread : s.subHals t <;> simp_all [SubHalThread.isIdle, SubHalThread.wakelock?]
  have hreset : s'.proxy.wakelock.mWakelockTimeoutResetTime =
      s.proxy.wakelock.mWakelockTimeoutResetTime := by
    rw [hw]
    exact ScopedWakelock.create_timeoutResetTime
  have hother : ∀ t' ∈ T, FreshWakelock s' t' := by
    intro t' ht'
    refine (hT.fresh t' ht').of_wakelock ?_ hreset
    have hne : t' ≠ t := fun h => hnot (h ▸ ht')
    show (Function.update s.subHals t (.holding created.2) t').wakelock? = _
    rw [Function.update_of_ne hne]
  rcases ScopedWakelock.create_cases s.proxy.wakelock s.proxy.mThreadsRun lock now with
    heq | ⟨-, -, heq⟩
  · refine ⟨T, hother, ?_⟩
    rw [hw, hcreated, heq]
    exact hT.le
  · refine ⟨insert t T, fun t' ht' => ?_, ?_⟩
    · rcases Finset.mem_insert.1 ht' with rfl | ht'
      · refine ⟨⟨true, now⟩, ⟨by rw [hself, hcreated, heq], rfl⟩, ?_⟩
        rw [hreset]
        exact hs.resetTime.trans hnow
      · exact hother t' ht'
    · have hle := hT.le
      rw [Finset.card_insert_of_notMem hnot, hw, hcreated, heq]
      show s.proxy.wakelock.mWakelockRefCount + 1 + s.hist.wakeupsAcked +
        numWakeups K s.proxy.mSensors s.hist.failed.flatten ≤
          T.card + 1 + numWakeups K s.proxy.mSensors s.hist.posted
      omega

/-- A batch counts for as many references as it takes. -/
theorem CoveredBy.post (hT : CoveredBy K s T) {events : List (PostedEvent P)} {n : ℕ}
    {wakelock : ScopedWakelock} {began : ℕ}
    (hpost : s.subHals t = .posting events n wakelock began)
    (hcount : n = numWakeups K s.proxy.mSensors events) (avail : ℕ) (ok : Bool) (now : ℤ) :
    CoveredBy K (s.post K t events n wakelock avail ok now) T := by
  set s' := s.post K t events n wakelock avail ok now with hs'
  have hw : s'.proxy.wakelock = if wakelock.mLocked then
      (s.proxy.wakelock.incrementRefCountAndMaybeAcquireWakelock s.proxy.mThreadsRun n now).1
      else s.proxy.wakelock := wakelock_postEventsToMessageQueue ..
  have hmore : s'.proxy.wakelock.mWakelockRefCount ≤ s.proxy.wakelock.mWakelockRefCount + n := by
    rw [hw]
    cases wakelock.mLocked with
    | false => exact Nat.le_add_right _ n
    | true =>
      cases s.proxy.mThreadsRun with
      | false => exact Nat.le_add_right _ n
      | true => exact le_refl _
  have hsensors : s'.proxy.mSensors = s.proxy.mSensors := by
    show (s.proxy.postEventsToMessageQueue K _ _ _ _ _ _).mSensors = _
    rw [postEventsToMessageQueue_eq]
  refine ⟨fun t' ht' => (hT.fresh t' ht').of_wakelock ?_ (resetTime_post ..), ?_⟩
  · exact wakelock?_update (by rw [hpost]; rfl) t'
  · have hle := hT.le
    rw [hsensors]
    show s'.proxy.wakelock.mWakelockRefCount + s.hist.wakeupsAcked +
      numWakeups K s.proxy.mSensors s.hist.failed.flatten ≤
        T.card + numWakeups K s.proxy.mSensors (s.hist.posted ++ events)
    rw [numWakeups_append, ← hcount]
    omega

/-- A fresh scoped wakelock gives back what it counted for. -/
theorem covered_destroyScopedWakelock (hs : Referenced K s) (t : ℕ) :
    ∃ T, CoveredBy K (System.next K s (.destroyScopedWakelock t)) T := by
  obtain ⟨T, hT⟩ := hs.covered
  cases hwakelock : (s.subHals t).wakelock? with
  | none => exact ⟨T, by simp only [System.next, hwakelock]; exact hT⟩
  | some wakelock =>
    set s' := System.next K s (.destroyScopedWakelock t) with hs'
    have hw : s'.proxy.wakelock = wakelock.release s.proxy.wakelock s.proxy.mThreadsRun := by
      rw [hs']
      simp only [System.next, hwakelock]
    have hhist : s'.hist = s.hist ∧ s'.proxy.mSensors = s.proxy.mSensors := by
      rw [hs']
      simp only [System.next, hwakelock, and_self]
    have hother : ∀ t' ∈ T.erase t, FreshWakelock s' t' := by
      intro t' ht'
      obtain ⟨hne, hmem⟩ := Finset.mem_erase.1 ht'
      refine (hT.fresh t' hmem).of_wakelock ?_ ?_
      · rw [hs']
        simp only [System.next, hwakelock, Function.update_of_ne hne]
      · rw [hw]
        exact ScopedWakelock.release_timeoutResetTime wakelock
    refine ⟨T.erase t, hother, ?_⟩
    have hle := hT.le
    have hposted := hs.acked_add_failed_le
    rw [hhist.1, hhist.2, hw]
    by_cases hmem : t ∈ T
    · obtain ⟨wakelock', ⟨hsome, hlocked⟩, hfresh⟩ := hT.fresh t hmem
      obtain rfl : wakelock' = wakelock := Option.some.inj (hsome.symm.trans hwakelock)
      have hcard := Finset.card_erase_add_one hmem
      rw [hs.running, ScopedWakelock.refCount_release hlocked hfresh]
      omega
    · have hless : (wakelock.release s.proxy.wakelock s.proxy.mThreadsRun).mWakelockRefCount ≤
          s.proxy.wakelock.mWakelockRefCount := ScopedWakelock.refCount_release_le wakelock
      rw [Finset.erase_eq_of_notMem hmem]
      omega

/-- An acknowledgement takes the references of the events it acknowledges, or all. -/
theorem covered_readBlocking (hs : Referenced K s) {n : ℕ}
    (hn : s.hist.wakeupsAcked + n ≤ numWakeups K s.proxy.mSensors s.proxy.mEventQueue.written) :
    ∃ T, CoveredBy K (System.next K s (.readBlocking (some n))) T := by
  obtain ⟨T, hT⟩ := hs.covered
  refine ⟨T, fun t ht => (hT.fresh t ht).of_wakelock rfl SharedWakelock.decrement_timeoutResetTime,
    ?_⟩
  have hle := hT.le
  have hposted := numWakeups_posted (K := K) s.proxy.mSensors hs.channel
  show (s.proxy.wakelock.decrementRefCountAndMaybeReleaseWakelock s.proxy.mThreadsRun n
    (-1)).mWakelockRefCount + (s.hist.wakeupsAcked + n) +
      numWakeups K s.proxy.mSensors s.hist.failed.flatten ≤
        T.card + numWakeups K s.proxy.mSensors s.hist.posted
  rw [hs.running, SharedWakelock.refCount_decrement (.inl rfl)]
  omega

/-- A timeout takes all references, and makes every scoped wakelock count for nothing. -/
theorem covered_reset (hs : Referenced K s) (now : ℤ) : ∃ T, CoveredBy K (s.reset now) T := by
  refine ⟨∅, fun t ht => absurd ht (Finset.notMem_empty t), ?_⟩
  have hposted := hs.acked_add_failed_le
  show (s.proxy.wakelock.resetSharedWakelock s.proxy.mThreadsRun now).mWakelockRefCount +
    s.hist.wakeupsAcked + numWakeups K s.proxy.mSensors s.hist.failed.flatten ≤
      (∅ : Finset ℕ).card + numWakeups K s.proxy.mSensors s.hist.posted
  rw [hs.running, SharedWakelock.refCount_reset, Finset.card_empty]
  omega

/-- A failed write takes the references of the events that fail, and maybe more. -/
theorem covered_writeBlocking (hs : Referenced K s) (ok : Bool) :
    ∃ T, CoveredBy K (System.next K s (.writeBlocking ok)) T := by
  obtain ⟨T, hT⟩ := hs.covered
  cases hw : s.pendingWrites with
  | writing n q =>
    simp only [System.next, hw]
    cases ok with
    | true => exact ⟨T, hT.of_same (fun _ => rfl) rfl rfl rfl rfl rfl⟩
    | false =>
      obtain ⟨m, w, hdrop, hflags⟩ := s.proxy.dropPendingWrites_frame K q
      have hcount := refCount_dropPendingWrites (K := K) s.proxy hs.running q
      have hgiven := le_givenBack hs.entries hs.chunk hw
      have hundelivered : numWakeups K s.proxy.mSensors (s.proxy.pendingWriteEvents.take n) ≤
          numWakeups K s.proxy.mSensors s.undelivered := by
        have hlocated : s.undelivered = s.proxy.pendingEvents := by rw [System.undelivered, hw]
        rw [hlocated, ← take_pendingEvents s.proxy (hs.chunk.le_length (by rw [hw]; rfl)).1]
        exact numWakeups_le_of_sublist (List.take_sublist n _)
      have hle := hT.le
      have hacked := hs.acked
      have hposted := numWakeups_posted (K := K) s.proxy.mSensors hs.channel
      refine ⟨T, fun t ht => (hT.fresh t ht).of_wakelock rfl (resetTime_dropPendingWrites ..), ?_⟩
      have hsensors : (s.proxy.dropPendingWrites K q).mSensors = m := by rw [hdrop]
      show (s.proxy.dropPendingWrites K q).wakelock.mWakelockRefCount + s.hist.wakeupsAcked +
        numWakeups K (s.proxy.dropPendingWrites K q).mSensors
          (s.hist.failed ++ [s.proxy.pendingWriteEvents.take n]).flatten ≤
            T.card + numWakeups K (s.proxy.dropPendingWrites K q).mSensors s.hist.posted
      rw [hcount, hsensors, numWakeups_congr hflags, numWakeups_congr hflags, List.flatten_append,
        List.flatten_singleton, numWakeups_append]
      omega
  | _ =>
    refine ⟨T, ?_⟩
    simp only [System.next, hw]
    exact hT

end Covered

theorem covered_next (hs : Referenced K s) (hg : s.guard a) (ha : Truthful K s a) :
    ∃ T, CoveredBy K (System.next K s a) T := by
  obtain ⟨hmain, hcounts, -, hacked⟩ := ha
  obtain ⟨T, hT⟩ := hs.covered
  cases a with
  | createScopedWakelock t lock now => exact covered_createScopedWakelock hs hg.1 lock hg.2
  | postEvents t i events n =>
    refine ⟨T, ?_⟩
    cases hthread : s.subHals t with
    | holding wakelock =>
      simp only [System.next, hthread]
      refine hT.of_same (wakelock?_update ?_) rfl rfl rfl rfl rfl
      rw [hthread]
      split <;> rfl
    | _ => simp only [System.next, hthread]; exact hT
  | postEventsToMessageQueue t avail ok now =>
    refine ⟨T, ?_⟩
    cases hpost : s.subHals t with
    | posting events n wakelock began =>
      rw [System.next_post hpost]
      exact hT.post hpost ((System.onPost_posting hpost).1 hcounts) avail ok now
    | _ => simp only [System.next, hpost]; exact hT
  | destroyScopedWakelock t => exact covered_destroyScopedWakelock hs t
  | takePendingWrites => exact ⟨T, hT.of_same (fun _ => rfl) rfl rfl rfl rfl rfl⟩
  | writeBlocking ok => exact covered_writeBlocking hs ok
  | finishPendingWrites =>
    refine ⟨T, ?_⟩
    cases hw : s.pendingWrites with
    | wrote n q =>
      simp only [System.next, hw]
      exact hT.of_same (fun _ => rfl) rfl rfl rfl rfl rfl
    | _ => simp only [System.next, hw]; exact hT
  | exitPendingWrites => exact ⟨T, hT.of_same (fun _ => rfl) rfl rfl rfl rfl rfl⟩
  | checkTimeout now now' =>
    cases htime : s.proxy.wakelock.sharedWakelockDidTimeout K.kWakelockTimeoutNs now with
    | none =>
      simp only [System.next, htime]
      exact covered_reset hs now'
    | some timeLeft =>
      refine ⟨T, ?_⟩
      simp only [System.next, htime]
      exact hT.of_same (fun _ => rfl) rfl rfl rfl rfl rfl
  | readBlocking r =>
    cases r with
    | none => exact ⟨T, hT.of_same (fun _ => rfl) rfl rfl rfl rfl rfl⟩
    | some n => exact covered_readBlocking hs hacked
  | exitWakelocks now => exact absurd hs.running hg.2.1
  | initializeCommon args => cases hmain
  | destroy => cases hmain
  | mainStep now => cases hmain

theorem referenced_next (hs : Referenced K s) (hg : s.guard a) (ha : Truthful K s a) :
    Referenced K (System.next K s a) where
  running := (sameRound_next K s ha.1).mThreadsRun.trans hs.running
  resetTime := by
    rcases resetTime_next K s ha.1 with hsame | hclock
    · rw [hsame]
      exact hs.resetTime.trans (clock_next hg)
    · exact hclock.le
  entries := entries_next hs.entries ha.2.1
  chunk := chunkQueued_next hs.chunk hg ha.1
  channel := hs.channel.trans (channel_next hs.chunk hg ha.1)
  balanced := (balanced_next_iff K hs.balanced).2 ha.2.2.1
  acked := by
    rw [wakeupsAcked_next K s ha.1, numWakeups_congr (flags_next K s ha.1)]
    exact ha.2.2.2.trans (numWakeups_le_of_sublist (written_isPrefix_next K s ha.1).sublist)
  covered := covered_next hs hg ha

/-- **References.** In every run, whatever times out, fails or is acknowledged late: each reference
is for a scoped wakelock taken since the latest reset, or for a wake-up event that is delivered and
not acknowledged, undelivered, or refused. So when there is none of these, nothing is counted and the
kernel wakelock is not held. -/
theorem references_of_reach (h₀ : UnusedStart s₀) (h : (multiHal K P).Reach (Truthful K) s₀ s) :
    (∃ T : Finset ℕ, (∀ t ∈ T, FreshWakelock s t) ∧
      s.proxy.wakelock.mWakelockRefCount + s.hist.wakeupsAcked ≤
        T.card + numWakeups K s.proxy.mSensors s.proxy.mEventQueue.written +
          numWakeups K s.proxy.mSensors s.undelivered +
          numWakeups K s.proxy.mSensors s.hist.refused.flatten) ∧
    ((∀ t, ¬FreshWakelock s t) →
      s.hist.wakeupsAcked = numWakeups K s.proxy.mSensors s.proxy.mEventQueue.written →
      numWakeups K s.proxy.mSensors s.undelivered = 0 →
      numWakeups K s.proxy.mSensors s.hist.refused.flatten = 0 →
      s.proxy.wakelock.mWakelockRefCount = 0 ∧ s.proxy.wakelock.held = false) := by
  have hs : Referenced K s :=
    invariant_of_reach h h₀.referenced fun _ _ hs hg ha => referenced_next hs hg ha
  obtain ⟨T, hT⟩ := hs.covered
  have hle := hT.le
  have hposted := numWakeups_posted (K := K) s.proxy.mSensors hs.channel
  refine ⟨⟨T, hT.fresh, by omega⟩, fun hnone hacked hundelivered hrefused => ?_⟩
  have hcard : T.card = 0 := by rw [eq_empty_of_fresh hT.fresh hnone, Finset.card_empty]
  have hcount : s.proxy.wakelock.mWakelockRefCount = 0 := by omega
  refine ⟨hcount, Bool.eq_false_iff.2 fun hheld => ?_⟩
  exact (hs.balanced.1 hheld).ne' hcount

/-- A wake-up event is delivered and acknowledged, and another one fails. -/
def ackedRun : List (Action ℕ) :=
  wakeupAt 1 ++ [.checkTimeout 1 1, .readBlocking (some 1)] ++
    [.createScopedWakelock 0 true 2, .postEvents 0 0 [⟨1, .other 1, 0, 8⟩] 1,
      .postEventsToMessageQueue 0 0 true 2, .destroyScopedWakelock 0, .takePendingWrites,
      .writeBlocking false, .finishPendingWrites]

theorem unusedStart_sampleStarted : UnusedStart (sampleStarted 4) :=
  { fresh_sampleStarted with
    running := rfl
    resetTime := by decide
    unused := by decide
    batches := rfl
    acked := rfl }

theorem references_of_reach_sample :
    let s := (multiHal sampleConstants ℕ).exec (sampleStarted 4) ackedRun
    s.hist.posted.length = 2 ∧ s.proxy.wakelock.mWakelockRefCount = 0 ∧
      s.proxy.wakelock.held = false := by
  intro s
  have hidle : ∀ t, ¬FreshWakelock s t := by
    rintro t ⟨wakelock, ⟨hw, -⟩, -⟩
    have hthread : s.subHals t = .idle := by
      cases t <;> rfl
    rw [hthread] at hw
    cases hw
  exact ⟨by decide, (references_of_reach unusedStart_sampleStarted
    (GuardedSystem.reach_exec (by decide))).2 hidle (by decide) (by decide) (by decide)⟩

end RealmeSalaa.MultiHal
