import RealmeSalaa.MultiHal.WakeupReferences

/-!
# Late acknowledgements

A timeout drops every reference of the shared wakelock. What was outstanding then can come back
later: a scoped wakelock is rejected by its time stamp, since the reset is strictly later than
every outstanding one; an acknowledgement of the framework has no time stamp and is taken for a
current one. So each wake-up event acknowledged late takes one reference of a newer event, and
no more than that (`Credit.freshWakeups_le`).

The invariant `Credit` counts from the latest reset on: references, plus events acknowledged,
cover the wake-up events posted and the scoped wakelocks that are not stale.
-/

namespace RealmeSalaa.MultiHal

open HalProxy

variable {P : Type} {K : Constants} {s s₀ : System P} {a : Action P}

/-! ## The runs -/

/-- The batch has its true count and, if it wakes up, a locked wakelock, and none of it is
refused. -/
def PostsOrderly (K : Constants) (s : System P) (events : List (PostedEvent P))
    (numWakeupEvents : ℕ) (wakelock : ScopedWakelock) (_began avail : ℕ) (ok : Bool) : Prop :=
  numWakeupEvents = numWakeups K s.proxy.mSensors events ∧
    (wakelock.mLocked = true ∨ numWakeupEvents = 0) ∧
    s.proxy.refusedPart K events (s.proxy.numToWrite events avail ok) = []

instance (s : System P) (events : List (PostedEvent P)) (n : ℕ) (wakelock : ScopedWakelock)
    (began avail : ℕ) (ok : Bool) : Decidable (PostsOrderly K s events n wakelock began avail ok) := by
  unfold PostsOrderly
  have := decidable_of_iff _
    (List.isEmpty_iff (l := s.proxy.refusedPart K events (s.proxy.numToWrite events avail ok)))
  infer_instance

/-- No re-initialization, no failed or refused write, every batch posted as it should be, and no
more acknowledged than delivered. -/
def Orderly (K : Constants) (s : System P) (a : Action P) : Prop :=
  a.isMain = false ∧ a.failsWrite = false ∧ s.OnPost (PostsOrderly K s) a ∧
    s.hist.wakeupsAcked + a.acked ≤ numWakeups K s.proxy.mSensors s.proxy.mEventQueue.written

instance (s : System P) (a : Action P) : Decidable (Orderly K s a) := by
  unfold Orderly; infer_instance

/-- The threads run, nothing was posted or acknowledged yet, and no scoped wakelock is out. -/
structure CreditStart (s : System P) : Prop where
  running : s.proxy.mThreadsRun = true
  clock : 0 ≤ s.clock
  startTime : s.proxy.wakelock.mWakelockTimeoutStartTime ≤ s.clock
  idle : ∀ t, (s.subHals t).wakelock? = none
  posted : s.hist.wakeupsPosted = 0
  acked : s.hist.wakeupsAcked = 0
  postedAtReset : s.hist.postedAtReset = 0
  ackedAtReset : s.hist.ackedAtReset = 0

/-! ## The invariant -/

/-- Thread `t` has a scoped wakelock that counts. -/
def Outstanding (s : System P) (t : ℕ) (wakelock : ScopedWakelock) : Prop :=
  (s.subHals t).wakelock? = some wakelock ∧ wakelock.mLocked = true

/-- The latest reset has not made the scoped wakelock of thread `t` stale. -/
def FreshWakelock (s : System P) (t : ℕ) : Prop :=
  ∃ wakelock, Outstanding s t wakelock ∧
    s.proxy.wakelock.mWakelockTimeoutResetTime ≤ wakelock.mCreatedAtTimeNs

structure Credit (s : System P) : Prop where
  running : s.proxy.mThreadsRun = true
  clock : 0 ≤ s.clock
  startTime : s.proxy.wakelock.mWakelockTimeoutStartTime ≤ s.clock
  /-- no outstanding time stamp is later than the latest start of the timeout -/
  taken : ∀ t wakelock, Outstanding s t wakelock →
    0 ≤ wakelock.mCreatedAtTimeNs ∧
      wakelock.mCreatedAtTimeNs ≤ s.proxy.wakelock.mWakelockTimeoutStartTime
  acked : s.hist.ackedAtReset ≤ s.hist.wakeupsAcked
  covered : ∀ T : Finset ℕ, (∀ t ∈ T, FreshWakelock s t) →
    s.hist.wakeupsPosted + s.hist.ackedAtReset + T.card ≤
      s.proxy.wakelock.mWakelockRefCount + s.hist.wakeupsAcked + s.hist.postedAtReset

/-- No thread has a fresh wakelock: the references alone cover the events. -/
theorem eq_empty_of_fresh {T : Finset ℕ} (hT : ∀ t ∈ T, FreshWakelock s t)
    (hnone : ∀ t, ¬ FreshWakelock s t) : T = ∅ :=
  Finset.eq_empty_of_forall_notMem fun t ht => hnone t (hT t ht)

theorem CreditStart.credit (h : CreditStart s) : Credit s where
  running := h.running
  clock := h.clock
  startTime := h.startTime
  taken t wakelock ht := by
    obtain ⟨hw, -⟩ := ht
    rw [h.idle t] at hw
    cases hw
  acked := by rw [h.ackedAtReset]; exact Nat.zero_le _
  covered T hT := by
    have hnone : ∀ t, ¬ FreshWakelock s t := by
      rintro t ⟨wakelock, ⟨hw, -⟩, -⟩
      rw [h.idle t] at hw
      cases hw
    rw [eq_empty_of_fresh hT hnone, h.posted, h.ackedAtReset, Finset.card_empty]
    omega

theorem FreshWakelock.of_outstanding {s' : System P} {t : ℕ} (h : FreshWakelock s' t)
    (hout : ∀ wakelock, Outstanding s' t wakelock → Outstanding s t wakelock)
    (hreset : s'.proxy.wakelock.mWakelockTimeoutResetTime =
      s.proxy.wakelock.mWakelockTimeoutResetTime) : FreshWakelock s t := by
  obtain ⟨wakelock, hw, hfresh⟩ := h
  rw [hreset] at hfresh
  exact ⟨wakelock, hout wakelock hw, hfresh⟩

/-- Steps that count nothing, neither references nor events. -/
structure SameCredit (s s' : System P) : Prop where
  running : s'.proxy.mThreadsRun = s.proxy.mThreadsRun
  clock : s.clock ≤ s'.clock
  wakelock : s'.proxy.wakelock = s.proxy.wakelock
  taken : ∀ t wakelock, Outstanding s' t wakelock → Outstanding s t wakelock
  posted : s'.hist.wakeupsPosted = s.hist.wakeupsPosted
  acked : s'.hist.wakeupsAcked = s.hist.wakeupsAcked
  postedAtReset : s'.hist.postedAtReset = s.hist.postedAtReset
  ackedAtReset : s'.hist.ackedAtReset = s.hist.ackedAtReset

theorem Credit.of_same {s' : System P} (hs : Credit s) (h : SameCredit s s') : Credit s' where
  running := h.running.trans hs.running
  clock := hs.clock.trans h.clock
  startTime := by rw [h.wakelock]; exact hs.startTime.trans h.clock
  taken t wakelock ht := by rw [h.wakelock]; exact hs.taken t wakelock (h.taken t wakelock ht)
  acked := by rw [h.ackedAtReset, h.acked]; exact hs.acked
  covered T hT := by
    rw [h.posted, h.ackedAtReset, h.wakelock, h.acked, h.postedAtReset]
    exact hs.covered T fun t ht => (hT t ht).of_outstanding (h.taken t) (by rw [h.wakelock])

/-! ## The steps -/

/-- An increment now: each new reference is for a posted event or a new scoped wakelock. -/
theorem Credit.increment {s' : System P} (hs : Credit s) {delta : ℕ} {now : ℤ}
    (hnow : s.clock ≤ now) (hrun : s'.proxy.mThreadsRun = true) (hclock : s'.clock = now)
    (hw : s'.proxy.wakelock =
      (s.proxy.wakelock.incrementRefCountAndMaybeAcquireWakelock true delta now).1)
    (htaken : ∀ t wakelock, Outstanding s' t wakelock →
      Outstanding s t wakelock ∨ wakelock.mCreatedAtTimeNs = now)
    (hacked : s'.hist.wakeupsAcked = s.hist.wakeupsAcked)
    (hpostedAt : s'.hist.postedAtReset = s.hist.postedAtReset)
    (hackedAt : s'.hist.ackedAtReset = s.hist.ackedAtReset)
    (hcovered : ∀ T : Finset ℕ, (∀ t ∈ T, FreshWakelock s' t) →
      ∃ T₀ : Finset ℕ, (∀ t ∈ T₀, FreshWakelock s t) ∧
        s'.hist.wakeupsPosted + T.card ≤ s.hist.wakeupsPosted + T₀.card + delta) :
    Credit s' where
  running := hrun
  clock := by rw [hclock]; exact hs.clock.trans hnow
  startTime := by rw [hclock, hw]; exact le_refl now
  taken t wakelock ht := by
    rw [hw]
    show 0 ≤ wakelock.mCreatedAtTimeNs ∧ wakelock.mCreatedAtTimeNs ≤ now
    rcases htaken t wakelock ht with hold | hnew
    · obtain ⟨hnonneg, hle⟩ := hs.taken t wakelock hold
      exact ⟨hnonneg, hle.trans (hs.startTime.trans hnow)⟩
    · rw [hnew]
      exact ⟨hs.clock.trans hnow, le_refl now⟩
  acked := by rw [hacked, hackedAt]; exact hs.acked
  covered T hT := by
    obtain ⟨T₀, hT₀, hcard⟩ := hcovered T hT
    have hold := hs.covered T₀ hT₀
    rw [hw, hacked, hpostedAt, hackedAt]
    show _ ≤ s.proxy.wakelock.mWakelockRefCount + delta + _ + _
    omega

theorem credit_createScopedWakelock (hs : Credit s) (t : ℕ) (lock : Bool) {now : ℤ}
    (hnow : s.clock ≤ now) : Credit (System.next K s (.createScopedWakelock t lock now)) := by
  set s' := System.next K s (.createScopedWakelock t lock now) with hs'
  set created := ScopedWakelock.create s.proxy.wakelock s.proxy.mThreadsRun lock now with hcreated
  have hself : (s'.subHals t).wakelock? = some created.2 := by
    show (Function.update s.subHals t (.holding created.2) t).wakelock? = _
    rw [Function.update_self]; rfl
  have hother : ∀ t' wakelock, t' ≠ t → Outstanding s' t' wakelock → Outstanding s t' wakelock := by
    rintro t' wakelock h ⟨hw, hlocked⟩
    refine ⟨?_, hlocked⟩
    rw [← hw]
    show _ = (Function.update s.subHals t (.holding created.2) t').wakelock?
    rw [Function.update_of_ne h]
  have hw : s'.proxy.wakelock = created.1 := rfl
  rcases ScopedWakelock.create_cases s.proxy.wakelock s.proxy.mThreadsRun lock now with
    heq | ⟨hrun, hlock, heq⟩
  · -- no reference is taken, and the new wakelock is not locked
    rw [← hcreated] at heq
    rw [heq] at hself hw
    refine hs.of_same ⟨rfl, hnow, hw, fun t' wakelock ht' => ?_, rfl, rfl, rfl, rfl⟩
    refine hother t' wakelock (fun h => ?_) ht'
    obtain ⟨ht', hlocked⟩ := ht'
    rw [h, hself] at ht'
    cases ht'
    cases hlocked
  · rw [← hcreated] at heq
    rw [heq] at hself hw
    refine hs.increment hnow hs.running rfl hw ?_ rfl rfl rfl fun T hT => ⟨T.erase t, ?_, ?_⟩
    · intro t' wakelock ht'
      by_cases h : t' = t
      · have hcreated := ht'.1
        rw [h, hself] at hcreated
        cases hcreated
        exact .inr rfl
      · exact .inl (hother t' wakelock h ht')
    · intro t' ht'
      obtain ⟨hne, hmem⟩ := Finset.mem_erase.1 ht'
      exact (hT t' hmem).of_outstanding (fun wakelock => hother t' wakelock hne) (by rw [hw]; rfl)
    · have hcard : T.card - 1 ≤ (T.erase t).card := Finset.pred_card_le_card_erase
      show s.hist.wakeupsPosted + T.card ≤ _
      omega

theorem credit_post (hs : Credit s) {t : ℕ} {events : List (PostedEvent P)} {n : ℕ}
    {wakelock : ScopedWakelock} {began : ℕ}
    (hpost : s.subHals t = .posting events n wakelock began)
    (hlocked : wakelock.mLocked = true ∨ n = 0) (avail : ℕ) (ok : Bool) {now : ℤ}
    (hnow : s.clock ≤ now) : Credit (s.post K t events n wakelock avail ok now) := by
  set s' := s.post K t events n wakelock avail ok now with hs'
  have hout : ∀ t' wl, Outstanding s' t' wl → Outstanding s t' wl := by
    rintro t' wl ⟨hwl, hl⟩
    refine ⟨?_, hl⟩
    rw [← hwl]
    show _ = (Function.update s.subHals t (.leaving wakelock) t').wakelock?
    by_cases h : t' = t
    · rw [h, Function.update_self, hpost]; rfl
    · rw [Function.update_of_ne h]
  have hrun := (sameRound_post K s t events n wakelock avail ok now).mThreadsRun
  have hw : s'.proxy.wakelock =
      if wakelock.mLocked then
        (s.proxy.wakelock.incrementRefCountAndMaybeAcquireWakelock s.proxy.mThreadsRun n now).1
      else s.proxy.wakelock := wakelock_postEventsToMessageQueue ..
  cases hl : wakelock.mLocked with
  | true =>
    rw [if_pos hl, hs.running] at hw
    refine hs.increment hnow (hrun.trans hs.running) rfl hw (fun t' wl h => .inl (hout t' wl h))
      rfl rfl rfl fun T hT => ⟨T, ?_, ?_⟩
    · exact fun t' ht' => (hT t' ht').of_outstanding (hout t') (by rw [hw]; rfl)
    · show s.hist.wakeupsPosted + n + T.card ≤ _
      omega
  | false =>
    have hn : n = 0 := hlocked.resolve_left (by rw [hl]; exact Bool.false_ne_true)
    rw [if_neg (by rw [hl]; exact Bool.false_ne_true)] at hw
    exact hs.of_same ⟨hrun, hnow, hw, hout, by rw [hs', hn]; rfl, rfl, rfl, rfl⟩

/-- A stale scoped wakelock gives nothing back, a fresh one its own reference. -/
theorem credit_destroyScopedWakelock (hs : Credit s) (t : ℕ) :
    Credit (System.next K s (.destroyScopedWakelock t)) := by
  cases hwl : (s.subHals t).wakelock? with
  | none => simp only [System.next, hwl]; exact hs
  | some wakelock =>
    simp only [System.next, hwl]
    set s' : System P :=
      { s with
        proxy := { s.proxy with wakelock := wakelock.release s.proxy.wakelock s.proxy.mThreadsRun }
        subHals := Function.update s.subHals t .idle } with hs'
    have hidle : (s'.subHals t).wakelock? = none := by
      show (Function.update s.subHals t .idle t).wakelock? = _
      rw [Function.update_self]; rfl
    have hout : ∀ t' wl, Outstanding s' t' wl → t' ≠ t ∧ Outstanding s t' wl := by
      rintro t' wl ⟨ht', hlocked⟩
      have hne : t' ≠ t := by
        rintro rfl
        rw [hidle] at ht'
        cases ht'
      refine ⟨hne, ?_, hlocked⟩
      rw [← ht']
      show _ = (Function.update s.subHals t .idle t').wakelock?
      rw [Function.update_of_ne hne]
    have hreset : s'.proxy.wakelock.mWakelockTimeoutResetTime =
        s.proxy.wakelock.mWakelockTimeoutResetTime := ScopedWakelock.release_timeoutResetTime wakelock
    have hstart : s'.proxy.wakelock.mWakelockTimeoutStartTime =
        s.proxy.wakelock.mWakelockTimeoutStartTime := ScopedWakelock.release_timeoutStartTime wakelock
    refine ⟨hs.running, hs.clock, by rw [hstart]; exact hs.startTime, ?_, hs.acked, ?_⟩
    · intro t' wl ht'
      rw [hstart]
      exact hs.taken t' wl (hout t' wl ht').2
    · intro T hT
      have hT' : ∀ t' ∈ T, FreshWakelock s t' := fun t' ht' =>
        (hT t' ht').of_outstanding (fun wl h => (hout t' wl h).2) hreset
      by_cases hfresh : FreshWakelock s t
      · -- one reference goes with the thread's wakelock
        have hnot : t ∉ T := by
          intro ht
          obtain ⟨wl, hw, -⟩ := hT t ht
          exact (hout t wl hw).1 rfl
        have hold := hs.covered (insert t T) (by
          intro t' ht'
          rcases Finset.mem_insert.1 ht' with rfl | ht'
          · exact hfresh
          · exact hT' t' ht')
        rw [Finset.card_insert_of_notMem hnot] at hold
        have hle : s.proxy.wakelock.mWakelockRefCount ≤ s'.proxy.wakelock.mWakelockRefCount + 1 :=
          ScopedWakelock.refCount_le_release wakelock
        show s.hist.wakeupsPosted + s.hist.ackedAtReset + T.card ≤
          s'.proxy.wakelock.mWakelockRefCount + s.hist.wakeupsAcked + s.hist.postedAtReset
        omega
      · have hsame : s'.proxy.wakelock = s.proxy.wakelock := by
          refine ScopedWakelock.release_eq fun hlocked => ?_
          refine ⟨(hs.taken t wakelock ⟨hwl, hlocked⟩).1, ?_⟩
          by_contra hge
          exact hfresh ⟨wakelock, ⟨hwl, hlocked⟩, not_lt.1 hge⟩
        rw [hsame]
        exact hs.covered T hT'

/-- An acknowledgement takes at most as many references as it acknowledges events. -/
theorem credit_readBlocking (hs : Credit s) (n : ℕ) :
    Credit (System.next K s (.readBlocking (some n))) := by
  set w := s.proxy.wakelock.decrementRefCountAndMaybeReleaseWakelock s.proxy.mThreadsRun n (-1)
    with hw
  have hstart : w.mWakelockTimeoutStartTime = s.proxy.wakelock.mWakelockTimeoutStartTime :=
    SharedWakelock.decrement_timeoutStartTime
  have hreset : w.mWakelockTimeoutResetTime = s.proxy.wakelock.mWakelockTimeoutResetTime :=
    SharedWakelock.decrement_timeoutResetTime
  refine ⟨hs.running, hs.clock, ?_, ?_, hs.acked.trans (Nat.le_add_right _ n), ?_⟩
  · exact hstart.le.trans hs.startTime
  · intro t wakelock ht
    obtain ⟨hnonneg, hle⟩ := hs.taken t wakelock ht
    exact ⟨hnonneg, hle.trans hstart.ge⟩
  · intro T hT
    have hold := hs.covered T fun t ht => (hT t ht).of_outstanding (fun _ h => h) hreset
    have hle : s.proxy.wakelock.mWakelockRefCount ≤ w.mWakelockRefCount + n :=
      SharedWakelock.refCount_le_decrement
    show s.hist.wakeupsPosted + s.hist.ackedAtReset + T.card ≤
      w.mWakelockRefCount + (s.hist.wakeupsAcked + n) + s.hist.postedAtReset
    omega

/-- A timeout is strictly later than every outstanding time stamp, so it makes them all stale. -/
theorem credit_checkTimeout (hs : Credit s) {now now' : ℤ} (hnow : s.clock ≤ now)
    (hnow' : now ≤ now') : Credit (System.next K s (.checkTimeout now now')) := by
  cases htime : s.proxy.wakelock.sharedWakelockDidTimeout K.kWakelockTimeoutNs now with
  | some timeLeft =>
    simp only [System.next, htime]
    exact hs.of_same ⟨rfl, hnow.trans hnow', rfl, fun _ _ h => h, rfl, rfl, rfl, rfl⟩
  | none =>
    simp only [System.next, htime]
    have hlate : s.proxy.wakelock.mWakelockTimeoutStartTime < now :=
      SharedWakelock.lt_of_didTimeout K.kWakelockTimeoutNs_pos htime
    have hstart : (s.reset now').proxy.wakelock.mWakelockTimeoutStartTime =
        s.proxy.wakelock.mWakelockTimeoutStartTime := SharedWakelock.reset_timeoutStartTime
    refine ⟨hs.running, hs.clock.trans (hnow.trans hnow'), ?_, ?_, le_refl _, ?_⟩
    · exact hstart.le.trans (hs.startTime.trans (hnow.trans hnow'))
    · intro t wakelock ht
      obtain ⟨hnonneg, hle⟩ := hs.taken t wakelock ht
      exact ⟨hnonneg, hle.trans hstart.ge⟩
    · intro T hT
      have hstale : ∀ t, ¬ FreshWakelock (s.reset now') t := by
        rintro t ⟨wakelock, ht, hfresh⟩
        have hle := (hs.taken t wakelock ht).2
        have hfresh' : now' ≤ wakelock.mCreatedAtTimeNs := hfresh
        omega
      rw [eq_empty_of_fresh hT hstale, Finset.card_empty]
      show s.hist.wakeupsPosted + s.hist.wakeupsAcked + 0 ≤ _ + s.hist.wakeupsAcked +
        s.hist.wakeupsPosted
      omega

theorem credit_next (hs : Credit s) (hg : s.guard a) (ha : Orderly K s a) :
    Credit (System.next K s a) := by
  obtain ⟨hmain, hwritten, hposts, -⟩ := ha
  cases a with
  | createScopedWakelock t lock now => exact credit_createScopedWakelock hs t lock hg.2
  | postEventsToMessageQueue t avail ok now =>
    cases hpost : s.subHals t with
    | posting events n wakelock began =>
      rw [System.next_post hpost]
      obtain ⟨-, hlocked, -⟩ := (System.onPost_posting hpost).1 hposts
      exact credit_post hs hpost hlocked avail ok hg.2
    | _ => simp only [System.next, hpost]; exact hs
  | destroyScopedWakelock t => exact credit_destroyScopedWakelock hs t
  | readBlocking r =>
    cases r with
    | none => exact hs.of_same ⟨rfl, le_refl _, rfl, fun _ _ h => h, rfl, rfl, rfl, rfl⟩
    | some n => exact credit_readBlocking hs n
  | checkTimeout now now' => exact credit_checkTimeout hs hg.2.2.2.1 hg.2.2.2.2
  | exitWakelocks now => exact absurd hs.running hg.2.1
  | postEvents t i events n =>
    cases hthread : s.subHals t with
    | holding wakelock =>
      simp only [System.next, hthread]
      refine hs.of_same ⟨rfl, le_refl _, rfl, ?_, rfl, rfl, rfl, rfl⟩
      rintro t' wl ⟨ht', hlocked⟩
      refine ⟨?_, hlocked⟩
      rw [← ht']
      show _ = (Function.update s.subHals t _ t').wakelock?
      by_cases h : t' = t
      · rw [h, Function.update_self, hthread]
        split <;> rfl
      · rw [Function.update_of_ne h]
    | _ => simp only [System.next, hthread]; exact hs
  | writeBlocking ok =>
    cases hw : s.pendingWrites with
    | writing n q =>
      simp only [System.next, hw]
      have hok : ok = true := by simpa [Action.failsWrite] using hwritten
      rw [hok]
      exact hs.of_same ⟨rfl, le_refl _, rfl, fun _ _ h => h, rfl, rfl, rfl, rfl⟩
    | _ => simp only [System.next, hw]; exact hs
  | finishPendingWrites =>
    cases hw : s.pendingWrites with
    | wrote n q =>
      simp only [System.next, hw]
      exact hs.of_same ⟨rfl, le_refl _, rfl, fun _ _ h => h, rfl, rfl, rfl, rfl⟩
    | _ => simp only [System.next, hw]; exact hs
  | takePendingWrites => exact hs.of_same ⟨rfl, le_refl _, rfl, fun _ _ h => h, rfl, rfl, rfl, rfl⟩
  | exitPendingWrites => exact hs.of_same ⟨rfl, le_refl _, rfl, fun _ _ h => h, rfl, rfl, rfl, rfl⟩
  | initializeCommon args => cases hmain
  | destroy => cases hmain
  | mainStep now => cases hmain

/-! ## Events after a timeout -/

/-- The wake-up events posted since the latest reset and not yet acknowledged; events are
acknowledged in the order of delivery. -/
def System.freshWakeups (s : System P) : ℕ :=
  s.hist.wakeupsPosted - max s.hist.wakeupsAcked s.hist.postedAtReset

/-- The wake-up events acknowledged since the latest reset that were posted before it. -/
def System.lateAcks (s : System P) : ℕ :=
  min s.hist.wakeupsAcked s.hist.postedAtReset - s.hist.ackedAtReset

theorem Credit.freshWakeups_le (hs : Credit s) :
    s.freshWakeups ≤ s.proxy.wakelock.mWakelockRefCount + s.lateAcks := by
  have hcovered := hs.covered ∅ fun _ h => absurd h (Finset.notMem_empty _)
  have hacked := hs.acked
  rw [Finset.card_empty] at hcovered
  unfold System.freshWakeups System.lateAcks
  omega

/-- **Late acknowledgements.** The references, and those that late acknowledgements have taken,
cover the wake-up events posted since the latest reset and not yet acknowledged. -/
theorem freshWakeups_le_of_reach (h₀ : CreditStart s₀)
    (h : (multiHal K P).Reach (Orderly K) s₀ s) :
    s.freshWakeups ≤ s.proxy.wakelock.mWakelockRefCount + s.lateAcks := by
  have hs : Credit s :=
    invariant_of_reach h h₀.credit fun _ _ hs hg ha => credit_next hs hg ha
  exact hs.freshWakeups_le

theorem creditStart_sampleStarted : CreditStart (sampleStarted 4) where
  running := rfl
  clock := by decide
  startTime := by decide
  idle _ := rfl
  posted := rfl
  acked := rfl
  postedAtReset := rfl
  ackedAtReset := rfl

/-- A wake-up event is posted and delivered at time `now`. -/
def wakeupAt (now : ℤ) : List (Action ℕ) :=
  [.createScopedWakelock 0 true now, .postEvents 0 0 [⟨1, .other 1, 0, 7⟩] 1,
    .postEventsToMessageQueue 0 1 true now, .destroyScopedWakelock 0]

/-- One event before a timeout and one after it; the framework acknowledges the first. -/
def lateAckRun : List (Action ℕ) :=
  wakeupAt 1 ++ [.checkTimeout 600000000 600000000] ++ wakeupAt 600000001 ++
    [.checkTimeout 600000001 600000001, .readBlocking (some 1)]

theorem freshWakeups_le_of_reach_sample :
    let s := (multiHal sampleConstants ℕ).exec (sampleStarted 4) lateAckRun
    s.freshWakeups ≤ s.proxy.wakelock.mWakelockRefCount + s.lateAcks :=
  freshWakeups_le_of_reach creditStart_sampleStarted (GuardedSystem.reach_exec (by decide))

/-- The late acknowledgement releases the wakelock of the second event. -/
theorem late_ack_releases :
    ∃ s, (multiHal sampleConstants ℕ).Reach (Orderly sampleConstants) (sampleStarted 4) s ∧
      s.freshWakeups = 1 ∧ s.proxy.wakelock.mWakelockRefCount = 0 ∧
      s.proxy.wakelock.held = false ∧ ¬ s.freshWakeups ≤ s.proxy.wakelock.mWakelockRefCount := by
  set s := (multiHal sampleConstants ℕ).exec (sampleStarted 4) lateAckRun with hs
  exact ⟨s, GuardedSystem.reach_exec (by decide), by decide, by decide,
    by decide, by decide⟩

end RealmeSalaa.MultiHal
