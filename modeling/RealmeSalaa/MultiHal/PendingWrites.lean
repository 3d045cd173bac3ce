import RealmeSalaa.MultiHal.System

/-!
# The pending-writes thread

`eventMove_next` says once what an action can do to the queues of events; the invariants of the
event path are case analyses over these moves. All of them rest on one: from the moment
`handlePendingWrites` measures a chunk until it removes it, the chunk is the beginning of the front
entry, whatever the other threads post meanwhile. Only a re-initialization clears the queue, and it
has joined the thread before (`writesQueued_of_reach`).
-/

namespace RealmeSalaa.MultiHal

open HalProxy

variable {P : Type} {K : Constants} {s s₀ : System P} {a : Action P}

/-! ## What an action does to the event path -/

/-- The same events are queued, written and recorded. -/
structure SameEvents (s s' : System P) : Prop where
  mEventQueue : s'.proxy.mEventQueue = s.proxy.mEventQueue
  mPendingWriteEventsQueue :
    s'.proxy.mPendingWriteEventsQueue = s.proxy.mPendingWriteEventsQueue
  mSizePendingWriteEventsQueue :
    s'.proxy.mSizePendingWriteEventsQueue = s.proxy.mSizePendingWriteEventsQueue
  mSensors : s'.proxy.mSensors = s.proxy.mSensors
  pendingWrites : s'.pendingWrites = s.pendingWrites
  posted : s'.hist.posted = s.hist.posted
  failed : s'.hist.failed = s.hist.failed
  refused : s'.hist.refused = s.hist.refused
  batches : s'.hist.batches = s.hist.batches

theorem SameEvents.refl (s : System P) : SameEvents s s :=
  ⟨rfl, rfl, rfl, rfl, rfl, rfl, rfl, rfl, rfl⟩

/-- What an action of the sub-HAL threads and the pending-writes thread can do to the event path. -/
inductive EventMove (K : Constants) (s : System P) (a : Action P) (s' : System P) : Prop
  | other (hsame : SameEvents s s') (hnone : ∀ R, s.OnPost R a)
  | post {t : ℕ} {events : List (PostedEvent P)} {n : ℕ} {wakelock : ScopedWakelock}
      {began avail : ℕ} {ok : Bool} {now : ℤ}
      (ha : a = .postEventsToMessageQueue t avail ok now)
      (hpost : s.subHals t = .posting events n wakelock began)
      (hs' : s' = s.post K t events n wakelock avail ok now)
  | take (ha : a = .takePendingWrites)
      (hs' : s' =
        { s with
          pendingWrites :=
            .writing
              (min s.proxy.pendingWriteEvents.length s.proxy.mEventQueue.quantumCount)
              s.proxy.mEventQueue.quantumCount })
  | written {n q : ℕ} (ha : a = .writeBlocking true) (hw : s.pendingWrites = .writing n q)
      (hs' : s' =
        { s with
          proxy :=
            { s.proxy with
              mEventQueue := s.proxy.mEventQueue.write (s.proxy.pendingWriteEvents.take n) }
          pendingWrites := .wrote n q })
  | dropped {n q : ℕ} {m : SensorMap} {w : SharedWakelock} (ha : a = .writeBlocking false)
      (hw : s.pendingWrites = .writing n q) (hflags : ∀ k, m.flags k = s.proxy.mSensors.flags k)
      (hs' : s' =
        { s with
          proxy := { s.proxy with mSensors := m, wakelock := w }
          pendingWrites := .wrote n q
          hist :=
            { s.hist with failed := s.hist.failed ++ [s.proxy.pendingWriteEvents.take n] } })
  | finish {n q : ℕ} (ha : a = .finishPendingWrites) (hw : s.pendingWrites = .wrote n q)
      (hs' : s' = s.finish n q)
  | exit (ha : a = .exitPendingWrites) (hs' : s' = { s with pendingWrites := .notRunning })

theorem eventMove_next (K : Constants) (s : System P) {a : Action P} (ha : a.isMain = false) :
    EventMove K s a (System.next K s a) := by
  cases a with
  | postEventsToMessageQueue t avail ok now =>
    cases hpost : s.subHals t with
    | posting events n wakelock began => exact .post rfl hpost (System.next_post hpost)
    | _ =>
      refine .other ?_ fun R => by simp only [System.OnPost, hpost]
      simp only [System.next, hpost]
      exact .refl s
  | takePendingWrites => exact .take rfl rfl
  | writeBlocking ok =>
    cases hw : s.pendingWrites with
    | writing n q =>
      cases ok with
      | true => exact .written rfl hw (by simp only [System.next, hw]; rfl)
      | false =>
        obtain ⟨m, w, hdrop, hflags⟩ := s.proxy.dropPendingWrites_frame K q
        refine .dropped (w := w) rfl hw hflags ?_
        simp only [System.next, hw, System.write, Bool.false_eq_true, if_false, hdrop]
    | _ =>
      refine .other ?_ fun _ => trivial
      simp only [System.next, hw]
      exact .refl s
  | finishPendingWrites =>
    cases hw : s.pendingWrites with
    | wrote n q => exact .finish rfl hw (by simp only [System.next, hw])
    | _ =>
      refine .other ?_ fun _ => trivial
      simp only [System.next, hw]
      exact .refl s
  | exitPendingWrites => exact .exit rfl rfl
  | createScopedWakelock t lock now =>
    exact .other ⟨rfl, rfl, rfl, rfl, rfl, rfl, rfl, rfl, rfl⟩ fun _ => trivial
  | postEvents t i events n =>
    refine .other ?_ fun _ => trivial
    cases h : s.subHals t <;> simp only [System.next, h] <;>
      exact ⟨rfl, rfl, rfl, rfl, rfl, rfl, rfl, rfl, rfl⟩
  | destroyScopedWakelock t =>
    refine .other ?_ fun _ => trivial
    cases h : (s.subHals t).wakelock? <;> simp only [System.next, h] <;>
      exact ⟨rfl, rfl, rfl, rfl, rfl, rfl, rfl, rfl, rfl⟩
  | checkTimeout now now' =>
    refine .other ?_ fun _ => trivial
    cases h : s.proxy.wakelock.sharedWakelockDidTimeout K.kWakelockTimeoutNs now <;>
      simp only [System.next, h] <;> exact ⟨rfl, rfl, rfl, rfl, rfl, rfl, rfl, rfl, rfl⟩
  | readBlocking r =>
    refine .other ?_ fun _ => trivial
    cases r <;> exact ⟨rfl, rfl, rfl, rfl, rfl, rfl, rfl, rfl, rfl⟩
  | exitWakelocks now => exact .other ⟨rfl, rfl, rfl, rfl, rfl, rfl, rfl, rfl, rfl⟩ fun _ => trivial
  | initializeCommon args => cases ha
  | destroy => cases ha
  | mainStep now => cases ha

/-! ## The chunk stays at the front -/

/-- The chunk is the beginning of the front entry. -/
def ChunkQueued (s : System P) : Prop :=
  ∀ n q, s.pendingWrites.chunk? = some (n, q) →
    s.proxy.mPendingWriteEventsQueue ≠ [] ∧ n = min s.proxy.pendingWriteEvents.length q

/-- A post leaves the front entry alone. -/
theorem pendingWriteEvents_post (p : HalProxy P) (events : List (Event P)) (n : ℕ)
    (wakelock : ScopedWakelock) (avail : ℕ) (ok : Bool) (now : ℤ)
    (h : p.mPendingWriteEventsQueue ≠ []) :
    (p.postEventsToMessageQueue K events n wakelock avail ok now).mPendingWriteEventsQueue ≠ [] ∧
      (p.postEventsToMessageQueue K events n wakelock avail ok now).pendingWriteEvents =
        p.pendingWriteEvents := by
  unfold HalProxy.pendingWriteEvents
  rw [HalProxy.mPendingWriteEventsQueue_postEventsToMessageQueue]
  obtain ⟨front, rest, hq⟩ := List.exists_cons_of_ne_nil h
  rw [hq]
  dsimp only
  split
  · exact ⟨List.cons_ne_nil _ _, rfl⟩
  · exact ⟨List.cons_ne_nil _ _, rfl⟩

theorem chunkQueued_next (hs : ChunkQueued s) (hg : s.guard a) (ha : a.isMain = false) :
    ChunkQueued (System.next K s a) := by
  intro n q hchunk
  rcases eventMove_next K s ha with ⟨hsame, -⟩ | ⟨-, -, hs'⟩ | ⟨rfl, hs'⟩ | ⟨-, hw, hs'⟩ |
    ⟨-, hw, -, hs'⟩ | ⟨-, -, hs'⟩ | ⟨-, hs'⟩
  · rw [hsame.pendingWrites] at hchunk
    unfold HalProxy.pendingWriteEvents
    rw [hsame.mPendingWriteEventsQueue]
    exact hs n q hchunk
  · rw [hs'] at hchunk ⊢
    obtain ⟨hne, hn⟩ := hs n q hchunk
    obtain ⟨hne', hfront⟩ := pendingWriteEvents_post (K := K) s.proxy _ _ _ _ _ _ hne
    exact ⟨hne', hn.trans (congrArg (fun front => min front.length q) hfront.symm)⟩
  · -- the chunk is measured while the queue is not empty
    rw [hs'] at hchunk ⊢
    obtain ⟨-, -, hne⟩ := hg
    cases hchunk
    exact ⟨fun h => hne (List.isEmpty_iff.2 h), rfl⟩
  · rw [hs'] at hchunk ⊢
    cases hchunk
    exact hs n q (by rw [hw]; rfl)
  · rw [hs'] at hchunk ⊢
    cases hchunk
    exact hs n q (by rw [hw]; rfl)
  · rw [hs'] at hchunk
    cases hchunk
  · rw [hs'] at hchunk
    cases hchunk

/-! ## A re-initialization joins the thread first -/

/-- After the join of the pending-writes thread, before it is started again. -/
def MainThread.isJoined : MainThread → Bool
  | .joinWakelockThread _ => true
  | .resetSharedWakelock _ => true
  | .disableAllSensors _ => true
  | .clearPendingWriteEventsQueue _ => true
  | .clearSizePendingWriteEventsQueue _ => true
  | .clearDynamicSensors _ => true
  | .moveEventQueue _ => true
  | .deleteEventFlags _ => true
  | .createEventFlags _ => true
  | .storeRunning _ _ => true
  | .startPendingWritesThread _ _ => true
  | .destroyed => true
  | _ => false

/-- The chunk is queued, and there is none while the thread is joined. -/
structure WritesQueued (s : System P) : Prop where
  chunk : ChunkQueued s
  joined : s.main.isJoined = true → s.pendingWrites = .notRunning

/-- A thread that does not run takes no step. -/
theorem notRunning_next (hw : s.pendingWrites = .notRunning) (hg : s.guard a)
    (ha : a.isMain = false) : (System.next K s a).pendingWrites = .notRunning := by
  rcases eventMove_next K s ha with ⟨hsame, -⟩ | ⟨-, -, hs'⟩ | ⟨rfl, -⟩ | ⟨-, hw', -⟩ |
    ⟨-, hw', -, -⟩ | ⟨-, hw', -⟩ | ⟨-, hs'⟩
  · rw [hsame.pendingWrites, hw]
  · rw [hs']; exact hw
  · cases hw.symm.trans hg.1
  · cases hw.symm.trans hw'
  · cases hw.symm.trans hw'
  · cases hw.symm.trans hw'
  · rw [hs']

/-- The binder thread starts the pending-writes thread, and does nothing else to it. -/
theorem pendingWrites_mainNext (s : System P) (now : ℤ) :
    (s.mainNext now).pendingWrites = s.pendingWrites ∧
        ((s.mainNext now).main.isJoined = true →
          s.main.isJoined = true ∨ ∃ caller, s.main = .joinPendingWritesThread caller) ∨
      (s.mainNext now).pendingWrites = .locked ∧ (s.mainNext now).main.isJoined = false := by
  unfold System.mainNext
  cases hm : s.main with
  | joinPendingWritesThread caller => exact .inl ⟨rfl, fun _ => .inr ⟨caller, rfl⟩⟩
  | joinWakelockThread caller => cases caller <;> exact .inl ⟨rfl, fun _ => .inl rfl⟩
  | startPendingWritesThread args result => exact .inr ⟨rfl, rfl⟩
  | initializeSubHal i args result =>
    dsimp only
    split <;> exact .inl ⟨rfl, fun h => absurd h Bool.false_ne_true⟩
  | returned result => exact .inl ⟨rfl, fun h => .inl (by rw [hm] at h; exact h)⟩
  | idle => exact .inl ⟨rfl, fun h => .inl (by rw [hm] at h; exact h)⟩
  | _ => first
    | exact .inl ⟨rfl, fun _ => .inl rfl⟩
    | exact .inl ⟨rfl, fun h => absurd h Bool.false_ne_true⟩

theorem mSensors_mainNext (s : System P) (now : ℤ) :
    (s.mainNext now).proxy.mSensors = s.proxy.mSensors := by
  unfold System.mainNext
  cases s.main with
  | joinWakelockThread caller => cases caller <;> rfl
  | initializeSubHal i args result => dsimp only; split <;> rfl
  | _ => rfl

/-- The queue is cleared only while the thread is joined. -/
theorem mPendingWriteEventsQueue_mainNext (s : System P) (now : ℤ) :
    (s.mainNext now).proxy.mPendingWriteEventsQueue = s.proxy.mPendingWriteEventsQueue ∧
        (s.mainNext now).hist.batches = s.hist.batches ∨
      s.main.isJoined = true ∧ (s.mainNext now).proxy.mPendingWriteEventsQueue = [] ∧
        (s.mainNext now).hist.batches = [] := by
  unfold System.mainNext
  cases hm : s.main with
  | clearPendingWriteEventsQueue args => exact .inr ⟨rfl, rfl, rfl⟩
  | joinWakelockThread caller => cases caller <;> exact .inl ⟨rfl, rfl⟩
  | initializeSubHal i args result => dsimp only; split <;> exact .inl ⟨rfl, rfl⟩
  | _ => exact .inl ⟨rfl, rfl⟩

theorem writesQueued_mainStep (hs : WritesQueued s) {now : ℤ}
    (hg : s.main.Ready s.pendingWrites s.wakelocks) :
    WritesQueued (System.next K s (.mainStep now)) := by
  have hwrites := pendingWrites_mainNext s now
  constructor
  · intro n q hchunk
    have hchunk' : (s.mainNext now).pendingWrites.chunk? = some (n, q) := hchunk
    rcases hwrites with ⟨hsame, -⟩ | ⟨hlocked, -⟩
    · rw [hsame] at hchunk'
      rcases mPendingWriteEventsQueue_mainNext s now with ⟨hq, -⟩ | ⟨hj, -⟩
      · show (s.mainNext now).proxy.mPendingWriteEventsQueue ≠ [] ∧
          n = min (s.mainNext now).proxy.pendingWriteEvents.length q
        unfold HalProxy.pendingWriteEvents
        rw [hq]
        exact hs.chunk n q hchunk'
      · rw [hs.joined hj] at hchunk'
        cases hchunk'
    · rw [hlocked] at hchunk'
      cases hchunk'
  · intro hj
    show (s.mainNext now).pendingWrites = _
    rcases hwrites with ⟨hsame, hfrom⟩ | ⟨-, hnot⟩
    · rw [hsame]
      rcases hfrom hj with hj' | ⟨caller, hm⟩
      · exact hs.joined hj'
      · rw [hm] at hg; exact hg
    · exact absurd (hj.symm.trans hnot) Bool.noConfusion

theorem writesQueued_next (hs : WritesQueued s) (hg : s.guard a) :
    WritesQueued (System.next K s a) := by
  cases ha : a.isMain with
  | false =>
    refine ⟨chunkQueued_next hs.chunk hg ha, fun hj => ?_⟩
    rw [(sameRound_next K s ha).main] at hj
    exact notRunning_next (hs.joined hj) hg ha
  | true =>
    rcases main_next K s ha with ⟨caller, hnext, -⟩ | ⟨now, rfl⟩
    · rw [hnext]; exact ⟨hs.chunk, fun h => absurd h Bool.false_ne_true⟩
    · exact writesQueued_mainStep hs hg.1

/-- In every run the chunk being written is the beginning of the front entry. -/
theorem writesQueued_of_reach {R : System P → Action P → Prop} {subHals : List SubHal} {clock : ℤ}
    (h : (multiHal K P).Reach R (.constructed K P subHals clock) s) : WritesQueued s :=
  invariant_of_reach h ⟨fun _ _ hchunk => (by cases hchunk), fun _ => rfl⟩
    fun _ _ hs hg _ => writesQueued_next hs hg

end RealmeSalaa.MultiHal
