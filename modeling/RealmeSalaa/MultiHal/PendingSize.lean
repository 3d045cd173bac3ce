import RealmeSalaa.MultiHal.Delivery

/-!
# The size of the pending queue

`mSizePendingWriteEventsQueue` is kept by hand: a post adds what it queues, `handlePendingWrites`
takes off the chunk it has done with, and both do so under `mEventQueueWriteMutex` together with the
queue itself. `initializeCommon` clears the queue and then the counter without the mutex. Between the
two statements the counter still counts what is gone, and a batch that is queued there is forgotten
by the second one; the chunks of that batch then take the counter below zero
(`size_wraps_after_clear`). Nothing else makes the counter wrong (`sizeExact_of_reach`).
-/

namespace RealmeSalaa.MultiHal

open HalProxy

variable {P : Type} {K : Constants} {s s₀ : System P} {a : Action P}

/-! ## An exact counter -/

/-- The counter is the number of events in the queue, and within its bound; no vector is empty. -/
structure Counted (K : Constants) (p : HalProxy P) : Prop where
  sum : p.mSizePendingWriteEventsQueue.toNat =
    (p.mPendingWriteEventsQueue.map fun entry => entry.1.length).sum
  le_max : p.mSizePendingWriteEventsQueue ≤ K.kMaxSizePendingWriteEventsQueue
  filled : ∀ entry ∈ p.mPendingWriteEventsQueue, entry.1 ≠ []

/-- Besides, what is to be taken off the counter is not more than it. -/
structure SizeExact (K : Constants) (s : System P) : Prop extends Counted K s.proxy where
  noWrap : ∀ numToWrite eventQueueSize,
    s.pendingWrites.chunk? = some (numToWrite, eventQueueSize) →
      numToWrite ≤ s.proxy.mSizePendingWriteEventsQueue.toNat

theorem counted_congr {p p' : HalProxy P} (h : Counted K p)
    (hqueue : p'.mPendingWriteEventsQueue = p.mPendingWriteEventsQueue)
    (hsize : p'.mSizePendingWriteEventsQueue = p.mSizePendingWriteEventsQueue) : Counted K p' := by
  refine ⟨?_, ?_, ?_⟩
  · rw [hqueue, hsize]; exact h.sum
  · rw [hsize]; exact h.le_max
  · rw [hqueue]; exact h.filled

/-- Vectors that are not empty are empty together only if there are none. -/
theorem sum_eq_zero_iff {queue : List (List (Event P) × ℕ)} (h : ∀ entry ∈ queue, entry.1 ≠ []) :
    (queue.map fun entry => entry.1.length).sum = 0 ↔ queue = [] := by
  cases queue with
  | nil => exact iff_of_true rfl rfl
  | cons entry queue =>
    have hpos : 0 < entry.1.length := List.length_pos_of_ne_nil (h entry List.mem_cons_self)
    refine iff_of_false (fun hsum => ?_) (List.cons_ne_nil _ _)
    rw [List.map_cons, List.sum_cons] at hsum
    omega

/-- A chunk that is queued is counted. -/
theorem Counted.sizeExact (h : Counted K s.proxy) (hs : ChunkQueued s) : SizeExact K s := by
  refine ⟨h, fun n q hchunk => ?_⟩
  obtain ⟨hne, hn⟩ := hs n q hchunk
  obtain ⟨entry, rest, hqueue⟩ := List.exists_cons_of_ne_nil hne
  have hfront : s.proxy.pendingWriteEvents = entry.1 := by rw [pendingWriteEvents, hqueue]
  rw [h.sum, hqueue, List.map_cons, List.sum_cons, hn, hfront]
  omega

/-! ## Posting and removing -/

/-- The batch is a vector, far shorter than what a `size_t` can count. -/
def FitsSize (K : Constants) (s : System P) (a : Action P) : Prop :=
  s.OnPost (fun events _ _ _ _ _ =>
    K.kMaxSizePendingWriteEventsQueue.toNat + events.length < 2 ^ 64) a

instance (s : System P) (a : Action P) : Decidable (FitsSize K s a) := by
  unfold FitsSize; infer_instance

theorem counted_post {p : HalProxy P} (h : Counted K p) {events : List (Event P)}
    (hfits : K.kMaxSizePendingWriteEventsQueue.toNat + events.length < 2 ^ 64) (n : ℕ)
    (wakelock : ScopedWakelock) (avail : ℕ) (ok : Bool) (now : ℤ) :
    Counted K (p.postEventsToMessageQueue K events n wakelock avail ok now) := by
  rw [postEventsToMessageQueue_eq]
  generalize p.numToWrite events avail ok = k
  by_cases hqueues : p.Queues K events k
  · have hle := UInt64.le_iff_toNat_le.1 h.le_max
    have hadd : (p.mSizePendingWriteEventsQueue + UInt64.ofNat (events.length - k)).toNat =
        p.mSizePendingWriteEventsQueue.toNat + (events.length - k) := by
      rw [UInt64.toNat_add, UInt64.toNat_ofNat', Nat.mod_eq_of_lt (by omega),
        Nat.mod_eq_of_lt (by omega)]
    simp only [if_pos hqueues]
    refine ⟨?_, hqueues.2, fun entry hentry => ?_⟩
    · rw [hadd, h.sum, List.map_append, List.sum_append]
      simp
    · rcases List.mem_append.1 hentry with hentry | hentry
      · exact h.filled entry hentry
      · rw [List.mem_singleton.1 hentry]
        have hlt := hqueues.1
        exact List.ne_nil_of_length_pos (by rw [List.length_drop]; omega)
  · simp only [if_neg hqueues]
    exact ⟨h.sum, h.le_max, h.filled⟩

theorem counted_finish {p : HalProxy P} (h : Counted K p) {n q : ℕ}
    (hne : p.mPendingWriteEventsQueue ≠ []) (hn : n = min p.pendingWriteEvents.length q) :
    Counted K (p.finishPendingWrites n q) := by
  obtain ⟨⟨events, numWakeupEvents⟩, rest, hqueue⟩ := List.exists_cons_of_ne_nil hne
  have hfront : p.pendingWriteEvents = events := by rw [pendingWriteEvents, hqueue]
  have hsum := h.sum
  rw [hqueue, List.map_cons, List.sum_cons] at hsum
  dsimp only at hsum
  rw [hfront] at hn
  have hlt := p.mSizePendingWriteEventsQueue.toNat_lt
  have hof : (UInt64.ofNat n).toNat = n := by
    rw [UInt64.toNat_ofNat', Nat.mod_eq_of_lt (by omega)]
  have hsub : (p.mSizePendingWriteEventsQueue - UInt64.ofNat n).toNat =
      p.mSizePendingWriteEventsQueue.toNat - n := by
    rw [UInt64.toNat_sub_of_le _ _ (UInt64.le_iff_toNat_le.2 (by omega)), hof]
  have hfilled := h.filled
  rw [hqueue] at hfilled
  obtain ⟨hevents, hrest⟩ := List.forall_mem_cons.1 hfilled
  unfold finishPendingWrites
  rw [hqueue]
  dsimp only
  refine ⟨?_, ?_, ?_⟩
  · show (p.mSizePendingWriteEventsQueue - UInt64.ofNat n).toNat = _
    rw [hsub]
    dsimp only
    split_ifs
    · rw [List.map_cons, List.sum_cons, List.length_drop]
      omega
    · omega
  · have hmax := UInt64.le_iff_toNat_le.1 h.le_max
    refine UInt64.le_iff_toNat_le.2 ?_
    show (p.mSizePendingWriteEventsQueue - UInt64.ofNat n).toNat ≤ _
    omega
  · dsimp only
    split_ifs with hlong
    · refine List.forall_mem_cons.2 ⟨?_, hrest⟩
      exact List.ne_nil_of_length_pos (by rw [List.length_drop]; omega)
    · exact hrest

/-- The threads other than the binder thread keep the counter exact. -/
theorem counted_next (h : Counted K s.proxy) (hs : ChunkQueued s) (hfits : FitsSize K s a)
    (ha : a.isMain = false) : Counted K (System.next K s a).proxy := by
  rcases eventMove_next K s ha with ⟨hsame, -⟩ | ⟨rfl, hpost, hs'⟩ | ⟨-, hs'⟩ | ⟨-, -, hs'⟩ |
    ⟨-, -, -, hs'⟩ | ⟨-, hw, hs'⟩ | ⟨-, hs'⟩
  · exact counted_congr h hsame.mPendingWriteEventsQueue hsame.mSizePendingWriteEventsQueue
  · rw [hs']
    exact counted_post h ((System.onPost_posting hpost).1 hfits) _ _ _ _ _
  · rw [hs']; exact h
  · rw [hs']; exact counted_congr h rfl rfl
  · rw [hs']; exact counted_congr h rfl rfl
  · rw [hs']
    obtain ⟨hne, hn⟩ := hs _ _ (by rw [hw]; rfl)
    exact counted_finish h hne hn
  · rw [hs']; exact h

/-! ## The two statements that clear -/

/-- The statement clears the queue or its counter. -/
def MainThread.clears : MainThread → Bool
  | .clearPendingWriteEventsQueue _ => true
  | .clearSizePendingWriteEventsQueue _ => true
  | _ => false

/-- The queue is cleared, and its counter is not yet. -/
def MainThread.isBetweenClears : MainThread → Bool
  | .clearSizePendingWriteEventsQueue _ => true
  | _ => false

/-- Neither the queue nor its counter is cleared while events are pending. -/
def ClearsNothing (s : System P) (a : Action P) : Prop :=
  a.isMain = true → s.main.clears = true → s.proxy.mPendingWriteEventsQueue.isEmpty = true

/-- The counter is not cleared while events are pending. -/
def ZeroesNothing (s : System P) (a : Action P) : Prop :=
  a.isMain = true → s.main.isBetweenClears = true → s.proxy.mPendingWriteEventsQueue.isEmpty = true

instance (s : System P) (a : Action P) : Decidable (ClearsNothing s a) := by
  unfold ClearsNothing; infer_instance

instance (s : System P) (a : Action P) : Decidable (ZeroesNothing s a) := by
  unfold ZeroesNothing; infer_instance

theorem clears_of_isFree {m : MainThread} (h : m.isFree = true) :
    m.clears = false ∧ m.isBetweenClears = false := by
  cases m with
  | idle => exact ⟨rfl, rfl⟩
  | returned result => exact ⟨rfl, rfl⟩
  | _ => cases h

/-- What a statement of the binder thread can do to the pending queue and its counter. -/
inductive ClearMove (s s' : System P) : Prop
  | queue {args : InitArgs} (hm : s.main = .clearPendingWriteEventsQueue args)
      (hm' : s'.main.isBetweenClears = true) (hqueue : s'.proxy.mPendingWriteEventsQueue = [])
      (hsize : s'.proxy.mSizePendingWriteEventsQueue = s.proxy.mSizePendingWriteEventsQueue)
  | size {args : InitArgs} (hm : s.main = .clearSizePendingWriteEventsQueue args)
      (hqueue : s'.proxy.mPendingWriteEventsQueue = s.proxy.mPendingWriteEventsQueue)
      (hsize : s'.proxy.mSizePendingWriteEventsQueue = 0)
  | neither (hm : s.main.clears = false) (hbetween : s.main.isBetweenClears = false)
      (hqueue : s'.proxy.mPendingWriteEventsQueue = s.proxy.mPendingWriteEventsQueue)
      (hsize : s'.proxy.mSizePendingWriteEventsQueue = s.proxy.mSizePendingWriteEventsQueue)

theorem clearMove_mainNext (s : System P) (now : ℤ) : ClearMove s (s.mainNext now) := by
  unfold System.mainNext
  cases hm : s.main with
  | clearPendingWriteEventsQueue args => exact .queue hm rfl rfl rfl
  | clearSizePendingWriteEventsQueue args => exact .size hm rfl rfl
  | joinWakelockThread caller =>
    cases caller <;> exact .neither (by rw [hm]; rfl) (by rw [hm]; rfl) rfl rfl
  | initializeSubHal i args result =>
    dsimp only
    split <;> exact .neither (by rw [hm]; rfl) (by rw [hm]; rfl) rfl rfl
  | _ => exact .neither (by rw [hm]; rfl) (by rw [hm]; rfl) rfl rfl

theorem clearsNothing_iff (now : ℤ) (h : s.main.clears = true) :
    ClearsNothing s (.mainStep now) ↔ s.proxy.mPendingWriteEventsQueue = [] := by
  rw [← List.isEmpty_iff]
  exact ⟨fun hclears => hclears rfl h, fun hempty _ _ => hempty⟩

/-- A statement keeps an exact counter exact just if it clears nothing that is pending. -/
theorem counted_mainNext_iff (h : Counted K s.proxy) (now : ℤ) :
    Counted K (s.mainNext now).proxy ↔ ClearsNothing s (.mainStep now) := by
  rcases clearMove_mainNext s now with ⟨hm, -, hqueue, hsize⟩ | ⟨hm, hqueue, hsize⟩ |
    ⟨hm, -, hqueue, hsize⟩
  · -- the counter still counts what the queue had
    rw [clearsNothing_iff now (by rw [hm]; rfl)]
    constructor
    · intro h'
      have hsum := h'.sum
      rw [hqueue, hsize, h.sum, List.map_nil, List.sum_nil] at hsum
      exact (sum_eq_zero_iff h.filled).1 hsum
    · intro hnil
      exact counted_congr h (hqueue.trans hnil.symm) hsize
  · -- the counter no longer counts what the queue has
    rw [clearsNothing_iff now (by rw [hm]; rfl), ← sum_eq_zero_iff h.filled]
    constructor
    · intro h'
      have hsum := h'.sum
      rw [hqueue, hsize] at hsum
      exact hsum.symm
    · intro hzero
      refine counted_congr h hqueue (hsize.trans (UInt64.toNat_inj.1 ?_))
      rw [h.sum, hzero]
      rfl
  · exact iff_of_true (counted_congr h hqueue hsize) fun _ hclears =>
      absurd (hclears.symm.trans hm) Bool.noConfusion

/-! ## Runs -/

/-- Each step keeps an exact counter exact just if it clears nothing that is pending. -/
theorem sizeExact_next_iff (h : SizeExact K s) (hs : WritesQueued s) (hg : s.guard a)
    (hfits : FitsSize K s a) : SizeExact K (System.next K s a) ↔ ClearsNothing s a := by
  have hs' : ChunkQueued (System.next K s a) := (writesQueued_next hs hg).chunk
  have hcounted : Counted K (System.next K s a).proxy ↔ ClearsNothing s a := by
    cases ha : a.isMain with
    | false =>
      exact iff_of_true (counted_next h.toCounted hs.chunk hfits ha) fun hmain =>
        absurd (hmain.symm.trans ha) Bool.noConfusion
    | true =>
      rcases main_next K s ha with ⟨caller, hnext, hfree⟩ | ⟨now, rfl⟩
      · rw [hnext]
        exact iff_of_true h.toCounted fun _ hclears =>
          absurd (hclears.symm.trans (clears_of_isFree (hfree hg)).1) Bool.noConfusion
      · exact counted_mainNext_iff h.toCounted now
  exact ⟨fun h' => hcounted.1 h'.toCounted, fun hclears => (hcounted.2 hclears).sizeExact hs'⟩

/-- But for the time between the two statements, only what the second one forgets matters. -/
theorem counted_next_of_zeroesNothing (h : s.main.isBetweenClears = false → Counted K s.proxy)
    (hs : WritesQueued s) (hg : s.guard a) (hfits : FitsSize K s a) (hzeroes : ZeroesNothing s a) :
    (System.next K s a).main.isBetweenClears = false → Counted K (System.next K s a).proxy := by
  intro hbetween'
  cases ha : a.isMain with
  | false =>
    rw [(sameRound_next K s ha).main] at hbetween'
    exact counted_next (h hbetween') hs.chunk hfits ha
  | true =>
    rcases main_next K s ha with ⟨caller, hnext, hfree⟩ | ⟨now, rfl⟩
    · rw [hnext]
      exact h (clears_of_isFree (hfree hg)).2
    · have hmove := clearMove_mainNext s now
      show Counted K (s.mainNext now).proxy
      rcases hmove with ⟨-, hm', -, -⟩ | ⟨hm, hqueue, hsize⟩ | ⟨-, hbetween, hqueue, hsize⟩
      · exact absurd (hm'.symm.trans hbetween') Bool.noConfusion
      · have hnil : s.proxy.mPendingWriteEventsQueue = [] :=
          List.isEmpty_iff.1 (hzeroes rfl (by rw [hm]; rfl))
        rw [hnil] at hqueue
        refine ⟨by rw [hqueue, hsize]; rfl, ?_, fun entry hentry => ?_⟩
        · rw [hsize]
          exact UInt64.le_iff_toNat_le.2 (Nat.zero_le _)
        · rw [hqueue] at hentry
          cases hentry
      · exact counted_congr (h hbetween) hqueue hsize

theorem counted_constructed (K : Constants) (P : Type) (subHals : List SubHal) (clock : ℤ) :
    Counted K (System.constructed K P subHals clock).proxy := by
  obtain ⟨owner, m, hframe⟩ := construct_frame (P := Origin × P) K subHals
  have hproxy : (System.constructed K P subHals clock).proxy =
      { initial subHals with mDirectChannelSubHal := owner, mSensors := m } := hframe
  rw [hproxy]
  refine ⟨rfl, UInt64.le_iff_toNat_le.2 (Nat.zero_le _), fun entry hentry => ?_⟩
  cases hentry

/-- **The counter of the pending queue.** It is exact until a statement of `initializeCommon` clears
the queue or the counter while events are pending; and if only the queue is cleared so, it is exact
again once the counter is cleared too. -/
theorem sizeExact_of_reach (K : Constants) (subHals : List SubHal) (clock : ℤ) (s : System P) :
    ((multiHal K P).Reach (fun s a => FitsSize K s a ∧ ClearsNothing s a)
        (.constructed K P subHals clock) s →
      SizeExact K s ∧ ∀ a, s.guard a → FitsSize K s a →
        (SizeExact K (System.next K s a) ↔ ClearsNothing s a)) ∧
    ((multiHal K P).Reach (fun s a => FitsSize K s a ∧ ZeroesNothing s a)
        (.constructed K P subHals clock) s →
      s.main.isBetweenClears = false → SizeExact K s) := by
  have h₀ : WritesQueued (System.constructed K P subHals clock) :=
    writesQueued_of_reach (K := K) (R := fun _ _ => True) .refl
  have hcounted₀ := counted_constructed K P subHals clock
  constructor
  · intro h
    have hs : SizeExact K s ∧ WritesQueued s :=
      invariant_of_reach (I := fun s => SizeExact K s ∧ WritesQueued s) h
        ⟨hcounted₀.sizeExact h₀.chunk, h₀⟩ fun s a hs hg ha =>
          ⟨(sizeExact_next_iff hs.1 hs.2 hg ha.1).2 ha.2, writesQueued_next hs.2 hg⟩
    exact ⟨hs.1, fun a hg hfits => sizeExact_next_iff hs.1 hs.2 hg hfits⟩
  · intro h hbetween
    have hs : (s.main.isBetweenClears = false → Counted K s.proxy) ∧ WritesQueued s :=
      invariant_of_reach
        (I := fun s => (s.main.isBetweenClears = false → Counted K s.proxy) ∧ WritesQueued s) h
        ⟨fun _ => hcounted₀, h₀⟩ fun s a hs hg ha =>
          ⟨counted_next_of_zeroesNothing hs.1 hs.2 hg ha.1 ha.2, writesQueued_next hs.2 hg⟩
    exact (hs.1 hbetween).sizeExact hs.2.chunk

/-- A call of `postEvents` passes its check. -/
def callRun : List (Action ℕ) :=
  [.createScopedWakelock 0 true 1, .postEvents 0 0 [⟨1, .other 1, 0, 7⟩] 1]

/-- Its event finds no room in the FMQ. -/
def queueRun : List (Action ℕ) := [.postEventsToMessageQueue 0 0 true 2]

def writeRun : List (Action ℕ) := [.takePendingWrites, .writeBlocking true]

def finishRun : List (Action ℕ) := [.finishPendingWrites]

/-- An event waits and is written, and the proxy is initialized again. -/
def reinitializedAfterWrite : System ℕ :=
  (multiHal sampleConstants ℕ).exec sample
    (initializeRun 4 ++ callRun ++ queueRun ++ writeRun ++ finishRun ++ reinitializeRun)

/-- The proxy is initialized again while an event waits. -/
def reinitializedBeforeWrite : System ℕ :=
  (multiHal sampleConstants ℕ).exec sample
    (initializeRun 4 ++ callRun ++ queueRun ++ reinitializeRun)

theorem sizeExact_of_reach_sample :
    (SizeExact sampleConstants reinitializedAfterWrite ∧
      ∀ a, reinitializedAfterWrite.guard a → FitsSize sampleConstants reinitializedAfterWrite a →
        (SizeExact sampleConstants (System.next sampleConstants reinitializedAfterWrite a) ↔
          ClearsNothing reinitializedAfterWrite a)) ∧
    SizeExact sampleConstants reinitializedBeforeWrite :=
  ⟨(sizeExact_of_reach sampleConstants sampleSubHals 0 reinitializedAfterWrite).1
      (GuardedSystem.reach_exec (by decide)),
    (sizeExact_of_reach sampleConstants sampleSubHals 0 reinitializedBeforeWrite).2
      (GuardedSystem.reach_exec (by decide)) rfl⟩

/-- `initializeCommon` on a proxy whose threads run, up to the statement that clears the queue. -/
def clearRun : List (Action ℕ) :=
  .initializeCommon ⟨4, true, true, true, fun _ => .OK⟩ :: stopRun ++ List.replicate 3 (.mainStep 2)

/-- The batch of a call that has passed its check is queued between the two statements that clear,
and written after the initialization. -/
def writtenAfterClear : System ℕ :=
  (multiHal sampleConstants ℕ).exec sample (initializeRun 4 ++ callRun ++ clearRun ++ queueRun ++
    List.replicate 11 (.mainStep 2) ++ writeRun)

/-- Such a batch makes the counter wrap around when it is written. -/
theorem size_wraps_after_clear :
    ∃ s s', (multiHal sampleConstants ℕ).Reach (FitsSize sampleConstants) sample s ∧
      s.guard .finishPendingWrites ∧ s' = System.next sampleConstants s .finishPendingWrites ∧
      s.proxy.mSizePendingWriteEventsQueue = 0 ∧
      (s.proxy.mPendingWriteEventsQueue.map fun entry => entry.1.length).sum = 1 ∧
      s'.proxy.mSizePendingWriteEventsQueue = 18446744073709551615 ∧
      s'.proxy.mPendingWriteEventsQueue = [] ∧
      ¬ SizeExact sampleConstants s ∧ ¬ SizeExact sampleConstants s' := by
  set s := writtenAfterClear with hs
  set s' := System.next sampleConstants s .finishPendingWrites with hs'
  have hsize : s.proxy.mSizePendingWriteEventsQueue = 0 := by decide
  have hsum : (s.proxy.mPendingWriteEventsQueue.map fun entry => entry.1.length).sum = 1 := by
    decide
  have hwraps : s'.proxy.mSizePendingWriteEventsQueue = 18446744073709551615 := by decide
  refine ⟨s, s', GuardedSystem.reach_exec (by decide), trivial, rfl, hsize, hsum, hwraps, rfl,
    fun h => ?_, fun h => ?_⟩
  · have hzero := h.sum
    rw [hsize, hsum] at hzero
    cases hzero
  · have hle := h.le_max
    rw [hwraps] at hle
    exact absurd hle (by decide)

end RealmeSalaa.MultiHal
