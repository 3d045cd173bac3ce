import RealmeSalaa.MultiHal.PendingWrites

/-!
# Wake-up references of refused and dropped events

Each wake-up event takes one reference of the shared wakelock when its batch is posted, before it
is known what becomes of the batch.

* `postEventsToMessageQueue` counts the whole batch. When the pending queue refuses the rest of it,
  the references of the refused wake-up events stay (`countsAccepted_iff_refusedPart`).
* A pending entry carries the count of its whole batch next to a shrinking list of events. When the
  last chunk of a batch fails, the whole count is given back, also for the events that were written
  before (`givenBack_eq_iff_of_entry`). The invariant is that every entry is the end of its batch
  and carries the batch's count (`entries_of_reach`).
-/

namespace RealmeSalaa.MultiHal

open HalProxy

variable {P : Type} {K : Constants}

/-! ## Refused events -/

namespace HalProxy

/-- How many events the FMQ takes at once: none while others are pending. -/
def fmqRoom (s : HalProxy P) (availableToWrite : ℕ) (writeOk : Bool) : ℕ :=
  if s.mPendingWriteEventsQueue.isEmpty && writeOk then availableToWrite else 0

theorem numToWrite_eq (s : HalProxy P) (events : List (Event P)) (availableToWrite : ℕ)
    (writeOk : Bool) :
    s.numToWrite events availableToWrite writeOk =
      min events.length (s.fmqRoom availableToWrite writeOk) := by
  unfold numToWrite fmqRoom
  cases s.mPendingWriteEventsQueue.isEmpty with
  | false => simp
  | true =>
    cases writeOk with
    | true => simp
    | false =>
      simp only [Bool.and_false, Bool.false_eq_true, if_false, if_true]
      split <;> omega

end HalProxy

/-- From `s` to `s'` the count grew by the wake-up events that were written or queued. -/
def CountsAccepted (K : Constants) (s s' : HalProxy P) : Prop :=
  ∃ written queued, s'.mEventQueue.written = s.mEventQueue.written ++ written ∧
    s'.pendingEvents = s.pendingEvents ++ queued ∧
    s'.wakelock.mWakelockRefCount =
      s.wakelock.mWakelockRefCount + numWakeups K s.mSensors (written ++ queued)

section Post

variable {s : HalProxy P} {events : List (Event P)} {n : ℕ} {wakelock : ScopedWakelock}
  (availableToWrite : ℕ) (writeOk : Bool) (now : ℤ)

/-- The refused wake-up events are counted, too. -/
theorem countsAccepted_iff_refusedPart (hrun : s.mThreadsRun = true)
    (hlocked : wakelock.mLocked = true) (hcount : n = numWakeups K s.mSensors events) :
    CountsAccepted K s
        (s.postEventsToMessageQueue K events n wakelock availableToWrite writeOk now) ↔
      numWakeups K s.mSensors
        (s.refusedPart K events (s.numToWrite events availableToWrite writeOk)) = 0 := by
  set k := s.numToWrite events availableToWrite writeOk with hk
  have hwritten : (s.postEventsToMessageQueue K events n wakelock availableToWrite writeOk
      now).mEventQueue.written = s.mEventQueue.written ++ events.take k := by
    rw [mEventQueue_postEventsToMessageQueue]; rfl
  have hpending : (s.postEventsToMessageQueue K events n wakelock availableToWrite writeOk
      now).pendingEvents = s.pendingEvents ++ s.queuedPart K events k :=
    pendingEvents_postEventsToMessageQueue ..
  have hgrow : (s.postEventsToMessageQueue K events n wakelock availableToWrite writeOk
      now).wakelock.mWakelockRefCount = s.wakelock.mWakelockRefCount + n := by
    rw [wakelock_postEventsToMessageQueue, if_pos hlocked, hrun]; rfl
  have hsplit : numWakeups K s.mSensors (events.take k ++ s.queuedPart K events k) +
      numWakeups K s.mSensors (s.refusedPart K events k) = n := by
    rw [← numWakeups_append, take_append_queuedPart_append_refusedPart, hcount]
  constructor
  · rintro ⟨written, queued, hw, hq, hcounted⟩
    rw [hwritten] at hw
    rw [hpending] at hq
    rw [← List.append_cancel_left hw, ← List.append_cancel_left hq, hgrow] at hcounted
    omega
  · intro hnone
    exact ⟨_, _, hwritten, hpending, by rw [hgrow]; omega⟩

/-- **Refused events.** A post counts exactly the wake-up events it accepts, if and only if what
the FMQ does not take has no wake-up events or fits in the pending queue. -/
theorem countsAccepted_iff (hrun : s.mThreadsRun = true) (hlocked : wakelock.mLocked = true)
    (hcount : n = numWakeups K s.mSensors events) :
    CountsAccepted K s
        (s.postEventsToMessageQueue K events n wakelock availableToWrite writeOk now) ↔
      numWakeups K s.mSensors (events.drop (s.fmqRoom availableToWrite writeOk)) = 0 ∨
        s.mSizePendingWriteEventsQueue +
            UInt64.ofNat (events.length - s.fmqRoom availableToWrite writeOk) ≤
          K.kMaxSizePendingWriteEventsQueue := by
  rw [countsAccepted_iff_refusedPart availableToWrite writeOk now hrun hlocked hcount,
    numToWrite_eq]
  set room := s.fmqRoom availableToWrite writeOk with hroom
  have hdrop : events.drop (min events.length room) = events.drop room := by
    rcases le_total events.length room with h | h
    · rw [min_eq_left h, List.drop_length, List.drop_eq_nil_of_le h]
    · rw [min_eq_right h]
  have hleft : events.length - min events.length room = events.length - room := by omega
  unfold refusedPart
  by_cases hq : s.Queues K events (min events.length room)
  · have hfits := hq.2
    rw [hleft] at hfits
    rw [if_pos hq]
    exact ⟨fun _ => .inr hfits, fun _ => rfl⟩
  · rw [if_neg hq, hdrop]
    refine ⟨.inl, fun h => h.elim id fun hfits => ?_⟩
    have hall : ¬ min events.length room < events.length := fun hlt => hq ⟨hlt, by rwa [hleft]⟩
    rw [List.drop_eq_nil_of_le (by omega)]
    rfl

end Post

/-- A pending queue of four events refuses five, and their five references stay. -/
def fiveWakeups : List (PostedEvent ℕ) :=
  [7, 8, 9, 10, 11].map fun i => ⟨1, .other 1, 0, (⟨0, 1⟩, i)⟩

theorem countsAccepted_iff_sample :
    CountsAccepted sampleConstants (sampleStarted 4).proxy
        ((sampleStarted 4).proxy.postEventsToMessageQueue sampleConstants fiveWakeups 5 ⟨true, 1⟩ 1
          true 2) ↔
      numWakeups sampleConstants (sampleStarted 4).proxy.mSensors
        (fiveWakeups.drop ((sampleStarted 4).proxy.fmqRoom 1 true)) = 0 ∨
      (sampleStarted 4).proxy.mSizePendingWriteEventsQueue +
          UInt64.ofNat (fiveWakeups.length - (sampleStarted 4).proxy.fmqRoom 1 true) ≤
        sampleConstants.kMaxSizePendingWriteEventsQueue :=
  countsAccepted_iff 1 true 2 (by decide) rfl (by decide)

theorem refused_events_counted :
    (multiHal sampleConstants ℕ).Reach (fun _ _ => True) sample (sampleStarted 4) ∧
      ¬ CountsAccepted sampleConstants (sampleStarted 4).proxy
        ((sampleStarted 4).proxy.postEventsToMessageQueue sampleConstants fiveWakeups 5 ⟨true, 1⟩ 0
          true 2) := by
  refine ⟨GuardedSystem.reach_exec (by decide), fun hcounts => ?_⟩
  have hnone := (countsAccepted_iff_refusedPart 0 true 2 (by decide) rfl
    (by decide)).1 hcounts
  revert hnone
  decide

/-! ## Dropped events -/

variable {s : System P} {a : Action P}

/-- What the failed `writeBlocking` of a chunk gives back. -/
def HalProxy.givenBack (K : Constants) (p : HalProxy P) (eventQueueSize : ℕ) : ℕ :=
  match p.failedWriteDecrement K eventQueueSize with
  | none => 0
  | some (delta, _) => delta

/-- The events of the front entry's batch that are no longer pending. -/
def System.gone (s : System P) : List (PostedEvent P) :=
  let batch := s.hist.batches.headD []
  batch.take (batch.length - s.proxy.pendingWriteEvents.length)

/-- Batches are posted with their true count. -/
def TrueCounts (K : Constants) (s : System P) (a : Action P) : Prop :=
  s.OnPost (fun events n _ _ _ _ => n = numWakeups K s.proxy.mSensors events) a

instance (s : System P) (a : Action P) : Decidable (TrueCounts K s a) := by
  unfold TrueCounts; infer_instance

/-- The entry is the end of its batch and carries the batch's count. -/
def EntryOf (K : Constants) (m : SensorMap) (entry : List (Event P) × ℕ)
    (batch : List (Event P)) : Prop :=
  entry.1 <:+ batch ∧ entry.2 = numWakeups K m batch

/-- Every pending entry belongs to its batch. -/
def Entries (K : Constants) (s : System P) : Prop :=
  List.Forall₂ (EntryOf K s.proxy.mSensors) s.proxy.mPendingWriteEventsQueue s.hist.batches

theorem entries_congr {m m' : SensorMap} (h : ∀ k, m'.flags k = m.flags k)
    {entries : List (List (Event P) × ℕ)} {batches : List (List (Event P))}
    (he : List.Forall₂ (EntryOf K m) entries batches) :
    List.Forall₂ (EntryOf K m') entries batches :=
  he.imp fun _ batch hentry => ⟨hentry.1, by rw [numWakeups_congr h batch]; exact hentry.2⟩

theorem entries_post (he : Entries K s) (t : ℕ) {events : List (PostedEvent P)} {n : ℕ}
    (hcount : n = numWakeups K s.proxy.mSensors events) (wakelock : ScopedWakelock) (avail : ℕ)
    (ok : Bool) (now : ℤ) : Entries K (s.post K t events n wakelock avail ok now) := by
  show List.Forall₂ (EntryOf K (s.proxy.postEventsToMessageQueue K events n wakelock avail ok
    now).mSensors) (s.proxy.postEventsToMessageQueue K events n wakelock avail ok
      now).mPendingWriteEventsQueue (if _ then _ else _)
  rw [postEventsToMessageQueue_eq]
  dsimp only
  split
  · exact List.rel_append he (.cons ⟨List.drop_suffix _ _, hcount⟩ .nil)
  · exact he

/-- The front entry belongs to the first batch. -/
theorem exists_batch (he : Entries K s) {entry : List (PostedEvent P) × ℕ}
    {rest : List (List (PostedEvent P) × ℕ)}
    (hp : s.proxy.mPendingWriteEventsQueue = entry :: rest) :
    ∃ batch batches, s.hist.batches = batch :: batches ∧
      EntryOf K s.proxy.mSensors entry batch ∧
      List.Forall₂ (EntryOf K s.proxy.mSensors) rest batches := by
  unfold Entries at he
  rw [hp] at he
  obtain ⟨batch, batches, hentry, hrest, hb⟩ := List.forall₂_cons_left_iff.1 he
  exact ⟨batch, batches, hb, hentry, hrest⟩

/-- The front entry is shortened, or leaves with its batch. -/
theorem entries_finish (he : Entries K s) (n q : ℕ) : Entries K (s.finish n q) := by
  unfold Entries System.finish finishPendingWrites pendingWriteEvents at *
  cases hp : s.proxy.mPendingWriteEventsQueue with
  | nil =>
    rw [hp] at he
    cases hb : s.hist.batches with
    | nil => simp
    | cons batch batches => rw [hb] at he; cases he
  | cons entry rest =>
    obtain ⟨batch, batches, hb, hentry, hrest⟩ := exists_batch he hp
    rw [hb]
    obtain ⟨events, numWakeupEvents⟩ := entry
    dsimp only
    by_cases hlen : events.length > q
    · rw [if_pos hlen, if_pos hlen]
      exact .cons ⟨(List.drop_suffix _ _).trans hentry.1, hentry.2⟩ hrest
    · rw [if_neg hlen, if_neg hlen]
      exact hrest

theorem entries_mainNext (he : Entries K s) (now : ℤ) : Entries K (s.mainNext now) := by
  unfold Entries
  rw [mSensors_mainNext]
  rcases mPendingWriteEventsQueue_mainNext s now with ⟨hq, hb⟩ | ⟨-, hq, hb⟩
  · rw [hq, hb]; exact he
  · rw [hq, hb]; exact .nil

theorem entries_next (he : Entries K s) (ha : TrueCounts K s a) :
    Entries K (System.next K s a) := by
  cases hmain : a.isMain with
  | true =>
    rcases main_next K s hmain with ⟨caller, hnext, -⟩ | ⟨now, rfl⟩
    · rw [hnext]; exact he
    · exact entries_mainNext he now
  | false =>
    rcases eventMove_next K s hmain with ⟨hsame, -⟩ | ⟨rfl, hpost, hs'⟩ | ⟨-, hs'⟩ | ⟨-, -, hs'⟩ |
      ⟨-, -, hflags, hs'⟩ | ⟨-, -, hs'⟩ | ⟨-, hs'⟩
    · unfold Entries
      rw [hsame.mSensors, hsame.mPendingWriteEventsQueue, hsame.batches]
      exact he
    · rw [hs']; exact entries_post he _ ((System.onPost_posting hpost).1 ha) _ _ _ _
    · rw [hs']; exact he
    · rw [hs']; exact he
    · rw [hs']; exact entries_congr hflags he
    · rw [hs']; exact entries_finish he _ _
    · rw [hs']; exact he

/-- In every run of truly counted batches each entry is the end of its batch with its count. -/
theorem entries_of_reach {subHals : List SubHal} {clock : ℤ}
    (h : (multiHal K P).Reach (TrueCounts K) (.constructed K P subHals clock) s) :
    Entries K s := by
  refine invariant_of_reach h ?_ fun _ _ he _ ha => entries_next he ha
  show List.Forall₂ _ (construct K subHals : HalProxy (Origin × P)).mPendingWriteEventsQueue []
  obtain ⟨owner, m, hframe⟩ := construct_frame (P := Origin × P) K subHals
  rw [hframe]
  exact .nil

/-- What a failed write of the front entry gives back, for an entry of the batch `gone ++ front`. -/
theorem givenBack_eq_iff_of_entry (p : HalProxy P) (q : ℕ) {gone : List (Event P)}
    (hcount : p.pendingWakeupEvents = numWakeups K p.mSensors (gone ++ p.pendingWriteEvents)) :
    p.givenBack K q =
        numWakeups K p.mSensors (p.pendingWriteEvents.take (min p.pendingWriteEvents.length q)) ↔
      q < p.pendingWriteEvents.length ∨ numWakeups K p.mSensors gone = 0 := by
  have htake := numWakeups_take_add_drop K p.mSensors p.pendingWriteEvents
    (min p.pendingWriteEvents.length q)
  rw [numWakeups_append] at hcount
  unfold givenBack failedWriteDecrement
  by_cases hsome : p.pendingWakeupEvents > 0
  · rw [if_pos hsome]
    by_cases hlong : p.pendingWriteEvents.length > q
    · -- not the last chunk: its own wake-up events are counted
      rw [if_pos hlong, min_eq_right hlong.le]
      simp [countNumWakeupEvents_eq, hlong]
    · -- the last chunk: the count of the whole batch is given back
      rw [if_neg hlong, min_eq_left (by omega), List.take_length]
      show p.pendingWakeupEvents = _ ↔ _
      omega
  · rw [if_neg hsome]
    show 0 = _ ↔ _
    omega

/-- **Dropped events.** When the write of a chunk fails, the references given back are those of the
wake-up events in the chunk, if and only if more of the batch stays pending, or no wake-up event
of it is gone already. -/
theorem givenBack_eq_iff {subHals : List SubHal} {clock : ℤ} {n q : ℕ}
    (h : (multiHal K P).Reach (TrueCounts K) (.constructed K P subHals clock) s)
    (hw : s.pendingWrites = .writing n q) :
    s.hist.batches.headD [] = s.gone ++ s.proxy.pendingWriteEvents ∧
    (s.proxy.givenBack K q = numWakeups K s.proxy.mSensors (s.proxy.pendingWriteEvents.take n) ↔
      q < s.proxy.pendingWriteEvents.length ∨ numWakeups K s.proxy.mSensors s.gone = 0) := by
  obtain ⟨hne, hn⟩ := (writesQueued_of_reach h).chunk n q (by rw [hw]; rfl)
  obtain ⟨⟨events, numWakeupEvents⟩, rest, hp⟩ := List.exists_cons_of_ne_nil hne
  obtain ⟨batch, batches, hb, ⟨hsuffix, hcount⟩, -⟩ := exists_batch (entries_of_reach h) hp
  rw [hb]
  have hfront : s.proxy.pendingWriteEvents = events := by rw [pendingWriteEvents, hp]
  have hwakeups : s.proxy.pendingWakeupEvents = numWakeupEvents := by
    rw [pendingWakeupEvents, hp]
  have hbatch : batch = s.gone ++ s.proxy.pendingWriteEvents := by
    rw [System.gone, hb, hfront]
    exact (List.suffix_iff_eq_append.1 hsuffix).symm
  refine ⟨hbatch, ?_⟩
  rw [hn]
  exact givenBack_eq_iff_of_entry s.proxy q (by rw [hwakeups, ← hbatch]; exact hcount)

/-- Two wake-up events are posted to an FMQ with room for one, and the second is about to be
written. -/
def splitBatch : List (Action ℕ) :=
  [.createScopedWakelock 0 true 1, .postEvents 0 0 [⟨1, .other 1, 0, 7⟩, ⟨1, .other 1, 0, 8⟩] 2,
    .postEventsToMessageQueue 0 1 true 2, .takePendingWrites]

theorem givenBack_eq_iff_sample :
    let s := (multiHal sampleConstants ℕ).exec sample (initializeRun 1 ++ splitBatch)
    s.hist.batches.headD [] = s.gone ++ s.proxy.pendingWriteEvents ∧
    (s.proxy.givenBack sampleConstants 1 =
        numWakeups sampleConstants s.proxy.mSensors (s.proxy.pendingWriteEvents.take 1) ↔
      1 < s.proxy.pendingWriteEvents.length ∨
        numWakeups sampleConstants s.proxy.mSensors s.gone = 0) :=
  givenBack_eq_iff (GuardedSystem.reach_exec (by decide)) rfl

/-- If the write fails, two references go for the one event that is dropped. -/
theorem gives_back_written_reference :
    ∃ s, (multiHal sampleConstants ℕ).Reach (TrueCounts sampleConstants) sample s ∧
      s.pendingWrites = .writing 1 1 ∧ s.proxy.givenBack sampleConstants 1 = 2 ∧
      numWakeups sampleConstants s.proxy.mSensors (s.proxy.pendingWriteEvents.take 1) = 1 := by
  set s := (multiHal sampleConstants ℕ).exec sample (initializeRun 1 ++ splitBatch) with hs
  exact ⟨s, GuardedSystem.reach_exec (by decide), rfl, by decide, by decide⟩

end RealmeSalaa.MultiHal
