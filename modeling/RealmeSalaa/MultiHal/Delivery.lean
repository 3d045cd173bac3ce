import RealmeSalaa.Lib.LossyFifo
import RealmeSalaa.MultiHal.PendingWrites

/-!
# The event path is a first-in first-out channel

Between two re-initializations the event path refines `LossyFifo`. A post is one `post` of the
channel: what the FMQ takes passes, and it takes something only while the pending queue is empty.
The end of a `writeBlocking` delivers the chunk or gives it up; its removal from the pending queue
is no step of the channel. So there is a window, after `writeBlocking` and before the removal, in
which the pending queue still contains a chunk that is done with: `undelivered` leaves it out.
-/

namespace RealmeSalaa.MultiHal

open HalProxy
open scoped List

variable {P : Type} {K : Constants} {s s₀ : System P} {a : Action P}

/-! ## The channel of a state -/

/-- The pending events, without the chunk that `handlePendingWrites` has done with. -/
def System.undelivered (s : System P) : List (PostedEvent P) :=
  match s.pendingWrites with
  | .wrote numToWrite _ => s.proxy.pendingEvents.drop numToWrite
  | _ => s.proxy.pendingEvents

/-- The event path as a channel. -/
def System.channel (s : System P) : LossyFifo (PostedEvent P) where
  posted := s.hist.posted
  delivered := s.proxy.mEventQueue.written
  waiting := s.undelivered
  failed := s.hist.failed.flatten
  refused := s.hist.refused.flatten

theorem pendingEvents_eq_nil (p : HalProxy P) (h : p.mPendingWriteEventsQueue = []) :
    p.pendingEvents = [] := by
  rw [pendingEvents, h]; rfl

/-- The front entry is the beginning of the pending events. -/
theorem pendingEvents_eq_append (p : HalProxy P) :
    p.pendingEvents =
      p.pendingWriteEvents ++ (p.mPendingWriteEventsQueue.tail.map Prod.fst).flatten := by
  unfold pendingEvents pendingWriteEvents
  cases p.mPendingWriteEventsQueue with
  | nil => rfl
  | cons entry rest => rfl

theorem take_pendingEvents (p : HalProxy P) {n : ℕ} (h : n ≤ p.pendingWriteEvents.length) :
    p.pendingEvents.take n = p.pendingWriteEvents.take n := by
  rw [pendingEvents_eq_append, List.take_append_of_le_length h]

/-- Removing the chunk removes the first events. -/
theorem pendingEvents_finishPendingWrites (p : HalProxy P) {n q : ℕ}
    (h : n = min p.pendingWriteEvents.length q) :
    (p.finishPendingWrites n q).pendingEvents = p.pendingEvents.drop n := by
  subst h
  unfold pendingEvents finishPendingWrites pendingWriteEvents
  cases p.mPendingWriteEventsQueue with
  | nil => rfl
  | cons entry rest =>
    obtain ⟨events, numWakeupEvents⟩ := entry
    dsimp only
    by_cases hlen : events.length > q
    · rw [if_pos hlen, min_eq_right hlen.le, List.map_cons, List.map_cons, List.flatten_cons,
        List.flatten_cons, List.drop_append_of_le_length hlen.le]
    · rw [if_neg hlen, min_eq_left (by omega), List.map_cons, List.flatten_cons, List.drop_left]

/-! ## Each action is at most one step of the channel -/

/-- A direct write happens only while nothing is pending. -/
theorem numToWrite_of_pending (p : HalProxy P) (h : p.mPendingWriteEventsQueue ≠ [])
    (events : List (Event P)) (avail : ℕ) (ok : Bool) : p.numToWrite events avail ok = 0 := by
  unfold numToWrite
  rw [if_neg (by rwa [List.isEmpty_iff])]

theorem undelivered_of_nil (h : s.proxy.mPendingWriteEventsQueue = []) : s.undelivered = [] := by
  unfold System.undelivered
  rw [pendingEvents_eq_nil s.proxy h]
  cases s.pendingWrites <;> simp

/-- Between two chunks all pending events are undelivered. -/
theorem undelivered_of_locked (h : s.pendingWrites = .locked) :
    s.undelivered = s.proxy.pendingEvents := by
  rw [System.undelivered, h]

/-- The chunk lies inside the pending events. -/
theorem ChunkQueued.le_length (hs : ChunkQueued s) {n q : ℕ}
    (h : s.pendingWrites.chunk? = some (n, q)) :
    n ≤ s.proxy.pendingWriteEvents.length ∧ n ≤ s.proxy.pendingEvents.length := by
  obtain ⟨-, hn⟩ := hs n q h
  rw [pendingEvents_eq_append, List.length_append]
  omega

theorem channel_post (hs : ChunkQueued s) (t : ℕ) (events : List (PostedEvent P)) (m : ℕ)
    (wakelock : ScopedWakelock) (avail : ℕ) (ok : Bool) (now : ℤ) :
    let n := s.proxy.numToWrite events avail ok
    (s.post K t events m wakelock avail ok now).channel =
      s.channel.next (.post (events.take n) (s.proxy.queuedPart K events n)
        (s.proxy.refusedPart K events n)) := by
  intro n
  have hwritten : (s.post K t events m wakelock avail ok now).proxy.mEventQueue =
      s.proxy.mEventQueue.write (events.take n) := mEventQueue_postEventsToMessageQueue ..
  have hpending : (s.post K t events m wakelock avail ok now).proxy.pendingEvents =
      s.proxy.pendingEvents ++ s.proxy.queuedPart K events n :=
    pendingEvents_postEventsToMessageQueue ..
  have hwaiting : (s.post K t events m wakelock avail ok now).undelivered =
      s.undelivered ++ s.proxy.queuedPart K events n := by
    unfold System.undelivered
    rw [hpending]
    show (match s.pendingWrites with | .wrote numToWrite _ => _ | _ => _) = _
    cases hw : s.pendingWrites with
    | wrote k q =>
      exact List.drop_append_of_le_length (hs.le_length (by rw [hw]; rfl)).2
    | _ => rfl
  refine LossyFifo.ext ?_ ?_ hwaiting rfl ?_
  · show s.hist.posted ++ events = s.hist.posted ++ (_ ++ _ ++ _)
    rw [take_append_queuedPart_append_refusedPart]
  · show (s.post K t events m wakelock avail ok now).proxy.mEventQueue.written = _
    rw [hwritten]; rfl
  · show (s.hist.refused ++ [s.proxy.refusedPart K events n]).flatten =
      s.hist.refused.flatten ++ s.proxy.refusedPart K events n
    rw [List.flatten_append, List.flatten_singleton]

theorem channel_finish (hs : ChunkQueued s) {n q : ℕ} (hw : s.pendingWrites = .wrote n q) :
    (s.finish n q).channel = s.channel := by
  obtain ⟨-, hn⟩ := hs n q (by rw [hw]; rfl)
  refine LossyFifo.ext rfl rfl ?_ rfl rfl
  show (s.proxy.finishPendingWrites n q).pendingEvents = s.undelivered
  rw [pendingEvents_finishPendingWrites s.proxy hn, System.undelivered, hw]

theorem channel_of_sameEvents {s' : System P} (h : SameEvents s s') : s'.channel = s.channel := by
  refine LossyFifo.ext h.posted ?_ ?_ ?_ ?_
  · show s'.proxy.mEventQueue.written = _
    rw [h.mEventQueue]; rfl
  · show s'.undelivered = s.undelivered
    unfold System.undelivered pendingEvents
    rw [h.pendingWrites, h.mPendingWriteEventsQueue]
  · show s'.hist.failed.flatten = _
    rw [h.failed]; rfl
  · show s'.hist.refused.flatten = _
    rw [h.refused]; rfl

/-- What a post lets pass, it lets pass while nothing is undelivered. -/
theorem undelivered_of_passed {events : List (PostedEvent P)} {avail : ℕ} {ok : Bool}
    (h : events.take (s.proxy.numToWrite events avail ok) ≠ []) : s.undelivered = [] := by
  by_contra hwaiting
  have hne : s.proxy.mPendingWriteEventsQueue ≠ [] :=
    fun hnil => hwaiting (undelivered_of_nil hnil)
  rw [numToWrite_of_pending s.proxy hne] at h
  exact h rfl

/-- Every action but those of the binder thread is a step of the channel, or none. -/
theorem channel_next (hs : ChunkQueued s) (hg : s.guard a) (ha : a.isMain = false) :
    (LossyFifo.system (PostedEvent P)).Reach (fun _ _ => True) s.channel
      (System.next K s a).channel := by
  have hchunk : ∀ {n q}, s.pendingWrites = .writing n q →
      s.proxy.pendingWriteEvents.take n = s.undelivered.take n := by
    intro n q hw
    rw [System.undelivered, hw]
    exact (take_pendingEvents s.proxy (hs.le_length (by rw [hw]; rfl)).1).symm
  rcases eventMove_next K s ha with ⟨hsame, -⟩ | ⟨-, -, hs'⟩ | ⟨rfl, hs'⟩ |
    @⟨n, q, -, hw, hs'⟩ | @⟨n, q, m, w, -, hw, -, hs'⟩ | ⟨-, hw, hs'⟩ | ⟨rfl, hs'⟩
  · rw [channel_of_sameEvents hsame]
    exact .refl
  · rw [hs', channel_post hs]
    exact LossyFifo.reach_next undelivered_of_passed
  · have hchannel : (System.next K s .takePendingWrites).channel = s.channel :=
      LossyFifo.ext rfl rfl (undelivered_of_locked hg.1).symm rfl rfl
    rw [hchannel]
    exact .refl
  · -- the chunk is delivered
    have hchannel : (System.next K s a).channel = s.channel.next (.deliver n) := by
      rw [hs']
      refine LossyFifo.ext rfl (congrArg (s.proxy.mEventQueue.written ++ ·) (hchunk hw)) ?_ rfl rfl
      show s.proxy.pendingEvents.drop n = s.undelivered.drop n
      rw [System.undelivered, hw]
    rw [hchannel]
    exact LossyFifo.reach_next trivial
  · -- the chunk is given up
    have hchannel : (System.next K s a).channel = s.channel.next (.drop n) := by
      rw [hs']
      refine LossyFifo.ext rfl rfl ?_ ?_ rfl
      · show s.proxy.pendingEvents.drop n = s.undelivered.drop n
        rw [System.undelivered, hw]
      · show (s.hist.failed ++ [_]).flatten = s.hist.failed.flatten ++ s.undelivered.take n
        rw [List.flatten_append, List.flatten_singleton, hchunk hw]
    rw [hchannel]
    exact LossyFifo.reach_next trivial
  · rw [hs', channel_finish hs hw]
    exact .refl
  · have hchannel : (System.next K s .exitPendingWrites).channel = s.channel :=
      LossyFifo.ext rfl rfl (undelivered_of_locked hg.1).symm rfl rfl
    rw [hchannel]
    exact .refl

/-! ## The size of the pending queue -/

/-- `mSizePendingWriteEventsQueue` is the number of pending events. -/
def SizeCounts (s : System P) : Prop :=
  s.proxy.mSizePendingWriteEventsQueue = UInt64.ofNat s.proxy.pendingEvents.length

theorem sizeCounts_post (hsize : SizeCounts s) (t : ℕ) (events : List (PostedEvent P)) (m : ℕ)
    (wakelock : ScopedWakelock) (avail : ℕ) (ok : Bool) (now : ℤ) :
    SizeCounts (s.post K t events m wakelock avail ok now) := by
  unfold SizeCounts at hsize ⊢
  show (s.proxy.postEventsToMessageQueue K events m wakelock avail ok
    now).mSizePendingWriteEventsQueue = UInt64.ofNat (s.proxy.postEventsToMessageQueue K events m
      wakelock avail ok now).pendingEvents.length
  rw [pendingEvents_postEventsToMessageQueue, postEventsToMessageQueue_eq]
  unfold queuedPart
  dsimp only
  split
  · rw [hsize, List.length_append, List.length_drop, UInt64.ofNat_add]
  · rw [List.append_nil, hsize]

theorem sizeCounts_finish (hs : ChunkQueued s) (hsize : SizeCounts s) {n q : ℕ}
    (hw : s.pendingWrites = .wrote n q) : SizeCounts (s.finish n q) := by
  obtain ⟨-, hn⟩ := hs n q (by rw [hw]; rfl)
  have hle := (hs.le_length (by rw [hw]; rfl)).2
  show s.proxy.mSizePendingWriteEventsQueue - UInt64.ofNat n =
    UInt64.ofNat (s.proxy.finishPendingWrites n q).pendingEvents.length
  rw [pendingEvents_finishPendingWrites s.proxy hn, List.length_drop, hsize, UInt64.ofNat_sub hle]

theorem sizeCounts_next (hs : ChunkQueued s) (hsize : SizeCounts s) (ha : a.isMain = false) :
    SizeCounts (System.next K s a) := by
  rcases eventMove_next K s ha with ⟨hsame, -⟩ | ⟨-, -, hs'⟩ | ⟨-, hs'⟩ | ⟨-, -, hs'⟩ |
    ⟨-, -, -, hs'⟩ | ⟨-, hw, hs'⟩ | ⟨-, hs'⟩
  · unfold SizeCounts pendingEvents
    rw [hsame.mSizePendingWriteEventsQueue, hsame.mPendingWriteEventsQueue]
    exact hsize
  · rw [hs']; exact sizeCounts_post hsize _ _ _ _ _ _ _
  · rw [hs']; exact hsize
  · rw [hs']; exact hsize
  · rw [hs']; exact hsize
  · rw [hs']; exact sizeCounts_finish hs hsize hw
  · rw [hs']; exact hsize

/-- What does not fit is refused: with it the pending queue would exceed its maximal size. -/
theorem full_of_refusedPart (hsize : SizeCounts s) {events : List (PostedEvent P)} {n : ℕ}
    (h : s.proxy.refusedPart K events n ≠ []) :
    K.kMaxSizePendingWriteEventsQueue.toNat <
      s.proxy.pendingEvents.length + (events.length - n) := by
  unfold refusedPart at h
  by_cases hq : s.proxy.Queues K events n
  · rw [if_pos hq] at h
    exact absurd rfl h
  · rw [if_neg hq] at h
    have hlt : n < events.length := by
      by_contra hle
      exact h (List.drop_eq_nil_of_le (by omega))
    have hfull : ¬ s.proxy.mSizePendingWriteEventsQueue + UInt64.ofNat (events.length - n) ≤
        K.kMaxSizePendingWriteEventsQueue := fun hfits => hq ⟨hlt, hfits⟩
    rw [hsize, ← UInt64.ofNat_add, UInt64.not_le, UInt64.lt_iff_toNat_lt,
      UInt64.toNat_ofNat'] at hfull
    exact hfull.trans_le (Nat.mod_le _ _)

/-! ## Runs without re-initialization -/

/-- The event path is empty and nothing is recorded, as after a first initialization. -/
structure Fresh (s : System P) : Prop where
  written : s.proxy.mEventQueue.written = []
  pending : s.proxy.mPendingWriteEventsQueue = []
  size : s.proxy.mSizePendingWriteEventsQueue = 0
  chunk : s.pendingWrites.chunk? = none
  posted : s.hist.posted = []
  failed : s.hist.failed = []
  refused : s.hist.refused = []

theorem Fresh.chunkQueued (h : Fresh s) : ChunkQueued s := by
  intro n q hchunk
  rw [h.chunk] at hchunk
  cases hchunk

theorem Fresh.sizeCounts (h : Fresh s) : SizeCounts s := by
  unfold SizeCounts
  rw [pendingEvents_eq_nil s.proxy h.pending, h.size]
  rfl

theorem Fresh.channel (h : Fresh s) : s.channel = .empty :=
  LossyFifo.ext h.posted h.written (undelivered_of_nil h.pending)
    (by show s.hist.failed.flatten = []; rw [h.failed]; rfl)
    (by show s.hist.refused.flatten = []; rw [h.refused]; rfl)

/-- The chunk and the size in every run of the sub-HAL threads and the two threads of the proxy. -/
theorem chunk_and_size_of_reach (h₀ : Fresh s₀)
    (h : (multiHal K P).Reach (fun _ a => a.isMain = false) s₀ s) :
    ChunkQueued s ∧ SizeCounts s :=
  invariant_of_reach (I := fun s => ChunkQueued s ∧ SizeCounts s) h
    ⟨h₀.chunkQueued, h₀.sizeCounts⟩
    fun _ _ hs hg ha => ⟨chunkQueued_next hs.1 hg ha, sizeCounts_next hs.1 hs.2 ha⟩

theorem accounted_of_fresh (h₀ : Fresh s₀)
    (h : (multiHal K P).Reach (fun _ a => a.isMain = false) s₀ s) : s.channel.Accounted := by
  have hrun : (LossyFifo.system (PostedEvent P)).Reach (fun _ _ => True) s₀.channel s.channel :=
    h.simulate System.channel (fun _ h => (chunk_and_size_of_reach h₀ h).1)
      fun _ _ hs hg ha => channel_next hs hg ha
  rw [h₀.channel] at hrun
  exact LossyFifo.accounted_of_reach hrun

/-- What the event path guarantees. -/
structure Delivers (K : Constants) (s : System P) : Prop where
  /-- the order of posting is kept -/
  inOrder : s.proxy.mEventQueue.written ++ s.undelivered <+ s.hist.posted
  /-- an event is missing only if its chunk failed or its remainder was refused -/
  perm : s.hist.posted ~ s.proxy.mEventQueue.written ++ s.undelivered ++ s.hist.failed.flatten ++
    s.hist.refused.flatten
  /-- a remainder is refused only by a full queue -/
  full : ∀ events n, s.proxy.refusedPart K events n ≠ [] →
    K.kMaxSizePendingWriteEventsQueue.toNat < s.proxy.pendingEvents.length + (events.length - n)
  /-- what is still to be delivered is what is pending, but for a chunk that was just written -/
  undelivered : (∀ n q, s.pendingWrites ≠ .wrote n q) → s.undelivered = s.proxy.pendingEvents
  chunk : ∀ n q, s.pendingWrites = .wrote n q →
    s.proxy.pendingEvents = s.proxy.pendingWriteEvents.take n ++ s.undelivered
  /-- no direct write happens during a `writeBlocking` -/
  exclusive : ∀ n q, s.pendingWrites = .writing n q →
    ∀ events avail, ¬ s.proxy.CallsWrite events avail

/-- **Event delivery.** Every run without re-initialization delivers in order and once. -/
theorem delivers_of_reach (h₀ : Fresh s₀)
    (h : (multiHal K P).Reach (fun _ a => a.isMain = false) s₀ s) : Delivers K s := by
  obtain ⟨hchunk, hsize⟩ := chunk_and_size_of_reach h₀ h
  have haccounted := accounted_of_fresh h₀ h
  refine ⟨haccounted.inOrder, haccounted.perm, fun _ _ => full_of_refusedPart hsize, ?_, ?_, ?_⟩
  · intro hnot
    unfold System.undelivered
    split
    · next n q hw => exact absurd hw (hnot n q)
    · rfl
  · intro n q hw
    have hle := (hchunk.le_length (by rw [hw]; rfl)).1
    rw [System.undelivered, hw, ← take_pendingEvents s.proxy hle, List.take_append_drop]
  · intro n q hw events avail hcalls
    obtain ⟨hne, -⟩ := hchunk n q (by rw [hw]; rfl)
    exact hne (List.isEmpty_iff.1 hcalls.1)

/-- An event waits for room, and is written by the pending-writes thread. -/
def slowRun : List (Action ℕ) :=
  [.createScopedWakelock 0 true 1, .postEvents 0 0 [⟨1, .other 1, 0, 7⟩] 1,
    .postEventsToMessageQueue 0 0 true 2, .takePendingWrites, .writeBlocking true]

theorem fresh_sampleStarted : Fresh (sampleStarted 4) :=
  ⟨rfl, rfl, rfl, rfl, rfl, rfl, rfl⟩

theorem delivers_of_reach_sample :
    Delivers sampleConstants
      ((multiHal sampleConstants ℕ).exec (sampleStarted 4) (slowRun ++ [.finishPendingWrites])) :=
  delivers_of_reach fresh_sampleStarted (GuardedSystem.reach_exec (by decide))

/-- Between `writeBlocking` and the removal of its chunk, the event is both written and pending. -/
theorem written_and_pending :
    ∃ s, (multiHal sampleConstants ℕ).Reach (fun _ a => a.isMain = false) (sampleStarted 4) s ∧
      s.proxy.mEventQueue.written = s.hist.posted ∧ s.proxy.pendingEvents = s.hist.posted ∧
      ¬ s.proxy.mEventQueue.written ++ s.proxy.pendingEvents <+ s.hist.posted := by
  set s := (multiHal sampleConstants ℕ).exec (sampleStarted 4) slowRun with hs
  refine ⟨s, GuardedSystem.reach_exec (by decide), by decide, by decide, ?_⟩
  decide

end RealmeSalaa.MultiHal
