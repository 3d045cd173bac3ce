import RealmeSalaa.MultiHal.PendingWrites

/-!
# Events across a re-initialization

A round of `initializeCommon` clears the pending queue, installs the new FMQ and then initializes
the sub-HALs. An event belongs to the round in which its sub-HAL had last been initialized when its
`postEvents` passed the check of `areThreadsRunning`; `Rounds` ties these counts together.

The check and the locked body of `postEventsToMessageQueue` are separate steps, and nothing keeps
`initializeCommon` from running in between. The new FMQ and the cleared queue stay free of events
of old rounds exactly as long as no such call gets as far as writing or queueing
(`current_next_iff`).
-/

namespace RealmeSalaa.MultiHal

open HalProxy

variable {P : Type} {K : Constants} {s : System P} {a : Action P}

/-! ## Rounds -/

/-- The pending queue is cleared, and the new FMQ not yet installed. -/
def MainThread.isCleared : MainThread → Bool
  | .clearSizePendingWriteEventsQueue _ => true
  | .clearDynamicSensors _ => true
  | .moveEventQueue _ => true
  | _ => false

/-- The new FMQ is installed, and sub-HAL `i` not yet initialized. -/
def MainThread.awaits (i : ℕ) : MainThread → Bool
  | .deleteEventFlags _ => true
  | .createEventFlags _ => true
  | .storeRunning _ _ => true
  | .startPendingWritesThread _ _ => true
  | .startWakelockThread _ _ => true
  | .initializeSubHal j _ _ => j ≤ i
  | _ => false

/-- Clearing, installing and initializing take turns. -/
structure Rounds (s : System P) : Prop where
  cleared : s.hist.cleared = s.hist.installed + s.main.isCleared.toNat
  initialized : ∀ i < s.proxy.mSubHalList.length,
    s.hist.installed = s.hist.initialized i + (s.main.awaits i).toNat

theorem Rounds.installed_le (hs : Rounds s) : s.hist.installed ≤ s.hist.cleared := by
  rw [hs.cleared]
  exact Nat.le_add_right _ _

theorem rounds_mainNext (hs : Rounds s) (now : ℤ) : Rounds (s.mainNext now) := by
  obtain ⟨hc, hi⟩ := hs
  unfold System.mainNext
  cases hm : s.main with
  | initializeSubHal j args result =>
    simp only [hm] at hc hi
    dsimp only
    by_cases hj : j < s.proxy.mSubHalList.length
    · rw [if_pos hj]
      refine ⟨hc, fun i hlt => ?_⟩
      have hold : s.hist.installed = s.hist.initialized i + (decide (j ≤ i)).toNat := hi i hlt
      show s.hist.installed = Function.update s.hist.initialized j (s.hist.initialized j + 1) i +
        (decide (j + 1 ≤ i)).toNat
      by_cases hij : i = j
      · subst hij
        rw [Function.update_self]
        simpa using hold
      · rw [Function.update_of_ne hij, show decide (j + 1 ≤ i) = decide (j ≤ i) by
          rw [decide_eq_decide]; omega]
        exact hold
    · rw [if_neg hj]
      refine ⟨hc, fun i hlt => ?_⟩
      have hold : s.hist.installed = s.hist.initialized i + (decide (j ≤ i)).toNat := hi i hlt
      rw [decide_eq_false fun hle => hj (hle.trans_lt hlt)] at hold
      exact hold
  | clearPendingWriteEventsQueue args =>
    rw [hm] at hc hi
    exact ⟨congrArg (· + 1) hc, hi⟩
  | moveEventQueue args =>
    rw [hm] at hc hi
    exact ⟨hc, fun i hlt => congrArg (· + 1) (hi i hlt)⟩
  | joinWakelockThread caller =>
    rw [hm] at hc hi
    cases caller <;> exact ⟨hc, hi⟩
  | idle => rw [hm] at hc hi; exact ⟨by rw [hm]; exact hc, by rw [hm]; exact hi⟩
  | returned result => rw [hm] at hc hi; exact ⟨by rw [hm]; exact hc, by rw [hm]; exact hi⟩
  | destroyed => rw [hm] at hc hi; exact ⟨by rw [hm]; exact hc, by rw [hm]; exact hi⟩
  | startWakelockThread args result =>
    rw [hm] at hc hi
    exact ⟨hc, fun i hlt => by simpa [MainThread.awaits] using hi i hlt⟩
  | _ => rw [hm] at hc hi; exact ⟨hc, hi⟩

/-- A binder thread that is free has finished its round. -/
theorem rounds_stop (hs : Rounds s) (hfree : s.main.isFree = true) (caller : Caller) :
    Rounds { s with main := .storeStopped caller } := by
  obtain ⟨hc, hi⟩ := hs
  cases hm : s.main with
  | idle => rw [hm] at hc hi; exact ⟨hc, hi⟩
  | returned result => rw [hm] at hc hi; exact ⟨hc, hi⟩
  | _ => rw [hm] at hfree; cases hfree

theorem rounds_next (hs : Rounds s) (hg : s.guard a) : Rounds (System.next K s a) := by
  cases ha : a.isMain with
  | false =>
    have h := sameRound_next K s ha
    constructor
    · rw [h.cleared, h.installed, h.main]
      exact hs.cleared
    · rw [h.mSubHalList, h.installed, h.initialized, h.main]
      exact hs.initialized
  | true =>
    rcases main_next K s ha with ⟨caller, hnext, hfree⟩ | ⟨now, rfl⟩
    · rw [hnext]; exact rounds_stop hs (hfree hg) caller
    · exact ⟨(rounds_mainNext hs now).cleared, (rounds_mainNext hs now).initialized⟩

/-- In every run: a sub-HAL has been initialized once for each FMQ that was installed, except
that the current round may not have come to it yet. -/
theorem rounds_of_reach {R : System P → Action P → Prop} {subHals : List SubHal} {clock : ℤ}
    (h : (multiHal K P).Reach R (.constructed K P subHals clock) s) : Rounds s :=
  invariant_of_reach h ⟨rfl, fun _ _ => rfl⟩ fun _ _ hs hg _ => rounds_next hs hg

/-! ## Stamps -/

/-- The events of a call in flight carry the round in which it began. -/
def SubHalThread.Stamped : SubHalThread P → Prop
  | .posting events _ _ began => ∀ e ∈ events, e.payload.1.began = began
  | _ => True

theorem subHals_mainNext (s : System P) (now : ℤ) : (s.mainNext now).subHals = s.subHals := by
  unfold System.mainNext
  cases s.main with
  | joinWakelockThread caller => cases caller <;> rfl
  | initializeSubHal i args result => dsimp only; split <;> rfl
  | _ => rfl

theorem stamped_next (hs : ∀ t, (s.subHals t).Stamped) (a : Action P) :
    ∀ t, ((System.next K s a).subHals t).Stamped := by
  have hupdate : ∀ (t : ℕ) (x : SubHalThread P), x.Stamped →
      ∀ t', (Function.update s.subHals t x t').Stamped := fun t x hx =>
    (Function.forall_update_iff s.subHals fun _ thread => thread.Stamped).2 ⟨hx, fun t' _ => hs t'⟩
  cases a with
  | createScopedWakelock t lock now => exact hupdate t _ trivial
  | postEvents t i events n =>
    cases h : s.subHals t with
    | holding wakelock =>
      simp only [System.next, h]
      refine hupdate t _ ?_
      split
      · trivial
      · intro e he
        obtain ⟨event, -, rfl⟩ := List.mem_map.1 he
        rfl
    | _ => simp only [System.next, h]; exact hs
  | postEventsToMessageQueue t avail ok now =>
    cases h : s.subHals t with
    | posting events n wakelock began => rw [System.next_post h]; exact hupdate t _ trivial
    | _ => simp only [System.next, h]; exact hs
  | destroyScopedWakelock t =>
    cases h : (s.subHals t).wakelock? with
    | some wakelock => simp only [System.next, h]; exact hupdate t _ trivial
    | none => simp only [System.next, h]; exact hs
  | mainStep now =>
    show ∀ t, ((s.mainNext now).subHals t).Stamped
    rw [subHals_mainNext]
    exact hs
  | writeBlocking ok =>
    cases h : s.pendingWrites <;> simp only [System.next, h] <;> try exact hs
    unfold System.write
    split <;> exact hs
  | finishPendingWrites => cases h : s.pendingWrites <;> simp only [System.next, h] <;> exact hs
  | checkTimeout now now' =>
    cases h : s.proxy.wakelock.sharedWakelockDidTimeout K.kWakelockTimeoutNs now <;>
      simp only [System.next, h] <;> exact hs
  | readBlocking r => cases r <;> exact hs
  | _ => exact hs

/-! ## No event of an old round -/

/-- The FMQ and the pending queue hold no event of an earlier round. -/
structure Current (s : System P) : Prop where
  written : ∀ e ∈ s.proxy.mEventQueue.written, s.hist.installed ≤ e.payload.1.began
  pending : ∀ e ∈ s.proxy.pendingEvents, s.hist.cleared ≤ e.payload.1.began

/-- The space that a batch finds in the FMQ: none if events are pending or the write fails. -/
def HalProxy.directSpace (p : HalProxy P) (avail : ℕ) (ok : Bool) : ℕ :=
  if p.mPendingWriteEventsQueue.isEmpty ∧ ok = true then avail else 0

/-- A call that finds space in the FMQ began in the round of the FMQ, and one that does not find
enough, where the rest fits the pending queue, in the round in which that was cleared. -/
def Lands (K : Constants) (s : System P) (events : List (PostedEvent P)) (began avail : ℕ)
    (ok : Bool) : Prop :=
  let space := s.proxy.directSpace avail ok
  (0 < space ∧ events ≠ [] → s.hist.installed ≤ began) ∧
    (space < events.length ∧
      s.proxy.mSizePendingWriteEventsQueue + UInt64.ofNat (events.length - space) ≤
        K.kMaxSizePendingWriteEventsQueue → s.hist.cleared ≤ began)

instance (s : System P) (events : List (PostedEvent P)) (began avail : ℕ) (ok : Bool) :
    Decidable (Lands K s events began avail ok) := by
  unfold Lands; infer_instance

/-- No locked body writes or queues events of a call from an earlier round. -/
def NoStragglers (K : Constants) (s : System P) (a : Action P) : Prop :=
  s.OnPost (fun events _ _ began avail ok => Lands K s events began avail ok) a

instance (s : System P) (a : Action P) : Decidable (NoStragglers K s a) := by
  unfold NoStragglers; infer_instance

theorem numToWrite_eq_min (p : HalProxy P) (events : List (Event P)) (avail : ℕ) (ok : Bool) :
    p.numToWrite events avail ok = min events.length (p.directSpace avail ok) := by
  unfold numToWrite HalProxy.directSpace
  by_cases hempty : p.mPendingWriteEventsQueue.isEmpty
  · cases ok with
    | true => simp [hempty]
    | false =>
      simp only [hempty, if_true, Bool.false_eq_true, and_false, if_false]
      split_ifs <;> omega
  · simp [hempty]

/-- A batch is written if it finds space, and queued if the rest of it fits. -/
theorem lands_iff (K : Constants) (s : System P) (events : List (PostedEvent P))
    (began avail : ℕ) (ok : Bool) : Lands K s events began avail ok ↔
      (0 < s.proxy.numToWrite events avail ok → s.hist.installed ≤ began) ∧
      (s.proxy.Queues K events (s.proxy.numToWrite events avail ok) →
        s.hist.cleared ≤ began) := by
  set n := s.proxy.numToWrite events avail ok
  have hn : n = min events.length (s.proxy.directSpace avail ok) := numToWrite_eq_min ..
  have hdirect : 0 < n ↔ 0 < s.proxy.directSpace avail ok ∧ events ≠ [] := by
    rw [hn, lt_min_iff, List.length_pos_iff, and_comm]
  have hleft : n < events.length ↔ s.proxy.directSpace avail ok < events.length := by omega
  have hrest : events.length - n = events.length - s.proxy.directSpace avail ok := by omega
  unfold Lands Queues
  rw [hdirect, hleft, hrest]

/-- A post keeps the queues current exactly if it lands nothing of an earlier round. -/
theorem current_post_iff (hs : Current s) {t : ℕ} {events : List (PostedEvent P)} {m : ℕ}
    {wakelock : ScopedWakelock} {began : ℕ}
    (hstamped : ∀ e ∈ events, e.payload.1.began = began) (avail : ℕ) (ok : Bool) (now : ℤ) :
    Current (s.post K t events m wakelock avail ok now) ↔
      Lands K s events began avail ok := by
  rw [lands_iff]
  set n := s.proxy.numToWrite events avail ok with hn
  have hwritten : (s.post K t events m wakelock avail ok now).proxy.mEventQueue.written =
      s.proxy.mEventQueue.written ++ events.take n := by
    show (s.proxy.postEventsToMessageQueue K events m wakelock avail ok
      now).mEventQueue.written = _
    rw [mEventQueue_postEventsToMessageQueue]; rfl
  have hpending : (s.post K t events m wakelock avail ok now).proxy.pendingEvents =
      s.proxy.pendingEvents ++ s.proxy.queuedPart K events n :=
    pendingEvents_postEventsToMessageQueue ..
  have hle : n ≤ events.length := by
    rw [hn]; unfold numToWrite; dsimp only; split_ifs <;> omega
  constructor
  · intro hcur
    constructor
    · intro hpos
      obtain ⟨e, he⟩ := List.exists_mem_of_length_pos
        (show 0 < (events.take n).length by rw [List.length_take]; omega)
      rw [← hstamped e (List.mem_of_mem_take he)]
      exact hcur.written e (by rw [hwritten]; exact List.mem_append_right _ he)
    · intro hq
      obtain ⟨e, he⟩ := List.exists_mem_of_length_pos
        (show 0 < (events.drop n).length by rw [List.length_drop]; exact Nat.sub_pos_of_lt hq.1)
      rw [← hstamped e (List.mem_of_mem_drop he)]
      refine hcur.pending e ?_
      rw [hpending, queuedPart, if_pos hq]
      exact List.mem_append_right _ he
  · rintro ⟨hdirect, hqueued⟩
    constructor
    · intro e he
      rw [hwritten] at he
      show s.hist.installed ≤ _
      rcases List.mem_append.1 he with he | he
      · exact hs.written e he
      · rw [hstamped e (List.mem_of_mem_take he)]
        exact hdirect (Nat.pos_of_ne_zero fun h0 => by rw [h0] at he; cases he)
    · intro e he
      rw [hpending] at he
      show s.hist.cleared ≤ _
      rcases List.mem_append.1 he with he | he
      · exact hs.pending e he
      · unfold queuedPart at he
        split at he
        · next hq => rw [hstamped e (List.mem_of_mem_drop he)]; exact hqueued hq
        · cases he

/-- The phases of `handlePendingWrites` only move pending events, or remove them. -/
theorem mem_pendingEvents_of_finish (p : HalProxy P) (n q : ℕ) {e : Event P}
    (h : e ∈ (p.finishPendingWrites n q).pendingEvents) : e ∈ p.pendingEvents := by
  unfold pendingEvents finishPendingWrites at *
  cases hp : p.mPendingWriteEventsQueue with
  | nil => rw [hp] at h; exact h
  | cons entry rest =>
    rw [hp] at h
    dsimp only at h
    split at h
    · rw [List.map_cons, List.flatten_cons, List.mem_append] at h ⊢
      exact h.imp_left List.mem_of_mem_drop
    · rw [List.map_cons, List.flatten_cons]
      exact List.mem_append_right _ h

theorem mem_pendingEvents_of_pendingWriteEvents (p : HalProxy P) {e : Event P}
    (h : e ∈ p.pendingWriteEvents) : e ∈ p.pendingEvents := by
  unfold pendingEvents pendingWriteEvents at *
  cases hp : p.mPendingWriteEventsQueue with
  | nil => rw [hp] at h; exact h
  | cons entry rest => rw [hp] at h; exact List.mem_append_left _ h

/-- The statements of the binder thread that move the event path to a new round. -/
theorem round_mainNext (s : System P) (now : ℤ) :
    ((s.mainNext now).proxy.mEventQueue = s.proxy.mEventQueue ∧
        (s.mainNext now).hist.installed = s.hist.installed ∨
      (s.mainNext now).proxy.mEventQueue.written = []) ∧
    ((s.mainNext now).proxy.mPendingWriteEventsQueue = s.proxy.mPendingWriteEventsQueue ∧
        (s.mainNext now).hist.cleared = s.hist.cleared ∨
      (s.mainNext now).proxy.mPendingWriteEventsQueue = []) := by
  unfold System.mainNext
  cases s.main with
  | clearPendingWriteEventsQueue args => exact ⟨.inl ⟨rfl, rfl⟩, .inr rfl⟩
  | moveEventQueue args => exact ⟨.inr rfl, .inl ⟨rfl, rfl⟩⟩
  | joinWakelockThread caller => cases caller <;> exact ⟨.inl ⟨rfl, rfl⟩, .inl ⟨rfl, rfl⟩⟩
  | initializeSubHal i args result =>
    dsimp only
    split <;> exact ⟨.inl ⟨rfl, rfl⟩, .inl ⟨rfl, rfl⟩⟩
  | _ => exact ⟨.inl ⟨rfl, rfl⟩, .inl ⟨rfl, rfl⟩⟩

theorem current_mainNext (hs : Current s) (now : ℤ) : Current (s.mainNext now) := by
  obtain ⟨hqueue, hpending⟩ := round_mainNext s now
  constructor
  · rcases hqueue with ⟨hq, hi⟩ | hq
    · rw [hq, hi]; exact hs.written
    · rw [hq]; exact fun _ h => absurd h List.not_mem_nil
  · unfold pendingEvents
    rcases hpending with ⟨hp, hc⟩ | hp
    · rw [hp, hc]; exact hs.pending
    · rw [hp]; exact fun _ h => absurd h List.not_mem_nil

/-- From a current state exactly the stragglers lead to one that is not. -/
theorem current_next_iff (K : Constants) (hr : Rounds s) (hstamped : ∀ t, (s.subHals t).Stamped)
    (hs : Current s) (a : Action P) : Current (System.next K s a) ↔ NoStragglers K s a := by
  cases hmain : a.isMain with
  | true =>
    refine iff_of_true ?_ (System.onPost_of_isMain hmain)
    rcases main_next K s hmain with ⟨caller, hnext, -⟩ | ⟨now, rfl⟩
    · rw [hnext]; exact ⟨hs.written, hs.pending⟩
    · exact ⟨(current_mainNext hs now).written, (current_mainNext hs now).pending⟩
  | false =>
    rcases eventMove_next K s hmain with ⟨hsame, hnone⟩ | @⟨t, events, m, wl, began, avail, ok, now,
      rfl, hpost, hs'⟩ | ⟨rfl, hs'⟩ | @⟨n, q, rfl, hw, hs'⟩ | ⟨rfl, -, -, hs'⟩ | ⟨rfl, -, hs'⟩ |
      ⟨rfl, hs'⟩
    · refine iff_of_true ⟨?_, ?_⟩ (hnone _)
      · rw [hsame.mEventQueue, (sameRound_next K s hmain).installed]
        exact hs.written
      · unfold pendingEvents
        rw [hsame.mPendingWriteEventsQueue, (sameRound_next K s hmain).cleared]
        exact hs.pending
    · have hthread := hstamped t
      rw [hpost] at hthread
      unfold NoStragglers
      rw [hs', System.onPost_posting hpost]
      exact current_post_iff hs hthread avail ok now
    · rw [hs']
      exact iff_of_true ⟨hs.written, hs.pending⟩ trivial
    · -- a chunk written is of the round of the cleared queue
      rw [hs']
      refine iff_of_true ⟨fun e he => ?_, hs.pending⟩ trivial
      rcases List.mem_append.1 he with he | he
      · exact hs.written e he
      · have hp := mem_pendingEvents_of_pendingWriteEvents s.proxy (List.mem_of_mem_take he)
        exact hr.installed_le.trans (hs.pending e hp)
    · rw [hs']
      exact iff_of_true ⟨hs.written, hs.pending⟩ trivial
    · rw [hs']
      refine iff_of_true ⟨hs.written, fun e he => ?_⟩ trivial
      exact hs.pending e (mem_pendingEvents_of_finish s.proxy _ _ he)
    · rw [hs']
      exact iff_of_true ⟨hs.written, hs.pending⟩ trivial

/-- What the runs without stragglers keep. -/
structure CurrentRounds (s : System P) : Prop extends Rounds s, Current s where
  stamped : ∀ t, (s.subHals t).Stamped

theorem currentRounds_constructed (K : Constants) (P : Type) (subHals : List SubHal) (clock : ℤ) :
    CurrentRounds (System.constructed K P subHals clock) where
  cleared := rfl
  initialized _ _ := rfl
  written _ _ := Nat.zero_le _
  pending _ _ := Nat.zero_le _
  stamped _ := trivial

/-- **Re-initialization.** In every run without stragglers, every event in the installed FMQ and
in the pending queue is of a call that began after its sub-HAL was initialized in the round of
that FMQ; from such a state a step puts an event of an earlier round into the FMQ or the cleared
queue exactly if it is a straggler. -/
theorem current_of_reach {subHals : List SubHal} {clock : ℤ}
    (h : (multiHal K P).Reach (NoStragglers K) (.constructed K P subHals clock) s) :
    (∀ e ∈ s.proxy.mEventQueue.written ++ s.proxy.pendingEvents,
      s.hist.installed ≤ e.payload.1.began) ∧
    ∀ a, Current (System.next K s a) ↔ NoStragglers K s a := by
  have hs : CurrentRounds s := by
    refine invariant_of_reach h (currentRounds_constructed K P subHals clock) fun s a hs hg ha => ?_
    have hcur := (current_next_iff K hs.toRounds hs.stamped hs.toCurrent a).2 ha
    exact { rounds_next hs.toRounds hg, hcur with stamped := stamped_next hs.stamped a }
  refine ⟨fun e he => ?_, current_next_iff K hs.toRounds hs.stamped hs.toCurrent⟩
  rcases List.mem_append.1 he with he | he
  · exact hs.written e he
  · exact hs.toRounds.installed_le.trans (hs.pending e he)

/-- A call of `postEvents` passes its check. -/
def beginPost : List (Action ℕ) :=
  [.createScopedWakelock 0 false 2, .postEvents 0 0 [⟨2, .LIGHT, 0, 7⟩] 0]

theorem current_of_reach_sample :
    let s := (multiHal sampleConstants ℕ).exec sample
      (initializeRun 4 ++ reinitializeRun ++ beginPost ++ [.postEventsToMessageQueue 0 1 true 2])
    (∀ e ∈ s.proxy.mEventQueue.written ++ s.proxy.pendingEvents,
      s.hist.installed ≤ e.payload.1.began) ∧
    ∀ a, Current (System.next sampleConstants s a) ↔ NoStragglers sampleConstants s a :=
  current_of_reach (GuardedSystem.reach_exec (by decide))

/-- A call passes its check, a re-initialization runs, and the event is written to the new FMQ. -/
theorem straggler_written :
    ∃ s, (multiHal sampleConstants ℕ).Reach (fun _ _ => True) sample s ∧
      s.main = .returned .OK ∧ s.hist.initialized 0 = 2 ∧ s.hist.installed = 2 ∧
      ∃ e ∈ s.proxy.mEventQueue.written,
        e.payload.1 = ⟨0, 1⟩ ∧ ¬ s.hist.installed ≤ e.payload.1.began := by
  set s := (multiHal sampleConstants ℕ).exec sample
    (initializeRun 4 ++ beginPost ++ reinitializeRun ++ [.postEventsToMessageQueue 0 1 true 2])
    with hs
  exact ⟨s, GuardedSystem.reach_exec (by decide), rfl, by decide, by decide,
    by decide⟩

end RealmeSalaa.MultiHal
