import RealmeSalaa.MultiHal.System

/-!
# Event flags

`initializeCommon` notes that `createEventFlag` failed in its result, and then starts the threads
and the sub-HALs like after a success. `stopThreads` checks the flags before it uses them,
`postEventsToMessageQueue` does not: it wakes the framework through `mEventQueueFlag` after every
direct write.

The record of a run is what the latest `createEventFlag` for the event queue answered. The flag is
that answer, except between `deleteEventFlag` and `createEventFlag` of a later round, when a call
that passed `areThreadsRunning` before can still write (`flagUses_iff`).

The write of a post and its `wake` are one step. `deleteEventFlag` takes no mutex and could come
between them; where the posts follow the initializations, it does not.
-/

namespace RealmeSalaa.MultiHal

open HalProxy

variable {P : Type} {K : Constants}

/-! ## Uses of the flags -/

/-- Whether each of the flags that an action dereferences is not null. -/
def System.flagUses (s : System P) : Action P → List Bool
  | .postEventsToMessageQueue t availableToWrite writeOk _ =>
    match s.subHals t with
    | .posting events _ _ _ =>
      if s.proxy.numToWrite events availableToWrite writeOk > 0 then [s.proxy.mEventQueueFlag]
      else []
    | _ => []
  | .mainStep _ =>
    match s.main with
    -- the flags are checked, and then used
    | .wakeThreads _ =>
      (if s.proxy.mEventQueueFlag then [s.proxy.mEventQueueFlag] else []) ++
        if s.proxy.mWakelockQueueFlag then [s.proxy.mWakelockQueueFlag] else []
    | _ => []
  | _ => []

/-- After `deleteEventFlag` and before `createEventFlag`. -/
def MainThread.isRecreating : MainThread → Bool
  | .createEventFlags _ => true
  | _ => false

/-- What `createEventFlag` for the event queue answered last. -/
def noteCreated (latest : Option Bool) (s : System P) : Action P → Option Bool
  | .mainStep _ =>
    match s.main with
    | .createEventFlags args => some args.eventFlagOk
    | _ => latest
  | _ => latest

/-- A record of the latest answer, and of all uses of the flags so far. -/
structure FlagRecord where
  created : Option Bool
  uses : List Bool

/-- The multi-HAL with the record of its flags. -/
def flagRuns (K : Constants) (P : Type) : GuardedSystem (System P × FlagRecord) (Action P) :=
  (multiHal K P).record fun r s a => ⟨noteCreated r.created s a, r.uses ++ s.flagUses a⟩

instance (s : System P × FlagRecord) (a : Action P) : Decidable ((flagRuns K P).guard s a) :=
  inferInstanceAs (Decidable ((multiHal K P).guard s.1 a))

/-- No direct write after a failed `createEventFlag`, or while the flags are recreated. -/
def WritesWithFlag (s : System P × FlagRecord) (a : Action P) : Prop :=
  s.1.OnPost (fun events _ _ _ avail ok =>
    s.1.proxy.numToWrite events avail ok > 0 →
      s.2.created ≠ some false ∧ s.1.main.isRecreating = false) a

instance (s : System P × FlagRecord) (a : Action P) : Decidable (WritesWithFlag s a) := by
  unfold WritesWithFlag; infer_instance

/-! ## The flag is the latest answer -/

/-- What the record says about the flag, and about the threads that were let through. -/
structure FlagKnown (s : System P) (latest : Option Bool) : Prop where
  flag : ∀ ok, latest = some ok → s.main.isRecreating = false → s.proxy.mEventQueueFlag = ok
  deleted : s.main.isRecreating = true → s.proxy.mEventQueueFlag = false
  created : s.proxy.mThreadsRun = true → latest ≠ none
  starting : ∀ args result, s.main = .storeRunning args result → latest ≠ none
  posting : ∀ t, (s.subHals t).isPosting = true → latest ≠ none

theorem flagKnown_constructed (K : Constants) (P : Type) (subHals : List SubHal) (clock : ℤ) :
    FlagKnown (System.constructed K P subHals clock) none := by
  obtain ⟨owner, m, hframe⟩ := construct_frame (P := Origin × P) K subHals
  have hproxy : (System.constructed K P subHals clock).proxy =
      { initial subHals with mDirectChannelSubHal := owner, mSensors := m } := hframe
  refine ⟨?_, ?_, ?_, ?_, ?_⟩
  · intro ok h
    cases h
  · intro h
    cases h
  · intro hrun
    rw [hproxy] at hrun
    cases hrun
  · intro args result h
    cases h
  · intro t h
    cases h

theorem noteCreated_of_not_main {a : Action P} (ha : a.isMain = false) (latest : Option Bool)
    (s : System P) : noteCreated latest s a = latest := by
  cases a with
  | mainStep now => cases ha
  | _ => rfl

theorem noteCreated_of_free {s : System P} (h : s.main.isFree = true) (latest : Option Bool)
    (a : Action P) : noteCreated latest s a = latest := by
  cases a with
  | mainStep now =>
    cases hm : s.main with
    | createEventFlags args => rw [hm] at h; cases h
    | _ => simp only [noteCreated, hm]
  | _ => rfl

/-- A thread is let through only while the threads run. -/
theorem isPosting_next {s : System P} {a : Action P} (ha : a.isMain = false) {t : ℕ}
    (h : ((System.next K s a).subHals t).isPosting = true) :
    (s.subHals t).isPosting = true ∨ s.proxy.mThreadsRun = true := by
  have hupdate : ∀ (t' : ℕ) (x : SubHalThread P),
      (x.isPosting = true → s.proxy.mThreadsRun = true) →
      (Function.update s.subHals t' x t).isPosting = true →
      (s.subHals t).isPosting = true ∨ s.proxy.mThreadsRun = true := by
    intro t' x hx hposting
    by_cases ht : t = t'
    · rw [ht, Function.update_self] at hposting
      exact .inr (hx hposting)
    · rw [Function.update_of_ne ht] at hposting
      exact .inl hposting
  cases a with
  | createScopedWakelock t' lock now => exact hupdate t' _ (fun hx => by cases hx) h
  | postEvents t' i events n =>
    cases hthread : s.subHals t' with
    | holding wakelock =>
      simp only [System.next, hthread] at h
      refine hupdate t' _ (fun hx => ?_) h
      split at hx
      · cases hx
      · next hrun => exact (by simpa using hrun : ¬events = [] ∧ s.proxy.mThreadsRun = true).2
    | _ => simp only [System.next, hthread] at h; exact .inl h
  | postEventsToMessageQueue t' avail ok now =>
    cases hthread : s.subHals t' with
    | posting events n wakelock began =>
      rw [System.next_post hthread] at h
      exact hupdate t' _ (fun hx => by cases hx) h
    | _ => simp only [System.next, hthread] at h; exact .inl h
  | destroyScopedWakelock t' =>
    cases hwl : (s.subHals t').wakelock? with
    | some wakelock =>
      simp only [System.next, hwl] at h
      exact hupdate t' _ (fun hx => by cases hx) h
    | none => simp only [System.next, hwl] at h; exact .inl h
  | writeBlocking ok =>
    cases hw : s.pendingWrites with
    | writing n q => simp only [System.next, hw, System.write] at h; split at h <;> exact .inl h
    | _ => simp only [System.next, hw] at h; exact .inl h
  | finishPendingWrites =>
    cases hw : s.pendingWrites <;> simp only [System.next, hw] at h <;> exact .inl h
  | checkTimeout now now' =>
    cases htime : s.proxy.wakelock.sharedWakelockDidTimeout K.kWakelockTimeoutNs now <;>
      simp only [System.next, htime] at h <;> exact .inl h
  | readBlocking r => cases r <;> exact .inl h
  | initializeCommon args => cases ha
  | destroy => cases ha
  | mainStep now => cases ha
  | _ => exact .inl h

theorem flagKnown_mainNext {s : System P} {latest : Option Bool} (hs : FlagKnown s latest)
    (now : ℤ) : FlagKnown (s.mainNext now) (noteCreated latest s (.mainStep now)) := by
  obtain ⟨hflag, hdeleted, hcreated, hstarting, hposting⟩ := hs
  unfold System.mainNext noteCreated
  cases hm : s.main with
  | storeStopped caller =>
    rw [hm] at hflag hdeleted
    exact ⟨hflag, hdeleted, fun h => (by cases h), fun _ _ h => (by cases h), hposting⟩
  | createEventFlags args =>
    refine ⟨fun ok hok _ => ?_, fun h => (by cases h), fun _ h => (by cases h),
      fun _ _ _ h => (by cases h), fun _ _ h => (by cases h)⟩
    simpa using hok
  | deleteEventFlags args =>
    exact ⟨fun _ _ h => (by cases h), fun _ => rfl, hcreated, fun _ _ h => (by cases h), hposting⟩
  | storeRunning args result =>
    rw [hm] at hflag hdeleted
    exact ⟨hflag, hdeleted, fun _ => hstarting args result hm, fun _ _ h => (by cases h), hposting⟩
  | joinWakelockThread caller =>
    rw [hm] at hflag hdeleted
    cases caller <;> exact ⟨hflag, hdeleted, hcreated, fun _ _ h => (by cases h), hposting⟩
  | initializeSubHal i args result =>
    rw [hm] at hflag hdeleted
    dsimp only
    split <;> exact ⟨hflag, hdeleted, hcreated, fun _ _ h => (by cases h), hposting⟩
  | idle => exact ⟨hflag, hdeleted, hcreated, hstarting, hposting⟩
  | returned result => exact ⟨hflag, hdeleted, hcreated, hstarting, hposting⟩
  | destroyed => exact ⟨hflag, hdeleted, hcreated, hstarting, hposting⟩
  | _ =>
    rw [hm] at hflag hdeleted
    exact ⟨hflag, hdeleted, hcreated, fun _ _ h => (by cases h), hposting⟩

theorem flagKnown_next {s : System P} {latest : Option Bool} (hs : FlagKnown s latest)
    {a : Action P} (hg : s.guard a) :
    FlagKnown (System.next K s a) (noteCreated latest s a) := by
  cases ha : a.isMain with
  | true =>
    rcases main_next K s ha with ⟨caller, hnext, hfree⟩ | ⟨now, rfl⟩
    · have hfree := hfree hg
      have hnot : s.main.isRecreating = false := by
        cases hm : s.main with
        | createEventFlags args => rw [hm] at hfree; cases hfree
        | _ => rfl
      rw [hnext, noteCreated_of_free hfree]
      exact ⟨fun ok hok _ => hs.flag ok hok hnot, fun h => (by cases h), hs.created,
        fun _ _ h => (by cases h), hs.posting⟩
    · have h := flagKnown_mainNext hs now
      exact ⟨h.flag, h.deleted, h.created, h.starting, h.posting⟩
  | false =>
    have hround := sameRound_next K s ha
    have hsetup := sameSetup_next K s ha
    rw [noteCreated_of_not_main ha]
    refine ⟨?_, ?_, ?_, ?_, fun t ht => ?_⟩
    · rw [hround.main, hsetup.mEventQueueFlag]
      exact hs.flag
    · rw [hround.main, hsetup.mEventQueueFlag]
      exact hs.deleted
    · rw [hround.mThreadsRun]
      exact hs.created
    · rw [hround.main]
      exact hs.starting
    · rcases isPosting_next ha ht with hold | hrun
      · exact hs.posting t hold
      · exact hs.created hrun

/-! ## Null flags -/

/-- A step uses no null flag, exactly if it makes no direct write without one. -/
theorem flagUses_iff {s : System P × FlagRecord} (hs : FlagKnown s.1 s.2.created) (a : Action P) :
    (∀ u ∈ s.1.flagUses a, u = true) ↔ WritesWithFlag s a := by
  unfold WritesWithFlag
  cases a with
  | postEventsToMessageQueue t avail ok now =>
    cases hpost : s.1.subHals t with
    | posting events n wakelock began =>
      rw [System.onPost_posting hpost]
      simp only [System.flagUses, hpost]
      have hknown : s.2.created ≠ none := hs.posting t (by rw [hpost]; rfl)
      have hflag : s.1.proxy.mEventQueueFlag = true ↔
          s.2.created ≠ some false ∧ s.1.main.isRecreating = false := by
        cases hrec : s.1.main.isRecreating with
        | true => simp [hs.deleted hrec]
        | false =>
          obtain ⟨answer, hanswer⟩ := Option.ne_none_iff_exists'.1 hknown
          rw [hs.flag answer hanswer hrec, hanswer]
          cases answer <;> simp
      by_cases hn : s.1.proxy.numToWrite events avail ok > 0
      · rw [if_pos hn, List.forall_mem_singleton, hflag]
        exact ⟨fun h _ => h, fun h => h hn⟩
      · rw [if_neg hn]
        exact iff_of_true (fun u hu => absurd hu List.not_mem_nil) fun h => absurd h hn
    | _ => simp [System.flagUses, System.OnPost, hpost]
  | mainStep now =>
    refine iff_of_true (fun u hu => ?_) trivial
    unfold System.flagUses at hu
    dsimp only at hu
    split at hu
    · rcases List.mem_append.1 hu with hu | hu
      · split at hu
        · next h => rw [List.mem_singleton.1 hu, h]
        · cases hu
      · split at hu
        · next h => rw [List.mem_singleton.1 hu, h]
        · cases hu
    · cases hu
  | _ => exact iff_of_true (fun u hu => absurd hu List.not_mem_nil) trivial

/-- **Null flags.** In every run, with the write and the `wake` of a post as one step, without a
direct write after a failed `createEventFlag` or while the flags are recreated, no flag was null
when it was used; and in such a run the next step keeps this exactly if it is no such write. -/
theorem flags_of_reach {subHals : List SubHal} {clock : ℤ} {s : System P × FlagRecord}
    (h : (flagRuns K P).Reach WritesWithFlag (.constructed K P subHals clock, ⟨none, []⟩) s) :
    (∀ u ∈ s.2.uses, u = true) ∧
    ∀ a, (∀ u ∈ ((flagRuns K P).next s a).2.uses, u = true) ↔ WritesWithFlag s a := by
  have hs : FlagKnown s.1 s.2.created ∧ ∀ u ∈ s.2.uses, u = true := by
    refine h.invariant (I := fun s => FlagKnown s.1 s.2.created ∧ ∀ u ∈ s.2.uses, u = true)
      ⟨flagKnown_constructed K P subHals clock, fun u hu => absurd hu List.not_mem_nil⟩ ?_
    rintro s a ⟨hknown, huses⟩ hg ha
    refine ⟨flagKnown_next hknown hg, ?_⟩
    intro u hu
    exact (List.mem_append.1 hu).elim (huses u) ((flagUses_iff hknown a).2 ha u)
  refine ⟨hs.2, fun a => (flagUses_iff hs.1 a).symm.trans ?_ |>.symm⟩
  constructor
  · intro hnew u hu
    exact (List.mem_append.1 hu).elim (hs.2 u) (hnew u)
  · intro hall u hu
    exact hall u (List.mem_append_right _ hu)

/-- `initializeCommon` with a given answer of `createEventFlag` for the event queue, and one post
with free space in the FMQ. -/
def flagRun (eventFlagOk : Bool) : List (Action ℕ) :=
  .initializeCommon ⟨4, true, eventFlagOk, true, fun _ => .OK⟩ ::
    List.replicate 18 (.mainStep 0) ++
    [.createScopedWakelock 0 false 1, .postEvents 0 0 [⟨2, .LIGHT, 0, 7⟩] 0,
      .postEventsToMessageQueue 0 1 true 1]

theorem flags_of_reach_sample :
    let s := (flagRuns sampleConstants ℕ).exec (sample, ⟨none, []⟩) (flagRun true)
    (∀ u ∈ s.2.uses, u = true) ∧
    ∀ a, (∀ u ∈ ((flagRuns sampleConstants ℕ).next s a).2.uses, u = true) ↔ WritesWithFlag s a :=
  flags_of_reach (GuardedSystem.reach_exec (by decide))

/-- After a failed `createEventFlag` the first direct write uses the null flag. -/
theorem null_flag_used :
    ∃ s, (flagRuns sampleConstants ℕ).Reach (fun _ _ => True) (sample, ⟨none, []⟩) s ∧
      s.1.main = .returned .BAD_VALUE ∧ ¬ ∀ u ∈ s.2.uses, u = true := by
  set s := (flagRuns sampleConstants ℕ).exec (sample, ⟨none, []⟩) (flagRun false) with hs
  exact ⟨s, GuardedSystem.reach_exec (by decide), rfl, by decide⟩

end RealmeSalaa.MultiHal
