import Mathlib
import RealmeSalaa.Lib.GuardedSystem

/-!
# The pick-up sensor

One time stamp keeps the enabling, the actions and the events of other values apart from what follows
them. It is always the latest of these (`Stamped`), so whatever acts comes at least the interval after
each (`spaced_of_reach`). It also makes an event of another value hold up the event that should act:
`onSensorChanged` sets it before it compares the value. An event acts as it should if and only if no
such event comes in between (`pickups_of_reach`).
-/

namespace RealmeSalaa.Doze

variable {V : Type} [BEq V]

def MIN_PULSE_INTERVAL_MS : ℤ := 2500

/-- A sensor event with what is read while it is handled: the clock, twice, and a setting. -/
structure SensorEvent (V : Type) where
  value : V
  now : ℤ
  now' : ℤ
  isPickUpSetToWake : Bool

inductive Outcome
  | tooSoon
  | ignored
  | wakeUp
  | dozePulse
  deriving DecidableEq

def Outcome.isAction : Outcome → Bool
  | .wakeUp | .dozePulse => true
  | .tooSoon | .ignored => false

/-- The time stamp afterwards, and what comes of the event. -/
def onSensorChanged (sensorValue : V) (event : SensorEvent V) (entryTimestamp : ℤ) : ℤ × Outcome :=
  let delta := event.now - entryTimestamp
  if delta < MIN_PULSE_INTERVAL_MS then (entryTimestamp, .tooSoon)
  else
    -- the time stamp is set for every value
    (event.now', if event.value == sensorValue then
        if event.isPickUpSetToWake then .wakeUp else .dozePulse
      else .ignored)

/-! ## Runs -/

/-- What a run records: the time of an enabling, or an event with its two times, whether it has the
value of the sensor, and what came of it. -/
inductive Entry
  | enabled (now : ℤ)
  | event (now now' : ℤ) (hit : Bool) (outcome : Outcome)

structure State where
  entryTimestamp : ℤ
  enabled : Bool
  clock : ℤ
  /-- the latest entry first -/
  trace : List Entry

inductive Action (V : Type)
  | enable (now : ℤ)
  | event (event : SensorEvent V)

/-- The task of `enable`, and the events after a first one has registered the listener. -/
def pickupSensor (sensorValue : V) : GuardedSystem State (Action V) where
  guard s
    | .enable now => s.clock ≤ now
    | .event event => s.enabled = true ∧ s.clock ≤ event.now ∧ event.now ≤ event.now'
  next s
    | .enable now => ⟨now, true, now, .enabled now :: s.trace⟩
    | .event event =>
      let (entryTimestamp, outcome) := onSensorChanged sensorValue event s.entryTimestamp
      ⟨entryTimestamp, s.enabled, event.now',
        .event event.now event.now' (event.value == sensorValue) outcome :: s.trace⟩

instance (sensorValue : V) (s : State) (a : Action V) :
    Decidable ((pickupSensor sensorValue).guard s a) := by
  cases a <;> unfold pickupSensor <;> dsimp only <;> infer_instance

def State.boot (clock : ℤ) : State := ⟨0, false, clock, []⟩

/-! ## What a run shows -/

namespace Entry

def enabledAt : Entry → Option ℤ
  | enabled now => some now
  | event .. => none

def actedAt : Entry → Option ℤ
  | enabled _ => none
  | event _ now' _ outcome => if outcome.isAction then some now' else none

/-- An event of another value that passed the test of the interval. -/
def ignoredAt : Entry → Option ℤ
  | enabled _ => none
  | event _ now' _ outcome => if outcome = .ignored then some now' else none

/-- The entry sets the time stamp. -/
def stamp : Entry → Option ℤ
  | enabled now => some now
  | event _ now' _ outcome => if outcome = .tooSoon then none else some now'

end Entry

/-- `now` is at least the interval after the latest entry of a kind, if there is one. -/
def After (kind : Entry → Option ℤ) (past : List Entry) (now : ℤ) : Prop :=
  ∀ t ∈ past.findSome? kind, t + MIN_PULSE_INTERVAL_MS ≤ now

/-- Every action is at least the interval after each enabling and action before it. -/
def Spaced (trace : List Entry) : Prop :=
  trace.Pairwise fun later earlier => ∀ now ∈ later.actedAt, ∀ t,
    earlier.enabledAt = some t ∨ earlier.actedAt = some t → t + MIN_PULSE_INTERVAL_MS ≤ now

/-- An event of the sensor's value acts if it arrives at least the interval after the last enabling
and the last action. -/
def Answered (past : List Entry) : Entry → Prop
  | .enabled _ => True
  | .event now _ hit outcome =>
    hit = true → After Entry.enabledAt past now → After Entry.actedAt past now →
      outcome.isAction = true

def AllAnswered : List Entry → Prop
  | [] => True
  | entry :: past => Answered past entry ∧ AllAnswered past

/-- What is promised of a run. -/
def Good (trace : List Entry) : Prop := Spaced trace ∧ AllAnswered trace

/-- An event that should act does not arrive within the interval after one of another value. -/
def Meets (sensorValue : V) (s : State) : Action V → Prop
  | .enable _ => True
  | .event event => (event.value == sensorValue) = true →
      After Entry.enabledAt s.trace event.now → After Entry.actedAt s.trace event.now →
      After Entry.ignoredAt s.trace event.now

instance (kind : Entry → Option ℤ) (past : List Entry) (now : ℤ) : Decidable (After kind past now) := by
  unfold After; infer_instance

instance (sensorValue : V) (s : State) (a : Action V) : Decidable (Meets sensorValue s a) := by
  cases a <;> unfold Meets <;> infer_instance

/-! ## The time stamp -/

theorem stamp_eq_some_iff (entry : Entry) (t : ℤ) : entry.stamp = some t ↔
    entry.enabledAt = some t ∨ entry.actedAt = some t ∨ entry.ignoredAt = some t := by
  cases entry with
  | enabled now => simp [Entry.stamp, Entry.enabledAt, Entry.actedAt, Entry.ignoredAt]
  | event now now' hit outcome =>
    cases outcome <;>
      simp [Entry.stamp, Entry.enabledAt, Entry.actedAt, Entry.ignoredAt, Outcome.isAction]

theorem kinds_of_stamp_none {entry : Entry} (h : entry.stamp = none) :
    entry.enabledAt = none ∧ entry.actedAt = none ∧ entry.ignoredAt = none := by
  have hno : ∀ t, ¬(entry.enabledAt = some t ∨ entry.actedAt = some t ∨ entry.ignoredAt = some t) :=
    fun t hkind => by cases h.symm.trans ((stamp_eq_some_iff entry t).2 hkind)
  refine ⟨?_, ?_, ?_⟩ <;> rw [Option.eq_none_iff_forall_ne_some] <;> intro t hkind
  · exact hno t (.inl hkind)
  · exact hno t (.inr (.inl hkind))
  · exact hno t (.inr (.inr hkind))

/-- The latest entry that sets the time stamp is the latest of its kind. -/
theorem latest_kind {trace : List Entry} {t : ℤ} (h : trace.findSome? Entry.stamp = some t) :
    trace.findSome? Entry.enabledAt = some t ∨ trace.findSome? Entry.actedAt = some t ∨
      trace.findSome? Entry.ignoredAt = some t := by
  induction trace with
  | nil => cases h
  | cons entry past ih =>
    simp only [List.findSome?_cons] at h ⊢
    cases hstamp : entry.stamp with
    | some t' =>
      rw [hstamp] at h
      cases h
      rcases (stamp_eq_some_iff entry t).1 hstamp with hkind | hkind | hkind
      · exact .inl (by rw [hkind])
      · exact .inr (.inl (by rw [hkind]))
      · exact .inr (.inr (by rw [hkind]))
    | none =>
      obtain ⟨henabled, hacted, hignored⟩ := kinds_of_stamp_none hstamp
      rw [hstamp] at h
      rw [henabled, hacted, hignored]
      exact ih h

/-- The time stamp is the latest of the enabling, the actions and the ignored events, of which every
action comes at least the interval after the enablings and actions before it. -/
structure Stamped (s : State) : Prop where
  latest : s.enabled = true → s.trace.findSome? Entry.stamp = some s.entryTimestamp
  le : ∀ entry ∈ s.trace, ∀ t ∈ entry.stamp, t ≤ s.entryTimestamp
  clock : s.enabled = true → s.entryTimestamp ≤ s.clock
  fresh : s.enabled = false → s.trace = []
  spaced : Spaced s.trace

section Step

variable {sensorValue : V} {s : State} {a : Action V}

theorem Stamped.enable (h : Stamped s) {now : ℤ} (hnow : s.clock ≤ now) :
    Stamped ((pickupSensor sensorValue).next s (.enable now)) := by
  refine ⟨fun _ => rfl, ?_, fun _ => le_refl now, fun hfalse => (by cases hfalse), ?_⟩
  · intro entry hentry t ht
    rcases List.mem_cons.1 hentry with rfl | hentry
    · cases ht
      exact le_refl _
    · cases henabled : s.enabled with
      | false =>
        rw [h.fresh henabled] at hentry
        cases hentry
      | true => exact (h.le entry hentry t ht).trans ((h.clock henabled).trans hnow)
  · exact List.pairwise_cons.2 ⟨fun _ _ _ hacted => (by cases hacted), h.spaced⟩

/-- What becomes of an event, by the time since the time stamp. -/
theorem onSensorChanged_cases (sensorValue : V) (event : SensorEvent V) (entryTimestamp : ℤ) :
    event.now < entryTimestamp + MIN_PULSE_INTERVAL_MS ∧
      onSensorChanged sensorValue event entryTimestamp = (entryTimestamp, .tooSoon) ∨
    entryTimestamp + MIN_PULSE_INTERVAL_MS ≤ event.now ∧ ∃ outcome, outcome ≠ .tooSoon ∧
      (outcome.isAction = true ↔ (event.value == sensorValue) = true) ∧
      onSensorChanged sensorValue event entryTimestamp = (event.now', outcome) := by
  by_cases hsoon : event.now - entryTimestamp < MIN_PULSE_INTERVAL_MS
  · exact .inl ⟨by omega, if_pos hsoon⟩
  · refine .inr ⟨by omega, _, ?_, ?_, if_neg hsoon⟩
    · split_ifs <;> decide
    · split_ifs with hhit <;> simp [hhit, Outcome.isAction]

theorem Stamped.event (h : Stamped s) {event : SensorEvent V} (henabled : s.enabled = true)
    (hclock : s.clock ≤ event.now) (hnow : event.now ≤ event.now') :
    Stamped ((pickupSensor sensorValue).next s (.event event)) := by
  have hstamp := h.clock henabled
  unfold pickupSensor
  dsimp only
  rcases onSensorChanged_cases sensorValue event s.entryTimestamp with
    ⟨-, heq⟩ | ⟨hafter, outcome, hnot, -, heq⟩
  · rw [heq]
    refine ⟨fun _ => h.latest henabled, ?_, fun _ => (by dsimp only; omega), fun hfalse => ?_, ?_⟩
    · intro entry hentry t ht
      rcases List.mem_cons.1 hentry with rfl | hentry
      · cases ht
      · exact h.le entry hentry t ht
    · cases henabled.symm.trans hfalse
    · exact List.pairwise_cons.2 ⟨fun _ _ _ hacted => (by cases hacted), h.spaced⟩
  · rw [heq]
    have hlast : Entry.stamp (.event event.now event.now' (event.value == sensorValue) outcome) =
        some event.now' := if_neg hnot
    refine ⟨fun _ => ?_, ?_, fun _ => le_refl _, fun hfalse => ?_, ?_⟩
    · rw [List.findSome?_cons, hlast]
    · intro entry hentry t ht
      rcases List.mem_cons.1 hentry with rfl | hentry
      · cases hlast.symm.trans ht
        exact le_refl _
      · have hle := h.le entry hentry t ht
        dsimp only
        unfold MIN_PULSE_INTERVAL_MS at hafter
        omega
    · cases henabled.symm.trans hfalse
    · refine List.pairwise_cons.2 ⟨fun earlier hearlier now hacted t ht => ?_, h.spaced⟩
      have hnow' : now = event.now' := by
        have hstamp := (stamp_eq_some_iff _ now).2 (.inr (.inl hacted))
        exact (Option.some.inj (hlast.symm.trans hstamp)).symm
      have hle : t ≤ s.entryTimestamp := by
        apply h.le earlier hearlier t
        rcases ht with ht | ht
        · exact (stamp_eq_some_iff earlier t).2 (.inl ht)
        · exact (stamp_eq_some_iff earlier t).2 (.inr (.inl ht))
      omega

theorem Stamped.next (h : Stamped s) (hg : (pickupSensor sensorValue).guard s a) :
    Stamped ((pickupSensor sensorValue).next s a) := by
  cases a with
  | enable now => exact h.enable hg
  | event event => exact h.event hg.1 hg.2.1 hg.2.2

theorem stamped_boot (clock : ℤ) : Stamped (.boot clock) :=
  ⟨fun h => (by cases h), fun _ h => (by cases h), fun h => (by cases h), fun _ => rfl,
    List.Pairwise.nil⟩

theorem stamped_of_reach {P : State → Action V → Prop} {clock : ℤ}
    (h : (pickupSensor sensorValue).Reach P (.boot clock) s) : Stamped s :=
  h.invariant (stamped_boot clock) fun _ _ hs hg _ => hs.next hg

/-- Whatever happens, actions are spaced. -/
theorem spaced_of_reach {P : State → Action V → Prop} {clock : ℤ}
    (h : (pickupSensor sensorValue).Reach P (.boot clock) s) : Spaced s.trace :=
  (stamped_of_reach h).spaced

/-! ## Events that should act -/

/-- An event passes the test of the interval if it comes after the last entries of all kinds. -/
theorem Stamped.after_iff (h : Stamped s) (henabled : s.enabled = true) (now : ℤ) :
    s.entryTimestamp + MIN_PULSE_INTERVAL_MS ≤ now ↔
      After Entry.enabledAt s.trace now ∧ After Entry.actedAt s.trace now ∧
        After Entry.ignoredAt s.trace now := by
  constructor
  · intro hnow
    have hafter : ∀ kind : Entry → Option ℤ, (∀ entry t, kind entry = some t →
        entry.stamp = some t) → After kind s.trace now := by
      intro kind hkind t ht
      obtain ⟨entry, hentry, heq⟩ := List.exists_of_findSome?_eq_some ht
      have hle := h.le entry hentry t (hkind entry t heq)
      omega
    refine ⟨hafter _ fun entry t ht => ?_, hafter _ fun entry t ht => ?_,
      hafter _ fun entry t ht => ?_⟩
    · exact (stamp_eq_some_iff entry t).2 (.inl ht)
    · exact (stamp_eq_some_iff entry t).2 (.inr (.inl ht))
    · exact (stamp_eq_some_iff entry t).2 (.inr (.inr ht))
  · rintro ⟨hon, hacted, hignored⟩
    rcases latest_kind (h.latest henabled) with hkind | hkind | hkind
    · exact hon _ hkind
    · exact hacted _ hkind
    · exact hignored _ hkind

/-- A step is answered if and only if it meets the condition. -/
theorem Stamped.allAnswered_iff (h : Stamped s) (hanswered : AllAnswered s.trace)
    (hg : (pickupSensor sensorValue).guard s a) :
    AllAnswered ((pickupSensor sensorValue).next s a).trace ↔ Meets sensorValue s a := by
  cases a with
  | enable now => exact iff_of_true ⟨trivial, hanswered⟩ trivial
  | event event =>
    have hiff := h.after_iff hg.1 event.now
    rcases onSensorChanged_cases sensorValue event s.entryTimestamp with
      ⟨hsoon, heq⟩ | ⟨hafter, outcome, -, hacts, heq⟩
    · have htrace : ((pickupSensor sensorValue).next s (.event event)).trace =
          .event event.now event.now' (event.value == sensorValue) .tooSoon :: s.trace := by
        unfold pickupSensor
        dsimp only
        rw [heq]
      rw [htrace]
      constructor
      · rintro ⟨hanswer, -⟩ hhit hon hacted
        cases hanswer hhit hon hacted
      · intro hmeets
        refine ⟨fun hhit hon hacted => ?_, hanswered⟩
        have hpasses := hiff.2 ⟨hon, hacted, hmeets hhit hon hacted⟩
        omega
    · have htrace : ((pickupSensor sensorValue).next s (.event event)).trace =
          .event event.now event.now' (event.value == sensorValue) outcome :: s.trace := by
        unfold pickupSensor
        dsimp only
        rw [heq]
      rw [htrace]
      exact iff_of_true ⟨fun hhit _ _ => hacts.2 hhit, hanswered⟩
        fun _ _ _ => (hiff.1 hafter).2.2

/-- **Pick-up actions.** In every run in which no event that should act arrives within the interval
after one of another value, all that is promised holds; and from a state of such a run, a step keeps
it so if and only if it is no such event. -/
theorem pickups_of_reach {clock : ℤ}
    (h : (pickupSensor sensorValue).Reach (Meets sensorValue) (.boot clock) s) :
    Good s.trace ∧ ∀ a, (pickupSensor sensorValue).guard s a →
      (Good ((pickupSensor sensorValue).next s a).trace ↔ Meets sensorValue s a) := by
  have hall : Stamped s ∧ AllAnswered s.trace :=
    h.invariant (I := fun s => Stamped s ∧ AllAnswered s.trace) ⟨stamped_boot clock, trivial⟩
      fun s a hs hg hmeets => ⟨hs.1.next hg, (hs.1.allAnswered_iff hs.2 hg).2 hmeets⟩
  refine ⟨⟨hall.1.spaced, hall.2⟩, fun a hg => ?_⟩
  rw [← hall.1.allAnswered_iff hall.2 hg]
  exact and_iff_right (hall.1.next hg).spaced

end Step

/-- Two actions, an event of another value, and one more action. -/
theorem pickups_of_reach_sample :
    let run : List (Action ℚ) := [.enable 100, .event ⟨1, 2600, 2601, true⟩,
      .event ⟨1, 2700, 2700, true⟩, .event ⟨1, 5101, 5101, false⟩, .event ⟨0, 9000, 9000, true⟩,
      .event ⟨1, 11500, 11500, true⟩]
    let s := (pickupSensor (1 : ℚ)).exec (.boot 0) run
    Good s.trace ∧ ∀ a, (pickupSensor (1 : ℚ)).guard s a →
      (Good ((pickupSensor (1 : ℚ)).next s a).trace ↔ Meets 1 s a) := by
  intro run s
  have hlegal : (pickupSensor (1 : ℚ)).Legal (Meets 1) (.boot 0) run := by decide
  exact pickups_of_reach (GuardedSystem.reach_exec hlegal)

/-- An event of another value 3 s after the enabling, and the right one 1 s later. -/
theorem held_up_by_other_value :
    let run : List (Action ℚ) := [.enable 0, .event ⟨0, 3000, 3000, true⟩,
      .event ⟨1, 4000, 4000, true⟩]
    let s := (pickupSensor (1 : ℚ)).exec (.boot 0) run
    (pickupSensor (1 : ℚ)).Reach (fun _ _ => True) (.boot 0) s ∧ ¬Good s.trace := by
  intro run s
  have hlegal : (pickupSensor (1 : ℚ)).Legal (fun _ _ => True) (.boot 0) run := by decide
  refine ⟨GuardedSystem.reach_exec hlegal, fun hgood => ?_⟩
  have htrace : s.trace = [.event 4000 4000 true .tooSoon, .event 3000 3000 false .ignored,
    .enabled 0] := rfl
  have hanswered : Answered [.event 3000 3000 false .ignored, .enabled 0]
      (.event 4000 4000 true .tooSoon) := (htrace ▸ hgood.2).1
  cases hanswered rfl (by decide) (by decide)

end RealmeSalaa.Doze
