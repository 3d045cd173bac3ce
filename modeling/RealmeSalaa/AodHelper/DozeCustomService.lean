import Mathlib
import RealmeSalaa.Lib.GuardedSystem

/-!
# The service that pulses the always-on display

An instance keeps two flags for its timer and its proximity listener. As long as it lives, they tell
which timer is scheduled and whether the listener is registered (`Attended`), and only a screen-off
turns them on. `onDestroy` looks at neither: an instance that is destroyed with the listener on leaves
it behind, with the timer, and no later call stops them. Nothing is left behind if no instance is
destroyed so (`timers_of_reach`).
-/

namespace RealmeSalaa.AodHelper

/-- The broadcasts of `screenStateFilter`. -/
inductive Broadcast
  | screenOn
  | screenOff
  | userPresent
  deriving DecidableEq

/-- The fields of an instance. -/
structure DozeCustomService where
  isSensorRunning : Bool
  isTimerRunning : Bool
  timer : Option ℕ

structure State where
  /-- the setting `DOZE_ALWAYS_ON` -/
  doze_always_on : Option ℤ
  /-- the instances, in the order of their creation -/
  instances : ℕ → DozeCustomService
  created : ℕ
  alive : Option ℕ
  /-- what the living instance received last -/
  lastBroadcast : Option Broadcast
  /-- the instances whose proximity listener is registered -/
  registered : List ℕ
  /-- the timers that are scheduled -/
  timers : List ℕ
  started : ℕ

namespace State

variable (maximumRange : ℚ) (i : ℕ) (s : State)

def modify (f : DozeCustomService → DozeCustomService) : State :=
  { s with instances := Function.update s.instances i (f (s.instances i)) }

/-! ## The methods of an instance -/

def disableSensor : State :=
  if !(s.instances i).isSensorRunning then s
  else
    { s with registered := s.registered.filter (· ≠ i) }.modify i
      fun service => { service with isSensorRunning := false }

def enableSensor : State :=
  if (s.instances i).isSensorRunning then s
  else
    { s with registered := if i ∈ s.registered then s.registered else i :: s.registered }.modify i
      fun service => { service with isSensorRunning := true }

def getAodFlag : Bool := s.doze_always_on.getD 0 ≠ 0

/-- A new timer is scheduled. -/
def startRepeatDozing : State :=
  if (s.instances i).isTimerRunning then s
  else
    { s with timers := s.started :: s.timers, started := s.started + 1 }.modify i
      fun service => { service with timer := some s.started, isTimerRunning := true }

def stopRepeatDozing : State :=
  if !(s.instances i).isTimerRunning then s
  else
    { s with timers := s.timers.filter fun t => some t ≠ (s.instances i).timer }.modify i
      fun service => { service with isTimerRunning := false }

/-- `mScreenStateReceiver` -/
def onReceive (b : Broadcast) : State :=
  match b with
  | .screenOn | .userPresent => (s.stopRepeatDozing i).disableSensor i
  | .screenOff => if s.getAodFlag then (s.enableSensor i).startRepeatDozing i else s

/-- `proximitySensorEventListener` -/
def onSensorChanged (distance : ℚ) : State :=
  if distance ≥ maximumRange then s.startRepeatDozing i else s.stopRepeatDozing i

def onCreate : State :=
  { s with
    instances := Function.update s.instances s.created ⟨false, false, none⟩
    created := s.created + 1
    alive := some s.created
    lastBroadcast := none }

/-- The receiver is unregistered, and that is all. -/
def onDestroy : State := { s with alive := none }

end State

/-! ## Runs -/

inductive Action
  | create
  | destroy
  | broadcast (b : Broadcast)
  /-- the sensor reports to the listener of an instance -/
  | proximity (i : ℕ) (distance : ℚ)
  | set (doze_always_on : Option ℤ)

/-- At most one instance lives, and only a registered listener is told. -/
def aodHelper (maximumRange : ℚ) : GuardedSystem State Action where
  guard s
    | .create => s.alive = none
    | .destroy => s.alive ≠ none
    | .broadcast _ => True
    | .proximity i _ => i ∈ s.registered
    | .set _ => True
  next s
    | .create => s.onCreate
    | .destroy => s.onDestroy
    | .broadcast b =>
      match s.alive with
      | none => s
      | some i => { s.onReceive i b with lastBroadcast := some b }
    | .proximity i distance => s.onSensorChanged maximumRange i distance
    | .set doze_always_on => { s with doze_always_on := doze_always_on }

instance (maximumRange : ℚ) (s : State) (a : Action) :
    Decidable ((aodHelper maximumRange).guard s a) := by
  cases a <;> unfold aodHelper <;> dsimp only <;> infer_instance

/-- Before the first instance. -/
def State.boot (doze_always_on : Option ℤ) : State :=
  ⟨doze_always_on, fun _ => ⟨false, false, none⟩, 0, none, none, [], [], 0⟩

/-! ## The living instance -/

/-- The flags of an instance tell of the timers and listeners, which are all its own. -/
structure Attended (s : State) (i : ℕ) : Prop where
  running : (s.instances i).isTimerRunning = true →
    ∃ t, (s.instances i).timer = some t ∧ s.timers = [t]
  stopped : (s.instances i).isTimerRunning = false → s.timers = []
  listening : (s.instances i).isSensorRunning = true → s.registered = [i]
  silent : (s.instances i).isSensorRunning = false → s.registered = []
  sensor : (s.instances i).isTimerRunning = true → (s.instances i).isSensorRunning = true

section Methods

variable {s : State} {i : ℕ} {f : DozeCustomService → DozeCustomService}

theorem modify_instances : (s.modify i f).instances i = f (s.instances i) := Function.update_self ..

theorem Attended.stopRepeatDozing (h : Attended s i) : Attended (s.stopRepeatDozing i) i ∧
    ((s.stopRepeatDozing i).instances i).isTimerRunning = false ∧
    ((s.stopRepeatDozing i).instances i).isSensorRunning = (s.instances i).isSensorRunning := by
  unfold State.stopRepeatDozing
  cases hrunning : (s.instances i).isTimerRunning with
  | false => exact ⟨h, hrunning, rfl⟩
  | true =>
    obtain ⟨t, htimer, htimers⟩ := h.running hrunning
    rw [if_neg (by decide)]
    refine ⟨⟨?_, ?_, ?_, ?_, ?_⟩, ?_, ?_⟩ <;> rw [modify_instances]
    · exact fun h => by cases h
    · intro _
      show s.timers.filter _ = []
      rw [htimers, htimer]
      simp
    · exact h.listening
    · exact h.silent
    · exact fun h => by cases h

theorem Attended.disableSensor (h : Attended s i)
    (hstopped : (s.instances i).isTimerRunning = false) : Attended (s.disableSensor i) i ∧
    ((s.disableSensor i).instances i).isSensorRunning = false := by
  unfold State.disableSensor
  cases hsensor : (s.instances i).isSensorRunning with
  | false => exact ⟨h, hsensor⟩
  | true =>
    rw [if_neg (by decide)]
    refine ⟨⟨?_, ?_, ?_, ?_, ?_⟩, ?_⟩ <;> rw [modify_instances]
    · exact h.running
    · exact h.stopped
    · exact fun h => by cases h
    · intro _
      show s.registered.filter _ = []
      rw [h.listening hsensor]
      simp
    · exact fun hrunning => absurd (hstopped.symm.trans hrunning) (by decide)

theorem Attended.enableSensor (h : Attended s i) : Attended (s.enableSensor i) i ∧
    ((s.enableSensor i).instances i).isSensorRunning = true := by
  unfold State.enableSensor
  cases hsensor : (s.instances i).isSensorRunning with
  | true => exact ⟨h, hsensor⟩
  | false =>
    rw [if_neg (by decide)]
    refine ⟨⟨?_, ?_, ?_, ?_, ?_⟩, ?_⟩ <;> rw [modify_instances]
    · exact h.running
    · exact h.stopped
    · intro _
      show (if i ∈ s.registered then s.registered else i :: s.registered) = [i]
      rw [h.silent hsensor]
      rfl
    · exact fun h => by cases h
    · exact fun _ => rfl

theorem Attended.startRepeatDozing (h : Attended s i)
    (hsensor : (s.instances i).isSensorRunning = true) : Attended (s.startRepeatDozing i) i ∧
    ((s.startRepeatDozing i).instances i).isSensorRunning = true := by
  unfold State.startRepeatDozing
  cases hrunning : (s.instances i).isTimerRunning with
  | true => exact ⟨h, hsensor⟩
  | false =>
    rw [if_neg (by decide)]
    refine ⟨⟨?_, ?_, ?_, ?_, ?_⟩, ?_⟩ <;> rw [modify_instances]
    · intro _
      refine ⟨s.started, rfl, ?_⟩
      show s.started :: s.timers = [s.started]
      rw [h.stopped hrunning]
    · exact fun h => by cases h
    · exact h.listening
    · exact h.silent
    · exact fun _ => hsensor
    · exact hsensor

/-! ### What the methods leave alone -/

theorem frame_disableSensor : (s.disableSensor i).alive = s.alive ∧
    (s.disableSensor i).lastBroadcast = s.lastBroadcast := by
  unfold State.disableSensor
  split_ifs <;> exact ⟨rfl, rfl⟩

theorem frame_enableSensor : (s.enableSensor i).alive = s.alive ∧
    (s.enableSensor i).lastBroadcast = s.lastBroadcast := by
  unfold State.enableSensor
  split_ifs <;> exact ⟨rfl, rfl⟩

theorem frame_startRepeatDozing : (s.startRepeatDozing i).alive = s.alive ∧
    (s.startRepeatDozing i).lastBroadcast = s.lastBroadcast := by
  unfold State.startRepeatDozing
  split_ifs <;> exact ⟨rfl, rfl⟩

theorem frame_stopRepeatDozing : (s.stopRepeatDozing i).alive = s.alive ∧
    (s.stopRepeatDozing i).lastBroadcast = s.lastBroadcast := by
  unfold State.stopRepeatDozing
  split_ifs <;> exact ⟨rfl, rfl⟩

theorem alive_onReceive (b : Broadcast) : (s.onReceive i b).alive = s.alive := by
  cases b with
  | screenOn | userPresent => exact frame_disableSensor.1.trans frame_stopRepeatDozing.1
  | screenOff =>
    unfold State.onReceive
    dsimp only
    split_ifs
    · exact frame_startRepeatDozing.1.trans frame_enableSensor.1
    · rfl

theorem frame_onSensorChanged (maximumRange distance : ℚ) :
    (s.onSensorChanged maximumRange i distance).alive = s.alive ∧
      (s.onSensorChanged maximumRange i distance).lastBroadcast = s.lastBroadcast := by
  unfold State.onSensorChanged
  split_ifs
  · exact frame_startRepeatDozing
  · exact frame_stopRepeatDozing

/-! ### The callbacks -/

theorem Attended.onReceive (h : Attended s i) (b : Broadcast) : Attended (s.onReceive i b) i ∧
    (((s.onReceive i b).instances i).isSensorRunning = true → b = .screenOff) := by
  cases b with
  | screenOn | userPresent =>
    obtain ⟨hstop, hstopped, -⟩ := h.stopRepeatDozing
    obtain ⟨hdisable, hsensor⟩ := hstop.disableSensor hstopped
    exact ⟨hdisable, fun hrunning => absurd (hsensor.symm.trans hrunning) (by decide)⟩
  | screenOff =>
    refine ⟨?_, fun _ => rfl⟩
    unfold State.onReceive
    dsimp only
    split_ifs
    · obtain ⟨henable, hsensor⟩ := h.enableSensor
      exact (henable.startRepeatDozing hsensor).1
    · exact h

theorem attended_onCreate (htimers : s.timers = []) (hregistered : s.registered = []) :
    Attended s.onCreate s.created ∧
      (s.onCreate.instances s.created).isSensorRunning = false := by
  have hnew : s.onCreate.instances s.created = ⟨false, false, none⟩ := Function.update_self ..
  refine ⟨⟨?_, fun _ => htimers, ?_, fun _ => hregistered, ?_⟩, ?_⟩ <;> rw [hnew]
  · exact fun h => by cases h
  · exact fun h => by cases h
  · exact fun h => by cases h

theorem Attended.onSensorChanged (h : Attended s i)
    (hsensor : (s.instances i).isSensorRunning = true) (maximumRange distance : ℚ) :
    Attended (s.onSensorChanged maximumRange i distance) i ∧
      ((s.onSensorChanged maximumRange i distance).instances i).isSensorRunning = true := by
  unfold State.onSensorChanged
  split_ifs
  · exact h.startRepeatDozing hsensor
  · obtain ⟨hstop, -, hsame⟩ := h.stopRepeatDozing
    exact ⟨hstop, hsame.trans hsensor⟩

end Methods

/-! ## All instances -/

variable {maximumRange : ℚ} {s : State} {a : Action}

/-- What is promised: at most one timer, only while an instance lives whose last broadcast was a
screen-off, and no listener of an instance that was destroyed. -/
structure Good (s : State) : Prop where
  single : s.timers.length ≤ 1
  living : s.timers ≠ [] → s.alive ≠ none ∧ s.lastBroadcast = some .screenOff
  listener : ∀ i ∈ s.registered, s.alive = some i

/-- No instance is destroyed while its proximity listener is on. -/
def Meets (s : State) : Action → Prop
  | .destroy => ∀ i ∈ s.alive, (s.instances i).isSensorRunning = false
  | _ => True

instance (s : State) (a : Action) : Decidable (Meets s a) := by
  cases a <;> unfold Meets <;> infer_instance

/-- The living instance attends to everything there is. -/
structure Tidy (s : State) : Prop where
  attended : ∀ i ∈ s.alive, Attended s i ∧
    ((s.instances i).isSensorRunning = true → s.lastBroadcast = some .screenOff)
  idle : s.alive = none → s.timers = [] ∧ s.registered = []

theorem Tidy.good (h : Tidy s) : Good s := by
  cases halive : s.alive with
  | none =>
    obtain ⟨htimers, hregistered⟩ := h.idle halive
    refine ⟨by simp [htimers], fun hne => absurd htimers hne, fun i hi => ?_⟩
    rw [hregistered] at hi
    cases hi
  | some i =>
    obtain ⟨hi, hscreen⟩ := h.attended i halive
    refine ⟨?_, fun hne => ?_, fun j hj => ?_⟩
    · cases hrunning : (s.instances i).isTimerRunning with
      | false => simp [hi.stopped hrunning]
      | true =>
        obtain ⟨t, -, htimers⟩ := hi.running hrunning
        simp [htimers]
    · have hrunning : (s.instances i).isTimerRunning = true := by
        by_contra hnot
        exact hne (hi.stopped (Bool.eq_false_iff.2 hnot))
      exact ⟨by simp [halive], hscreen (hi.sensor hrunning)⟩
    · cases hsensor : (s.instances i).isSensorRunning with
      | false =>
        rw [hi.silent hsensor] at hj
        cases hj
      | true =>
        rw [hi.listening hsensor, List.mem_singleton] at hj
        rw [hj, halive]

theorem Tidy.next (h : Tidy s) (hg : (aodHelper maximumRange).guard s a) (hmeets : Meets s a) :
    Tidy ((aodHelper maximumRange).next s a) := by
  cases a with
  | create =>
    obtain ⟨htimers, hregistered⟩ := h.idle hg
    obtain ⟨hattended, hsensor⟩ := attended_onCreate htimers hregistered
    refine ⟨fun i hi => ?_, fun hnone => ?_⟩
    · cases hi
      exact ⟨hattended, fun hrunning => absurd (hsensor.symm.trans hrunning) (by decide)⟩
    · cases hnone
  | destroy =>
    refine ⟨fun i hi => (by cases hi), fun _ => ?_⟩
    obtain ⟨i, halive⟩ := Option.ne_none_iff_exists'.1 hg
    obtain ⟨hi, -⟩ := h.attended i halive
    have hsensor : (s.instances i).isSensorRunning = false := hmeets i halive
    refine ⟨hi.stopped ?_, hi.silent hsensor⟩
    by_contra hnot
    exact absurd (hsensor.symm.trans (hi.sensor (Bool.eq_true_of_not_eq_false hnot))) (by decide)
  | broadcast b =>
    show Tidy (match s.alive with
      | none => s
      | some i => { s.onReceive i b with lastBroadcast := some b })
    cases halive : s.alive with
    | none => exact h
    | some i =>
      obtain ⟨hi, -⟩ := h.attended i halive
      have hsame : (s.onReceive i b).alive = some i := (alive_onReceive b).trans halive
      obtain ⟨hreceive, hscreen⟩ := hi.onReceive b
      refine ⟨fun j hj => ?_, fun hnone => ?_⟩
      · cases hsame.symm.trans hj
        exact ⟨⟨hreceive.running, hreceive.stopped, hreceive.listening, hreceive.silent,
          hreceive.sensor⟩, fun hrunning => congrArg some (hscreen hrunning)⟩
      · cases hsame.symm.trans hnone
  | proximity i distance =>
    have hi : i ∈ s.registered := hg
    have halive : s.alive = some i := h.good.listener i hi
    obtain ⟨hattended, hscreen⟩ := h.attended i halive
    have hsensor : (s.instances i).isSensorRunning = true := by
      by_contra hnot
      rw [hattended.silent (Bool.eq_false_iff.2 hnot)] at hi
      cases hi
    obtain ⟨hsame, hlast⟩ := frame_onSensorChanged (s := s) (i := i) maximumRange distance
    refine ⟨fun j hj => ?_, fun hnone => ?_⟩
    · cases (hsame.trans halive).symm.trans hj
      exact ⟨(hattended.onSensorChanged hsensor maximumRange distance).1,
        fun _ => hlast.trans (hscreen hsensor)⟩
    · cases (hsame.trans halive).symm.trans hnone
  | set doze_always_on =>
    refine ⟨fun i hi => ?_, h.idle⟩
    obtain ⟨hattended, hscreen⟩ := h.attended i hi
    exact ⟨⟨hattended.running, hattended.stopped, hattended.listening, hattended.silent,
      hattended.sensor⟩, hscreen⟩

theorem tidy_boot (doze_always_on : Option ℤ) : Tidy (.boot doze_always_on) :=
  ⟨fun _ hi => (by cases hi), fun _ => ⟨rfl, rfl⟩⟩

/-- A step that does not meet the condition leaves a listener behind. -/
theorem Tidy.good_next_iff (h : Tidy s) (hg : (aodHelper maximumRange).guard s a) :
    Good ((aodHelper maximumRange).next s a) ↔ Meets s a := by
  refine ⟨fun hgood => ?_, fun hmeets => (h.next hg hmeets).good⟩
  cases a with
  | destroy =>
    intro i halive
    by_contra hnot
    have hregistered : s.registered = [i] :=
      (h.attended i halive).1.listening (Bool.eq_true_of_not_eq_false hnot)
    cases hgood.listener i (hregistered ▸ List.mem_singleton_self i)
  | _ => trivial

/-- **The timers.** In every run in which no instance is destroyed with its listener on, at most one
timer exists, only while an instance lives and the screen is off, and no listener is left behind; and
from a state of such a run, a step keeps it so if and only if it is not such a destruction. -/
theorem timers_of_reach {doze_always_on : Option ℤ}
    (h : (aodHelper maximumRange).Reach Meets (.boot doze_always_on) s) :
    Good s ∧ ∀ a, (aodHelper maximumRange).guard s a →
      (Good ((aodHelper maximumRange).next s a) ↔ Meets s a) := by
  have htidy : Tidy s := h.invariant (tidy_boot doze_always_on) fun _ _ hs hg hmeets => hs.next hg hmeets
  exact ⟨htidy.good, fun _ hg => htidy.good_next_iff hg⟩

/-- An instance that is destroyed after a screen-on, and the one after it. -/
theorem timers_of_reach_sample :
    let run : List Action := [.set (some 1), .create, .broadcast .screenOff, .proximity 0 0,
      .proximity 0 5, .broadcast .screenOn, .destroy, .create, .broadcast .screenOff]
    let s := (aodHelper 5).exec (.boot none) run
    Good s ∧ ∀ a, (aodHelper 5).guard s a → (Good ((aodHelper 5).next s a) ↔ Meets s a) := by
  intro run s
  have hlegal : (aodHelper 5).Legal Meets (.boot none) run := by decide
  exact timers_of_reach (GuardedSystem.reach_exec hlegal)

/-- An instance that is destroyed after a screen-off, and one more: two timers are scheduled, and the
listener of the first instance is still registered. -/
theorem timer_left_behind :
    let run : List Action := [.set (some 1), .create, .broadcast .screenOff, .destroy, .create,
      .broadcast .screenOff]
    let s := (aodHelper 5).exec (.boot none) run
    (aodHelper 5).Reach (fun _ _ => True) (.boot none) s ∧ s.timers = [1, 0] ∧
      s.registered = [1, 0] ∧ s.alive = some 1 := by
  intro run s
  have hlegal : (aodHelper 5).Legal (fun _ _ => True) (.boot none) run := by decide
  exact ⟨GuardedSystem.reach_exec hlegal, by decide, by decide, by decide⟩

end RealmeSalaa.AodHelper
