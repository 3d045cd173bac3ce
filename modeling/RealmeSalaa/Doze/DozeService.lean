import Mathlib
import RealmeSalaa.Lib.GuardedSystem

/-!
# The doze service

The settings screen and the boot receiver ask for the service through `checkDozeService`, the system
creates and destroys it later, and each instance switches its sensor from a thread of its own. When
all of that has been worked off:

* the service runs exactly if the settings want it, as long as nobody else changes them after the
  check of the boot;
* only the instance that lives may have its listener registered: a destroyed one has unregistered
  it, whatever its thread still had to do (`settled_of_reach`).
-/

namespace RealmeSalaa.Doze.DozeService

/-! ## Settings -/

/-- The secure settings `DOZE_ENABLED` and `DOZE_ALWAYS_ON`, and the preference. -/
structure Settings where
  doze_enabled : Option ℤ
  doze_always_on : Option ℤ
  gesture_pick_up_type : Option String

namespace Settings

variable (s : Settings)

def isDozeEnabled : Bool := s.doze_enabled.getD 1 ≠ 0

def isAlwaysOnEnabled : Bool := s.doze_always_on.getD 0 ≠ 0

def isPickUpEnabled : Bool := s.gesture_pick_up_type.getD "0" ≠ "0"

def areGesturesEnabled : Bool := s.isPickUpEnabled

def enableDoze (enable : Bool) : Settings :=
  { s with doze_enabled := some (if enable then 1 else 0) }

def enableAlwaysOn (enable : Bool) : Settings :=
  { s with doze_always_on := some (if enable then 1 else 0) }

/-- The condition of `checkDozeService`. -/
def wantsService : Bool := s.isDozeEnabled && !s.isAlwaysOnEnabled && s.areGesturesEnabled

end Settings

/-! ## The service -/

/-- What the system has the main thread do. -/
inductive Message
  | createService
  | destroyService
  deriving DecidableEq

/-- A task of the executor of a pick-up sensor. -/
inductive Task
  | register
  | unregister
  deriving DecidableEq

structure State where
  settings : Settings
  /-- the boot has been checked -/
  booted : Bool
  /-- the system has the service started -/
  started : Bool
  /-- the messages of the system that were not handled yet -/
  messages : List Message
  /-- the checks that were posted to the handler -/
  checks : ℕ
  created : ℕ
  alive : Option ℕ
  /-- the executors of the instances, in the order of their creation -/
  tasks : ℕ → List Task
  registered : ℕ → Bool

namespace State

variable (s : State)

/-- A service that is started is not created again. -/
def startService : State :=
  if s.started then s
  else { s with started := true, messages := s.messages ++ [.createService] }

def stopService : State :=
  if s.started then { s with started := false, messages := s.messages ++ [.destroyService] } else s

def checkDozeService : State := if s.settings.wantsService then s.startService else s.stopService

/-- `executorService.submit`, if there is a sensor. -/
def submit (sensor : Bool) (i : ℕ) (task : Task) : State :=
  if sensor then { s with tasks := Function.update s.tasks i (s.tasks i ++ [task]) } else s

/-- `PickupSensor.enable` of instance `i` -/
def enable (sensor : Bool) (i : ℕ) : State := s.submit sensor i .register

/-- `PickupSensor.disable` of instance `i` -/
def disable (sensor : Bool) (i : ℕ) : State := s.submit sensor i .unregister

def onCreate : State := { s with alive := some s.created, created := s.created + 1 }

def onDestroy (sensor : Bool) : State :=
  match s.alive with
  | some i => { s with alive := none }.disable sensor i
  | none => s

def onDisplayOn (sensor : Bool) (i : ℕ) : State :=
  if s.settings.isPickUpEnabled then s.disable sensor i else s

def onDisplayOff (sensor : Bool) (i : ℕ) : State :=
  if s.settings.isPickUpEnabled then s.enable sensor i else s

/-! ## The settings screen -/

/-- `onPreferenceChange` of the always-on display -/
def changeAlwaysOn (enable : Bool) : State :=
  { s with settings := s.settings.enableAlwaysOn enable, checks := s.checks + 1 }

/-- `onPreferenceChange` of the pick-up gesture; the preference is stored after it. -/
def changePickUp (value : String) : State :=
  { s with
    settings := { s.settings with gesture_pick_up_type := some value }
    checks := s.checks + 1 }

/-- `onCheckedChanged` of the main switch -/
def onCheckedChanged (isChecked : Bool) : State :=
  let s := { s with settings := s.settings.enableDoze isChecked }.checkDozeService
  if isChecked then s else { s with settings := s.settings.enableAlwaysOn false }

end State

/-! ## Runs -/

inductive Action
  | bootCompleted
  | onCheckedChanged (isChecked : Bool)
  | changeAlwaysOn (enable : Bool)
  | changePickUp (value : String)
  /-- the settings change by other hands -/
  | setOutside (settings : Settings)
  /-- a check that was posted is run -/
  | runCheck
  /-- the next message of the system is handled -/
  | handleMessage
  /-- the screen goes on or off -/
  | screen (on : Bool)
  /-- the next task of instance `i` is run -/
  | runTask (i : ℕ)

/-- The doze service; `sensor` says whether there is a pick-up sensor. -/
def dozeService (sensor : Bool) : GuardedSystem State Action where
  guard s
    | .runCheck => 0 < s.checks
    | .handleMessage => s.messages ≠ []
    | .screen _ => s.alive.isSome
    | .runTask i => s.tasks i ≠ []
    | _ => True
  next s
    | .bootCompleted => { s.checkDozeService with booted := true }
    | .onCheckedChanged isChecked => s.onCheckedChanged isChecked
    | .changeAlwaysOn enable => s.changeAlwaysOn enable
    | .changePickUp value => s.changePickUp value
    | .setOutside settings => { s with settings := settings }
    | .runCheck => { s.checkDozeService with checks := s.checks - 1 }
    | .handleMessage =>
      match s.messages with
      | .createService :: messages => { s with messages := messages }.onCreate
      | .destroyService :: messages => { s with messages := messages }.onDestroy sensor
      | [] => s
    | .screen on =>
      match s.alive with
      | some i => if on then s.onDisplayOn sensor i else s.onDisplayOff sensor i
      | none => s
    | .runTask i =>
      match s.tasks i with
      | task :: tasks =>
        { s with
          tasks := Function.update s.tasks i tasks
          registered := Function.update s.registered i (task = .register) }
      | [] => s

instance (sensor : Bool) (s : State) (a : Action) : Decidable ((dozeService sensor).guard s a) := by
  cases a <;> unfold dozeService <;> dsimp only <;> infer_instance

def State.boot (settings : Settings) : State :=
  ⟨settings, false, false, [], 0, 0, none, fun _ => [], fun _ => false⟩

/-- After the check of the boot nobody else changes the settings. -/
def OwnSettings (s : State) : Action → Prop
  | .setOutside _ => s.booted = false
  | _ => True

instance (s : State) (a : Action) : Decidable (OwnSettings s a) := by
  cases a <;> unfold OwnSettings <;> infer_instance

/-! ## The messages of the system -/

/-- The messages lead from a service that is alive or not to one that is started or not. -/
def Leads : Bool → List Message → Bool → Prop
  | alive, [], started => alive = started
  | alive, .createService :: messages, started => alive = false ∧ Leads true messages started
  | alive, .destroyService :: messages, started => alive = true ∧ Leads false messages started

theorem Leads.create {alive : Bool} {messages : List Message} (h : Leads alive messages false) :
    Leads alive (messages ++ [.createService]) true := by
  induction messages generalizing alive with
  | nil => exact ⟨h, rfl⟩
  | cons message messages ih => cases message <;> exact ⟨h.1, ih h.2⟩

theorem Leads.destroy {alive : Bool} {messages : List Message} (h : Leads alive messages true) :
    Leads alive (messages ++ [.destroyService]) false := by
  induction messages generalizing alive with
  | nil => exact ⟨h, rfl⟩
  | cons message messages ih => cases message <;> exact ⟨h.1, ih h.2⟩

/-- A check starts or stops the service as the settings want it, and changes nothing else. -/
theorem checkDozeService_eq {s : State} (h : Leads s.alive.isSome s.messages s.started) :
    ∃ messages, s.checkDozeService =
        { s with started := s.settings.wantsService, messages := messages } ∧
      Leads s.alive.isSome messages s.settings.wantsService := by
  unfold State.checkDozeService State.startService State.stopService
  cases hwants : s.settings.wantsService <;> cases hstarted : s.started <;> rw [hstarted] at h
  · refine ⟨s.messages, ?_, h⟩
    simp only [Bool.false_eq_true, if_false]
    rw [← hstarted]
  · exact ⟨_, by simp, h.destroy⟩
  · exact ⟨_, by simp, h.create⟩
  · refine ⟨s.messages, ?_, h⟩
    simp only [if_true]
    rw [← hstarted]

/-! ## What is left to do -/

/-- The executor of an instance has nothing left to do and the listener is not registered, or its
last task unregisters it. -/
def Quits (tasks : List Task) (registered : Bool) : Prop :=
  tasks = [] ∧ registered = false ∨ tasks.getLast? = some .unregister

/-- The service is on its way to what the settings want, and every listener but that of the living
instance to be unregistered. -/
structure Settling (sensor : Bool) (s : State) : Prop where
  leads : Leads s.alive.isSome s.messages s.started
  wants : s.booted = true → s.checks = 0 → s.started = s.settings.wantsService
  quits : ∀ i, s.alive ≠ some i → Quits (s.tasks i) (s.registered i)
  noSensor : sensor = false → ∀ i, Quits (s.tasks i) (s.registered i)

variable {sensor : Bool} {s : State}

theorem settling_check (hs : Settling sensor s) (booted : Bool) (checks : ℕ) :
    Settling sensor { s.checkDozeService with booted := booted, checks := checks } := by
  obtain ⟨messages, hcheck, hleads⟩ := checkDozeService_eq hs.leads
  rw [hcheck]
  exact ⟨hleads, fun _ _ => rfl, hs.quits, hs.noSensor⟩

/-- With the doze mode off, the always-on display does not matter. -/
theorem settling_onCheckedChanged (hs : Settling sensor s) (isChecked : Bool) :
    Settling sensor (s.onCheckedChanged isChecked) := by
  obtain ⟨messages, hcheck, hleads⟩ :=
    checkDozeService_eq (s := { s with settings := s.settings.enableDoze isChecked }) hs.leads
  unfold State.onCheckedChanged
  rw [hcheck]
  cases isChecked with
  | true => exact ⟨hleads, fun _ _ => rfl, hs.quits, hs.noSensor⟩
  | false => exact ⟨hleads, fun _ _ => rfl, hs.quits, hs.noSensor⟩

/-- Settings that change with a check to come. -/
theorem settling_posted (hs : Settling sensor s) (settings : Settings) :
    Settling sensor { s with settings := settings, checks := s.checks + 1 } :=
  ⟨hs.leads, fun _ hchecks => absurd hchecks (Nat.succ_ne_zero _), hs.quits, hs.noSensor⟩

theorem Quits.unregister (tasks : List Task) (registered : Bool) :
    Quits (tasks ++ [.unregister]) registered := .inr List.getLast?_concat

/-- A task less. -/
theorem Quits.run {task : Task} {tasks : List Task} {registered : Bool}
    (h : Quits (task :: tasks) registered) : Quits tasks (task = .register) := by
  rcases h with ⟨hnil, -⟩ | hlast
  · exact absurd hnil (List.cons_ne_nil _ _)
  · cases tasks with
    | nil =>
      have htask : task = .unregister := by simpa using hlast
      exact .inl ⟨rfl, by rw [htask]; rfl⟩
    | cons task' tasks => exact .inr (by simpa using hlast)

/-- A task is appended for the living instance, or unregisters. -/
theorem quits_submit {tasks : ℕ → List Task} {registered : ℕ → Bool} {i j : ℕ} {task : Task}
    (hlast : j = i → task = .unregister) (h : j ≠ i → Quits (tasks j) (registered j)) :
    Quits (Function.update tasks i (tasks i ++ [task]) j) (registered j) := by
  by_cases hji : j = i
  · rw [hji, Function.update_self, hlast hji]
    exact .unregister _ _
  · rw [Function.update_of_ne hji]
    exact h hji

theorem settling_submit (hs : Settling sensor s) {i : ℕ} (halive : s.alive = some i) (task : Task) :
    Settling sensor (s.submit sensor i task) := by
  unfold State.submit
  cases sensor with
  | false => exact hs
  | true =>
    refine ⟨hs.leads, hs.wants, fun j hj => ?_, fun h => absurd h Bool.noConfusion⟩
    exact quits_submit (fun hji => absurd (hji ▸ halive) hj) fun _ => hs.quits j hj

theorem settling_handleMessage (hs : Settling sensor s) :
    Settling sensor ((dozeService sensor).next s .handleMessage) := by
  have hleads := hs.leads
  cases hmessages : s.messages with
  | nil => simpa [dozeService, hmessages] using hs
  | cons message messages =>
    rw [hmessages] at hleads
    cases message with
    | createService =>
      obtain ⟨hnone, hrest⟩ := hleads
      have hnone' : s.alive = none := by simpa using hnone
      simp only [dozeService, hmessages, State.onCreate]
      exact ⟨hrest, hs.wants, fun j _ => hs.quits j (by simp [hnone']), hs.noSensor⟩
    | destroyService =>
      obtain ⟨hsome, hrest⟩ := hleads
      obtain ⟨i, hi⟩ := Option.isSome_iff_exists.1 hsome
      simp only [dozeService, hmessages, State.onDestroy, hi, State.disable, State.submit]
      cases sensor with
      | false =>
        exact ⟨hrest, hs.wants, fun j _ => hs.noSensor rfl j, hs.noSensor⟩
      | true =>
        refine ⟨hrest, hs.wants, fun j _ => ?_, fun h => absurd h Bool.noConfusion⟩
        refine quits_submit (fun _ => rfl) fun hji => hs.quits j fun h => hji ?_
        exact (Option.some.inj (hi.symm.trans h)).symm

theorem settling_runTask (hs : Settling sensor s) (i : ℕ) :
    Settling sensor ((dozeService sensor).next s (.runTask i)) := by
  cases htasks : s.tasks i with
  | nil => simpa [dozeService, htasks] using hs
  | cons task tasks =>
    simp only [dozeService, htasks]
    have hrun : ∀ j, Quits (s.tasks j) (s.registered j) →
        Quits (Function.update s.tasks i tasks j)
          (Function.update s.registered i (decide (task = .register)) j) := by
      intro j hj
      by_cases hji : j = i
      · rw [hji, Function.update_self, Function.update_self]
        rw [hji, htasks] at hj
        exact hj.run
      · rwa [Function.update_of_ne hji, Function.update_of_ne hji]
    exact ⟨hs.leads, hs.wants, fun j hj => hrun j (hs.quits j hj),
      fun h j => hrun j (hs.noSensor h j)⟩

theorem settling_next (hs : Settling sensor s) {a : Action} (ha : OwnSettings s a) :
    Settling sensor ((dozeService sensor).next s a) := by
  cases a with
  | bootCompleted => exact settling_check hs true _
  | onCheckedChanged isChecked => exact settling_onCheckedChanged hs isChecked
  | changeAlwaysOn enable => exact settling_posted hs _
  | changePickUp value => exact settling_posted hs _
  | setOutside settings =>
    exact ⟨hs.leads, fun hbooted => absurd (hbooted.symm.trans ha) Bool.noConfusion,
      hs.quits, hs.noSensor⟩
  | runCheck => exact settling_check hs _ _
  | handleMessage => exact settling_handleMessage hs
  | runTask i => exact settling_runTask hs i
  | screen on =>
    cases halive : s.alive with
    | none => simpa [dozeService, halive] using hs
    | some i =>
      simp only [dozeService, halive, State.onDisplayOn, State.onDisplayOff]
      cases s.settings.isPickUpEnabled <;> cases on
      · exact hs
      · exact hs
      · exact settling_submit hs halive _
      · exact settling_submit hs halive _

theorem settling_of_reach {settings : Settings}
    (h : (dozeService sensor).Reach OwnSettings (.boot settings) s) : Settling sensor s := by
  have hboot : Settling sensor (.boot settings) :=
    ⟨rfl, fun hbooted => absurd hbooted Bool.false_ne_true, fun _ _ => .inl ⟨rfl, rfl⟩,
      fun _ _ => .inl ⟨rfl, rfl⟩⟩
  exact h.invariant hboot fun _ _ hs _ ha => settling_next hs ha

/-- **The doze service.** In every run in which nobody else changes the settings after the check of
the boot: when the posted checks and the messages of the system are handled, an instance lives
exactly if the settings want the service; and when the tasks of an instance that does not live have
run, its listener is not registered. -/
theorem settled_of_reach {settings : Settings}
    (h : (dozeService sensor).Reach OwnSettings (.boot settings) s) :
    (s.booted = true → s.checks = 0 → s.messages = [] →
      (s.alive.isSome = true ↔ s.settings.isDozeEnabled = true ∧
        s.settings.isAlwaysOnEnabled = false ∧ s.settings.isPickUpEnabled = true)) ∧
    ∀ i, s.alive ≠ some i → s.tasks i = [] → s.registered i = false := by
  have hs := settling_of_reach h
  refine ⟨fun hbooted hchecks hmessages => ?_, fun i hi htasks => ?_⟩
  · have hleads := hs.leads
    rw [hmessages] at hleads
    have halive : s.alive.isSome = s.settings.wantsService :=
      Eq.trans hleads (hs.wants hbooted hchecks)
    rw [halive]
    simp [Settings.wantsService, Settings.areGesturesEnabled, and_assoc]
  · rcases hs.quits i hi with ⟨-, hfalse⟩ | hlast
    · exact hfalse
    · rw [htasks] at hlast
      cases hlast

/-- The display goes off, the sensor is registered, and the doze mode is switched off. -/
def switchOffRun : List Action :=
  [.bootCompleted, .handleMessage, .screen false, .runTask 0, .onCheckedChanged false,
    .handleMessage, .runTask 0]

theorem settled_of_reach_sample :
    let s := (dozeService true).exec (.boot ⟨none, none, some "1"⟩) switchOffRun
    (s.booted = true → s.checks = 0 → s.messages = [] →
      (s.alive.isSome = true ↔ s.settings.isDozeEnabled = true ∧
        s.settings.isAlwaysOnEnabled = false ∧ s.settings.isPickUpEnabled = true)) ∧
    ∀ i, s.alive ≠ some i → s.tasks i = [] → s.registered i = false :=
  settled_of_reach (GuardedSystem.reach_exec (by decide))

end RealmeSalaa.Doze.DozeService
