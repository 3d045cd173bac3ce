import RealmeSalaa.MultiHal.DirectChannel
import RealmeSalaa.MultiHal.DynamicSensors
import RealmeSalaa.MultiHal.PendingWrites

/-!
# The static sensor list after construction

Nothing writes to `mSensors` after the constructor, but one lookup inserts: when a chunk that is
not the last of its batch fails, `countNumWakeupEvents` reads the flags of its events with
`operator[]`. An event of a dynamic sensor, which is in the other map, then adds a record to the
static list.

`mSensors_next_iff` says which step changes the list. The runs here are those of all threads,
together with sub-HALs that connect and disconnect dynamic sensors. `processEvents` looks the events
of a batch up with `getSensorInfo`, which is not in the sources and taken to only read
(`ReadsOnly`).
-/

namespace RealmeSalaa.MultiHal

open HalProxy

variable {P : Type} {K : Constants}

/-! ## What the list is for -/

namespace HalProxy

/-- The records in the order of their handles. -/
def getSensorsList_2_1 (s : HalProxy P) : List SensorInfo := s.mSensors.toList.map Prod.snd

/-- `convertToOldSensorInfo` keeps the fields of the model. -/
def getSensorsList (s : HalProxy P) : List SensorInfo :=
  (s.mSensors.toList.map Prod.snd).filter fun sensor => sensor.type ≠ .HINGE_ANGLE

/-- The handles that `disableAllSensors` goes through, and the calls it makes. -/
def disabledHandles (s : HalProxy P) : List Int32 := s.mSensors.keys ++ s.mDynamicSensors.keys

def disableAllSensors (s : HalProxy P) : List (Reply P) :=
  s.disabledHandles.map fun sensorHandle => s.activate sensorHandle false

end HalProxy

/-! ## Lookups -/

theorem SensorMap.subscript_of_mem {m : SensorMap} {h : Int32} (hm : h ∈ m) :
    m.subscript h = m := by
  refine Std.ExtTreeMap.ext_getElem? fun k => ?_
  unfold SensorMap.subscript
  rw [Std.ExtTreeMap.getElem?_insertIfNew, if_neg]
  rintro ⟨hk, hnot⟩
  rw [Std.LawfulEqCmp.compare_eq_iff_eq] at hk
  exact hnot (hk ▸ hm)

theorem SensorMap.mem_subscript_self (m : SensorMap) (h : Int32) : h ∈ m.subscript h :=
  Std.ExtTreeMap.mem_insertIfNew_self

theorem SensorMap.mem_subscript {m : SensorMap} {h k : Int32} (hk : k ∈ m) : k ∈ m.subscript h :=
  Std.ExtTreeMap.mem_insertIfNew.2 (.inr hk)

theorem mem_countNumWakeupEvents {m : SensorMap} {k : Int32} (hk : k ∈ m)
    (events : List (Event P)) (n : ℕ) : k ∈ (countNumWakeupEvents K m events n).2 := by
  induction events generalizing m n with
  | nil => exact hk
  | cons event events ih =>
    cases n with
    | zero => exact hk
    | succ n => exact ih (SensorMap.mem_subscript hk) n

/-- The count leaves the map alone exactly if it has all the handles that are looked up. -/
theorem countNumWakeupEvents_snd_eq_iff (m : SensorMap) (events : List (Event P)) (n : ℕ) :
    (countNumWakeupEvents K m events n).2 = m ↔ ∀ e ∈ events.take n, e.sensorHandle ∈ m := by
  induction events generalizing n with
  | nil => simp [countNumWakeupEvents]
  | cons event events ih =>
    cases n with
    | zero => simp [countNumWakeupEvents]
    | succ n =>
      rw [List.take_succ_cons, List.forall_mem_cons]
      show (countNumWakeupEvents K (m.subscript event.sensorHandle) events n).2 = m ↔ _
      by_cases hm : event.sensorHandle ∈ m
      · rw [SensorMap.subscript_of_mem hm, ih]
        simp [hm]
      · refine iff_of_false (fun heq => hm ?_) fun h => hm h.1
        rw [← heq]
        exact mem_countNumWakeupEvents (SensorMap.mem_subscript_self m _) events n

/-! ## The step that looks up -/

/-- The failed chunk is counted event by event: it is not the last of its batch, and the batch has
wake-up events. -/
def LooksUp (s : System P) (eventQueueSize : ℕ) : Prop :=
  0 < s.proxy.pendingWakeupEvents ∧ eventQueueSize < s.proxy.pendingWriteEvents.length

/-- If a chunk fails and is counted, all its handles are in the static list. -/
def LooksUpListed (s : System P) (a : Action P) : Prop :=
  a.failsWrite = true → ∀ c ∈ s.pendingWrites.chunk?, LooksUp s c.2 →
    ∀ e ∈ s.proxy.pendingWriteEvents.take c.2, e.sensorHandle ∈ s.proxy.mSensors

instance (s : System P) (q : ℕ) : Decidable (LooksUp s q) := by unfold LooksUp; infer_instance

instance (s : System P) (a : Action P) : Decidable (LooksUpListed s a) := by
  unfold LooksUpListed; infer_instance

theorem mSensors_dropPendingWrites_iff (p : HalProxy P) (q : ℕ) :
    (p.dropPendingWrites K q).mSensors = p.mSensors ↔
      (0 < p.pendingWakeupEvents ∧ q < p.pendingWriteEvents.length →
        ∀ e ∈ p.pendingWriteEvents.take q, e.sensorHandle ∈ p.mSensors) := by
  unfold dropPendingWrites failedWriteDecrement
  by_cases hcount : 0 < p.pendingWakeupEvents
  · by_cases hlong : q < p.pendingWriteEvents.length
    · rw [if_pos hcount, if_pos hlong]
      simp [hcount, hlong, countNumWakeupEvents_snd_eq_iff]
    · rw [if_pos hcount, if_neg hlong]
      simp [hlong]
  · rw [if_neg hcount]
    simp [hcount]

/-- Every other step leaves the list alone. -/
theorem mSensors_next_of_not_failsWrite (s : System P) {a : Action P} (ha : a.failsWrite = false) :
    (System.next K s a).proxy.mSensors = s.proxy.mSensors := by
  cases hmain : a.isMain with
  | true =>
    rcases main_next K s hmain with ⟨caller, hnext, -⟩ | ⟨now, rfl⟩
    · rw [hnext]
    · exact mSensors_mainNext s now
  | false =>
    rcases eventMove_next K s hmain with ⟨hsame, -⟩ | ⟨-, -, hs'⟩ | ⟨-, hs'⟩ | ⟨-, -, hs'⟩ |
      ⟨rfl, -, -, hs'⟩ | ⟨-, -, hs'⟩ | ⟨-, hs'⟩
    · exact hsame.mSensors
    · rw [hs']
      show (s.proxy.postEventsToMessageQueue K _ _ _ _ _ _).mSensors = _
      rw [postEventsToMessageQueue_eq]
    · rw [hs']
    · rw [hs']
    · cases ha
    · rw [hs']; rfl
    · rw [hs']

theorem mSensors_next_iff {s : System P} {a : Action P} (hg : s.guard a) :
    (System.next K s a).proxy.mSensors = s.proxy.mSensors ↔ LooksUpListed s a := by
  cases hfails : a.failsWrite with
  | false =>
    refine iff_of_true (mSensors_next_of_not_failsWrite s hfails) fun htrue => ?_
    rw [hfails] at htrue
    cases htrue
  | true =>
    obtain rfl : a = .writeBlocking false := by
      cases a with
      | writeBlocking ok => cases ok with
        | false => rfl
        | true => cases hfails
      | _ => cases hfails
    cases hw : s.pendingWrites with
    | writing n q =>
      have hnext : (System.next K s (.writeBlocking false)).proxy =
          s.proxy.dropPendingWrites K q := by
        simp only [System.next, hw]; rfl
      rw [hnext, mSensors_dropPendingWrites_iff]
      simp [LooksUpListed, LooksUp, hw, PendingWritesThread.chunk?, Action.failsWrite]
    | _ => simp [System.guard, hw] at hg

/-! ## The lookups of `processEvents` -/

/-- A `getSensorInfo`: the record for a handle, and the static list after the lookup. -/
abbrev GetSensorInfo := SensorMap → Int32 → SensorInfo × SensorMap

def ReadsOnly (getSensorInfo : GetSensorInfo) : Prop := ∀ m h, (getSensorInfo m h).2 = m

/-- The static list after the events have been looked up. -/
def lookUp (getSensorInfo : GetSensorInfo) (m : SensorMap) (events : List (Event P)) : SensorMap :=
  events.foldl (fun m event => (getSensorInfo m event.sensorHandle).2) m

theorem lookUp_eq {getSensorInfo : GetSensorInfo} (h : ReadsOnly getSensorInfo) (m : SensorMap)
    (events : List (Event P)) : lookUp getSensorInfo m events = m := by
  induction events generalizing m with
  | nil => rfl
  | cons event events ih =>
    show lookUp getSensorInfo (getSensorInfo m event.sensorHandle).2 events = m
    rw [h, ih]

/-- The events that go through `processEvents`. -/
def System.processed (s : System P) : Action P → List (Event P)
  | .postEvents _ _ events _ => if s.proxy.mThreadsRun then events else []
  | _ => []

/-! ## Runs with dynamic sensors -/

/-- The threads, and the sub-HALs that connect and disconnect dynamic sensors. -/
inductive ProxyAction (P : Type)
  | thread (a : Action P)
  | onDynamicSensorsConnected (subHalIndex : ℕ) (dynamicSensorsAdded : List SensorInfo)
  | onDynamicSensorsDisconnected (subHalIndex : ℕ) (dynamicSensorHandlesRemoved : List Int32)

/-- `connected` is every dynamic sensor a sub-HAL has connected so far, with its index. -/
structure ProxyRun (P : Type) where
  system : System P
  connected : List (ℕ × SensorInfo)

namespace ProxyRun

def constructed (K : Constants) (P : Type) (subHals : List SubHal) (clock : ℤ) : ProxyRun P :=
  ⟨.constructed K P subHals clock, []⟩

def setDynamicSensors (s : ProxyRun P) (m : SensorMap) : System P :=
  { s.system with proxy := { s.system.proxy with mDynamicSensors := m } }

def setSensors (s : System P) (m : SensorMap) : System P :=
  { s with proxy := { s.proxy with mSensors := m } }

def guard (s : ProxyRun P) : ProxyAction P → Prop
  | .thread a => s.system.guard a
  | _ => True

def next (K : Constants) (getSensorInfo : GetSensorInfo) (s : ProxyRun P) :
    ProxyAction P → ProxyRun P
  | .thread a =>
    let system := System.next K s.system a
    { s with
      system := setSensors system
        (lookUp getSensorInfo system.proxy.mSensors (s.system.processed a)) }
  | .onDynamicSensorsConnected i added =>
    { system := s.setDynamicSensors
        (onDynamicSensorsConnected i s.system.proxy.mDynamicSensors added).1
      connected := s.connected ++ added.map (Prod.mk i) }
  | .onDynamicSensorsDisconnected i removed =>
    { s with
      system := s.setDynamicSensors
        (onDynamicSensorsDisconnected i s.system.proxy.mDynamicSensors removed).1 }

/-- The run condition: failed chunks that are counted have only handles of the static list. -/
def LooksUpListed (s : ProxyRun P) : ProxyAction P → Prop
  | .thread a => MultiHal.LooksUpListed s.system a
  | _ => True

end ProxyRun

theorem ProxyRun.next_thread {getSensorInfo : GetSensorInfo} (h : ReadsOnly getSensorInfo)
    (s : ProxyRun P) (a : Action P) :
    s.next K getSensorInfo (.thread a) = { s with system := System.next K s.system a } := by
  dsimp only [ProxyRun.next]
  rw [lookUp_eq h]
  rfl

def proxyRuns (K : Constants) (getSensorInfo : GetSensorInfo) (P : Type) :
    GuardedSystem (ProxyRun P) (ProxyAction P) :=
  ⟨ProxyRun.guard, ProxyRun.next K getSensorInfo⟩

instance (getSensorInfo : GetSensorInfo) (s : ProxyRun P) (a : ProxyAction P) :
    Decidable ((proxyRuns K getSensorInfo P).guard s a) := by
  show Decidable (s.guard a)
  cases a with
  | thread a => exact inferInstanceAs (Decidable ((multiHal K P).guard s.system a))
  | _ => exact isTrue trivial

instance (s : ProxyRun P) (a : ProxyAction P) : Decidable (s.LooksUpListed a) := by
  cases a with
  | thread a => exact inferInstanceAs (Decidable (MultiHal.LooksUpListed s.system a))
  | _ => exact isTrue trivial

/-- Some sub-HAL advertised the handle: in its list, or by connecting a dynamic sensor. -/
def AdvertisedBy (subHals : List SubHal) (connected : List (ℕ × SensorInfo)) (p : Int32) : Prop :=
  ∃ i sensor, subHalIndexIsClear sensor.sensorHandle = true ∧
    p = setSubHalIndex sensor.sensorHandle i ∧
    ((∃ subHal, subHals[i]? = some subHal ∧ sensor ∈ subHal.sensors) ∨ (i, sensor) ∈ connected)

theorem AdvertisedBy.append {subHals : List SubHal} {connected : List (ℕ × SensorInfo)} {p : Int32}
    (h : AdvertisedBy subHals connected p) (more : List (ℕ × SensorInfo)) :
    AdvertisedBy subHals (connected ++ more) p := by
  obtain ⟨i, sensor, hclear, hp, hfrom⟩ := h
  exact ⟨i, sensor, hclear, hp, hfrom.imp_right (List.mem_append_left more)⟩

/-- The static list has handles of the sub-HALs' lists only. -/
theorem advertisedBy_construct {subHals : List SubHal} {p : Int32}
    (hp : p ∈ (construct K subHals : HalProxy P).mSensors) (connected : List (ℕ × SensorInfo)) :
    AdvertisedBy subHals connected p := by
  rw [Std.ExtTreeMap.mem_iff_isSome_getElem?, (listed_construct K P subHals).sensors,
    Option.isSome_map, Option.isSome_iff_exists] at hp
  obtain ⟨⟨j, sensor⟩, he⟩ := hp
  obtain ⟨hmem, hhandle⟩ := mem_of_latestAt he
  obtain ⟨subHal, hj, hsensor⟩ := mem_acceptedFrom_zero.1 hmem
  exact ⟨j, sensor, SubHal.clear_of_mem_accepted hsensor, hhandle.symm,
    .inl ⟨subHal, hj, List.mem_of_mem_filter hsensor⟩⟩

/-- A connecting update adds handles of the connected sensors only. -/
theorem mem_connected {i : ℕ} {m : SensorMap} {added : List SensorInfo} {p : Int32}
    (hp : p ∈ (onDynamicSensorsConnected i m added).1) :
    p ∈ m ∨ ∃ sensor ∈ added, subHalIndexIsClear sensor.sensorHandle = true ∧
      p = setSubHalIndex sensor.sensorHandle i := by
  induction added generalizing m with
  | nil => exact .inl hp
  | cons sensor added ih =>
    unfold onDynamicSensorsConnected at hp
    split at hp
    · rcases ih hp with h | ⟨sensor', hmem, h⟩
      · exact .inl h
      · exact .inr ⟨sensor', List.mem_cons_of_mem _ hmem, h⟩
    · next hclear =>
      rcases ih hp with h | ⟨sensor', hmem, h⟩
      · rcases DynamicSensors.mem_insert_iff.1 h with h | h
        · exact .inl h
        · exact .inr ⟨sensor, List.mem_cons_self, by simpa using hclear, h⟩
      · exact .inr ⟨sensor', List.mem_cons_of_mem _ hmem, h⟩

/-- The threads of the proxy only ever clear the map of dynamic sensors. -/
theorem mDynamicSensors_next (s : System P) (a : Action P) :
    (System.next K s a).proxy.mDynamicSensors = s.proxy.mDynamicSensors ∨
      (System.next K s a).proxy.mDynamicSensors = ∅ := by
  cases ha : a.isMain with
  | false => exact .inl (sameSetup_next K s ha).mDynamicSensors
  | true =>
    rcases main_next K s ha with ⟨caller, hnext, -⟩ | ⟨now, rfl⟩
    · rw [hnext]; exact .inl rfl
    · show (s.mainNext now).proxy.mDynamicSensors = _ ∨ (s.mainNext now).proxy.mDynamicSensors = _
      unfold System.mainNext
      cases s.main with
      | clearDynamicSensors args => exact .inr rfl
      | joinWakelockThread caller => cases caller <;> exact .inl rfl
      | initializeSubHal i args result => dsimp only; split <;> exact .inl rfl
      | _ => exact .inl rfl

/-! ## Runs -/

/-- The static list is the one that was built, and the map of dynamic sensors has handles of
connected sensors only. -/
structure Stable (K : Constants) (subHals : List SubHal) (s : ProxyRun P) : Prop where
  mSensors : s.system.proxy.mSensors = (construct K subHals : HalProxy (Origin × P)).mSensors
  dynamic : ∀ p ∈ s.system.proxy.mDynamicSensors, AdvertisedBy subHals s.connected p

theorem stable_constructed (subHals : List SubHal) (clock : ℤ) :
    Stable K subHals (ProxyRun.constructed K P subHals clock) := by
  refine ⟨rfl, fun p hp => ?_⟩
  obtain ⟨owner, m, hframe⟩ := construct_frame (P := Origin × P) K subHals
  have hp' : p ∈ (construct K subHals : HalProxy (Origin × P)).mDynamicSensors := hp
  rw [hframe] at hp'
  exact absurd hp' Std.ExtTreeMap.not_mem_empty

section

variable {getSensorInfo : GetSensorInfo} {subHals : List SubHal} {clock : ℤ} {s : ProxyRun P}

theorem stable_next (hreads : ReadsOnly getSensorInfo) (hs : Stable K subHals s)
    {a : ProxyAction P} (hg : s.guard a) (ha : s.LooksUpListed a) :
    Stable K subHals (s.next K getSensorInfo a) := by
  cases a with
  | thread a =>
    rw [ProxyRun.next_thread hreads]
    refine ⟨((mSensors_next_iff hg).2 ha).trans hs.mSensors, fun p hp => ?_⟩
    have hp' : p ∈ (System.next K s.system a).proxy.mDynamicSensors := hp
    rcases mDynamicSensors_next (K := K) s.system a with h | h
    · rw [h] at hp'
      exact hs.dynamic p hp'
    · rw [h] at hp'
      exact absurd hp' Std.ExtTreeMap.not_mem_empty
  | onDynamicSensorsConnected i added =>
    refine ⟨hs.mSensors, fun p hp => ?_⟩
    rcases mem_connected hp with hold | ⟨sensor, hmem, hclear, rfl⟩
    · exact (hs.dynamic p hold).append _
    · exact ⟨i, sensor, hclear, rfl,
        .inr (List.mem_append_right _ (List.mem_map.2 ⟨sensor, hmem, rfl⟩))⟩
  | onDynamicSensorsDisconnected i removed =>
    refine ⟨hs.mSensors, fun p hp => hs.dynamic p ?_⟩
    exact ((DynamicSensors.keys_disconnected i s.system.proxy.mDynamicSensors removed).1 p).1 hp |>.1

theorem stable_of_reach (hreads : ReadsOnly getSensorInfo)
    (h : (proxyRuns K getSensorInfo P).Reach ProxyRun.LooksUpListed
      (.constructed K P subHals clock) s) : Stable K subHals s :=
  h.invariant (stable_constructed subHals clock) fun _ _ hs hg ha => stable_next hreads hs hg ha

/-- **The static list.** In every run whose counted failed chunks have only handles of the static
list, that list is the one the constructor built, both `getSensorsList` answer the same, and
`disableAllSensors` goes through handles that a sub-HAL advertised. From such a state a step of a
thread changes the list exactly if it fails the condition. -/
theorem mSensors_of_reach (hreads : ReadsOnly getSensorInfo)
    (h : (proxyRuns K getSensorInfo P).Reach ProxyRun.LooksUpListed
      (.constructed K P subHals clock) s) :
    let built : HalProxy (Origin × P) := construct K subHals
    s.system.proxy.mSensors = built.mSensors ∧
    s.system.proxy.getSensorsList_2_1 = built.getSensorsList_2_1 ∧
    s.system.proxy.getSensorsList = built.getSensorsList ∧
    (∀ r ∈ s.system.proxy.disableAllSensors, ∃ p, AdvertisedBy subHals s.connected p ∧
      r = s.system.proxy.activate p false) ∧
    ∀ a, s.guard (.thread a) →
      ((s.next K getSensorInfo (.thread a)).system.proxy.mSensors = built.mSensors ↔
        s.LooksUpListed (.thread a)) := by
  intro built
  have hs := stable_of_reach hreads h
  have hsensors : s.system.proxy.mSensors = built.mSensors := hs.mSensors
  refine ⟨hsensors, ?_, ?_, fun r hr => ?_, fun a hg => ?_⟩
  · rw [getSensorsList_2_1, hsensors]; rfl
  · rw [getSensorsList, hsensors]; rfl
  · obtain ⟨p, hp, rfl⟩ := List.mem_map.1 hr
    refine ⟨p, ?_, rfl⟩
    rcases List.mem_append.1 hp with hp | hp
    · rw [hsensors, Std.ExtTreeMap.mem_keys] at hp
      exact advertisedBy_construct hp s.connected
    · exact hs.dynamic p (Std.ExtTreeMap.mem_keys.1 hp)
  · rw [ProxyRun.next_thread hreads, ← hsensors]
    exact mSensors_next_iff hg

end

/-- The record of the static list, or an empty one. -/
def findSensorInfo : GetSensorInfo := fun m h => (m.getD h default, m)

/-- An FMQ of one event; a dynamic sensor 5 is connected, and its event posted together with a
wake-up event while the FMQ is full. -/
def oversizedRun (first second : Int32) : List (ProxyAction ℕ) :=
  (initializeRun 1).map .thread ++
    [.onDynamicSensorsConnected 0 [⟨5, 0, .LIGHT, ""⟩], .thread (.createScopedWakelock 0 true 1),
      .thread (.postEvents 0 0 [⟨first, .LIGHT, 0, 7⟩, ⟨second, .LIGHT, 0, 8⟩] 1),
      .thread (.postEventsToMessageQueue 0 0 true 1), .thread .takePendingWrites,
      .thread (.writeBlocking false)]

theorem mSensors_of_reach_sample :
    let s := (proxyRuns sampleConstants findSensorInfo ℕ).exec
      (.constructed sampleConstants ℕ sampleSubHals 0) (oversizedRun 1 5)
    let built : HalProxy (Origin × ℕ) := construct sampleConstants sampleSubHals
    s.system.proxy.mSensors = built.mSensors ∧
    s.system.proxy.getSensorsList_2_1 = built.getSensorsList_2_1 ∧
    s.system.proxy.getSensorsList = built.getSensorsList ∧
    (∀ r ∈ s.system.proxy.disableAllSensors, ∃ p, AdvertisedBy sampleSubHals s.connected p ∧
      r = s.system.proxy.activate p false) ∧
    ∀ a, s.guard (.thread a) →
      ((s.next sampleConstants findSensorInfo (.thread a)).system.proxy.mSensors =
          built.mSensors ↔ s.LooksUpListed (.thread a)) :=
  mSensors_of_reach (fun _ _ => rfl) (GuardedSystem.reach_exec (by decide))

/-- The failed chunk is the event of the dynamic sensor: the static list gets a record for it. -/
theorem dynamic_sensor_listed :
    ∃ s, (proxyRuns sampleConstants findSensorInfo ℕ).Reach (fun _ _ => True)
        (.constructed sampleConstants ℕ sampleSubHals 0) s ∧
      5 ∈ s.system.proxy.mSensors ∧
      5 ∉ (construct sampleConstants sampleSubHals : HalProxy (Origin × ℕ)).mSensors ∧
      s.system.proxy.getSensorsList_2_1 ≠
        (construct sampleConstants sampleSubHals : HalProxy (Origin × ℕ)).getSensorsList_2_1 := by
  set s := (proxyRuns sampleConstants findSensorInfo ℕ).exec
    (.constructed sampleConstants ℕ sampleSubHals 0) (oversizedRun 5 1) with hs
  exact ⟨s, GuardedSystem.reach_exec (by decide), by decide, by decide,
    by decide⟩

end RealmeSalaa.MultiHal
