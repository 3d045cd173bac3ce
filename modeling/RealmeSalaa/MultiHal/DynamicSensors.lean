import RealmeSalaa.Lib.GuardedSystem
import RealmeSalaa.Lib.Notice
import RealmeSalaa.MultiHal.SensorList

/-!
# The framework's view of dynamic sensors

Sub-HAL threads connect and disconnect dynamic sensors. Each call updates `mDynamicSensors` under
`mDynamicSensorsMutex`, unlocks, and then calls back to the framework, so callbacks of different
calls may arrive in another order than their updates.

Read in the order of the updates, the callbacks are sound and replay to the keys of the map,
whatever the lists contain (`keys_connected`, `keys_disconnected`). A callback that overtakes
others keeps this as long as it does not connect a handle that one of them disconnects, or the other
way round.
-/

namespace RealmeSalaa.MultiHal

open HalProxy

/-- The callback a call makes after it unlocked. -/
inductive DynamicCallback
  | onDynamicSensorsConnected (sensors : List SensorInfo)
  | onDynamicSensorsDisconnected (sensorHandles : List Int32)

/-- What the callback tells the framework. -/
def DynamicCallback.notice : DynamicCallback → Notice Int32
  | onDynamicSensorsConnected sensors => .added (sensors.map SensorInfo.sensorHandle)
  | onDynamicSensorsDisconnected sensorHandles => .removed sensorHandles

/-- `inFlight` are the callbacks of calls past their unlock, in the order of their updates;
`delivered` are the callbacks that reached the framework, in the order they did. -/
structure DynamicSensors where
  mDynamicSensors : SensorMap
  inFlight : List DynamicCallback
  delivered : List DynamicCallback

inductive DynamicAction
  /-- the locked update of `onDynamicSensorsConnected` -/
  | connect (subHalIndex : ℕ) (dynamicSensorsAdded : List SensorInfo)
  /-- the locked update of `onDynamicSensorsDisconnected` -/
  | disconnect (subHalIndex : ℕ) (dynamicSensorHandlesRemoved : List Int32)
  /-- the `k`-th callback in flight reaches the framework -/
  | callback (k : ℕ)

namespace DynamicSensors

def guard (s : DynamicSensors) : DynamicAction → Prop
  | .connect _ _ => True
  | .disconnect _ _ => True
  | .callback k => k < s.inFlight.length

def next (s : DynamicSensors) : DynamicAction → DynamicSensors
  | .connect subHalIndex added =>
    let r := HalProxy.onDynamicSensorsConnected subHalIndex s.mDynamicSensors added
    { s with
      mDynamicSensors := r.1
      inFlight := s.inFlight ++ [.onDynamicSensorsConnected r.2] }
  | .disconnect subHalIndex removed =>
    let r := HalProxy.onDynamicSensorsDisconnected subHalIndex s.mDynamicSensors removed
    { s with
      mDynamicSensors := r.1
      inFlight := s.inFlight ++ [.onDynamicSensorsDisconnected r.2] }
  | .callback k =>
    { s with
      inFlight := s.inFlight.take k ++ s.inFlight.drop (k + 1)
      delivered := s.delivered ++ s.inFlight[k]?.toList }

def system : GuardedSystem DynamicSensors DynamicAction := ⟨guard, next⟩

instance (s : DynamicSensors) (a : DynamicAction) : Decidable (system.guard s a) := by
  show Decidable (s.guard a)
  cases a <;> unfold guard <;> infer_instance

/-- The state after `mDynamicSensors.clear()`, with a framework that knows of no sensor. -/
def cleared : DynamicSensors := ⟨∅, [], []⟩

/-! ## Specification -/

/-- The handles the framework takes for connected. -/
def view (s : DynamicSensors) : Set Int32 :=
  Notice.replay ∅ (s.delivered.map DynamicCallback.notice)

/-- Once all calls have returned the framework knows exactly the keys of the map, and it was never
told of the disconnection of a handle it did not take for connected. -/
def Agrees (s : DynamicSensors) : Prop :=
  (s.inFlight = [] → s.view = {h | h ∈ s.mDynamicSensors}) ∧
    Notice.Sound ∅ (s.delivered.map DynamicCallback.notice)

/-- A callback of a connection arrives after those of all earlier disconnections of a common handle,
and one of a disconnection after those of the connections. -/
def InOrder (s : DynamicSensors) : DynamicAction → Prop
  | .callback k => ∀ b ∈ s.inFlight.take k, ∀ c ∈ s.inFlight[k]?, b.notice.Agree c.notice
  | _ => True

instance (s : DynamicSensors) (a : DynamicAction) : Decidable (s.InOrder a) := by
  cases a <;> unfold InOrder <;> infer_instance

/-! ## The locked updates -/

theorem mem_insert_iff {m : SensorMap} {h k : Int32} {info : SensorInfo} :
    h ∈ m.insert k info ↔ h ∈ m ∨ h = k := by
  rw [Std.ExtTreeMap.mem_insert, Std.LawfulEqCmp.compare_eq_iff_eq, or_comm, eq_comm]

theorem mem_erase_iff {m : SensorMap} {h k : Int32} : h ∈ m.erase k ↔ h ∈ m ∧ h ≠ k := by
  rw [Std.ExtTreeMap.mem_erase, ne_eq, Std.LawfulEqCmp.compare_eq_iff_eq, and_comm, ne_comm]

/-- A connecting update adds exactly the handles of its callback. -/
theorem keys_connected (i : ℕ) (m : SensorMap) (added : List SensorInfo) (h : Int32) :
    h ∈ (HalProxy.onDynamicSensorsConnected i m added).1 ↔
      h ∈ m ∨ h ∈ (HalProxy.onDynamicSensorsConnected i m added).2.map SensorInfo.sensorHandle := by
  induction added generalizing m with
  | nil => simp [HalProxy.onDynamicSensorsConnected]
  | cons sensor added ih =>
    unfold HalProxy.onDynamicSensorsConnected
    split
    · exact ih m
    · dsimp only
      rw [ih, mem_insert_iff, List.map_cons, List.mem_cons, or_assoc]

/-- A disconnecting update removes exactly the handles of its callback, which were all there. -/
theorem keys_disconnected (i : ℕ) (m : SensorMap) (removed : List Int32) :
    (∀ h, h ∈ (HalProxy.onDynamicSensorsDisconnected i m removed).1 ↔
      h ∈ m ∧ h ∉ (HalProxy.onDynamicSensorsDisconnected i m removed).2) ∧
    ∀ h ∈ (HalProxy.onDynamicSensorsDisconnected i m removed).2, h ∈ m := by
  induction removed generalizing m with
  | nil => simp [HalProxy.onDynamicSensorsDisconnected]
  | cons sensorHandle removed ih =>
    unfold HalProxy.onDynamicSensorsDisconnected
    split
    · exact ih m
    · dsimp only
      split
      · next hmem =>
        obtain ⟨hkeys, hin⟩ := ih (m.erase (setSubHalIndex sensorHandle i))
        refine ⟨fun h => ?_, fun h hh => ?_⟩
        · rw [hkeys, mem_erase_iff, List.mem_cons, not_or, and_assoc]
        · rcases List.mem_cons.1 hh with rfl | hh
          · exact hmem
          · exact (mem_erase_iff.1 (hin h hh)).1
      · exact ih m

/-! ## Callbacks in the order of their updates -/

/-- All callbacks, those in flight after the delivered ones, in the order of their updates. -/
def notices (s : DynamicSensors) : List (Notice Int32) :=
  (s.delivered ++ s.inFlight).map DynamicCallback.notice

/-- Once everything in flight arrives in order, the framework agrees with the map. -/
structure Consistent (s : DynamicSensors) : Prop where
  sound : Notice.Sound ∅ s.notices
  keys : ∀ h, h ∈ Notice.replay ∅ s.notices ↔ h ∈ s.mDynamicSensors

theorem consistent_cleared : cleared.Consistent :=
  ⟨trivial, fun h => by simp [cleared, notices, Notice.replay]⟩

/-- An update appends its callback; the rest is about that callback alone. -/
theorem consistent_append {s t : DynamicSensors} (hs : s.Consistent) {c : DynamicCallback}
    (hd : t.delivered = s.delivered) (hf : t.inFlight = s.inFlight ++ [c])
    (hsound : c.notice.SoundAt {h | h ∈ s.mDynamicSensors})
    (hkeys : ∀ h, h ∈ t.mDynamicSensors ↔ h ∈ c.notice.apply {h | h ∈ s.mDynamicSensors}) :
    t.Consistent := by
  have hn : t.notices = s.notices ++ [c.notice] := by
    simp [notices, hd, hf]
  have hmem : ∀ h, h ∈ Notice.replay ∅ s.notices ↔ h ∈ {h | h ∈ s.mDynamicSensors} := hs.keys
  constructor
  · rw [hn, Notice.sound_append]
    exact ⟨hs.sound, (Notice.soundAt_congr hmem).2 hsound, trivial⟩
  · intro h
    rw [hn, Notice.replay_append, hkeys]
    exact Notice.mem_apply_congr (hmem h)

theorem consistent_next {s : DynamicSensors} (hs : s.Consistent) {a : DynamicAction}
    (hg : s.guard a) (ho : s.InOrder a) : (s.next a).Consistent := by
  cases a with
  | connect i added =>
    refine consistent_append hs (c := .onDynamicSensorsConnected _) rfl rfl trivial fun h => ?_
    exact keys_connected i s.mDynamicSensors added h
  | disconnect i removed =>
    obtain ⟨hkeys, hin⟩ := keys_disconnected i s.mDynamicSensors removed
    exact consistent_append hs (c := .onDynamicSensorsDisconnected _) rfl rfl hin hkeys
  | callback k =>
    have hk : k < s.inFlight.length := hg
    set c := s.inFlight[k] with hc
    have hget : s.inFlight[k]? = some c := List.getElem?_eq_getElem hk
    set pre := (s.inFlight.take k).map DynamicCallback.notice with hpre
    set post := (s.inFlight.drop (k + 1)).map DynamicCallback.notice with hpost
    have hold : s.notices =
        s.delivered.map DynamicCallback.notice ++ (pre ++ c.notice :: post) := by
      have hsplit : s.inFlight = s.inFlight.take k ++ c :: s.inFlight.drop (k + 1) := by
        rw [hc, List.getElem_cons_drop, List.take_append_drop]
      rw [notices, hsplit]
      simp [hpre, hpost]
    have hnew : (s.next (.callback k)).notices =
        s.delivered.map DynamicCallback.notice ++ (c.notice :: pre ++ post) := by
      simp [notices, next, hget, hpre, hpost]
    have hagree : ∀ m ∈ pre, m.Agree c.notice := by
      intro m hm
      obtain ⟨b, hb, rfl⟩ := List.mem_map.1 hm
      exact ho b hb c hget
    constructor
    · rw [hnew, Notice.sound_append]
      have hsound := hs.sound
      rw [hold, Notice.sound_append] at hsound
      exact ⟨hsound.1, Notice.sound_overtake hagree hsound.2⟩
    · intro h
      rw [hnew, Notice.replay_append, ← Notice.replay_overtake hagree, ← Notice.replay_append,
        ← hold]
      exact hs.keys h

/-- What a consistent state shows the framework. -/
theorem agrees_of_consistent {s : DynamicSensors} (hs : s.Consistent) : s.Agrees := by
  constructor
  · intro hnone
    ext h
    have hkeys := hs.keys h
    rwa [notices, hnone, List.append_nil] at hkeys
  · have hsound := hs.sound
    rw [notices, List.map_append, Notice.sound_append] at hsound
    exact hsound.1

/-- **Dynamic sensors.** When a connection and a disconnection of the same handle reach the framework
in the order of their updates, its view agrees with the map. -/
theorem agrees_of_inOrder {s : DynamicSensors} (h : system.Reach InOrder cleared s) : s.Agrees :=
  agrees_of_consistent
    (h.invariant consistent_cleared fun _ _ hs hg ho => consistent_next hs hg ho)

/-- Sensor 1 of sub-HAL 0 is connected and then disconnected. -/
def connectThenDisconnect : List DynamicAction :=
  [.connect 0 [⟨1, 0, .LIGHT, ""⟩], .disconnect 0 [1]]

/-- Sensor 2 is connected twice, and the second callback overtakes the first. -/
theorem agrees_of_inOrder_sample :
    (system.exec cleared (connectThenDisconnect ++
      [.connect 0 [⟨2, 0, .LIGHT, ""⟩], .connect 0 [⟨2, 0, .LIGHT, "2"⟩], .callback 3, .callback 0,
        .callback 0, .callback 0])).Agrees :=
  agrees_of_inOrder (GuardedSystem.reach_exec (by decide))

/-- The callback of the disconnection overtakes that of the connection: the framework is left with
a sensor that is gone, and was first told of the disconnection of an unknown one. -/
theorem overtaking_callback_disagrees :
    ∃ s, system.Reach (fun _ _ => True) cleared s ∧ s.inFlight = [] ∧
      1 ∈ s.view ∧ 1 ∉ s.mDynamicSensors ∧
      ¬ Notice.Sound ∅ (s.delivered.map DynamicCallback.notice) ∧ ¬ s.Agrees := by
  set s := system.exec cleared (connectThenDisconnect ++ [.callback 1, .callback 0]) with hs
  have hdelivered : s.delivered.map DynamicCallback.notice = [.removed [1], .added [1]] := rfl
  have hview : 1 ∈ s.view := by
    rw [view, hdelivered]
    exact .inr List.mem_cons_self
  have hgone : 1 ∉ s.mDynamicSensors := by decide
  refine ⟨s, GuardedSystem.reach_exec (by decide), rfl, hview, hgone, ?_, fun hagrees => ?_⟩
  · rw [hdelivered]
    exact fun hsound => hsound.1 1 List.mem_cons_self
  · rw [hagrees.1 rfl] at hview
    exact hgone hview

end DynamicSensors

end RealmeSalaa.MultiHal
