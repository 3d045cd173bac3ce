import RealmeSalaa.MultiHal.DirectChannel

/-!
# Handle routing

A local handle `h` of sub-HAL `i` becomes the proxy handle `setSubHalIndex h i` on every path, and
distinct pairs get distinct handles, for all 256 values of the first byte
(`toNat_setSubHalIndex`). The way back is shorter: `extractSubHalIndex` shifts a signed handle, so
an index whose top bit is set comes back as a number above any sub-HAL (`extractSubHalIndex_eq`).
Commands therefore reach their sub-HAL exactly for the indices below 128.

`configDirectReport` does not decode the index at all: it strips it and calls the one sub-HAL that
owns direct channels.
-/

namespace RealmeSalaa.MultiHal

variable {P : Type}

/-! ## The paths that hand out handles -/

namespace HalProxy

variable (K : Constants) {s : HalProxy P} {i : ℕ} {sensor : SensorInfo}

/-- The loop body of `initializeSensorList` inserts an accepted sensor under its proxy handle. -/
theorem addSensor_mSensors (i : ℕ) (s : HalProxy P)
    (h : subHalIndexIsClear sensor.sensorHandle = true) :
    ∃ info : SensorInfo, info.sensorHandle = setSubHalIndex sensor.sensorHandle i ∧
      (addSensor K i s sensor).mSensors =
        s.mSensors.insert (setSubHalIndex sensor.sensorHandle i) info := by
  unfold addSensor
  rw [h, Bool.not_true, if_neg Bool.false_ne_true]
  refine ⟨_, ?_, by dsimp only; rw [renameWiseLight_sensorHandle, setDirectChannelFlags_sensorHandle]⟩
  rw [renameWiseLight_sensorHandle, setDirectChannelFlags_sensorHandle]

/-- The static list has a record under key `p` that carries `p`. -/
def Advertises (s : HalProxy P) (p : Int32) : Prop :=
  ∃ info, s.mSensors[p]? = some info ∧ info.sensorHandle = p

/-- The list path: a sensor that a sub-HAL reports is advertised under its proxy handle. -/
theorem advertises_construct (h : subHalIndexIsClear sensor.sensorHandle = true)
    {subHals : List SubHal} {subHal : SubHal} (hi : subHals[i]? = some subHal)
    (hmem : sensor ∈ subHal.sensors) :
    (construct K subHals : HalProxy P).Advertises (setSubHalIndex sensor.sensorHandle i) := by
  have haccepted : sensor ∈ subHal.accepted := List.mem_filter.2 ⟨hmem, h⟩
  have hentry := mem_acceptedFrom_zero.2 ⟨subHal, hi, haccepted⟩
  obtain ⟨e, he⟩ := exists_latestAt hentry
  refine ⟨advertisedAs K (directOwner K (acceptedFrom 0 subHals)) e, ?_, ?_⟩
  · rw [(listed_construct K P subHals).sensors, he]
    rfl
  · rw [advertisedAs_sensorHandle]
    exact (mem_of_latestAt he).2

/-- The dynamic path: the callback reports a sensor under its proxy handle. -/
theorem mem_onDynamicSensorsConnected (h : subHalIndexIsClear sensor.sensorHandle = true)
    {added : List SensorInfo} (hmem : sensor ∈ added) (m : SensorMap) :
    { sensor with sensorHandle := setSubHalIndex sensor.sensorHandle i } ∈
      (onDynamicSensorsConnected i m added).2 := by
  induction added generalizing m with
  | nil => cases hmem
  | cons first added ih =>
    unfold onDynamicSensorsConnected
    rcases List.mem_cons.1 hmem with rfl | hmem
    · rw [h, Bool.not_true, if_neg Bool.false_ne_true]
      exact List.mem_cons_self
    · split
      · exact ih hmem m
      · exact List.mem_cons_of_mem _ (ih hmem _)

end HalProxy

/-! ## The event path -/

namespace HalProxyCallbackBase

@[simp] theorem setSubHalIndex_eq : setSubHalIndex = MultiHal.setSubHalIndex := rfl

theorem processEvents_fst (K : Constants) (getSensorInfo : Int32 → SensorInfo) (i : ℕ)
    (events : List (Event P)) :
    (processEvents K getSensorInfo i events).1 = events.map (processEvent i) := by
  induction events with
  | nil => rfl
  | cons event events ih => simp only [processEvents, List.map_cons, ih]

/-- With lookups in the static list, the count that `processEvents` returns is the true one. -/
theorem processEvents_snd (K : Constants) (m : SensorMap) {getSensorInfo : Int32 → SensorInfo}
    (hget : ∀ h, (getSensorInfo h).flags = m.flags h) (i : ℕ) (events : List (Event P)) :
    (processEvents K getSensorInfo i events).2 =
      numWakeups K m (processEvents K getSensorInfo i events).1 := by
  induction events with
  | nil => rfl
  | cons event events ih =>
    simp only [processEvents, numWakeups, List.countP_cons, isWakeup, hget] at ih ⊢
    rw [ih]
    rfl

@[simp] theorem processEvent_sensorHandle (i : ℕ) (event : Event P) :
    (processEvent i event).sensorHandle = MultiHal.setSubHalIndex event.sensorHandle i := by
  unfold processEvent; dsimp only; split <;> rfl

theorem processEvent_dynamicSensorHandle (i : ℕ) {event : Event P}
    (h : event.sensorType = .DYNAMIC_SENSOR_META) :
    (processEvent i event).dynamicSensorHandle =
      MultiHal.setSubHalIndex event.dynamicSensorHandle i := by
  unfold processEvent; dsimp only; rw [if_pos h]; rfl

end HalProxyCallbackBase

/-! ## Commands -/

section Commands

open HalProxy HalProxyCallbackBase

variable {s : HalProxy P} {h : Int32} {i : ℕ}

theorem forwardToSubHal_setSubHalIndex (hh : subHalIndexIsClear h = true) (hi : i < 128)
    (hlen : i < s.mSubHalList.length) (call : Int32 → SubHalCall P) :
    s.forwardToSubHal (setSubHalIndex h i) call = .forward i (call h) := by
  unfold forwardToSubHal isSubHalIndexValid
  rw [extractSubHalIndex_setSubHalIndex hh hi, clearSubHalIndex_setSubHalIndex hh (by omega)]
  simp [hlen]

/-- An index with its top bit set is refused by every command. -/
theorem forwardToSubHal_of_le (hh : subHalIndexIsClear h = true) (hi : 128 ≤ i)
    (hi' : i < 256) (hlen : s.mSubHalList.length ≤ 256) (call : Int32 → SubHalCall P) :
    s.forwardToSubHal (setSubHalIndex h i) call = .error .BAD_VALUE := by
  have hle := le_extractSubHalIndex hh hi hi'
  unfold forwardToSubHal isSubHalIndexValid
  rw [decide_eq_false (by omega)]
  rfl

/-- Handle `h` of sub-HAL `i` goes by the proxy handle `p`: every path gives it `p`, no other
handle of the list gets `p`, and commands on `p` reach sub-HAL `i` with `h`. -/
structure RoutedAs (K : Constants) (P : Type) (subHals : List SubHal) (i : ℕ) (h p : Int32) :
    Prop where
  list : ∀ (s : HalProxy P) (sensor : SensorInfo), sensor.sensorHandle = h →
    ∃ info : SensorInfo, info.sensorHandle = p ∧
      (addSensor K i s sensor).mSensors = s.mSensors.insert p info
  advertised : ∀ subHal sensor, subHals[i]? = some subHal → sensor ∈ subHal.sensors →
    sensor.sensorHandle = h → (construct K subHals : HalProxy P).Advertises p
  dynamic : ∀ m added, ∀ sensor ∈ added, sensor.sensorHandle = h →
    { sensor with sensorHandle := p } ∈ (onDynamicSensorsConnected i m added).2
  event : ∀ (getSensorInfo : Int32 → SensorInfo) (events : List (Event P)) (k : ℕ) (e : Event P),
    events[k]? = some e → ∃ e', (processEvents K getSensorInfo i events).1[k]? = some e' ∧
      (e.sensorHandle = h → e'.sensorHandle = p) ∧
      (e.sensorType = .DYNAMIC_SENSOR_META → e.dynamicSensorHandle = h →
        e'.dynamicSensorHandle = p)
  distinct : ∀ i' h', i' < subHals.length → subHalIndexIsClear h' = true →
    setSubHalIndex h' i' = p → i' = i ∧ h' = h
  activate : ∀ s : HalProxy P, s.mSubHalList = subHals → ∀ enabled,
    s.activate p enabled = .forward i (.activate h enabled)
  batch : ∀ s : HalProxy P, s.mSubHalList = subHals → ∀ period latency,
    s.batch p period latency = .forward i (.batch h period latency)
  flush : ∀ s : HalProxy P, s.mSubHalList = subHals → s.flush p = .forward i (.flush h)
  injectSensorData : ∀ s : HalProxy P, s.mSubHalList = subHals → ∀ event : Event P,
    event.sensorHandle = p →
    (s.mCurrentOperationMode = .NORMAL → event.sensorType = .ADDITIONAL_INFO) →
    s.injectSensorData event = .forward i (.injectSensorData { event with sensorHandle := h })

theorem routedAs_of_lt (K : Constants) (P : Type) {subHals : List SubHal}
    (hlen : subHals.length ≤ 256) (hi : i < subHals.length) (hh : subHalIndexIsClear h = true)
    (hi' : i < 128) : RoutedAs K P subHals i h (setSubHalIndex h i) where
  list s sensor hs := by
    subst hs
    exact addSensor_mSensors K i s hh
  advertised subHal sensor hget hmem hs := by
    subst hs
    exact advertises_construct K hh hget hmem
  dynamic m added sensor hmem hs := by
    subst hs
    exact mem_onDynamicSensorsConnected hh hmem m
  event getSensorInfo events k e hk := by
    refine ⟨processEvent i e, ?_, ?_, ?_⟩
    · rw [processEvents_fst, List.getElem?_map, hk]
      rfl
    · rintro rfl
      exact processEvent_sensorHandle i e
    · rintro hmeta rfl
      exact processEvent_dynamicSensorHandle i hmeta
  distinct i' h' hlt hh' heq := setSubHalIndex_injective hh hh' (by omega) (by omega) heq
  activate s hs enabled := forwardToSubHal_setSubHalIndex hh hi' (by rwa [hs]) _
  batch s hs period latency := forwardToSubHal_setSubHalIndex hh hi' (by rwa [hs]) _
  flush s hs := forwardToSubHal_setSubHalIndex hh hi' (by rwa [hs]) _
  injectSensorData s hs event hevent hmode := by
    unfold HalProxy.injectSensorData
    rw [if_neg (fun hbad => hbad.2 (hmode hbad.1)), hevent]
    exact forwardToSubHal_setSubHalIndex hh hi' (by rwa [hs]) _

/-- From index 128 on `activate` refuses the handle that the dynamic path reports. -/
theorem not_routedAs_of_le (K : Constants) (P : Type) {subHals : List SubHal}
    (hlen : subHals.length ≤ 256) (hi : i < subHals.length) (hh : subHalIndexIsClear h = true)
    (hi' : 128 ≤ i) (p : Int32) : ¬ RoutedAs K P subHals i h p := by
  intro hr
  have hp : p = setSubHalIndex h i := by
    have hmem := hr.dynamic ∅ [⟨h, 0, .LIGHT, ""⟩] _ List.mem_cons_self rfl
    simp only [onDynamicSensorsConnected, hh, Bool.not_true, Bool.false_eq_true, if_false,
      List.mem_singleton, SensorInfo.mk.injEq] at hmem
    exact hmem.1
  have hlist : (construct K subHals : HalProxy P).mSubHalList = subHals :=
    mSubHalList_construct K subHals
  have hact := hr.activate (construct K subHals) hlist true
  rw [hp, HalProxy.activate, forwardToSubHal_of_le hh hi' (by omega) (by rwa [hlist])] at hact
  cases hact

/-- **Handle routing.** A handle of sub-HAL `i` is routed exactly when the top bit of `i` is
clear. -/
theorem exists_routedAs_iff (K : Constants) (P : Type) {subHals : List SubHal}
    (hlen : subHals.length ≤ 256) (hi : i < subHals.length) (hh : subHalIndexIsClear h = true) :
    (∃ p, RoutedAs K P subHals i h p) ↔ i < 128 := by
  constructor
  · rintro ⟨p, hp⟩
    by_contra hi'
    exact not_routedAs_of_le K P hlen hi hh (by omega) p hp
  · intro hi'
    exact ⟨_, routedAs_of_lt K P hlen hi hh hi'⟩

theorem exists_routedAs_iff_sample :
    (∃ p, RoutedAs sampleConstants Unit
      [⟨[⟨1, 1, .other 1, ""⟩]⟩, ⟨[⟨1, 0, .LIGHT, ""⟩, ⟨2, 0, .other 1, ""⟩]⟩] 1 2 p) ↔ 1 < 128 :=
  exists_routedAs_iff sampleConstants Unit (by decide) (by decide) (by decide)

/-- The 129th of 129 sub-HALs gets no proxy handle that commands accept. -/
theorem not_every_index_routed :
    ¬ ∀ subHals : List SubHal, subHals.length ≤ 256 → ∀ i < subHals.length, ∀ h : Int32,
      subHalIndexIsClear h = true → ∃ p, RoutedAs sampleConstants Unit subHals i h p := by
  intro hall
  obtain ⟨p, hp⟩ := hall (List.replicate 129 ⟨[]⟩) (by simp) 128 (by simp) 1 (by decide)
  exact not_routedAs_of_le sampleConstants Unit (by simp) (by simp) (by decide) (by decide) p hp

end Commands

/-! ## Direct reports -/

section DirectReport

open HalProxy

/-- A reply to a command on `sensorHandle` is an error, or a call to the sub-HAL whose index the
handle carries, with the index stripped. -/
def Reply.StaysHome (sensorHandle : Int32) : Reply P → Prop
  | .error _ => True
  | .forward subHal call =>
    subHal = encodedSubHalIndex sensorHandle ∧ call.sensorHandle = clearSubHalIndex sensorHandle

instance (sensorHandle : Int32) (r : Reply P) : Decidable (r.StaysHome sensorHandle) := by
  cases r <;> unfold Reply.StaysHome <;> infer_instance

/-- A command that decodes the index stays with the sub-HAL of the handle, or is refused. -/
theorem forwardToSubHal_staysHome {s : HalProxy P} (hlen : s.mSubHalList.length ≤ 256)
    {sensorHandle : Int32} {call : Int32 → SubHalCall P} (hcall : ∀ h, (call h).sensorHandle = h) :
    (s.forwardToSubHal sensorHandle call).StaysHome sensorHandle := by
  unfold forwardToSubHal isSubHalIndexValid
  by_cases hvalid : extractSubHalIndex sensorHandle < s.mSubHalList.length
  · simp only [hvalid, decide_true, Bool.not_true, Bool.false_eq_true, if_false]
    exact ⟨(encodedSubHalIndex_of_lt (hvalid.trans_le hlen)).symm, hcall _⟩
  · simp only [hvalid, decide_false, Bool.not_false, if_true]
    trivial

/-- **Direct reports.** Unlike the commands that decode the index, `configDirectReport` stays with
the sub-HAL of the handle exactly when there is no owner of direct channels or the handle carries
the owner's index. -/
theorem configDirectReport_staysHome_iff (s : HalProxy P) {sensorHandle : Int32}
    (hne : sensorHandle ≠ -1) (channelHandle : Int32) (rate : RateLevel) :
    (s.configDirectReport sensorHandle channelHandle rate).StaysHome sensorHandle ↔
      s.mDirectChannelSubHal = none ∨
        s.mDirectChannelSubHal = some (encodedSubHalIndex sensorHandle) := by
  unfold configDirectReport
  cases howner : s.mDirectChannelSubHal with
  | none => simp [Reply.StaysHome]
  | some owner =>
    have hcond : ¬ (sensorHandle = -1 ∧ rate ≠ .STOP) := fun hbad => hne hbad.1
    simp only [if_neg hcond, if_pos hne, Reply.StaysHome, SubHalCall.sensorHandle, and_true,
      reduceCtorEq, false_or, Option.some.injEq]

/-- The last of 129 sub-HALs owns direct channels, and the one before has a sensor without them. -/
def lastOwner : HalProxy Unit :=
  construct sampleConstants (List.replicate 127 ⟨[]⟩ ++
    [⟨[⟨1, 0, .LIGHT, ""⟩]⟩, ⟨[⟨1, 0x380, .LIGHT, ""⟩]⟩])

theorem configDirectReport_staysHome_iff_sample :
    lastOwner.mDirectChannelSubHal = some 128 ∧ encodedSubHalIndex 0x80000001 = 128 ∧
      ((lastOwner.configDirectReport 0x80000001 0 .NORMAL).StaysHome 0x80000001 ↔
        lastOwner.mDirectChannelSubHal = none ∨
          lastOwner.mDirectChannelSubHal = some (encodedSubHalIndex 0x80000001)) ∧
      ((lastOwner.configDirectReport 0x7F000001 0 .NORMAL).StaysHome 0x7F000001 ↔
        lastOwner.mDirectChannelSubHal = none ∨
          lastOwner.mDirectChannelSubHal = some (encodedSubHalIndex 0x7F000001)) :=
  ⟨by decide, by decide, configDirectReport_staysHome_iff _ (by decide) 0 .NORMAL,
    configDirectReport_staysHome_iff _ (by decide) 0 .NORMAL⟩

/-- Sub-HAL 0 owns direct channels with its sensor 1; sub-HAL 1 then connects a dynamic sensor 1
that supports direct reports. -/
def dynamicDirectSensor : HalProxy Unit :=
  let s := construct sampleConstants [⟨[⟨1, 0x380, .LIGHT, ""⟩]⟩, ⟨[]⟩]
  { s with
    mDynamicSensors :=
      (onDynamicSensorsConnected 1 s.mDynamicSensors [⟨1, 0x380, .LIGHT, ""⟩]).1 }

/-- Direct reports asked of the dynamic sensor are configured on sensor 1 of sub-HAL 0. -/
theorem configDirectReport_leaves_home :
    (dynamicDirectSensor.mDynamicSensors[(0x01000001 : Int32)]?).map SensorInfo.flags = some 0x380 ∧
      dynamicDirectSensor.configDirectReport 0x01000001 0 .NORMAL =
        .forward 0 (.configDirectReport 1 0 .NORMAL) ∧
      ¬ (dynamicDirectSensor.configDirectReport 0x01000001 0 .NORMAL).StaysHome 0x01000001 := by
  decide

end DirectReport

end RealmeSalaa.MultiHal
