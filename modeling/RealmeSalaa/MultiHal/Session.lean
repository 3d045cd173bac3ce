import RealmeSalaa.MultiHal.OperationModes
import RealmeSalaa.MultiHal.StaticSensors

/-!
# Sessions of the framework

What the framework and the sub-HALs make of the proxy as a router: commands, operation modes,
initializations, dynamic sensors that come and go. The state has the sub-HALs in it, libraries
outside the repository again, and every call they got with the sub-HAL as the call found it; the
threads of the proxy are those of `System`.

Two things the proxy keeps for the sub-HALs. Its `mCurrentOperationMode` is the mode they are all
in, so that the test of `injectSensorData` speaks for the sub-HAL that gets the event
(`injected_of_reach`). And `disableAllSensors` knows the sensors only from the two maps: a sensor
that is enabled but no longer in one of them stays enabled (`enabled_disableAllSensors`).
-/

namespace RealmeSalaa.MultiHal

open HalProxy

variable {P H : Type}

/-! ## Sub-HALs -/

/-- What the calls answer and make of a sub-HAL, and the sensors it has enabled. -/
structure SubHalInterface (P H : Type) extends ModeInterface H where
  call : H → SubHalCall P → Result × H
  initializeSubHal : H → Result × H
  enabled : H → Int32 → Bool

/-- `activate` with `OK` is what enables and disables. A sub-HAL may refuse what it is asked for, but
not to disable a sensor or to go back to the mode it had, and is in `NORMAL` once initialized. -/
structure SubHalInterface.Lawful (M : SubHalInterface P H) : Prop where
  reliable : M.toModeInterface.Reliable
  mode_call : ∀ h c, M.mode (M.call h c).2 = M.mode h
  mode_initializeSubHal : ∀ h, M.mode (M.initializeSubHal h).2 = .NORMAL
  enabled_activate : ∀ h k on k', M.enabled (M.call h (.activate k on)).2 k' =
    if k' = k ∧ (M.call h (.activate k on)).1 = .OK then on else M.enabled h k'
  stops : ∀ h k, M.enabled h k = true → (M.call h (.activate k false)).1 = .OK
  enabled_call : ∀ h c k, (∀ k on, c ≠ .activate k on) →
    M.enabled (M.call h c).2 k = true → M.enabled h k = true
  enabled_setOperationMode : ∀ h mode k,
    M.enabled (M.setOperationMode h mode).2 k = true → M.enabled h k = true
  enabled_initializeSubHal : ∀ h k,
    M.enabled (M.initializeSubHal h).2 k = true → M.enabled h k = true

/-! ## Calls of the framework -/

/-- The commands that go to one sub-HAL. -/
inductive Command (P : Type)
  | activate (sensorHandle : Int32) (enabled : Bool)
  | batch (sensorHandle : Int32) (samplingPeriodNs maxReportLatencyNs : ℤ)
  | flush (sensorHandle : Int32)
  | injectSensorData (event : Event P)
  | configDirectReport (sensorHandle channelHandle : Int32) (rate : RateLevel)

def HalProxy.reply (s : HalProxy P) : Command P → Reply P
  | .activate sensorHandle enabled => s.activate sensorHandle enabled
  | .batch sensorHandle period latency => s.batch sensorHandle period latency
  | .flush sensorHandle => s.flush sensorHandle
  | .injectSensorData event => s.injectSensorData event
  | .configDirectReport sensorHandle channelHandle rate =>
    s.configDirectReport sensorHandle channelHandle rate

inductive SessionAction (P H : Type)
  | command (c : Command P)
  | setOperationMode (mode : OperationMode)
  | initializeCommon
  | onDynamicSensorsConnected (subHalIndex : ℕ) (dynamicSensorsAdded : List SensorInfo)
  | onDynamicSensorsDisconnected (subHalIndex : ℕ) (dynamicSensorHandlesRemoved : List Int32)
  /-- the lookups of a failed chunk -/
  | countNumWakeupEvents (events : List (Event P)) (n : ℕ)
  /-- what sub-HAL `i` does by itself -/
  | subHal (i : ℕ) (h : H)

/-- `received` are the calls of commands, each with the sub-HAL that got it. -/
structure Session (P H : Type) where
  proxy : HalProxy P
  subHals : List H
  received : List (H × SubHalCall P)

namespace Session

variable (K : Constants) (M : SubHalInterface P H)

/-- The proxy hands a call on, or answers itself. -/
def send (s : Session P H) : Reply P → Result × Session P H
  | .error result => (result, s)
  | .forward i c =>
    match s.subHals[i]? with
    | none => (.BAD_VALUE, s)
    | some h =>
      let answer := M.call h c
      (answer.1,
        { s with subHals := s.subHals.set i answer.2, received := s.received ++ [(h, c)] })

def disableAllSensors (s : Session P H) : Session P H :=
  s.proxy.disableAllSensors.foldl (fun s reply => (send M s reply).2) s

/-- `initializeCommon` as the sub-HALs see it. -/
def initializeCommon (s : Session P H) : Session P H :=
  let s := s.disableAllSensors M
  { s with
    proxy := { s.proxy with mDynamicSensors := ∅, mCurrentOperationMode := .NORMAL }
    subHals := s.subHals.map fun h => (M.initializeSubHal h).2 }

def setOperationMode (mode : OperationMode) (s : Session P H) : Session P H :=
  let switched := (OperationModes.setOperationMode M.toModeInterface mode
    ⟨s.proxy.mCurrentOperationMode, s.subHals, []⟩).2
  { s with
    proxy := { s.proxy with mCurrentOperationMode := switched.mCurrentOperationMode }
    subHals := switched.subHals }

/-- By itself a sub-HAL keeps its mode and enables nothing. -/
def guard (s : Session P H) : SessionAction P H → Prop
  | .subHal i h' => ∃ h, s.subHals[i]? = some h ∧ M.mode h' = M.mode h ∧
      ∀ k, M.enabled h' k = true → M.enabled h k = true
  | _ => True

def next (s : Session P H) : SessionAction P H → Session P H
  | .command c => (s.send M (s.proxy.reply c)).2
  | .setOperationMode mode => s.setOperationMode M mode
  | .initializeCommon => s.initializeCommon M
  | .onDynamicSensorsConnected i added =>
    { s with
      proxy := { s.proxy with
        mDynamicSensors := (onDynamicSensorsConnected i s.proxy.mDynamicSensors added).1 } }
  | .onDynamicSensorsDisconnected i removed =>
    { s with
      proxy := { s.proxy with
        mDynamicSensors := (onDynamicSensorsDisconnected i s.proxy.mDynamicSensors removed).1 } }
  | .countNumWakeupEvents events n =>
    { s with
      proxy := { s.proxy with
        mSensors := (MultiHal.countNumWakeupEvents K s.proxy.mSensors events n).2 } }
  | .subHal i h' => { s with subHals := s.subHals.set i h' }

end Session

def sessions (K : Constants) (M : SubHalInterface P H) :
    GuardedSystem (Session P H) (SessionAction P H) :=
  ⟨Session.guard M, Session.next K M⟩

/-- A proxy just constructed over sub-HALs that are in `NORMAL` mode. -/
structure SubHalInterface.Fresh (M : SubHalInterface P H) (K : Constants) (s : Session P H) :
    Prop where
  proxy : s.proxy = construct K s.proxy.mSubHalList
  length : s.subHals.length = s.proxy.mSubHalList.length
  mode : ∀ h ∈ s.subHals, M.mode h = .NORMAL
  enabled : ∀ h ∈ s.subHals, ∀ k, M.enabled h k = false
  received : s.received = []

namespace Session

variable {K : Constants} {M : SubHalInterface P H} {s : Session P H}

/-! ## One call -/

theorem send_of_none {i : ℕ} (hget : s.subHals[i]? = none) (c : SubHalCall P) :
    s.send M (.forward i c) = (.BAD_VALUE, s) := by
  simp only [send, hget]

theorem send_of_some {i : ℕ} {h : H} (hget : s.subHals[i]? = some h) (c : SubHalCall P) :
    s.send M (.forward i c) = ((M.call h c).1,
      { s with subHals := s.subHals.set i (M.call h c).2, received := s.received ++ [(h, c)] }) := by
  simp only [send, hget]

/-- A reply is answered by the proxy, or changes the sub-HAL it goes to. -/
theorem send_cases (s : Session P H) (r : Reply P) :
    (s.send M r).2 = s ∨ ∃ i c h, r = .forward i c ∧ s.subHals[i]? = some h ∧
      s.send M r = ((M.call h c).1,
        { s with subHals := s.subHals.set i (M.call h c).2, received := s.received ++ [(h, c)] }) := by
  cases r with
  | error result => exact .inl rfl
  | forward i c =>
    cases hget : s.subHals[i]? with
    | none => exact .inl (by rw [send_of_none hget])
    | some h => exact .inr ⟨i, c, h, rfl, hget, send_of_some hget c⟩

@[simp] theorem proxy_send (s : Session P H) (r : Reply P) : (s.send M r).2.proxy = s.proxy := by
  rcases send_cases (M := M) s r with h | ⟨i, c, h, -, -, h'⟩
  · rw [h]
  · rw [h']

@[simp] theorem length_send (s : Session P H) (r : Reply P) :
    (s.send M r).2.subHals.length = s.subHals.length := by
  rcases send_cases (M := M) s r with h | ⟨i, c, h, -, -, h'⟩
  · rw [h]
  · rw [h', List.length_set]

/-- What every call keeps, `disableAllSensors` keeps. -/
theorem disableAllSensors_keeps {I : Session P H → Prop} (s : Session P H) (hs : I s)
    (hstep : ∀ s, I s → ∀ p, I (s.send M (s.proxy.activate p false)).2) :
    I (s.disableAllSensors M) := by
  have hkeeps : I (s.disableAllSensors M) ∧ (s.disableAllSensors M).proxy = s.proxy := by
    refine List.foldlRecOn (motive := fun s' => I s' ∧ s'.proxy = s.proxy)
      s.proxy.disableAllSensors _ ⟨hs, rfl⟩ fun s' hs' r hr => ?_
    obtain ⟨p, -, rfl⟩ := List.mem_map.1 hr
    refine ⟨?_, (proxy_send s' _).trans hs'.2⟩
    have hkeep := hstep s' hs'.1 p
    rwa [hs'.2] at hkeep
  exact hkeeps.1

@[simp] theorem proxy_disableAllSensors (s : Session P H) :
    (s.disableAllSensors M).proxy = s.proxy :=
  disableAllSensors_keeps (I := fun s' => s'.proxy = s.proxy) s rfl fun s' hs' _ =>
    (proxy_send s' _).trans hs'

@[simp] theorem length_disableAllSensors (s : Session P H) :
    (s.disableAllSensors M).subHals.length = s.subHals.length :=
  disableAllSensors_keeps (I := fun s' => s'.subHals.length = s.subHals.length) s rfl
    fun s' hs' _ => (length_send s' _).trans hs'

/-! ## Operation modes -/

/-- All sub-HALs are in the mode of the proxy, and an event that a sub-HAL got in `NORMAL` mode is
additional information. -/
structure Gated (M : SubHalInterface P H) (s : Session P H) : Prop where
  mode : ∀ h ∈ s.subHals, M.mode h = s.proxy.mCurrentOperationMode
  received : ∀ h event, (h, SubHalCall.injectSensorData event) ∈ s.received →
    M.mode h = .NORMAL → event.sensorType = .ADDITIONAL_INFO

/-- A call keeps the modes, and what it brings is gated if the reply is. -/
theorem gated_send (hM : M.Lawful) (hs : Gated M s) {r : Reply P}
    (hr : ∀ i event, r = .forward i (.injectSensorData event) →
      s.proxy.mCurrentOperationMode = .NORMAL → event.sensorType = .ADDITIONAL_INFO) :
    Gated M (s.send M r).2 := by
  rcases send_cases (M := M) s r with h | ⟨i, c, h, rfl, hget, h'⟩
  · rwa [h]
  · rw [h']
    have hmem := List.mem_of_getElem? hget
    refine ⟨fun x hx => ?_, fun x event hx hmode => ?_⟩
    · rcases List.mem_or_eq_of_mem_set hx with hx | rfl
      · exact hs.mode x hx
      · exact (hM.mode_call h c).trans (hs.mode h hmem)
    · rcases List.mem_append.1 hx with hx | hx
      · exact hs.received x event hx hmode
      · obtain ⟨rfl, rfl⟩ := Prod.mk.inj (List.mem_singleton.1 hx)
        exact hr i event rfl ((hs.mode x hmem).symm.trans hmode)

theorem forwardToSubHal_inj {s : HalProxy P} {p : Int32} {call : Int32 → SubHalCall P} {i : ℕ}
    {c : SubHalCall P} (h : s.forwardToSubHal p call = .forward i c) :
    i = extractSubHalIndex p ∧ i < s.mSubHalList.length ∧ c = call (clearSubHalIndex p) := by
  unfold forwardToSubHal at h
  split at h
  · cases h
  · next hvalid =>
    obtain ⟨rfl, rfl⟩ := Reply.forward.inj h
    exact ⟨rfl, by simpa [isSubHalIndexValid] using hvalid, rfl⟩

/-- Only `injectSensorData` forwards events, and it tests the mode. -/
theorem gated_reply (s : HalProxy P) (c : Command P) {i : ℕ} {event : Event P}
    (h : s.reply c = .forward i (.injectSensorData event))
    (hmode : s.mCurrentOperationMode = .NORMAL) :
    event.sensorType = .ADDITIONAL_INFO := by
  cases c with
  | activate p enabled =>
    have h : s.activate p enabled = .forward i (.injectSensorData event) := h
    cases (forwardToSubHal_inj h).2.2
  | batch p period latency =>
    have h : s.batch p period latency = .forward i (.injectSensorData event) := h
    cases (forwardToSubHal_inj h).2.2
  | flush p =>
    have h : s.flush p = .forward i (.injectSensorData event) := h
    cases (forwardToSubHal_inj h).2.2
  | injectSensorData sent =>
    have h : s.injectSensorData sent = .forward i (.injectSensorData event) := h
    unfold HalProxy.injectSensorData at h
    split at h
    · cases h
    · next hpass =>
      rw [SubHalCall.injectSensorData.inj (forwardToSubHal_inj h).2.2]
      exact not_not.1 fun hne => hpass ⟨hmode, hne⟩
  | configDirectReport p channel rate =>
    have h : s.configDirectReport p channel rate = .forward i (.injectSensorData event) := h
    unfold HalProxy.configDirectReport at h
    split at h
    · cases h
    · split at h
      · cases h
      · cases h

theorem gated_setOperationMode (hM : M.Lawful) (hs : Gated M s) (mode : OperationMode) :
    Gated M (s.setOperationMode M mode) := by
  obtain ⟨-, hok, hrefused⟩ :=
    @OperationModes.setOperationMode_allOrNothing _ M.toModeInterface hM.reliable _ mode _ hs.mode
  refine ⟨?_, hs.received⟩
  unfold setOperationMode
  dsimp only
  by_cases h : (OperationModes.setOperationMode M.toModeInterface mode
      ⟨s.proxy.mCurrentOperationMode, s.subHals, []⟩).1 = .OK
  · rw [(hok h).2]
    exact (hok h).1
  · rw [(hrefused h).2.1]
    exact (hrefused h).1

theorem gated_next (hM : M.Lawful) (hs : Gated M s) {a : SessionAction P H} (hg : s.guard M a) :
    Gated M (s.next K M a) := by
  cases a with
  | command c => exact gated_send hM hs fun i event h => gated_reply s.proxy c h
  | setOperationMode mode => exact gated_setOperationMode hM hs mode
  | initializeCommon =>
    have hdisabled : Gated M (s.disableAllSensors M) :=
      disableAllSensors_keeps s hs fun s' hs' p =>
        gated_send hM hs' fun i event h => gated_reply s'.proxy (.activate p false) h
    refine ⟨fun h hh => ?_, hdisabled.received⟩
    obtain ⟨h, -, rfl⟩ := List.mem_map.1 hh
    exact hM.mode_initializeSubHal h
  | onDynamicSensorsConnected i added => exact ⟨hs.mode, hs.received⟩
  | onDynamicSensorsDisconnected i removed => exact ⟨hs.mode, hs.received⟩
  | countNumWakeupEvents events n => exact ⟨hs.mode, hs.received⟩
  | subHal i h' =>
    obtain ⟨h, hget, hmode, -⟩ := hg
    refine ⟨fun x hx => ?_, hs.received⟩
    rcases List.mem_or_eq_of_mem_set hx with hx | rfl
    · exact hs.mode x hx
    · exact hmode.trans (hs.mode h (List.mem_of_getElem? hget))

/-! ## Enabled sensors -/

/-- Sub-HAL `i` has sensor `k` enabled. -/
def Enabled (M : SubHalInterface P H) (s : Session P H) (i : ℕ) (k : Int32) : Prop :=
  ∃ h, s.subHals[i]? = some h ∧ M.enabled h k = true

/-- The handles `disableAllSensors` goes through. -/
def Listed (s : Session P H) (p : Int32) : Prop :=
  p ∈ s.proxy.mSensors ∨ p ∈ s.proxy.mDynamicSensors

/-- Every enabled sensor is in one of the maps. -/
def Covered (M : SubHalInterface P H) (s : Session P H) : Prop :=
  ∀ i k, Enabled M s i k → ∃ p, s.Listed p ∧ extractSubHalIndex p = i ∧ clearSubHalIndex p = k

/-- The index and the rest are all of a handle. -/
theorem handle_ext {p q : Int32} (hindex : extractSubHalIndex p = extractSubHalIndex q)
    (hclear : clearSubHalIndex p = clearSubHalIndex q) : p = q := by
  have hmask : (~~~kSensorHandleSubHalIndexMask).toBitVec.toNat = 2 ^ 24 - 1 := by decide
  have hmod : p.toBitVec.toNat % 2 ^ 24 = q.toBitVec.toNat % 2 ^ 24 := by
    have h := congrArg (fun x : Int32 => x.toBitVec.toNat) hclear
    simpa only [clearSubHalIndex, Int32.toBitVec_and, BitVec.toNat_and, hmask,
      Nat.and_two_pow_sub_one_eq_mod] using h
  have hp := p.toBitVec.isLt
  have hq := q.toBitVec.isLt
  rw [extractSubHalIndex_eq, extractSubHalIndex_eq] at hindex
  refine Int32.toBitVec_inj.1 (BitVec.eq_of_toNat_eq ?_)
  split_ifs at hindex <;> omega

theorem enabled_set {i : ℕ} {h h' : H} (hget : s.subHals[i]? = some h) (j : ℕ) (k : Int32)
    (calls : List (H × SubHalCall P)) :
    Enabled M { s with subHals := s.subHals.set i h', received := calls } j k ↔
      if i = j then M.enabled h' k = true else Enabled M s j k := by
  have hlt := (List.getElem?_eq_some_iff.1 hget).1
  unfold Enabled
  dsimp only
  rw [List.getElem?_set]
  by_cases hij : i = j
  · subst hij
    simp [hlt]
  · simp [hij]

/-- A call that enables nothing in the sub-HAL it goes to enables nothing. -/
theorem enabled_send_of_mono {r : Reply P} {j : ℕ} {k : Int32}
    (hmono : ∀ i c h, r = .forward i c → M.enabled (M.call h c).2 k = true → M.enabled h k = true)
    (h : Enabled M (s.send M r).2 j k) : Enabled M s j k := by
  rcases send_cases (M := M) s r with hsame | ⟨i, c, x, hr, hget, hsend⟩
  · rwa [hsame] at h
  · rw [hsend, enabled_set hget] at h
    split at h
    · next hij => exact ⟨x, hij ▸ hget, hmono i c x hr h⟩
    · exact h

theorem enabled_activate (hM : M.Lawful) (s : Session P H) (p : Int32) (on : Bool) (j : ℕ)
    (k : Int32) :
    Enabled M (s.send M (s.proxy.activate p on)).2 j k ↔
      if extractSubHalIndex p = j ∧ clearSubHalIndex p = k ∧
        (s.send M (s.proxy.activate p on)).1 = .OK then on = true else Enabled M s j k := by
  cases hreply : s.proxy.activate p on with
  | error result =>
    have hresult : result = .BAD_VALUE := by
      unfold HalProxy.activate forwardToSubHal at hreply
      split at hreply
      · exact (Reply.error.inj hreply).symm
      · cases hreply
    rw [if_neg (by rintro ⟨-, -, h⟩; rw [hresult] at h; cases h)]
    rfl
  | forward i c =>
    obtain ⟨rfl, -, rfl⟩ := forwardToSubHal_inj hreply
    cases hget : s.subHals[extractSubHalIndex p]? with
    | none =>
      rw [send_of_none hget, if_neg]
      rintro ⟨-, -, h⟩
      cases h
    | some h =>
      rw [send_of_some hget]
      dsimp only
      rw [enabled_set hget, hM.enabled_activate]
      by_cases hj : extractSubHalIndex p = j
      · subst hj
        have hEnabled : Enabled M s (extractSubHalIndex p) k ↔ M.enabled h k = true := by
          simp [Enabled, hget]
        by_cases hk : clearSubHalIndex p = k
        · subst hk
          split_ifs <;> simp_all
        · simp [hk, Ne.symm hk, hEnabled]
      · simp [hj]

/-- Disabling goes through wherever there is something to disable. -/
theorem enabled_disable (hM : M.Lawful) (hlen : s.subHals.length = s.proxy.mSubHalList.length)
    (p : Int32) (j : ℕ) (k : Int32) :
    Enabled M (s.send M (s.proxy.activate p false)).2 j k ↔
      Enabled M s j k ∧ ¬ (extractSubHalIndex p = j ∧ clearSubHalIndex p = k) := by
  rw [enabled_activate hM]
  by_cases hp : extractSubHalIndex p = j ∧ clearSubHalIndex p = k
  · obtain ⟨rfl, rfl⟩ := hp
    simp only [true_and, not_true, and_false, iff_false]
    split_ifs with hok
    · exact not_false
    · rintro ⟨h, hget, hon⟩
      refine hok ?_
      have hvalid : extractSubHalIndex p < s.proxy.mSubHalList.length := by
        rw [← hlen]; exact (List.getElem?_eq_some_iff.1 hget).1
      have hreply : s.proxy.activate p false =
          .forward (extractSubHalIndex p) (.activate (clearSubHalIndex p) false) := by
        unfold HalProxy.activate forwardToSubHal isSubHalIndexValid
        rw [decide_eq_true hvalid]
        rfl
      rw [hreply, send_of_some hget]
      exact hM.stops h _ hon
  · rw [if_neg fun h => hp ⟨h.1, h.2.1⟩]
    simp [hp]

/-- `disableAllSensors` leaves exactly the enabled sensors that are in neither map. -/
theorem enabled_disableAllSensors (hM : M.Lawful)
    (hlen : s.subHals.length = s.proxy.mSubHalList.length) (j : ℕ) (k : Int32) :
    Enabled M (s.disableAllSensors M) j k ↔ Enabled M s j k ∧
      ∀ p, s.Listed p → ¬ (extractSubHalIndex p = j ∧ clearSubHalIndex p = k) := by
  have hfold : ∀ (handles : List Int32) (t : Session P H), t.proxy = s.proxy →
      t.subHals.length = s.proxy.mSubHalList.length →
      (Enabled M ((handles.map fun p => s.proxy.activate p false).foldl
          (fun t r => (t.send M r).2) t) j k ↔
        Enabled M t j k ∧ ∀ p ∈ handles, ¬ (extractSubHalIndex p = j ∧ clearSubHalIndex p = k)) := by
    intro handles
    induction handles with
    | nil => intro t _ _; simp
    | cons p handles ih =>
      intro t hproxy ht
      rw [List.map_cons, List.foldl_cons, ← hproxy, List.forall_mem_cons, ← and_assoc,
        ← enabled_disable hM (by rw [hproxy]; exact ht), hproxy]
      exact ih _ ((proxy_send t _).trans hproxy) ((length_send t _).trans ht)
  have hlisted : ∀ p, p ∈ s.proxy.disabledHandles ↔ s.Listed p := fun p => by
    rw [disabledHandles, List.mem_append, Std.ExtTreeMap.mem_keys, Std.ExtTreeMap.mem_keys]
    rfl
  rw [disableAllSensors, HalProxy.disableAllSensors, hfold _ s rfl hlen]
  simp only [hlisted]

theorem disableAllSensors_iff (hM : M.Lawful)
    (hlen : s.subHals.length = s.proxy.mSubHalList.length) :
    (∀ i k, ¬ Enabled M (s.disableAllSensors M) i k) ↔ Covered M s := by
  simp only [enabled_disableAllSensors hM hlen, not_and, not_forall, not_not, exists_prop]
  rfl

/-! ## What leaves a sensor uncovered -/

/-- A sensor is enabled only while it is listed, and disconnected only while it is disabled. -/
def Proper (M : SubHalInterface P H) (s : Session P H) : SessionAction P H → Prop
  | .command (.activate p true) =>
    s.Listed p ∨ (s.send M (s.proxy.activate p true)).1 ≠ .OK
  | .onDynamicSensorsDisconnected i removed =>
    ∀ p ∈ (HalProxy.onDynamicSensorsDisconnected i s.proxy.mDynamicSensors removed).2,
      p ∈ s.proxy.mSensors ∨ ¬ Enabled M s (extractSubHalIndex p) (clearSubHalIndex p)
  | _ => True

/-- Where nothing is enabled and nothing leaves the maps, all stays covered. -/
theorem Covered.of_mono (hs : Covered M s) {t : Session P H}
    (henabled : ∀ i k, Enabled M t i k → Enabled M s i k)
    (hlisted : ∀ p, s.Listed p → t.Listed p) : Covered M t := by
  intro i k h
  obtain ⟨p, hp, hik⟩ := hs i k (henabled i k h)
  exact ⟨p, hlisted p hp, hik⟩

theorem Covered.of_send (hs : Covered M s) {r : Reply P}
    (henabled : ∀ i k, Enabled M (s.send M r).2 i k → Enabled M s i k) :
    Covered M (s.send M r).2 := by
  refine hs.of_mono henabled fun p hp => ?_
  unfold Listed at *
  rwa [proxy_send]

theorem covered_activate_iff (hM : M.Lawful) (hs : Covered M s) (p : Int32) :
    Covered M (s.send M (s.proxy.activate p true)).2 ↔
      s.Listed p ∨ (s.send M (s.proxy.activate p true)).1 ≠ .OK := by
  have hlisted : ∀ q, (s.send M (s.proxy.activate p true)).2.Listed q ↔ s.Listed q := fun q => by
    unfold Listed; rw [proxy_send]
  constructor
  · intro h
    by_contra! hbad
    obtain ⟨q, hq, hindex, hclear⟩ := h (extractSubHalIndex p) (clearSubHalIndex p) (by
      rw [enabled_activate hM, if_pos ⟨rfl, rfl, hbad.2⟩])
    rw [handle_ext hindex hclear, hlisted] at hq
    exact hbad.1 hq
  · intro h i k hon
    rw [enabled_activate hM] at hon
    split at hon
    · next hpair =>
      exact ⟨p, (hlisted p).2 (h.resolve_right (not_not.2 hpair.2.2)), hpair.1, hpair.2.1⟩
    · obtain ⟨q, hq, hik⟩ := hs i k hon
      exact ⟨q, (hlisted q).2 hq, hik⟩

theorem covered_disconnected_iff (hs : Covered M s) (i : ℕ) (removed : List Int32) :
    Covered M (s.next K M (.onDynamicSensorsDisconnected i removed)) ↔
      s.Proper M (.onDynamicSensorsDisconnected i removed) := by
  obtain ⟨hkeys, hin⟩ := DynamicSensors.keys_disconnected i s.proxy.mDynamicSensors removed
  have hlisted : ∀ q, (s.next K M (.onDynamicSensorsDisconnected i removed)).Listed q ↔
      q ∈ s.proxy.mSensors ∨ q ∈ s.proxy.mDynamicSensors ∧
        q ∉ (HalProxy.onDynamicSensorsDisconnected i s.proxy.mDynamicSensors removed).2 :=
    fun q => or_congr_right (hkeys q)
  constructor
  · intro h p hp
    by_contra! hbad
    obtain ⟨q, hq, hindex, hclear⟩ := h _ _ hbad.2
    rw [handle_ext hindex hclear, hlisted] at hq
    rcases hq with hq | hq
    · exact hbad.1 hq
    · exact hq.2 hp
  · intro h j k hon
    obtain ⟨p, hp, rfl, rfl⟩ := hs j k hon
    refine ⟨p, (hlisted p).2 ?_, rfl, rfl⟩
    rcases hp with hp | hp
    · exact .inl hp
    · by_cases hgone : p ∈
          (HalProxy.onDynamicSensorsDisconnected i s.proxy.mDynamicSensors removed).2
      · exact .inl ((h p hgone).resolve_right (not_not.2 hon))
      · exact .inr ⟨hp, hgone⟩

theorem enabled_map (f : H → H) (hf : ∀ h k, M.enabled (f h) k = true → M.enabled h k = true)
    {t : Session P H} (ht : t.subHals = s.subHals.map f) {i : ℕ} {k : Int32}
    (h : Enabled M t i k) : Enabled M s i k := by
  obtain ⟨x, hx, hon⟩ := h
  rw [ht, List.getElem?_map, Option.map_eq_some_iff] at hx
  obtain ⟨y, hy, rfl⟩ := hx
  exact ⟨y, hy, hf y k hon⟩

/-- Neither loop of `setOperationMode` enables a sensor. -/
theorem enabled_setOperationMode (hM : M.Lawful) (mode : OperationMode) {i : ℕ} {k : Int32}
    (h : Enabled M (s.setOperationMode M mode) i k) : Enabled M s i k := by
  have hafter : ∀ mode x, M.enabled (OperationModes.after M.toModeInterface mode x) k = true →
      M.enabled x k = true := fun mode x => hM.enabled_setOperationMode x mode k
  obtain ⟨x, hx, hon⟩ := h
  rcases OperationModes.setOperationMode_eq M.toModeInterface mode s.proxy.mCurrentOperationMode
    s.subHals with ⟨agreed, refuser, left, hsplit, -, -, heq⟩ | ⟨-, heq⟩
  · simp only [setOperationMode, heq] at hx
    unfold Enabled
    rw [hsplit]
    rcases lt_trichotomy i agreed.length with hi | hi | hi
    · rw [List.getElem?_append_left (by simpa using hi), List.getElem?_map, List.getElem?_map,
        Option.map_map, Option.map_eq_some_iff] at hx
      obtain ⟨y, hy, rfl⟩ := hx
      refine ⟨y, ?_, hafter _ y (hafter _ _ hon)⟩
      rw [List.getElem?_append_left hi, hy]
    · subst hi
      rw [List.getElem?_append_right (by simp)] at hx
      simp only [List.length_map, Nat.sub_self, List.getElem?_cons_zero, Option.some.injEq] at hx
      subst hx
      exact ⟨refuser, by simp, hafter _ _ hon⟩
    · obtain ⟨n, rfl⟩ := Nat.exists_eq_add_of_lt hi
      refine ⟨x, ?_, hon⟩
      rw [List.getElem?_append_right (by simp; omega)] at hx
      rw [List.getElem?_append_right (by omega), ← hx]
      simp [show agreed.length + n + 1 - agreed.length = n + 1 by omega]
  · simp only [setOperationMode, heq, List.getElem?_map, Option.map_eq_some_iff] at hx
    obtain ⟨y, hy, rfl⟩ := hx
    exact ⟨y, hy, hafter mode y hon⟩

/-- From a covered state exactly the improper steps lead to one that is not. -/
theorem covered_next_iff (hM : M.Lawful) (hlen : s.subHals.length = s.proxy.mSubHalList.length)
    (hs : Covered M s) {a : SessionAction P H} (hg : s.guard M a) :
    Covered M (s.next K M a) ↔ s.Proper M a := by
  cases a with
  | command c =>
    have hother : ∀ r, s.proxy.reply c = r →
        (∀ i x k, r = .forward i x → ∀ on, x ≠ .activate k on) →
          Covered M (s.next K M (.command c)) := by
      rintro r hr hnot
      show Covered M (s.send M (s.proxy.reply c)).2
      rw [hr]
      exact hs.of_send fun i k h => enabled_send_of_mono
        (fun i x y hforward => hM.enabled_call y x k fun k on => hnot i x k hforward on) h
    cases c with
    | activate p on =>
      cases on with
      | true => exact covered_activate_iff hM hs p
      | false =>
        refine iff_of_true (hs.of_send fun i k h => ?_) trivial
        exact ((enabled_disable hM hlen p i k).1 h).1
    | batch p period latency =>
      refine iff_of_true (hother _ rfl fun i x k h on hx => ?_) trivial
      have h : s.proxy.batch p period latency = .forward i x := h
      cases (forwardToSubHal_inj h).2.2.symm.trans hx
    | flush p =>
      refine iff_of_true (hother _ rfl fun i x k h on hx => ?_) trivial
      have h : s.proxy.flush p = .forward i x := h
      cases (forwardToSubHal_inj h).2.2.symm.trans hx
    | injectSensorData event =>
      refine iff_of_true (hother _ rfl fun i x k h on hx => ?_) trivial
      have h : s.proxy.injectSensorData event = .forward i x := h
      unfold HalProxy.injectSensorData at h
      split at h
      · cases h
      · cases (forwardToSubHal_inj h).2.2.symm.trans hx
    | configDirectReport p channel rate =>
      refine iff_of_true (hother _ rfl fun i x k h on hx => ?_) trivial
      have h : s.proxy.configDirectReport p channel rate = .forward i x := h
      unfold HalProxy.configDirectReport at h
      split at h
      · cases h
      · split at h
        · cases h
        · rw [hx] at h
          cases h
  | setOperationMode mode =>
    exact iff_of_true (hs.of_mono (fun i k => enabled_setOperationMode hM mode) fun p hp => hp)
      trivial
  | initializeCommon =>
    refine iff_of_true (fun i k h => ?_) trivial
    have hdisabled := enabled_map (s := s.disableAllSensors M)
      (fun h => (M.initializeSubHal h).2) hM.enabled_initializeSubHal rfl h
    exact absurd hdisabled ((disableAllSensors_iff hM hlen).2 hs i k)
  | onDynamicSensorsConnected i added =>
    refine iff_of_true (hs.of_mono (fun _ _ h => h) fun p hp => hp.imp_right fun hp => ?_) trivial
    exact (DynamicSensors.keys_connected i s.proxy.mDynamicSensors added p).2 (.inl hp)
  | onDynamicSensorsDisconnected i removed => exact covered_disconnected_iff hs i removed
  | countNumWakeupEvents events n =>
    exact iff_of_true (hs.of_mono (fun _ _ h => h) fun p hp =>
      hp.imp_left fun hp => mem_countNumWakeupEvents hp events n) trivial
  | subHal i h' =>
    obtain ⟨h, hget, -, hmono⟩ := hg
    refine iff_of_true (hs.of_mono (fun j k hon => ?_) fun p hp => hp) trivial
    rw [show s.next K M (.subHal i h') = { s with
      subHals := s.subHals.set i h', received := s.received } from rfl, enabled_set hget] at hon
    split at hon
    · next hij => exact ⟨h, hij ▸ hget, hmono k hon⟩
    · exact hon

/-! ## Runs -/

theorem length_next (hlen : s.subHals.length = s.proxy.mSubHalList.length)
    (a : SessionAction P H) :
    (s.next K M a).subHals.length = (s.next K M a).proxy.mSubHalList.length := by
  cases a with
  | command c =>
    show (s.send M _).2.subHals.length = (s.send M _).2.proxy.mSubHalList.length
    rw [length_send, proxy_send, hlen]
  | setOperationMode mode =>
    refine Eq.trans ?_ hlen
    show (OperationModes.setOperationMode _ _ _).2.subHals.length = s.subHals.length
    rcases OperationModes.setOperationMode_eq M.toModeInterface mode s.proxy.mCurrentOperationMode
      s.subHals with ⟨agreed, refuser, left, hsplit, -, -, heq⟩ | ⟨-, heq⟩
    · rw [heq, hsplit]
      simp
    · rw [heq, List.length_map]
  | initializeCommon =>
    show ((s.disableAllSensors M).subHals.map _).length =
      (s.disableAllSensors M).proxy.mSubHalList.length
    rw [List.length_map, length_disableAllSensors, proxy_disableAllSensors, hlen]
  | onDynamicSensorsConnected i added => exact hlen
  | onDynamicSensorsDisconnected i removed => exact hlen
  | countNumWakeupEvents events n => exact hlen
  | subHal i h' => exact (List.length_set ..).trans hlen

theorem gated_of_fresh (h : M.Fresh K s) : Gated M s := by
  obtain ⟨owner, m, hframe⟩ := construct_frame (P := P) K s.proxy.mSubHalList
  have hmode : s.proxy.mCurrentOperationMode = .NORMAL := by rw [h.proxy, hframe]; rfl
  refine ⟨fun x hx => (h.mode x hx).trans hmode.symm, fun x event hx => ?_⟩
  rw [h.received] at hx
  cases hx

theorem covered_of_fresh (h : M.Fresh K s) : Covered M s := by
  rintro i k ⟨x, hx, hon⟩
  rw [h.enabled x (List.mem_of_getElem? hx) k] at hon
  cases hon

/-- **Injected data.** In every run the sub-HALs are all in the mode of the proxy, whoever refused
to switch and was switched back and whenever the proxy was initialized, and no sub-HAL in `NORMAL`
mode ever got an injected event other than additional information. An event with a handle from which
`extractSubHalIndex` takes the index of a sub-HAL is handed to that sub-HAL exactly if it is in
another mode or the event is one of these. -/
theorem injected_of_reach (hM : M.Lawful) {s₀ : Session P H} (h₀ : M.Fresh K s₀)
    (h : (sessions K M).Reach (fun _ _ => True) s₀ s) :
    (∀ x ∈ s.subHals, M.mode x = s.proxy.mCurrentOperationMode) ∧
    (∀ x event, (x, SubHalCall.injectSensorData event) ∈ s.received → M.mode x = .NORMAL →
      event.sensorType = .ADDITIONAL_INFO) ∧
    ∀ event x, s.subHals[extractSubHalIndex event.sensorHandle]? = some x →
      ((x, SubHalCall.injectSensorData
          { event with sensorHandle := clearSubHalIndex event.sensorHandle }) ∈
        (s.next K M (.command (.injectSensorData event))).received.drop s.received.length ↔
          M.mode x ≠ .NORMAL ∨ event.sensorType = .ADDITIONAL_INFO) := by
  have hs : Gated M s ∧ s.subHals.length = s.proxy.mSubHalList.length :=
    h.invariant (I := fun s => Gated M s ∧ s.subHals.length = s.proxy.mSubHalList.length)
      ⟨gated_of_fresh h₀, h₀.length⟩
      fun t a ht hg _ => ⟨gated_next hM ht.1 hg, length_next ht.2 a⟩
  refine ⟨hs.1.mode, hs.1.received, fun event x hx => ?_⟩
  rw [hs.1.mode x (List.mem_of_getElem? hx)]
  show _ ∈ (s.send M (s.proxy.injectSensorData event)).2.received.drop s.received.length ↔ _
  by_cases hpass : s.proxy.mCurrentOperationMode = .NORMAL ∧ event.sensorType ≠ .ADDITIONAL_INFO
  · rw [HalProxy.injectSensorData, if_pos hpass]
    simp [send, hpass]
  · have hvalid : s.proxy.isSubHalIndexValid event.sensorHandle = true := by
      have hlt := (List.getElem?_eq_some_iff.1 hx).1
      rw [hs.2] at hlt
      exact decide_eq_true hlt
    rw [HalProxy.injectSensorData, if_neg hpass, forwardToSubHal, hvalid, Bool.not_true,
      if_neg Bool.false_ne_true, send_of_some hx]
    simp only [List.drop_left, List.mem_singleton, true_iff]
    by_cases hmode : s.proxy.mCurrentOperationMode = .NORMAL
    · exact .inr (not_not.1 fun hne => hpass ⟨hmode, hne⟩)
    · exact .inl hmode

/-- **Enabled sensors.** In every run in which sensors are enabled only while listed and
disconnected only while disabled, `disableAllSensors` leaves no sensor of any sub-HAL enabled, nor
does an initialization. From such a state, a step leads to one whose `disableAllSensors` leaves a
sensor enabled exactly if it enables an unlisted one or disconnects an enabled one. -/
theorem enabled_of_reach (hM : M.Lawful) {s₀ : Session P H} (h₀ : M.Fresh K s₀)
    (h : (sessions K M).Reach (Proper M) s₀ s) :
    (∀ i k, ¬ Enabled M (s.disableAllSensors M) i k) ∧
    (∀ i k, ¬ Enabled M (s.next K M .initializeCommon) i k) ∧
    ∀ a, s.guard M a →
      ((∀ i k, ¬ Enabled M ((s.next K M a).disableAllSensors M) i k) ↔ s.Proper M a) := by
  have hs : Covered M s ∧ s.subHals.length = s.proxy.mSubHalList.length :=
    h.invariant (I := fun s => Covered M s ∧ s.subHals.length = s.proxy.mSubHalList.length)
      ⟨covered_of_fresh h₀, h₀.length⟩
      fun t a ht hg ha => ⟨(covered_next_iff hM ht.2 ht.1 hg).2 ha, length_next ht.2 a⟩
  have hnone := (disableAllSensors_iff hM hs.2).2 hs.1
  refine ⟨hnone, fun i k hon => hnone i k ?_, fun a hg => ?_⟩
  · exact enabled_map (s := s.disableAllSensors M) (fun h => (M.initializeSubHal h).2)
      hM.enabled_initializeSubHal rfl hon
  · rw [disableAllSensors_iff hM (length_next hs.2 a)]
    exact covered_next_iff hM hs.2 hs.1 hg

/-! ## A sample -/

/-- Sub-HALs that do as they are told: a mode, and the enabled sensors. -/
def obedient : SubHalInterface P (OperationMode × List Int32) where
  setOperationMode h mode := (.OK, (mode, h.2))
  mode h := h.1
  call h
    | .activate k true => (.OK, (h.1, k :: h.2))
    | .activate k false => (.OK, (h.1, h.2.filter (· ≠ k)))
    | _ => (.OK, h)
  initializeSubHal _ := (.OK, (.NORMAL, []))
  enabled h k := k ∈ h.2

theorem lawful_obedient : (obedient : SubHalInterface P _).Lawful where
  reliable := ⟨fun _ _ _ => rfl, fun _ _ h => absurd rfl h, fun _ _ _ => rfl⟩
  mode_call h c := by
    cases c with
    | activate k on => cases on <;> rfl
    | _ => rfl
  mode_initializeSubHal _ := rfl
  enabled_activate h k on k' := by
    by_cases hk : k' = k <;> cases on <;> simp [obedient, hk]
  stops _ _ _ := rfl
  enabled_call h c k hc hon := by
    cases c with
    | activate k' on => exact absurd rfl (hc k' on)
    | _ => exact hon
  enabled_setOperationMode _ _ _ hon := hon
  enabled_initializeSubHal h k hon := absurd hon (by simp [obedient])

/-- One sub-HAL with one sensor. -/
def freshSession : Session Unit (OperationMode × List Int32) :=
  ⟨construct sampleConstants sampleSubHals, [(.NORMAL, [])], []⟩

theorem fresh_freshSession : obedient.Fresh sampleConstants freshSession where
  proxy := by rw [freshSession, mSubHalList_construct]
  length := by rw [freshSession, mSubHalList_construct]; rfl
  mode h hh := by rw [List.mem_singleton.1 hh]; rfl
  enabled h hh k := by rw [List.mem_singleton.1 hh]; rfl
  received := rfl

/-- An event for sensor 1 is injected, and the sensor enabled. -/
def injectedSession : Session Unit (OperationMode × List Int32) :=
  (sessions sampleConstants obedient).exec freshSession
    [.setOperationMode .DATA_INJECTION, .command (.injectSensorData ⟨1, .LIGHT, 0, ()⟩),
      .command (.activate 1 true)]

theorem reach_injectedSession {R : Session Unit (OperationMode × List Int32) →
      SessionAction Unit (OperationMode × List Int32) → Prop}
    (hR : ∀ s a, (∀ p, a = .command (.activate p true) → s.Listed p) →
      (∀ i removed, a ≠ .onDynamicSensorsDisconnected i removed) → R s a) :
    (sessions sampleConstants obedient).Reach R freshSession injectedSession := by
  refine .step (.step (.step .refl trivial ?_) trivial ?_) trivial ?_
  all_goals refine hR _ _ (fun p h => ?_) fun i removed h => by cases h
  · cases h
  · cases h
  · cases h
    exact .inl (by decide)

theorem injected_of_reach_sample :
    injectedSession.received.length = 2 ∧
    ∀ event x, injectedSession.subHals[extractSubHalIndex event.sensorHandle]? = some x →
      ((x, SubHalCall.injectSensorData
          { event with sensorHandle := clearSubHalIndex event.sensorHandle }) ∈
        (injectedSession.next sampleConstants obedient
          (.command (.injectSensorData event))).received.drop injectedSession.received.length ↔
        x.1 ≠ .NORMAL ∨ event.sensorType = .ADDITIONAL_INFO) :=
  ⟨by decide, (injected_of_reach lawful_obedient fresh_freshSession
    (reach_injectedSession fun _ _ _ _ => trivial)).2.2⟩

theorem enabled_of_reach_sample :
    Enabled obedient injectedSession 0 1 ∧
    ∀ i k, ¬ Enabled obedient (injectedSession.next sampleConstants obedient .initializeCommon) i k := by
  refine ⟨⟨_, rfl, rfl⟩, (enabled_of_reach lawful_obedient fresh_freshSession
    (reach_injectedSession fun s a hlisted hnot => ?_)).2.1⟩
  cases a with
  | command c =>
    cases c with
    | activate p on =>
      cases on with
      | true => exact .inl (hlisted p rfl)
      | false => trivial
    | _ => trivial
  | onDynamicSensorsDisconnected i removed => exact absurd rfl (hnot i removed)
  | _ => trivial

end Session

end RealmeSalaa.MultiHal
