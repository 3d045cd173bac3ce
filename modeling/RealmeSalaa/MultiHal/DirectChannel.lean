import RealmeSalaa.MultiHal.Handles
import RealmeSalaa.MultiHal.SensorList

/-!
# The owner of direct channels

`initializeSensorList` walks the lists of all sub-HALs and picks the owner of direct channels on
the way: the sub-HAL of the first accepted sensor that supports them. Sensors handled before the
choice go into the map with the flags they came with, sensors handled after it lose the two masks
unless they belong to the owner.

Both kinds end up alike: before the choice there is no sensor with a bit of the masks
(`advertisedAs_of_none`). So the map holds every accepted sensor as the final owner wants it
(`listed_addSensor`); only sensors that share a proxy handle replace each other, which takes more
than 256 sub-HALs.
-/

namespace RealmeSalaa.MultiHal

variable {P : Type}

/-! ## Accepted sensors -/

/-- The sensors the list takes: those whose first byte is clear. -/
def SubHal.accepted (subHal : SubHal) : List SensorInfo :=
  subHal.sensors.filter fun sensor => subHalIndexIsClear sensor.sensorHandle

theorem SubHal.clear_of_mem_accepted {subHal : SubHal} {sensor : SensorInfo}
    (h : sensor ∈ subHal.accepted) : subHalIndexIsClear sensor.sensorHandle = true := by
  unfold SubHal.accepted at h
  simpa using (List.mem_filter.1 h).2

/-- The accepted sensors of the sub-HALs from index `i` on, in the order of the loops. -/
def acceptedFrom : ℕ → List SubHal → List (ℕ × SensorInfo)
  | _, [] => []
  | i, subHal :: subHals => subHal.accepted.map (Prod.mk i) ++ acceptedFrom (i + 1) subHals

theorem mem_acceptedFrom {i j : ℕ} {sensor : SensorInfo} {subHals : List SubHal} :
    (j, sensor) ∈ acceptedFrom i subHals ↔
      ∃ k subHal, j = i + k ∧ subHals[k]? = some subHal ∧ sensor ∈ subHal.accepted := by
  induction subHals generalizing i with
  | nil => simp [acceptedFrom]
  | cons first subHals ih =>
    rw [acceptedFrom, List.mem_append, ih]
    constructor
    · rintro (h | ⟨k, subHal, rfl, hk, hs⟩)
      · obtain ⟨_, hs, heq⟩ := List.mem_map.1 h
        cases heq
        exact ⟨0, first, rfl, rfl, hs⟩
      · exact ⟨k + 1, subHal, by omega, hk, hs⟩
    · rintro ⟨k, subHal, rfl, hk, hs⟩
      cases k with
      | zero =>
        obtain rfl : first = subHal := by simpa using hk
        exact .inl (List.mem_map.2 ⟨sensor, hs, rfl⟩)
      | succ k => exact .inr ⟨k, subHal, by omega, by simpa using hk, hs⟩

theorem mem_acceptedFrom_zero {i : ℕ} {sensor : SensorInfo} {subHals : List SubHal} :
    (i, sensor) ∈ acceptedFrom 0 subHals ↔
      ∃ subHal, subHals[i]? = some subHal ∧ sensor ∈ subHal.accepted := by
  rw [mem_acceptedFrom]
  constructor
  · rintro ⟨k, subHal, rfl, hk, hs⟩
    rw [Nat.zero_add]
    exact ⟨subHal, hk, hs⟩
  · rintro ⟨subHal, hi, hs⟩
    exact ⟨i, subHal, (Nat.zero_add i).symm, hi, hs⟩

namespace HalProxy

variable (K : Constants)

/-- A bit of one of the two masks is set. -/
def supportsDirect (sensor : SensorInfo) : Bool := sensor.flags &&& directFlags K != 0

/-- The record of a sensor of sub-HAL `e.1` in the map, when `owner` owns direct channels. -/
def advertisedAs (owner : Option ℕ) (e : ℕ × SensorInfo) : SensorInfo :=
  renameWiseLight
    { e.2 with
      sensorHandle := setSubHalIndex e.2.sensorHandle e.1
      flags := if owner = some e.1 then e.2.flags else e.2.flags &&& ~~~directFlags K }

@[simp] theorem renameWiseLight_flags (sensor : SensorInfo) :
    (renameWiseLight sensor).flags = sensor.flags := by
  unfold renameWiseLight; split <;> rfl

@[simp] theorem advertisedAs_sensorHandle (owner : Option ℕ) (e : ℕ × SensorInfo) :
    (advertisedAs K owner e).sensorHandle = setSubHalIndex e.2.sensorHandle e.1 := by
  rw [advertisedAs, renameWiseLight_sensorHandle]

theorem advertisedAs_flags (owner : Option ℕ) (e : ℕ × SensorInfo) :
    (advertisedAs K owner e).flags =
      if owner = some e.1 then e.2.flags else e.2.flags &&& ~~~directFlags K := by
  rw [advertisedAs, renameWiseLight_flags]

/-- A sensor without direct channels is advertised alike whoever owns them. -/
theorem advertisedAs_of_none {e : ℕ × SensorInfo} (h : supportsDirect K e.2 = false)
    (owner owner' : Option ℕ) : advertisedAs K owner e = advertisedAs K owner' e := by
  have hclear : e.2.flags &&& ~~~directFlags K = e.2.flags := by
    have hand : e.2.flags &&& directFlags K = 0 := by simpa [supportsDirect] using h
    have hbits : e.2.flags.toBitVec &&& (directFlags K).toBitVec = 0 := by
      rw [← UInt32.toBitVec_and, hand]; rfl
    apply UInt32.toBitVec_inj.1
    rw [UInt32.toBitVec_and, UInt32.toBitVec_not]
    ext i hi
    have hbit := congrArg (fun x : BitVec 32 => x.getLsbD i) hbits
    simp only [BitVec.getLsbD_and] at hbit
    simp at hbit ⊢
    grind
  simp only [advertisedAs, hclear, ite_self]

/-! ## The loops -/

/-- The owner once the accepted sensors `entries` have been handled. -/
def directOwner (entries : List (ℕ × SensorInfo)) : Option ℕ :=
  (entries.find? fun e => supportsDirect K e.2).map Prod.fst

/-- The latest of the entries with proxy handle `p`. -/
def latestAt (entries : List (ℕ × SensorInfo)) (p : Int32) : Option (ℕ × SensorInfo) :=
  entries.reverse.find? fun e => setSubHalIndex e.2.sensorHandle e.1 = p

/-- The map and the owner are those of the sensors handled so far. -/
structure Listed (entries : List (ℕ × SensorInfo)) (s : HalProxy P) : Prop where
  owner : s.mDirectChannelSubHal = directOwner K entries
  sensors : ∀ p, s.mSensors[p]? = (latestAt entries p).map (advertisedAs K (directOwner K entries))

theorem directOwner_append (entries : List (ℕ × SensorInfo)) (e : ℕ × SensorInfo) :
    directOwner K (entries ++ [e]) =
      (directOwner K entries).or (if supportsDirect K e.2 then some e.1 else none) := by
  unfold directOwner
  rw [List.find?_append]
  cases entries.find? fun e => supportsDirect K e.2 with
  | some first => rfl
  | none => cases h : supportsDirect K e.2 <;> simp [h]

/-- As long as there is no owner, no sensor supports direct channels. -/
theorem not_supportsDirect_of_directOwner {entries : List (ℕ × SensorInfo)}
    (h : directOwner K entries = none) {e : ℕ × SensorInfo} (he : e ∈ entries) :
    supportsDirect K e.2 = false := by
  have hfind := List.find?_eq_none.1 (Option.map_eq_none_iff.1 h) e he
  simpa using hfind

theorem mem_of_latestAt {entries : List (ℕ × SensorInfo)} {p : Int32} {e : ℕ × SensorInfo}
    (h : latestAt entries p = some e) :
    e ∈ entries ∧ setSubHalIndex e.2.sensorHandle e.1 = p :=
  ⟨List.mem_reverse.1 (List.mem_of_find?_eq_some h), by simpa using List.find?_some h⟩

theorem exists_latestAt {entries : List (ℕ × SensorInfo)} {e : ℕ × SensorInfo} (he : e ∈ entries) :
    ∃ e', latestAt entries (setSubHalIndex e.2.sensorHandle e.1) = some e' := by
  rw [← Option.isSome_iff_exists, latestAt, List.find?_isSome]
  exact ⟨e, List.mem_reverse.2 he, by simp⟩

/-- The records of the sensors handled so far do not depend on a later choice of the owner. -/
theorem advertisedAs_append (entries : List (ℕ × SensorInfo)) (e : ℕ × SensorInfo) (p : Int32) :
    (latestAt entries p).map (advertisedAs K (directOwner K (entries ++ [e]))) =
      (latestAt entries p).map (advertisedAs K (directOwner K entries)) := by
  refine Option.map_congr fun old hold => ?_
  cases h : directOwner K entries with
  | some owner => rw [directOwner_append, h]; rfl
  | none =>
    have hmem := (mem_of_latestAt hold).1
    exact advertisedAs_of_none K (not_supportsDirect_of_directOwner K h hmem) _ _

/-- What `setDirectChannelFlags` makes of the owner and of the record. -/
theorem setDirectChannelFlags_eq (owner : Option ℕ) (e : ℕ × SensorInfo) :
    let sensor := { e.2 with sensorHandle := setSubHalIndex e.2.sensorHandle e.1 }
    let owner' := owner.or (if supportsDirect K e.2 then some e.1 else none)
    (setDirectChannelFlags K owner sensor e.1).1 = owner' ∧
      renameWiseLight (setDirectChannelFlags K owner sensor e.1).2 = advertisedAs K owner' e := by
  cases owner with
  | some owner =>
    unfold setDirectChannelFlags
    by_cases h : e.1 = owner
    · subst h
      simp [advertisedAs]
    · have h' : owner ≠ e.1 := fun heq => h heq.symm
      simp [advertisedAs, h, h']
  | none =>
    unfold setDirectChannelFlags
    refine ⟨by simp [supportsDirect], ?_⟩
    cases h : supportsDirect K e.2 with
    | true => simp [advertisedAs]
    | false =>
      rw [advertisedAs_of_none K h _ (some e.1)]
      simp [advertisedAs]

/-- One pass of the loop over a sub-HAL's list. -/
theorem listed_addSensor {entries : List (ℕ × SensorInfo)} {s : HalProxy P} (hs : Listed K entries s)
    {e : ℕ × SensorInfo} (he : subHalIndexIsClear e.2.sensorHandle = true) :
    Listed K (entries ++ [e]) (addSensor K e.1 s e.2) := by
  obtain ⟨howner, hrecord⟩ := setDirectChannelFlags_eq K (directOwner K entries) e
  rw [← directOwner_append] at howner hrecord
  have hadd : addSensor K e.1 s e.2 =
      { s with
        mDirectChannelSubHal := directOwner K (entries ++ [e])
        mSensors := s.mSensors.insert (setSubHalIndex e.2.sensorHandle e.1)
          (advertisedAs K (directOwner K (entries ++ [e])) e) } := by
    unfold addSensor
    rw [he, Bool.not_true, if_neg Bool.false_ne_true]
    dsimp only
    rw [hs.owner, howner, hrecord, advertisedAs_sensorHandle]
  rw [hadd]
  refine ⟨rfl, fun p => ?_⟩
  show (s.mSensors.insert _ _)[p]? = _
  rw [Std.ExtTreeMap.getElem?_insert]
  unfold latestAt
  rw [List.reverse_append, List.reverse_singleton, List.singleton_append, List.find?_cons]
  by_cases hp : setSubHalIndex e.2.sensorHandle e.1 = p
  · rw [if_pos (Std.LawfulEqCmp.compare_eq_iff_eq.2 hp)]
    simp [hp]
  · rw [if_neg (mt Std.LawfulEqCmp.compare_eq_iff_eq.1 hp), decide_eq_false hp]
    exact (hs.sensors p).trans (advertisedAs_append K entries e p).symm

theorem listed_foldl {entries : List (ℕ × SensorInfo)} {s : HalProxy P} (hs : Listed K entries s)
    (i : ℕ) (sensors : List SensorInfo) :
    Listed K
      (entries ++ (sensors.filter fun x => subHalIndexIsClear x.sensorHandle).map (Prod.mk i))
      (sensors.foldl (addSensor K i) s) := by
  induction sensors generalizing entries s with
  | nil => simpa using hs
  | cons sensor sensors ih =>
    rw [List.foldl_cons]
    cases h : subHalIndexIsClear sensor.sensorHandle with
    | true =>
      have hstep := listed_addSensor K hs (e := (i, sensor)) h
      simpa [h] using ih hstep
    | false =>
      have hsame : addSensor K i s sensor = s := by rw [addSensor, if_pos (by rw [h]; rfl)]
      rw [hsame]
      simpa [h] using ih hs

theorem listed_addSubHals {entries : List (ℕ × SensorInfo)} {s : HalProxy P}
    (hs : Listed K entries s) (i : ℕ) (subHals : List SubHal) :
    Listed K (entries ++ acceptedFrom i subHals) (addSubHals K i subHals s) := by
  induction subHals generalizing entries s i with
  | nil => simpa [acceptedFrom, addSubHals] using hs
  | cons subHal subHals ih =>
    have hfirst := listed_foldl K hs i subHal.sensors
    simpa [acceptedFrom, addSubHals, SubHal.accepted] using ih hfirst (i + 1)

/-- After the constructor the map and the owner are those of all accepted sensors. -/
theorem listed_construct (P : Type) (subHals : List SubHal) :
    Listed K (acceptedFrom 0 subHals) (construct K subHals : HalProxy P) := by
  have hempty : Listed K [] (initial subHals : HalProxy P) :=
    ⟨rfl, fun p => by simp [initial, latestAt]⟩
  exact listed_addSubHals K hempty 0 subHals

/-! ## The owner -/

/-- The first sub-HAL with an accepted sensor that supports direct channels. -/
def firstDirect (subHals : List SubHal) : Option ℕ :=
  subHals.findIdx? fun subHal => subHal.accepted.any (supportsDirect K)

theorem directOwner_acceptedFrom (i : ℕ) (subHals : List SubHal) :
    directOwner K (acceptedFrom i subHals) = (firstDirect K subHals).map (i + ·) := by
  induction subHals generalizing i with
  | nil => rfl
  | cons subHal subHals ih =>
    have hhead : (subHal.accepted.map (Prod.mk i)).find? (fun e => supportsDirect K e.2) =
        (subHal.accepted.find? (supportsDirect K)).map (Prod.mk i) := by
      rw [List.find?_map]; rfl
    have htail := ih (i + 1)
    unfold directOwner firstDirect at *
    rw [acceptedFrom, List.find?_append, hhead, List.findIdx?_cons]
    cases h : subHal.accepted.find? (supportsDirect K) with
    | some sensor =>
      have hany : subHal.accepted.any (supportsDirect K) = true :=
        List.any_eq_true.2 ⟨sensor, List.mem_of_find?_eq_some h, List.find?_some h⟩
      rw [hany]
      rfl
    | none =>
      have hany : subHal.accepted.any (supportsDirect K) = false :=
        List.any_eq_false.2 (List.find?_eq_none.1 h)
      rw [hany, Option.map_none, Option.none_or, htail, if_neg Bool.false_ne_true, Option.map_map]
      congr 1
      funext k
      exact Nat.add_right_comm i 1 k

/-- Up to 256 sub-HALs, sensors with distinct local handles do not replace each other. -/
theorem latestAt_acceptedFrom {subHals : List SubHal} (hlen : subHals.length ≤ 256)
    (hdistinct : ∀ subHal ∈ subHals, (subHal.accepted.map SensorInfo.sensorHandle).Nodup)
    {e : ℕ × SensorInfo} (he : e ∈ acceptedFrom 0 subHals) :
    latestAt (acceptedFrom 0 subHals) (setSubHalIndex e.2.sensorHandle e.1) = some e := by
  obtain ⟨⟨i', sensor'⟩, hlast⟩ := exists_latestAt he
  obtain ⟨he', heq⟩ := mem_of_latestAt hlast
  obtain ⟨i, sensor⟩ := e
  obtain ⟨subHal, hk, hs⟩ := mem_acceptedFrom_zero.1 he
  obtain ⟨subHal', hk', hs'⟩ := mem_acceptedFrom_zero.1 he'
  have hlt := (List.getElem?_eq_some_iff.1 hk).1
  have hlt' := (List.getElem?_eq_some_iff.1 hk').1
  obtain ⟨hindex, hhandle⟩ := setSubHalIndex_injective (SubHal.clear_of_mem_accepted hs)
    (SubHal.clear_of_mem_accepted hs') (by omega) (by omega) heq
  obtain rfl : i' = i := by omega
  obtain rfl : subHal' = subHal := by simpa [hk'] using hk
  have hmem := List.mem_of_getElem? hk
  obtain rfl : sensor' = sensor :=
    List.inj_on_of_nodup_map (hdistinct _ hmem) hs' hs hhandle
  exact hlast

/-- **Direct channels.** The owner is the first sub-HAL with an accepted sensor that supports
direct channels. The keys of the map are the proxy handles of the accepted sensors, and every
record is that of an accepted sensor with its flags if it is one of the owner's, without the two
masks otherwise. Up to 256 sub-HALs, with handles distinct within each, every accepted sensor has
its own record. -/
theorem construct_directChannels (P : Type) (subHals : List SubHal) :
    let s : HalProxy P := construct K subHals
    let flagsOf := fun i (sensor : SensorInfo) =>
      if s.mDirectChannelSubHal = some i then sensor.flags
      else sensor.flags &&& ~~~directFlags K
    s.mDirectChannelSubHal = firstDirect K subHals ∧
    (∀ p, p ∈ s.mSensors ↔ ∃ i subHal, subHals[i]? = some subHal ∧
      ∃ sensor ∈ subHal.accepted, p = setSubHalIndex sensor.sensorHandle i) ∧
    (∀ p info, s.mSensors[p]? = some info → ∃ i subHal, subHals[i]? = some subHal ∧
      ∃ sensor ∈ subHal.accepted, p = setSubHalIndex sensor.sensorHandle i ∧
        info.flags = flagsOf i sensor) ∧
    (subHals.length ≤ 256 →
      (∀ subHal ∈ subHals, (subHal.accepted.map SensorInfo.sensorHandle).Nodup) →
      ∀ i subHal, subHals[i]? = some subHal → ∀ sensor ∈ subHal.accepted,
        ∃ info, s.mSensors[setSubHalIndex sensor.sensorHandle i]? = some info ∧
          info.flags = flagsOf i sensor) := by
  intro s flagsOf
  have hs := listed_construct K P subHals
  have howner : s.mDirectChannelSubHal = directOwner K (acceptedFrom 0 subHals) := hs.owner
  have hflags : ∀ e, (advertisedAs K (directOwner K (acceptedFrom 0 subHals)) e).flags =
      flagsOf e.1 e.2 := fun e => by rw [advertisedAs_flags, ← howner]
  have hentry : ∀ p info, s.mSensors[p]? = some info → ∃ i subHal, subHals[i]? = some subHal ∧
      ∃ sensor ∈ subHal.accepted, p = setSubHalIndex sensor.sensorHandle i ∧
        info.flags = flagsOf i sensor := by
    intro p info hinfo
    rw [hs.sensors p, Option.map_eq_some_iff] at hinfo
    obtain ⟨e, he, rfl⟩ := hinfo
    obtain ⟨hmem, hp⟩ := mem_of_latestAt he
    obtain ⟨subHal, hget, hsensor⟩ := mem_acceptedFrom_zero.1 hmem
    exact ⟨e.1, subHal, hget, e.2, hsensor, hp.symm, hflags e⟩
  refine ⟨?_, fun p => ⟨fun hp => ?_, ?_⟩, hentry, ?_⟩
  · rw [howner, directOwner_acceptedFrom]
    simp
  · have hget := Std.ExtTreeMap.getElem?_eq_some_getElem hp
    obtain ⟨i, subHal, hi, sensor, hsensor, heq, -⟩ := hentry p _ hget
    exact ⟨i, subHal, hi, sensor, hsensor, heq⟩
  · rintro ⟨i, subHal, hi, sensor, hsensor, rfl⟩
    have hmem := mem_acceptedFrom_zero.2 ⟨subHal, hi, hsensor⟩
    obtain ⟨e, he⟩ := exists_latestAt hmem
    rw [Std.ExtTreeMap.mem_iff_isSome_getElem?, hs.sensors, he]
    rfl
  · intro hlen hdistinct i subHal hi sensor hsensor
    have hmem := mem_acceptedFrom_zero.2 ⟨subHal, hi, hsensor⟩
    refine ⟨_, ?_, hflags (i, sensor)⟩
    rw [hs.sensors, latestAt_acceptedFrom hlen hdistinct hmem]
    rfl

/-- Two sub-HALs that both support direct channels, the second one in a sensor listed after one
that does not. -/
def twoDirectSubHals : List SubHal :=
  [⟨[⟨1, 0, .LIGHT, ""⟩, ⟨2, 0x400, .other 1, ""⟩]⟩, ⟨[⟨1, 0x401, .other 1, ""⟩]⟩]

theorem construct_directChannels_sample :
    let s : HalProxy ℕ := construct sampleConstants twoDirectSubHals
    s.mDirectChannelSubHal = some 0 ∧
      ∃ info, s.mSensors[setSubHalIndex 1 1]? = some info ∧ info.flags = 1 := by
  obtain ⟨howner, -, -, hflags⟩ := construct_directChannels sampleConstants ℕ twoDirectSubHals
  have hfirst : firstDirect sampleConstants twoDirectSubHals = some 0 := by decide
  refine ⟨howner.trans hfirst, ?_⟩
  obtain ⟨info, hinfo, heq⟩ := hflags (by decide) (by decide) 1 _ rfl ⟨1, 0x401, .other 1, ""⟩
    (by decide)
  refine ⟨info, hinfo, heq.trans ?_⟩
  rw [howner, hfirst]
  decide

/-- With 257 sub-HALs the last one's sensor 1 takes the place of the first one's, which owns
direct channels, and the record has neither mask. -/
theorem owner_replaced :
    ∃ subHals : List SubHal,
      (∀ subHal ∈ subHals, (subHal.accepted.map SensorInfo.sensorHandle).Nodup) ∧
      (construct sampleConstants subHals : HalProxy ℕ).mDirectChannelSubHal = some 0 ∧
      ∃ subHal, subHals[0]? = some subHal ∧ ∃ sensor ∈ subHal.accepted,
        ∀ info, (construct sampleConstants subHals : HalProxy ℕ).mSensors[
          setSubHalIndex sensor.sensorHandle 0]? = some info → info.flags ≠ sensor.flags := by
  refine ⟨⟨[⟨1, 0x400, .other 1, ""⟩]⟩ :: (List.replicate 255 ⟨[]⟩ ++ [⟨[⟨1, 0, .other 1, ""⟩]⟩]),
    by decide +kernel, by decide +kernel, _, rfl, ⟨1, 0x400, .other 1, ""⟩, by decide, ?_⟩
  have hflags : ((construct sampleConstants
      (⟨[⟨1, 0x400, .other 1, ""⟩]⟩ :: (List.replicate 255 ⟨[]⟩ ++ [⟨[⟨1, 0, .other 1, ""⟩]⟩])) :
        HalProxy ℕ).mSensors[setSubHalIndex 1 0]?).map SensorInfo.flags = some 0 := by
    decide +kernel
  intro info hinfo heq
  rw [hinfo, Option.map_some, Option.some_inj, heq] at hflags
  exact absurd hflags (by decide)

end HalProxy

end RealmeSalaa.MultiHal
