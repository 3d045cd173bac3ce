import RealmeSalaa.MultiHal.DirectChannel
import RealmeSalaa.MultiHal.Routing

/-!
# The sub-HALs of hals.conf

`initializeSubHalListFromConfigFile` reads the names of shared objects, separated by white space,
and keeps the sub-HAL of each one that loads, in the order of the file. A name that does not load
leaves no gap: the index of a sub-HAL, and with it the first byte of all its handles, counts the
loaded objects before it.

So the file is safe to extend at its end only (`construct_append`): the earlier sub-HALs keep
their records, their routes and the direct channels. What changes is direct reports where no sub-HAL
had direct channels. `dlopen` and the entry points of the objects are not part of the repository;
they are the structure `SharedObjects`.
-/

namespace RealmeSalaa.MultiHal

variable {P : Type}

/-! ## The file -/

namespace ConfigFile

/-- `isspace` in the C locale. -/
def isSpace (c : Char) : Bool := c ∈ [' ', '\t', '\n', '\x0b', '\x0c', '\r']

/-- What `>>` reads into a string until the stream ends. -/
def words (text : List Char) : List (List Char) := (text.splitOnP isSpace).filter (· ≠ [])

/-- `c_str()`. -/
def cStr (text : List Char) : List Char := text.takeWhile (· ≠ '\x00')

theorem words_append (text text' : List Char) {c : Char} (hc : isSpace c = true) :
    words (text ++ c :: text') = words text ++ words text' := by
  unfold words
  rw [List.splitOnP_append_cons text text' hc, List.filter_append]

/-- A run without white space is one word. -/
theorem words_of_forall {text : List Char} (hne : text ≠ [])
    (h : ∀ c ∈ text, isSpace c = false) : words text = [text] := by
  unfold words
  rw [List.splitOnP_eq_singleton h]
  simp [hne]

end ConfigFile

/-- What `dlsym` finds in a shared object; an entry point returns its version and the sub-HAL. -/
structure SharedObject where
  sensorsHalGetSubHal : Option (UInt32 × SubHal)
  sensorsHalGetSubHal_2_1 : Option (UInt32 × SubHal)

/-- The dynamic linker, and the versions of `SubHal.h`. -/
structure SharedObjects where
  dlopen : List Char → Option SharedObject
  SUB_HAL_2_0_VERSION : UInt32
  SUB_HAL_2_1_VERSION : UInt32

namespace SharedObjects

open ConfigFile

variable (L : SharedObjects)

/-- The directories of a 64-bit build. -/
def kSubHalShareObjectLocations : List String := ["", "/vendor/lib64/hw/", "/odm/lib64/hw/"]

/-- The first directory with an object that can be opened. -/
def getHandleForSubHalSharedObject (filename : List Char) : Option SharedObject :=
  kSubHalShareObjectLocations.findSome? fun dir => L.dlopen (cStr (dir.toList ++ filename))

/-- The loop body of `initializeSubHalListFromConfigFile`. An object with the 2.0 entry point is
not asked for the 2.1 one, whatever version it answers. -/
def loadSubHal (subHalLibraryFile : List Char) : Option SubHal :=
  match L.getHandleForSubHalSharedObject subHalLibraryFile with
  | none => none
  | some handle =>
    match handle.sensorsHalGetSubHal with
    | some (version, subHal) =>
      if version ≠ L.SUB_HAL_2_0_VERSION then none else some subHal
    | none =>
      match handle.sensorsHalGetSubHal_2_1 with
      | none => none
      | some (version, subHal) =>
        if version ≠ L.SUB_HAL_2_1_VERSION then none else some subHal

/-- `mSubHalList`; `none` is a file that cannot be opened. -/
def initializeSubHalListFromConfigFile : Option (List Char) → List SubHal
  | none => []
  | some text => (words text).filterMap L.loadSubHal

/-- `HalProxy()`. -/
def halProxy (K : Constants) (P : Type) (file : Option (List Char)) : HalProxy P :=
  HalProxy.construct K (L.initializeSubHalListFromConfigFile file)

theorem subHalList_append (text text' : List Char) {c : Char} (hc : isSpace c = true) :
    L.initializeSubHalListFromConfigFile (some (text ++ c :: text')) =
      L.initializeSubHalListFromConfigFile (some text) ++
        L.initializeSubHalListFromConfigFile (some text') := by
  show (words (text ++ c :: text')).filterMap L.loadSubHal = _
  rw [words_append text text' hc, List.filterMap_append]
  rfl

/-- A name that does not load is as good as not listed. -/
theorem subHalList_of_not_loaded (text text' : List Char) {file : List Char} {c c' : Char}
    (hc : isSpace c = true) (hc' : isSpace c' = true) (hfile : ∀ x ∈ file, isSpace x = false)
    (hload : L.loadSubHal file = none) :
    L.initializeSubHalListFromConfigFile (some (text ++ c :: (file ++ c' :: text'))) =
      L.initializeSubHalListFromConfigFile (some (text ++ c :: text')) := by
  have hnone : L.initializeSubHalListFromConfigFile (some file) = [] := by
    show (words file).filterMap L.loadSubHal = []
    cases file with
    | nil => rfl
    | cons x file => rw [words_of_forall (List.cons_ne_nil x file) hfile]; simp [hload]
  rw [subHalList_append L text _ hc, subHalList_append L file text' hc', hnone,
    List.nil_append, subHalList_append L text text' hc]

end SharedObjects

/-! ## Further sub-HALs -/

namespace HalProxy

variable {K : Constants}

theorem acceptedFrom_append (i : ℕ) (subHals subHals' : List SubHal) :
    acceptedFrom i (subHals ++ subHals') =
      acceptedFrom i subHals ++ acceptedFrom (i + subHals.length) subHals' := by
  induction subHals generalizing i with
  | nil => rfl
  | cons subHal subHals ih =>
    rw [List.cons_append, acceptedFrom, acceptedFrom, ih, List.append_assoc, List.length_cons,
      Nat.add_comm subHals.length 1, Nat.add_assoc i 1]

/-- An owner stays the owner. -/
theorem directOwner_append_of_some {entries : List (ℕ × SensorInfo)} {owner : ℕ}
    (h : directOwner K entries = some owner) (entries' : List (ℕ × SensorInfo)) :
    directOwner K (entries ++ entries') = some owner := by
  unfold directOwner at *
  obtain ⟨e, he, rfl⟩ := Option.map_eq_some_iff.1 h
  rw [List.find?_append, he]
  rfl

/-- An owner that was not there is among the later entries. -/
theorem le_of_directOwner_append {subHals subHals' : List SubHal}
    (h : directOwner K (acceptedFrom 0 subHals) = none) {owner : ℕ}
    (h' : directOwner K (acceptedFrom 0 subHals ++ acceptedFrom subHals.length subHals') =
      some owner) : subHals.length ≤ owner := by
  have hnone := Option.map_eq_none_iff.1 h
  have hlater : directOwner K (acceptedFrom subHals.length subHals') = some owner := by
    rw [directOwner, List.find?_append, hnone, Option.none_or] at h'
    exact h'
  rw [directOwner_acceptedFrom, Option.map_eq_some_iff] at hlater
  obtain ⟨k, -, rfl⟩ := hlater
  exact Nat.le_add_right _ _

/-- The reply to a command on direct reports depends on the owner only, and calls no other. -/
theorem configDirectReport_congr {s s' : HalProxy P}
    (h : s'.mDirectChannelSubHal = s.mDirectChannelSubHal) (p channelHandle : Int32)
    (rate : RateLevel) :
    s'.configDirectReport p channelHandle rate = s.configDirectReport p channelHandle rate := by
  unfold configDirectReport
  rw [h]

theorem owner_of_configDirectReport {s : HalProxy P} {p channelHandle : Int32} {rate : RateLevel}
    {subHal : ℕ} {call : SubHalCall P}
    (h : s.configDirectReport p channelHandle rate = .forward subHal call) :
    s.mDirectChannelSubHal = some subHal := by
  unfold configDirectReport at h
  cases howner : s.mDirectChannelSubHal with
  | none => rw [howner] at h; cases h
  | some owner =>
    rw [howner] at h
    dsimp only at h
    split at h
    · cases h
    · cases h; rfl

/-- Whoever comes to own direct channels later, the records of earlier entries are the same. -/
theorem advertisedAs_later {entries : List (ℕ × SensorInfo)} {e : ℕ × SensorInfo}
    (he : e ∈ entries) (entries' : List (ℕ × SensorInfo)) :
    advertisedAs K (directOwner K (entries ++ entries')) e =
      advertisedAs K (directOwner K entries) e := by
  cases h : directOwner K entries with
  | some owner => rw [directOwner_append_of_some h]
  | none => exact advertisedAs_of_none K (not_supportsDirect_of_directOwner K h he) _ _

/-- Up to 256 sub-HALs, a later one has other proxy handles. -/
theorem setSubHalIndex_ne_of_later {subHals subHals' : List SubHal}
    (hlen : (subHals ++ subHals').length ≤ 256) {e e' : ℕ × SensorInfo}
    (he : e ∈ acceptedFrom 0 subHals) (he' : e' ∈ acceptedFrom subHals.length subHals') :
    setSubHalIndex e'.2.sensorHandle e'.1 ≠ setSubHalIndex e.2.sensorHandle e.1 := by
  obtain ⟨i, sensor⟩ := e
  obtain ⟨i', sensor'⟩ := e'
  obtain ⟨subHal, hi, hsensor⟩ := mem_acceptedFrom_zero.1 he
  obtain ⟨k, subHal', rfl, hk, hsensor'⟩ := mem_acceptedFrom.1 he'
  have hlt := (List.getElem?_eq_some_iff.1 hi).1
  have hlt' := (List.getElem?_eq_some_iff.1 hk).1
  rw [List.length_append] at hlen
  intro heq
  obtain ⟨hindex, -⟩ := setSubHalIndex_injective (SubHal.clear_of_mem_accepted hsensor)
    (SubHal.clear_of_mem_accepted hsensor') (by omega) (by omega) heq
  omega

theorem latestAt_append_of_some {entries entries' : List (ℕ × SensorInfo)} {p : Int32}
    {e : ℕ × SensorInfo} (he : latestAt entries p = some e)
    (hne : ∀ e' ∈ entries', setSubHalIndex e'.2.sensorHandle e'.1 ≠ p) :
    latestAt (entries ++ entries') p = some e := by
  unfold latestAt at *
  rw [List.reverse_append, List.find?_append, he]
  have hnone :
      (entries'.reverse.find? fun e => setSubHalIndex e.2.sensorHandle e.1 = p) = none := by
    refine List.find?_eq_none.2 fun e' he' => ?_
    simpa using hne e' (List.mem_reverse.1 he')
  rw [hnone]
  rfl

theorem forwardToSubHal_append {subHals subHals' : List SubHal}
    (hlen : (subHals ++ subHals').length ≤ 256) {e : ℕ × SensorInfo}
    (he : e ∈ acceptedFrom 0 subHals) {s s' : HalProxy P} (hs : s.mSubHalList = subHals)
    (hs' : s'.mSubHalList = subHals ++ subHals') (call : Int32 → SubHalCall P) :
    s'.forwardToSubHal (setSubHalIndex e.2.sensorHandle e.1) call =
      s.forwardToSubHal (setSubHalIndex e.2.sensorHandle e.1) call := by
  obtain ⟨i, sensor⟩ := e
  obtain ⟨subHal, hi, hsensor⟩ := mem_acceptedFrom_zero.1 he
  have hclear := SubHal.clear_of_mem_accepted hsensor
  have hlt := (List.getElem?_eq_some_iff.1 hi).1
  have hle : subHals.length ≤ (subHals ++ subHals').length := by simp
  by_cases h128 : i < 128
  · rw [forwardToSubHal_setSubHalIndex hclear h128 (by rw [hs']; omega),
      forwardToSubHal_setSubHalIndex hclear h128 (by rwa [hs])]
  · rw [forwardToSubHal_of_le hclear (by omega) (by omega) (by rwa [hs']),
      forwardToSubHal_of_le hclear (by omega) (by omega) (by rw [hs]; omega)]

/-- The keys of the sensor list are the proxy handles of the sensors handled. -/
theorem Listed.mem_iff {entries : List (ℕ × SensorInfo)} {s : HalProxy P} (h : Listed K entries s)
    {p : Int32} :
    p ∈ s.mSensors ↔ ∃ e ∈ entries, setSubHalIndex e.2.sensorHandle e.1 = p := by
  rw [Std.ExtTreeMap.mem_iff_isSome_getElem?, h.sensors, Option.isSome_map,
    Option.isSome_iff_exists]
  constructor
  · rintro ⟨e, he⟩
    exact ⟨e, mem_of_latestAt he⟩
  · rintro ⟨e, he, rfl⟩
    exact exists_latestAt he

section Extended

variable {subHals subHals' : List SubHal} (hlen : (subHals ++ subHals').length ≤ 256)
  {s s' : HalProxy P} (hs : Listed K (acceptedFrom 0 subHals) s)
  (hs' : Listed K (acceptedFrom 0 subHals ++ acceptedFrom subHals.length subHals') s')

include hs hs'

include hlen in
/-- A record stays. -/
theorem record_of_listed {p : Int32} {info : SensorInfo} (hinfo : s.mSensors[p]? = some info) :
    s'.mSensors[p]? = some info := by
  rw [hs.sensors p, Option.map_eq_some_iff] at hinfo
  obtain ⟨e, he, rfl⟩ := hinfo
  obtain ⟨hmem, rfl⟩ := mem_of_latestAt he
  rw [hs'.sensors, latestAt_append_of_some he fun e' he' => setSubHalIndex_ne_of_later hlen hmem he',
    Option.map_some, advertisedAs_later hmem]

/-- A record that was not there belongs to a later sub-HAL. -/
theorem later_of_not_listed {p : Int32} (hp : p ∈ s'.mSensors) (hnot : p ∉ s.mSensors) :
    ∃ i h, subHals.length ≤ i ∧ subHalIndexIsClear h = true ∧ p = setSubHalIndex h i := by
  obtain ⟨⟨i, sensor⟩, hmem, rfl⟩ := hs'.mem_iff.1 hp
  rcases List.mem_append.1 hmem with hfirst | hlater
  · exact absurd (hs.mem_iff.2 ⟨_, hfirst, rfl⟩) hnot
  · obtain ⟨k, subHal, rfl, -, hsensor⟩ := mem_acceptedFrom.1 hlater
    exact ⟨_, sensor.sensorHandle, Nat.le_add_right _ _, SubHal.clear_of_mem_accepted hsensor, rfl⟩

/-- An owner of direct channels stays. -/
theorem owner_of_listed {owner : ℕ} (howner : s.mDirectChannelSubHal = some owner) :
    s'.mDirectChannelSubHal = some owner := by
  rw [hs.owner] at howner
  rw [hs'.owner, directOwner_append_of_some howner]

/-- If there was none, a direct report goes to a later sub-HAL. -/
theorem later_of_configDirectReport (hnone : s.mDirectChannelSubHal = none)
    {p channelHandle : Int32} {rate : RateLevel} {subHal : ℕ} {call : SubHalCall P}
    (h : s'.configDirectReport p channelHandle rate = .forward subHal call) :
    subHals.length ≤ subHal := by
  have howner := owner_of_configDirectReport h
  rw [hs'.owner] at howner
  rw [hs.owner] at hnone
  exact le_of_directOwner_append hnone howner

end Extended

end HalProxy

open HalProxy in
/-- **Extending hals.conf.** Further names at the end of the file, up to 256 sub-HALs in all, do
not touch what was there: the sub-HALs come first and in their order, every record of the sensor
list is the same, and so is the route of every command on it that decodes the handle. With an owner
of direct channels `configDirectReport` is the same too; without one it was refused, and is still, or
goes to a new sub-HAL. A record that was not there belongs to a new sub-HAL. -/
theorem construct_append (K : Constants) (P : Type) (L : SharedObjects) (text text' : List Char)
    {c : Char} (hc : ConfigFile.isSpace c = true)
    (hlen : (L.initializeSubHalListFromConfigFile (some (text ++ c :: text'))).length ≤ 256) :
    let old := L.halProxy K P (some text)
    let new := L.halProxy K P (some (text ++ c :: text'))
    old.mSubHalList <+: new.mSubHalList ∧
    (∀ (p : Int32) info, old.mSensors[p]? = some info → new.mSensors[p]? = some info) ∧
    (∀ p ∈ old.mSensors, ∀ call, new.forwardToSubHal p call = old.forwardToSubHal p call) ∧
    (∀ owner, old.mDirectChannelSubHal = some owner → new.mDirectChannelSubHal = some owner ∧
      ∀ p channelHandle rate,
        new.configDirectReport p channelHandle rate = old.configDirectReport p channelHandle rate) ∧
    (old.mDirectChannelSubHal = none → ∀ p channelHandle rate,
      old.configDirectReport p channelHandle rate = .error .INVALID_OPERATION ∧
        ∀ subHal call, new.configDirectReport p channelHandle rate = .forward subHal call →
          old.mSubHalList.length ≤ subHal) ∧
    ∀ p ∈ new.mSensors, p ∉ old.mSensors → ∃ i h, old.mSubHalList.length ≤ i ∧
      subHalIndexIsClear h = true ∧ p = setSubHalIndex h i := by
  intro old new
  set subHals := L.initializeSubHalListFromConfigFile (some text) with hsubHals
  set subHals' := L.initializeSubHalListFromConfigFile (some text') with hsubHals'
  have happend : L.initializeSubHalListFromConfigFile (some (text ++ c :: text')) =
      subHals ++ subHals' := L.subHalList_append text text' hc
  rw [happend] at hlen
  have hold : old.mSubHalList = subHals := mSubHalList_construct K subHals
  have hnew : new.mSubHalList = subHals ++ subHals' := by
    rw [← happend]; exact mSubHalList_construct K _
  have hlisted : Listed K (acceptedFrom 0 subHals) old := listed_construct K P subHals
  have hlisted' :
      Listed K (acceptedFrom 0 subHals ++ acceptedFrom subHals.length subHals') new := by
    have h := listed_construct K P (subHals ++ subHals')
    rw [acceptedFrom_append, Nat.zero_add, ← happend] at h
    exact h
  refine ⟨?_, fun p info => record_of_listed hlen hlisted hlisted', fun p hp call => ?_,
    fun owner howner => ?_, fun hnone p channelHandle rate => ⟨?_, fun subHal call hforward => ?_⟩,
    fun p hp hnot => ?_⟩
  · rw [hold, hnew]
    exact List.prefix_append subHals subHals'
  · obtain ⟨e, hmem, rfl⟩ := hlisted.mem_iff.1 hp
    exact forwardToSubHal_append hlen hmem hold hnew call
  · have howner' := owner_of_listed hlisted hlisted' howner
    exact ⟨howner', configDirectReport_congr (howner'.trans howner.symm)⟩
  · unfold configDirectReport
    rw [hnone]
  · rw [hold]
    exact later_of_configDirectReport hlisted hlisted' hnone hforward
  · rw [hold]
    exact later_of_not_listed hlisted hlisted' hp hnot

/-- Two objects: one in the vendor directory with the 2.0 entry point, one elsewhere with the 2.1
entry point; a third one is of the wrong version. -/
def sampleObjects : SharedObjects where
  dlopen name :=
    if name = "/vendor/lib64/hw/a.so".toList then
      some ⟨some (2, ⟨[⟨1, 0, .LIGHT, ""⟩]⟩), none⟩
    else if name = "b.so".toList then some ⟨none, some (21, ⟨[⟨1, 0x400, .other 1, ""⟩]⟩)⟩
    else if name = "c.so".toList then some ⟨some (1, ⟨[]⟩), some (21, ⟨[]⟩)⟩
    else none
  SUB_HAL_2_0_VERSION := 2
  SUB_HAL_2_1_VERSION := 21

/-- The second object brings direct channels. -/
theorem construct_append_sample :
    let old := sampleObjects.halProxy sampleConstants Unit (some "a.so missing.so".toList)
    let new := sampleObjects.halProxy sampleConstants Unit
      (some ("a.so missing.so".toList ++ '\n' :: "c.so b.so\n".toList))
    old.mSubHalList.length = 1 ∧ new.mSubHalList.length = 2 ∧
      new.configDirectReport 1 0 .NORMAL = .forward 1 (.configDirectReport 1 0 .NORMAL) ∧
      (∀ p ∈ old.mSensors, ∀ call, new.forwardToSubHal p call = old.forwardToSubHal p call) ∧
      old.configDirectReport 1 0 .NORMAL = .error .INVALID_OPERATION ∧
        ∀ subHal call, new.configDirectReport 1 0 .NORMAL = .forward subHal call →
          old.mSubHalList.length ≤ subHal :=
  have happend := construct_append sampleConstants Unit sampleObjects "a.so missing.so".toList
    "c.so b.so\n".toList (c := '\n') (by decide) (by decide)
  ⟨by decide, by decide, by decide, happend.2.2.1, happend.2.2.2.2.1 (by decide) 1 0 .NORMAL⟩

end RealmeSalaa.MultiHal
