import RealmeSalaa.DeviceInit.DeviceProps

/-!
# Loading the vendor properties

`vendor_load_properties` writes the identity of the variant, except in the recovery image, and then
the heap sizes for the RAM that the device has. The heap sizes are there afterwards whatever was there
before, every other property has the value of the last write that names it, if it was there or a
write may add it, and of an earlier load nothing is left (`vendor_load_properties_apply`).
-/

namespace RealmeSalaa.DeviceInit

open Override

/-- What `load_dalvik_properties` chooses. -/
structure DalvikHeap where
  heapstartsize : String
  heapgrowthlimit : String
  heapsize : String
  heapminfree : String
  heapmaxfree : String
  heaptargetutilization : String

/-- The sizes for `sys.totalram`. -/
def dalvikHeap (totalram : UInt64) : DalvikHeap :=
  if totalram ≥ 7 * 1024 * 1024 * 1024 then
    { heapstartsize := "24m"
      heapgrowthlimit := "256m"
      heapsize := "512m"
      heaptargetutilization := "0.46"
      heapminfree := "8m"
      heapmaxfree := "48m" }
  else if totalram ≥ 5 * 1024 * 1024 * 1024 then
    { heapstartsize := "16m"
      heapgrowthlimit := "256m"
      heapsize := "512m"
      heaptargetutilization := "0.5"
      heapminfree := "8m"
      heapmaxfree := "32m" }
  else
    { heapstartsize := "8m"
      heapgrowthlimit := "192m"
      heapsize := "512m"
      heaptargetutilization := "0.6"
      heapminfree := "8m"
      heapmaxfree := "16m" }

def load_dalvik_properties (totalram : UInt64) (props : Props) : Props :=
  let heap := dalvikHeap totalram
  let props := property_override "dalvik.vm.heapstartsize" heap.heapstartsize true props
  let props := property_override "dalvik.vm.heapgrowthlimit" heap.heapgrowthlimit true props
  let props := property_override "dalvik.vm.heapsize" heap.heapsize true props
  let props :=
    property_override "dalvik.vm.heaptargetutilization" heap.heaptargetutilization true props
  let props := property_override "dalvik.vm.heapminfree" heap.heapminfree true props
  property_override "dalvik.vm.heapmaxfree" heap.heapmaxfree true props

/-- `recovery` tells whether `__ANDROID_RECOVERY__` is defined. -/
def vendor_load_properties (recovery : Bool) (file : Option (List UInt8)) (totalram : UInt64)
    (props : Props) : Props :=
  load_dalvik_properties totalram (if recovery then props else set_device_props file props)

/-! ## The writes -/

def DalvikHeap.writes (heap : DalvikHeap) : List (Override String String) :=
  [⟨"dalvik.vm.heapstartsize", heap.heapstartsize, true⟩,
    ⟨"dalvik.vm.heapgrowthlimit", heap.heapgrowthlimit, true⟩,
    ⟨"dalvik.vm.heapsize", heap.heapsize, true⟩,
    ⟨"dalvik.vm.heaptargetutilization", heap.heaptargetutilization, true⟩,
    ⟨"dalvik.vm.heapminfree", heap.heapminfree, true⟩,
    ⟨"dalvik.vm.heapmaxfree", heap.heapmaxfree, true⟩]

/-- The variant whose identity is loaded. -/
def loadedVariant (recovery : Bool) (file : Option (List UInt8)) : Option Variant :=
  if recovery then none else recognised file

/-- The writes of a variant's identity. -/
def identityWrites (variant : Option Variant) : List (Override String String) :=
  variant.elim [] fun v => writes.map v.assign

theorem load_dalvik_properties_eq (totalram : UInt64) (props : Props) :
    load_dalvik_properties totalram props = writeAll (dalvikHeap totalram).writes props := by
  unfold load_dalvik_properties
  simp only [property_override_eq]
  rfl

theorem vendor_load_properties_eq (recovery : Bool) (file : Option (List UInt8)) (totalram : UInt64)
    (props : Props) : vendor_load_properties recovery file totalram props =
      writeAll (identityWrites (loadedVariant recovery file) ++ (dalvikHeap totalram).writes)
        props := by
  rw [vendor_load_properties, load_dalvik_properties_eq, writeAll_append]
  congr 1
  cases recovery with
  | true => rfl
  | false =>
    rw [if_neg Bool.false_ne_true, set_device_props_eq, loadedVariant, if_neg Bool.false_ne_true]
    cases recognised file with
    | none => rfl
    | some v => exact setVariant_eq v props

theorem lastValue_assign (v : Variant) (ws : List (Override String Identity)) (k : String) :
    lastValue (ws.map v.assign) k = (lastValue ws k).map v.get := by
  induction ws with
  | nil => rfl
  | cons w ws ih =>
    have hassign : lastValue ((w :: ws).map v.assign) k =
        (lastValue (ws.map v.assign) k).or (if w.key = k then some (v.get w.value) else none) := rfl
    rw [hassign, lastValue, ih, Option.map_or]
    congr 1
    split_ifs <;> rfl

theorem adds_assign (v : Variant) (ws : List (Override String Identity)) (k : String) :
    adds (ws.map v.assign) k = adds ws k := by
  unfold adds
  rw [List.any_map]
  rfl

/-- The names of the heap properties. -/
def heapKeys : List String :=
  ["dalvik.vm.heapstartsize", "dalvik.vm.heapgrowthlimit", "dalvik.vm.heapsize",
    "dalvik.vm.heaptargetutilization", "dalvik.vm.heapminfree", "dalvik.vm.heapmaxfree"]

theorem isSome_lastValue_heap_iff (heap : DalvikHeap) (k : String) :
    (lastValue heap.writes k).isSome = true ↔ k ∈ heapKeys := by
  rw [isSome_lastValue_iff]
  have hkeys : heap.writes.map (·.key) = heapKeys := rfl
  rw [← hkeys, List.mem_map]

theorem adds_heap_iff (heap : DalvikHeap) (k : String) :
    adds heap.writes k = true ↔ k ∈ heapKeys := by
  refine ⟨fun h => (isSome_lastValue_heap_iff heap k).1 (isSome_lastValue_of_adds h), fun h => ?_⟩
  rw [← isSome_lastValue_heap_iff heap k, isSome_lastValue_iff] at h
  obtain ⟨w, hw, hkey⟩ := h
  have hadd : ∀ w ∈ heap.writes, w.add = true := by simp [DalvikHeap.writes]
  exact List.any_eq_true.2 ⟨w, hw, by simp [hkey, hadd w hw]⟩

theorem lastValue_heap (heap : DalvikHeap) :
    ∀ w ∈ heap.writes, lastValue heap.writes w.key = some w.value := by
  simp [DalvikHeap.writes, lastValue]

/-! ## The properties afterwards -/

/-- A property that is none of the heap after a load of the variant's identity. -/
def loadedValue (variant : Option Variant) (k : String) (old : Option String) : Option String :=
  match variant with
  | none => old
  | some v => if (old.isSome || adds writes k) = true then ((lastValue writes k).map v.get).or old
    else none

theorem writeAll_identity (variant : Option Variant) (props : Props) (k : String) :
    writeAll (identityWrites variant) props k = loadedValue variant k (props k) := by
  cases variant with
  | none => rfl
  | some v =>
    show writeAll (writes.map v.assign) props k = _
    rw [writeAll_apply, adds_assign, lastValue_assign]
    rfl

theorem isSome_lastValue_identity (variant : Option Variant) (k : String) :
    (lastValue (identityWrites variant) k).isSome = true ↔
      variant.isSome = true ∧ (lastValue writes k).isSome = true := by
  cases variant with
  | none => simp [identityWrites, lastValue]
  | some v =>
    show (lastValue (writes.map v.assign) k).isSome = true ↔ _
    simp [lastValue_assign]

theorem adds_identity (variant : Option Variant) (k : String) :
    adds (identityWrites variant) k = true ↔ variant.isSome = true ∧ adds writes k = true := by
  cases variant with
  | none => simp [identityWrites, adds]
  | some v =>
    show adds (writes.map v.assign) k = true ↔ _
    simp [adds_assign]

/-- **Loading.** For every store, file and RAM: the heap properties are those of the RAM, any other
one is what the last write of the recognised variant makes of it, and a load of whatever was
recognised before leaves no trace. -/
theorem vendor_load_properties_apply (recovery : Bool) (file : Option (List UInt8))
    (totalram : UInt64) (props : Props) :
    (∀ w ∈ (dalvikHeap totalram).writes,
      vendor_load_properties recovery file totalram props w.key = some w.value) ∧
    (∀ k, k ∉ heapKeys → vendor_load_properties recovery file totalram props k =
      loadedValue (loadedVariant recovery file) k (props k)) ∧
    ∀ recovery' file' totalram',
      ((loadedVariant recovery' file').isSome = true →
        (loadedVariant recovery file).isSome = true) →
      vendor_load_properties recovery file totalram
          (vendor_load_properties recovery' file' totalram' props) =
        vendor_load_properties recovery file totalram props := by
  refine ⟨fun w hw => ?_, fun k hk => ?_, fun recovery' file' totalram' hrecognised => ?_⟩
  · have hkey : w.key ∈ heapKeys :=
      (isSome_lastValue_heap_iff _ _).1 (isSome_lastValue_iff.2 ⟨w, hw, rfl⟩)
    rw [vendor_load_properties_eq, writeAll_apply, adds_append, (adds_heap_iff _ _).2 hkey,
      lastValue_append, lastValue_heap _ w hw]
    simp
  · rw [vendor_load_properties_eq, writeAll_append, writeAll_of_unwritten, writeAll_identity]
    rintro w hw rfl
    exact hk ((isSome_lastValue_heap_iff _ _).1 (isSome_lastValue_iff.2 ⟨w, hw, rfl⟩))
  · simp only [vendor_load_properties_eq]
    refine writeAll_writeAll (fun k h => ?_) (fun k h => ?_) props
    · rw [lastValue_append, Option.isSome_or, Bool.or_eq_true, isSome_lastValue_heap_iff,
        isSome_lastValue_identity] at h ⊢
      exact h.imp id (And.imp_left hrecognised)
    · rw [adds_append, Bool.or_eq_true, adds_identity, adds_heap_iff] at h ⊢
      exact h.imp (And.imp_left hrecognised) id

/-- Loaded for one variant with 8 GiB of RAM, then for another with 4. -/
theorem vendor_load_properties_apply_sample :
    let file := fun code : String => some (code.toList.map Char.toUInt8)
    let props : Props := fun _ => none
    vendor_load_properties false (file "140") (4 * 1024 * 1024 * 1024)
        (vendor_load_properties false (file "90") (8 * 1024 * 1024 * 1024) props) =
      vendor_load_properties false (file "140") (4 * 1024 * 1024 * 1024) props :=
  (vendor_load_properties_apply false _ _ _).2.2 false _ _ fun _ => by decide

end RealmeSalaa.DeviceInit
