import RealmeSalaa.Lib.Overrides
import RealmeSalaa.Lib.Scanf

/-!
# The properties of the device

`set_device_props` finds the variant of the device by its operator code and writes its identity over
the build properties. Its writes are those of `calls`, in this order (`setVariant_eq`). No call names
the fingerprint of six of the partitions: the one that would, leaves `product` at its default and
names `ro.product.<part>.fingerprint` instead. They keep the value they had
(`set_device_props_iff`).
-/

namespace RealmeSalaa.DeviceInit

open Scanf

/-- The property store. -/
abbrev Props := String → Option String

/-- `add` is true where a call leaves it out. -/
def property_override (prop value : String) (add : Bool) (props : Props) : Props :=
  match props prop with
  | some _ => Function.update props prop (some value)
  | none => if add then Function.update props prop (some value) else props

def prop_types : List String :=
  ["", "bootimage.", "odm.", "odm_dlkm.", "product.",
    "system.", "system_dlkm.", "system_ext.", "vendor.", "vendor_dlkm."]

def prop_name (source prop : String) (product : Bool) : String :=
  if product then "ro.product." ++ source ++ prop else "ro." ++ source ++ "build." ++ prop

/-- `product` is true where a call leaves it out. -/
def set_ro_build_prop (prop value : String) (product : Bool) (props : Props) : Props :=
  prop_types.foldl (fun props source =>
    property_override (prop_name source prop product) value false props) props

/-- What a case of the switch assigns. -/
structure Variant where
  device : String
  model : String
  fingerprint : String
  marketname : String

def variantOf : ℤ → Option Variant
  | 140 | 141 | 146 | 149 => some
    { device := "RMX2151L1"
      model := "RMX2151"
      fingerprint := "realme/RMX2151/RMX2151L1:12/SP1A.210812.016/Q.bf75e7-1:user/release-keys"
      marketname := "realme 7" }
  | 94 | 148 => some
    { device := "RMX2155L1"
      model := "RMX2155"
      fingerprint := "realme/RMX2155/RMX2155L1:12/SP1A.210812.016/Q.GDPR.bf75e7-1:user/release-keys"
      marketname := "realme 7" }
  | 90 | 92 => some
    { device := "RMX2156L1"
      model := "RMX2156"
      fingerprint := "realme/RMX2156/RMX2156L1:12/SP1A.210812.016/Q.174ebd4_fa4d:user/release-keys"
      marketname := "realme Narzo 30 4G" }
  | 143 => some
    { device := "RMX2161L1"
      model := "RMX2161"
      fingerprint := "realme/RMX2161/RMX2161L1:12/SP1A.210812.016/Q.d5ef75_5f7:user/release-keys"
      marketname := "realme Narzo 20 Pro" }
  | 145 | 147 => some
    { device := "RMX2163L1"
      model := "RMX2163"
      fingerprint := "realme/RMX2163/RMX2163L1:12/SP1A.210812.016/Q.bf75e7-1:user/release-keys"
      marketname := "realme Narzo 20 Pro" }
  | _ => none

/-- What `set_device_props` writes after the switch. -/
def setVariant (v : Variant) (props : Props) : Props :=
  let props := set_ro_build_prop "model" v.model true props
  let props := set_ro_build_prop "device" v.device true props
  let props := set_ro_build_prop "name" v.model true props
  let props := set_ro_build_prop "product" v.model false props
  let props := set_ro_build_prop "marketname" v.marketname true props
  let props := set_ro_build_prop "fingerprint" v.fingerprint true props
  let props := property_override "ro.product.device" v.device true props
  let props := property_override "ro.vendor.device" v.device true props
  let props := property_override "ro.build.product" v.device true props
  let props := property_override "ro.product.marketname" v.marketname true props
  let props := property_override "ro.oplus.market.name" v.marketname true props
  let props := property_override "ro.vendor.oplus.market.name" v.marketname true props
  let props := property_override "ro.vendor.build.fingerprint" v.fingerprint true props
  let props := property_override "ro.bootimage.build.fingerprint" v.fingerprint true props
  let props := property_override "ro.odm.build.fingerprint" v.fingerprint true props
  let props := property_override "ro.build.fingerprint" v.fingerprint true props
  let props := property_override "bluetooth.device.default_name" v.marketname true props
  property_override "vendor.usb.product_string" v.marketname true props

/-- The characters of a string up to its first NUL. -/
def c_str (raw : List UInt8) : List UInt8 := raw.takeWhile (· ≠ 0)

/-- The code of the whole file, unless it is malformed. -/
def operatorCode (operator_code_raw : List UInt8) : Option ℤ :=
  let (operator_code, rest) := strtol (c_str operator_code_raw)
  if rest = c_str operator_code_raw ∨ rest ≠ [] then none else some operator_code

/-- `set_device_props`, with the content of the operator code file if it can be read. -/
def set_device_props (file : Option (List UInt8)) (props : Props) : Props :=
  match file with
  | none => props
  | some operator_code_raw =>
    match operatorCode operator_code_raw with
    | none => props
    | some operator_code =>
      match variantOf operator_code with
      | none => props
      | some v => setVariant v props

/-! ## The writes -/

inductive Identity
  | device
  | model
  | fingerprint
  | marketname
  deriving DecidableEq

def Variant.get (v : Variant) : Identity → String
  | .device => v.device
  | .model => v.model
  | .fingerprint => v.fingerprint
  | .marketname => v.marketname

/-- A call of `set_ro_build_prop`, or one of `property_override`. -/
inductive Call
  | build (prop : String) (value : Identity) (product : Bool)
  | single (prop : String) (value : Identity)

def Call.writes : Call → List (Override String Identity)
  | .build prop value product =>
    prop_types.map fun source => ⟨prop_name source prop product, value, false⟩
  | .single prop value => [⟨prop, value, true⟩]

/-- The calls of `set_device_props`. -/
def calls : List Call :=
  [.build "model" .model true, .build "device" .device true, .build "name" .model true,
    .build "product" .model false, .build "marketname" .marketname true,
    .build "fingerprint" .fingerprint true,
    .single "ro.product.device" .device, .single "ro.vendor.device" .device,
    .single "ro.build.product" .device, .single "ro.product.marketname" .marketname,
    .single "ro.oplus.market.name" .marketname, .single "ro.vendor.oplus.market.name" .marketname,
    .single "ro.vendor.build.fingerprint" .fingerprint,
    .single "ro.bootimage.build.fingerprint" .fingerprint,
    .single "ro.odm.build.fingerprint" .fingerprint, .single "ro.build.fingerprint" .fingerprint,
    .single "bluetooth.device.default_name" .marketname,
    .single "vendor.usb.product_string" .marketname]

def writes : List (Override String Identity) := calls.flatMap Call.writes

/-- A write of a variant's value. -/
def Variant.assign (v : Variant) (w : Override String Identity) : Override String String :=
  ⟨w.key, v.get w.value, w.add⟩

theorem property_override_eq (prop value : String) (add : Bool) (props : Props) :
    property_override prop value add props = Override.writeAll [⟨prop, value, add⟩] props := by
  show _ = Override.write _ _
  unfold property_override Override.write
  cases props prop <;> simp

theorem set_ro_build_prop_eq (prop value : String) (product : Bool) (props : Props) :
    set_ro_build_prop prop value product props = Override.writeAll
      (prop_types.map fun source => ⟨prop_name source prop product, value, false⟩) props := by
  unfold set_ro_build_prop Override.writeAll
  rw [List.foldl_map]
  simp only [property_override_eq]
  rfl

def Call.apply (v : Variant) (props : Props) : Call → Props
  | .build prop value product => set_ro_build_prop prop (v.get value) product props
  | .single prop value => property_override prop (v.get value) true props

theorem Call.apply_eq (v : Variant) (props : Props) (call : Call) :
    call.apply v props = Override.writeAll (call.writes.map v.assign) props := by
  cases call with
  | build prop value product =>
    rw [Call.apply, set_ro_build_prop_eq, Call.writes, List.map_map]
    rfl
  | single prop value => exact property_override_eq prop (v.get value) true props

theorem setVariant_eq (v : Variant) (props : Props) :
    setVariant v props = Override.writeAll (writes.map v.assign) props := by
  have hcalls : setVariant v props = calls.foldl (fun props call => call.apply v props) props := rfl
  rw [hcalls, writes, List.map_flatMap, Override.writeAll_flatMap]
  simp only [Call.apply_eq]

/-- A property that the calls name, with one value only, has that value or does not exist. -/
theorem eq_of_setVariant {k : String} {value : Identity}
    (hvalue : ∀ w ∈ writes, w.key = k → w.value = value) (hnamed : ∃ w ∈ writes, w.key = k)
    (v : Variant) (props : Props) : ∀ x, setVariant v props k = some x → x = v.get value := by
  rw [setVariant_eq]
  apply Override.writeAll_of_written
  · intro w hw hkey
    obtain ⟨w', hw', rfl⟩ := List.mem_map.1 hw
    exact congrArg v.get (hvalue w' hw' hkey)
  · obtain ⟨w, hw, hkey⟩ := hnamed
    exact ⟨v.assign w, List.mem_map_of_mem hw, hkey⟩

theorem setVariant_of_unnamed {k : String} (h : ∀ w ∈ writes, w.key ≠ k) (v : Variant)
    (props : Props) : setVariant v props k = props k := by
  rw [setVariant_eq]
  apply Override.writeAll_of_unwritten
  intro w hw
  obtain ⟨w', hw', rfl⟩ := List.mem_map.1 hw
  exact h w' hw'

/-! ## Consistent properties -/

/-- The existing build properties are those of the variant. -/
structure Consistent (v : Variant) (props : Props) : Prop where
  fingerprint : ∀ source ∈ prop_types, ∀ x,
    props ("ro." ++ source ++ "build.fingerprint") = some x → x = v.fingerprint
  device : ∀ source ∈ prop_types, ∀ x,
    props ("ro.product." ++ source ++ "device") = some x → x = v.device
  model : ∀ source ∈ prop_types, ∀ x,
    props ("ro.product." ++ source ++ "model") = some x → x = v.model

/-- The partitions whose fingerprint no call names. -/
def missed : List String :=
  ["odm_dlkm.", "product.", "system.", "system_dlkm.", "system_ext.", "vendor_dlkm."]

/-- The last three bytes of a name, the last one first. -/
def ending (name : String) : List UInt8 := name.toByteArray.data.toList.reverse.take 3

theorem ending_append (start : String) {rest : String} (h : 3 ≤ rest.toByteArray.data.toList.length) :
    ending (start ++ rest) = ending rest := by
  have hbytes : (start ++ rest).toByteArray.data.toList =
      start.toByteArray.data.toList ++ rest.toByteArray.data.toList := by simp
  unfold ending
  rw [hbytes, List.reverse_append]
  exact List.take_append_of_le_length (by rwa [List.length_reverse])

def Call.prop : Call → String
  | .build prop _ _ | .single prop _ => prop

def Call.value : Call → Identity
  | .build _ value _ | .single _ value => value

theorem length_prop : ∀ call ∈ calls, 3 ≤ call.prop.toByteArray.data.toList.length := by decide

/-- The names that a call writes end as its own. -/
theorem ending_write {call : Call} (hcall : call ∈ calls) {w : Override String Identity}
    (hw : w ∈ call.writes) : ending w.key = ending call.prop ∧ w.value = call.value := by
  cases call with
  | build prop value product =>
    obtain ⟨source, -, rfl⟩ := List.mem_map.1 hw
    refine ⟨?_, rfl⟩
    show ending (prop_name source prop product) = ending prop
    unfold prop_name
    split_ifs <;> exact ending_append _ (length_prop _ hcall)
  | single prop value =>
    cases List.mem_singleton.1 hw
    exact ⟨rfl, rfl⟩

/-- The end of the name tells what a call writes. -/
theorem value_of_ending : ∀ call ∈ calls,
    (ending call.prop = ending "device" → call.value = .device) ∧
    (ending call.prop = ending "model" → call.value = .model) ∧
    (ending call.prop = ending "fingerprint" → call.value = .fingerprint) := by decide

theorem missed_of_ending : ∀ call ∈ calls, ending call.prop = ending "fingerprint" →
    ∀ w ∈ call.writes, ∀ source ∈ missed,
      w.key ≠ "ro." ++ source ++ "build.fingerprint" := by decide

theorem ending_fingerprint (start : String) :
    ending (start ++ "build.fingerprint") = ending "fingerprint" := by
  rw [ending_append start (by decide)]
  decide

theorem missed_unnamed : ∀ source ∈ missed, ∀ w ∈ writes,
    w.key ≠ "ro." ++ source ++ "build.fingerprint" := by
  intro source hsource w hw hkey
  obtain ⟨call, hcall, hw⟩ := List.mem_flatMap.1 hw
  refine missed_of_ending call hcall ?_ w hw source hsource hkey
  rw [← (ending_write hcall hw).1, hkey, ending_fingerprint]

/-- What is written to the names of one ending. -/
theorem value_of_key {name start : String} {value : Identity}
    (hname : 3 ≤ name.toByteArray.data.toList.length)
    (hvalue : ∀ call ∈ calls, ending call.prop = ending name → call.value = value) :
    ∀ w ∈ writes, w.key = start ++ name → w.value = value := by
  intro w hw hkey
  obtain ⟨call, hcall, hw⟩ := List.mem_flatMap.1 hw
  obtain ⟨hending, hsame⟩ := ending_write hcall hw
  rw [hsame]
  apply hvalue call hcall
  rw [← hending, hkey, ending_append start hname]

/-- The product names that a call of `set_ro_build_prop` writes, if no other value goes to names of
that ending. -/
theorem product_named {source prop : String} {value : Identity} (hsource : source ∈ prop_types)
    (hcall : .build prop value true ∈ calls)
    (hvalue : ∀ call ∈ calls, ending call.prop = ending prop → call.value = value) :
    (∀ w ∈ writes, w.key = "ro.product." ++ source ++ prop → w.value = value) ∧
      ∃ w ∈ writes, w.key = "ro.product." ++ source ++ prop := by
  refine ⟨value_of_key (length_prop _ hcall) hvalue, ?_⟩
  have hwrite := List.mem_map_of_mem (f := fun source =>
    (⟨prop_name source prop true, value, false⟩ : Override String Identity)) hsource
  exact ⟨_, List.mem_flatMap.2 ⟨_, hcall, hwrite⟩, rfl⟩

theorem fingerprint_named : ∀ source ∈ prop_types, source ∉ missed →
    (∀ w ∈ writes, w.key = "ro." ++ source ++ "build.fingerprint" → w.value = .fingerprint) ∧
      ∃ w ∈ writes, w.key = "ro." ++ source ++ "build.fingerprint" := by
  intro source hsource hnot
  refine ⟨value_of_key (by decide) fun call hcall hending => ?_, ?_⟩
  · exact (value_of_ending call hcall).2.2 (hending.trans (ending_fingerprint ""))
  · revert source
    decide

theorem device_named : ∀ source ∈ prop_types,
    (∀ w ∈ writes, w.key = "ro.product." ++ source ++ "device" → w.value = .device) ∧
      ∃ w ∈ writes, w.key = "ro.product." ++ source ++ "device" := by
  intro source hsource
  have hcall : Call.build "device" .device true ∈ calls := by simp [calls]
  exact product_named hsource hcall fun call hmem => (value_of_ending call hmem).1

theorem model_named : ∀ source ∈ prop_types,
    (∀ w ∈ writes, w.key = "ro.product." ++ source ++ "model" → w.value = .model) ∧
      ∃ w ∈ writes, w.key = "ro.product." ++ source ++ "model" := by
  intro source hsource
  have hcall : Call.build "model" .model true ∈ calls := by simp [calls]
  exact product_named hsource hcall fun call hmem => (value_of_ending call hmem).2.1

theorem consistent_setVariant_iff (v : Variant) (props : Props) :
    Consistent v (setVariant v props) ↔ ∀ source ∈ missed, ∀ x,
      props ("ro." ++ source ++ "build.fingerprint") = some x → x = v.fingerprint := by
  constructor
  · intro h source hsource x hx
    have hin : ∀ source ∈ missed, source ∈ prop_types := by decide
    apply h.fingerprint source (hin source hsource) x
    rw [setVariant_of_unnamed (missed_unnamed source hsource), hx]
  · intro h
    refine ⟨fun source hsource => ?_, fun source hsource => ?_, fun source hsource => ?_⟩
    · by_cases hmissed : source ∈ missed
      · rw [setVariant_of_unnamed (missed_unnamed source hmissed)]
        exact h source hmissed
      · obtain ⟨hvalue, hnamed⟩ := fingerprint_named source hsource hmissed
        exact eq_of_setVariant hvalue hnamed v props
    · obtain ⟨hvalue, hnamed⟩ := device_named source hsource
      exact eq_of_setVariant hvalue hnamed v props
    · obtain ⟨hvalue, hnamed⟩ := model_named source hsource
      exact eq_of_setVariant hvalue hnamed v props

/-- The variant that the file is recognised as. -/
def recognised (file : Option (List UInt8)) : Option Variant :=
  (file.bind operatorCode).bind variantOf

theorem operatorCode_eq_some_iff (operator_code_raw : List UInt8) (operator_code : ℤ) :
    operatorCode operator_code_raw = some operator_code ↔
      strtol (c_str operator_code_raw) = (operator_code, []) ∧ c_str operator_code_raw ≠ [] := by
  show (if (strtol (c_str operator_code_raw)).2 = c_str operator_code_raw ∨
    (strtol (c_str operator_code_raw)).2 ≠ [] then none
    else some (strtol (c_str operator_code_raw)).1) = _ ↔ _
  rcases strtol (c_str operator_code_raw) with ⟨code, rest⟩
  dsimp only
  rw [Prod.mk_inj]
  split_ifs with hmalformed
  · refine iff_of_false not_false ?_
    rintro ⟨⟨-, hrest⟩, hne⟩
    rcases hmalformed with hall | hleft
    · exact hne (hall.symm.trans hrest)
    · exact hleft hrest
  · obtain ⟨hsome, hrest⟩ := not_or.1 hmalformed
    rw [not_not] at hrest
    rw [Option.some_inj, and_iff_left hrest, and_iff_left fun hnil => hsome (hrest.trans hnil.symm)]

theorem range_of_variantOf {code : ℤ} {v : Variant} (h : variantOf code = some v) :
    90 ≤ code ∧ code ≤ 149 := by
  unfold variantOf at h
  split at h
  all_goals first | omega | cases h

/-- A file is recognised as a variant exactly if its bytes up to the first NUL spell a code of that
variant. -/
theorem recognised_iff (file : Option (List UInt8)) (v : Variant) :
    recognised file = some v ↔ ∃ operator_code_raw operator_code, file = some operator_code_raw ∧
      Spells (c_str operator_code_raw) operator_code ∧ variantOf operator_code = some v := by
  unfold recognised
  rw [Option.bind_eq_some_iff]
  simp only [Option.bind_eq_some_iff, operatorCode_eq_some_iff, strtol_eq_iff]
  constructor
  · rintro ⟨_, ⟨raw, hfile, code, hspells, rfl⟩, hvariant⟩
    -- a code outside the range of a `long` is taken as the nearest one, which is nobody's
    have hrange := range_of_variantOf hvariant
    have hcode : max (-2 ^ 63) (min (2 ^ 63 - 1) code) = code := by omega
    exact ⟨raw, code, hfile, hspells, hcode ▸ hvariant⟩
  · rintro ⟨raw, code, hfile, hspells, hvariant⟩
    have hrange := range_of_variantOf hvariant
    have hcode : max (-2 ^ 63) (min (2 ^ 63 - 1) code) = code := by omega
    exact ⟨code, ⟨raw, hfile, code, hspells, hcode.symm⟩, hvariant⟩

theorem set_device_props_eq (file : Option (List UInt8)) (props : Props) :
    set_device_props file props = (recognised file).elim props (setVariant · props) := by
  unfold set_device_props recognised
  cases file with
  | none => rfl
  | some raw =>
    dsimp only [Option.bind_some]
    cases operatorCode raw with
    | none => rfl
    | some code =>
      dsimp only [Option.bind_some]
      cases variantOf code <;> rfl

/-- **The build properties.** For every store and file: if the file is recognised, the build
properties end up as those of the variant, and else as they were, if and only if the fingerprints of
the partitions that no call names are not there or are those of the variant before. It is recognised
where its bytes spell a code of the switch. -/
theorem set_device_props_iff (file : Option (List UInt8)) (props : Props) :
    (∀ v, recognised file = some v ↔ ∃ operator_code_raw operator_code,
      file = some operator_code_raw ∧ Spells (c_str operator_code_raw) operator_code ∧
        variantOf operator_code = some v) ∧
    (((∀ v, recognised file = some v → Consistent v (set_device_props file props)) ∧
      (recognised file = none → set_device_props file props = props)) ↔
    ∀ v, recognised file = some v → ∀ source ∈ missed, ∀ x,
      props ("ro." ++ source ++ "build.fingerprint") = some x → x = v.fingerprint) := by
  refine ⟨recognised_iff file, ?_⟩
  rw [set_device_props_eq]
  cases recognised file with
  | none => exact ⟨fun _ v hv => absurd hv (Option.some_ne_none v).symm, fun _ => ⟨fun v hv =>
      absurd hv (Option.some_ne_none v).symm, fun _ => rfl⟩⟩
  | some v =>
    constructor
    · rintro ⟨h, -⟩ v' hv
      cases hv
      exact (consistent_setVariant_iff v props).1 (h v rfl)
    · intro h
      refine ⟨fun v' hv => ?_, fun hnone => absurd hnone (Option.some_ne_none v)⟩
      cases hv
      exact (consistent_setVariant_iff v props).2 (h v rfl)

/-- The code 140, on a device whose product partition has a fingerprint. -/
theorem product_fingerprint_kept :
    let file := some ("140".toList.map Char.toUInt8)
    let props : Props := fun prop => if prop = "ro.product.build.fingerprint" then some "generic" else none
    ∃ v, recognised file = some v ∧ ¬Consistent v (set_device_props file props) := by
  intro file props
  refine ⟨_, rfl, fun h => ?_⟩
  have hkept := h.fingerprint "product." (by decide) "generic" (by decide)
  exact absurd hkept (by decide)

end RealmeSalaa.DeviceInit
