import Mathlib
import RealmeSalaa.Lib.GuardedSystem

/-!
# The DC, sRGB and OTG switches

A switch has a node in sysfs, a stored preference and a tile. The tile, the settings screen and the
boot receiver write them, and `writeValue` gives no sign of a write that fails. The three switches do
not meet: what an operation does to one of them is an operation of that switch alone
(`view_operate`), for which it is seen case by case when the preference ends up as what
`isCurrentlyEnabled` reports (`Control.good_iff`).
-/

namespace RealmeSalaa.Parts

/-- The classes of the switches. -/
inductive ModeSwitch
  | DCModeSwitch
  | SRGBModeSwitch
  | OTGModeSwitch
  deriving DecidableEq

namespace ModeSwitch

def FILE : ModeSwitch → String
  | DCModeSwitch => "/sys/kernel/oplus_display/dimlayer_bl_en"
  | SRGBModeSwitch => "/sys/kernel/oplus_display/seed"
  | OTGModeSwitch => "/sys/devices/virtual/oplus_chg/usb/otg_switch"

/-- `KEY_DC_SWITCH`, `KEY_SRGB_SWITCH`, `KEY_OTG_SWITCH` -/
def KEY : ModeSwitch → String
  | DCModeSwitch => "dc"
  | SRGBModeSwitch => "srgb"
  | OTGModeSwitch => "otg"

/-- The switches in the order in which the settings screen and `Startup` go over them. -/
def all : List ModeSwitch := [DCModeSwitch, SRGBModeSwitch, OTGModeSwitch]

theorem nodup_all : all.Nodup := by decide

theorem mem_all (m : ModeSwitch) : m ∈ all := by cases m <;> decide

instance : Fintype ModeSwitch := .ofList all mem_all

theorem FILE_ne {m m' : ModeSwitch} (h : m ≠ m') : m.FILE ≠ m'.FILE := by
  cases m <;> cases m' <;> first | exact absurd rfl h | decide

theorem KEY_ne {m m' : ModeSwitch} (h : m ≠ m') : m.KEY ≠ m'.KEY := by
  cases m <;> cases m' <;> first | exact absurd rfl h | decide

end ModeSwitch

/-- How a node can be used during an operation. -/
structure Access where
  /-- it exists and can be written -/
  writable : Bool
  /-- a write to it does not fail -/
  accepts : Bool

structure State where
  access : String → Access
  /-- the first line of each node -/
  lines : String → Option String
  prefs : String → Option Bool
  /-- whether the tile is active -/
  tiles : ModeSwitch → Bool

/-- A line stands for true if there is one and it is not `0`. -/
def enabledLine : Option String → Bool
  | some fileValue => fileValue ≠ "0"
  | none => false

namespace State

variable (s : State)

/-! ## `Utils` -/

def fileWritable (filename : String) : Bool := (s.access filename).writable

def readLine (filename : Option String) : Option String := filename.bind s.lines

def getFileValueAsBoolean (filename : Option String) : Bool := enabledLine (s.readLine filename)

/-- Nothing tells whether the write took effect. -/
def writeValue (filename : Option String) (value : String) : State :=
  match filename with
  | none => s
  | some file =>
    if (s.access file).writable && (s.access file).accepts then
      { s with lines := Function.update s.lines file (some value) }
    else s

/-! ## The preferences -/

def getBoolean (key : String) (defValue : Bool) : Bool := (s.prefs key).getD defValue

def putBoolean (key : String) (value : Bool) : State :=
  { s with prefs := Function.update s.prefs key (some value) }

/-! ## The switches -/

def getFile (m : ModeSwitch) : Option String :=
  if s.fileWritable m.FILE then some m.FILE else none

def isCurrentlyEnabled (m : ModeSwitch) : Bool := s.getFileValueAsBoolean (s.getFile m)

def onPreferenceChange (m : ModeSwitch) (newValue : Bool) : State × Bool :=
  (s.writeValue (s.getFile m) (if newValue then "1" else "0"), true)

/-- A change of the switch. The new value is stored if the listener returns true. -/
def change (m : ModeSwitch) (newValue : Bool) : State :=
  let (s, accepted) := s.onPreferenceChange m newValue
  if accepted then s.putBoolean m.KEY newValue else s

/-- `setChecked` in `onCreatePreferences`, which stores the value. -/
def openSwitch (m : ModeSwitch) : State := s.putBoolean m.KEY (s.isCurrentlyEnabled m)

/-- `onCreatePreferences` -/
def openSettings : State := ModeSwitch.all.foldl openSwitch s

/-! ## The tiles -/

def setState (m : ModeSwitch) (active : Bool) : State :=
  { s with tiles := Function.update s.tiles m active }

def onStartListening (m : ModeSwitch) : State := s.setState m (s.isCurrentlyEnabled m)

def onClick (m : ModeSwitch) : State :=
  let enabled := s.isCurrentlyEnabled m
  let s := s.writeValue (s.getFile m) (if enabled then "0" else "1")
  let s := s.putBoolean m.KEY (!enabled)
  s.setState m (!enabled)

/-! ## The boot receiver -/

/-- The `filePath` of a switch in `SWITCH_CONFIGS`: its file, if that was writable when the class
was initialized. -/
def filePath (wasWritable : ModeSwitch → Bool) (m : ModeSwitch) : Option String :=
  if wasWritable m then some m.FILE else none

def restoreSwitch (wasWritable : ModeSwitch → Bool) (m : ModeSwitch) : State :=
  if filePath wasWritable m ≠ none then
    s.writeValue (filePath wasWritable m) (if s.getBoolean m.KEY false then "1" else "0")
  else s

def restoreSwitches (wasWritable : ModeSwitch → Bool) : State :=
  ModeSwitch.all.foldl (fun s m => s.restoreSwitch wasWritable m) s

end State

/-! ## Runs -/

inductive Operation
  | refresh (m : ModeSwitch)
  | click (m : ModeSwitch)
  | openSettings
  | change (m : ModeSwitch) (newValue : Bool)
  | restore (wasWritable : ModeSwitch → Bool)

/-- An operation, and how the nodes can be used from it on. -/
structure Action where
  access : String → Access
  operation : Operation

def State.operate (s : State) : Operation → State
  | .refresh m => s.onStartListening m
  | .click m => s.onClick m
  | .openSettings => s.openSettings
  | .change m newValue => s.change m newValue
  | .restore wasWritable => s.restoreSwitches wasWritable

def parts : GuardedSystem State Action where
  guard _ _ := True
  next s a := State.operate { s with access := a.access } a.operation

/-! ## One switch -/

/-- A switch by itself: its node is on if its line is not `0`. -/
@[ext] structure Control where
  access : Access
  on : Bool
  pref : Bool
  tile : Bool

/-- What an operation does with one switch. -/
inductive Effect
  | idle
  | refresh
  | click
  | opened
  | change (newValue : Bool)
  | restore (wasWritable : Bool)
  deriving DecidableEq

namespace Control

variable (c : Control)

def reported : Bool := c.access.writable && c.on

def takesWrite : Bool := c.access.writable && c.access.accepts

def write (value : Bool) : Control := if c.takesWrite then { c with on := value } else c

def apply : Effect → Control
  | .idle => c
  | .refresh => { c with tile := c.reported }
  | .click => { c.write (!c.reported) with pref := !c.reported, tile := !c.reported }
  | .opened => { c with pref := c.reported }
  | .change newValue => { c.write newValue with pref := newValue }
  | .restore wasWritable => if wasWritable then c.write c.pref else c

end Control

namespace State

variable (s : State)

def view (m : ModeSwitch) : Control where
  access := s.access m.FILE
  on := s.getFileValueAsBoolean (some m.FILE)
  pref := s.getBoolean m.KEY false
  tile := s.tiles m

theorem isCurrentlyEnabled_eq (m : ModeSwitch) : s.isCurrentlyEnabled m = (s.view m).reported := by
  unfold isCurrentlyEnabled getFile Control.reported
  show _ = (s.fileWritable m.FILE && _)
  cases s.fileWritable m.FILE <;> rfl

theorem view_writeValue (m : ModeSwitch) (value : Bool) :
    (s.writeValue (some m.FILE) (if value then "1" else "0")).view m = (s.view m).write value := by
  have hvalue : enabledLine (some (if value then "1" else "0")) = value := by cases value <;> rfl
  have hline : ∀ line, enabledLine (Function.update s.lines m.FILE line m.FILE) = enabledLine line :=
    fun line => congrArg enabledLine (Function.update_self ..)
  unfold writeValue Control.write
  cases htakes : (s.view m).takesWrite with
  | true =>
    change ((s.access m.FILE).writable && (s.access m.FILE).accepts) = true at htakes
    simp only [htakes, if_true]
    exact Control.ext rfl ((hline _).trans hvalue) rfl rfl
  | false =>
    change ((s.access m.FILE).writable && (s.access m.FILE).accepts) = false at htakes
    simp only [htakes, Bool.false_eq_true, if_false]

/-- `getFile` is null only for a node that takes no write. -/
theorem view_writeValue_getFile (m : ModeSwitch) (value : Bool) :
    (s.writeValue (s.getFile m) (if value then "1" else "0")).view m = (s.view m).write value := by
  unfold getFile
  cases hwritable : s.fileWritable m.FILE with
  | true => exact s.view_writeValue m value
  | false =>
    have htakes : (s.view m).takesWrite = false := by
      show (s.fileWritable m.FILE && _) = false
      rw [hwritable, Bool.false_and]
    unfold Control.write
    rw [htakes]
    rfl

theorem view_writeValue_of_ne {m m' : ModeSwitch} (h : m ≠ m') (value : String)
    {filename : Option String} (hname : ∀ file ∈ filename, file = m.FILE) :
    (s.writeValue filename value).view m' = s.view m' := by
  cases filename with
  | none => rfl
  | some file =>
    obtain rfl := hname file rfl
    unfold writeValue
    dsimp only
    split_ifs
    · exact Control.ext rfl
        (congrArg enabledLine (Function.update_of_ne (ModeSwitch.FILE_ne h).symm ..)) rfl rfl
    · rfl

theorem view_putBoolean (m : ModeSwitch) (value : Bool) :
    (s.putBoolean m.KEY value).view m = { s.view m with pref := value } := by
  have hpref : Function.update s.prefs m.KEY (some value) m.KEY = some value :=
    Function.update_self ..
  exact Control.ext rfl rfl (congrArg (Option.getD · false) hpref) rfl

theorem view_putBoolean_of_ne {m m' : ModeSwitch} (h : m ≠ m') (value : Bool) :
    (s.putBoolean m.KEY value).view m' = s.view m' := by
  have hpref : Function.update s.prefs m.KEY (some value) m'.KEY = s.prefs m'.KEY :=
    Function.update_of_ne (ModeSwitch.KEY_ne h).symm ..
  exact Control.ext rfl rfl (congrArg (Option.getD · false) hpref) rfl

theorem view_setState (m : ModeSwitch) (active : Bool) :
    (s.setState m active).view m = { s.view m with tile := active } := by
  have htile : Function.update s.tiles m active m = active := Function.update_self ..
  exact Control.ext rfl rfl rfl htile

theorem view_setState_of_ne {m m' : ModeSwitch} (h : m ≠ m') (active : Bool) :
    (s.setState m active).view m' = s.view m' := by
  have htile : Function.update s.tiles m active m' = s.tiles m' := Function.update_of_ne h.symm ..
  exact Control.ext rfl rfl rfl htile

/-- A file that is given only on a condition. -/
theorem eq_of_mem_guarded {guard : Bool} {given : String} :
    ∀ file ∈ (if guard then some given else none), file = given := by
  intro file hfile
  split_ifs at hfile
  · exact (Option.some.inj hfile).symm
  · cases hfile

theorem getFile_eq {m : ModeSwitch} : ∀ file ∈ s.getFile m, file = m.FILE := eq_of_mem_guarded

theorem filePath_eq (wasWritable : ModeSwitch → Bool) {m : ModeSwitch} :
    ∀ file ∈ filePath wasWritable m, file = m.FILE := eq_of_mem_guarded

/-! ## Every operation is one of each switch -/

theorem view_onClick (m : ModeSwitch) : (s.onClick m).view m = (s.view m).apply .click := by
  have htext : (if s.isCurrentlyEnabled m then "0" else "1") =
      if !s.isCurrentlyEnabled m then "1" else "0" := by
    cases s.isCurrentlyEnabled m <;> rfl
  unfold onClick
  dsimp only
  rw [view_setState, view_putBoolean, htext, view_writeValue_getFile, isCurrentlyEnabled_eq]
  rfl

theorem view_onClick_of_ne {m m' : ModeSwitch} (h : m ≠ m') :
    (s.onClick m).view m' = s.view m' := by
  unfold onClick
  dsimp only
  rw [view_setState_of_ne _ h, view_putBoolean_of_ne _ h, view_writeValue_of_ne _ h _ s.getFile_eq]

theorem view_change (m : ModeSwitch) (newValue : Bool) :
    (s.change m newValue).view m = (s.view m).apply (.change newValue) := by
  show ((s.writeValue _ _).putBoolean m.KEY newValue).view m = _
  rw [view_putBoolean, view_writeValue_getFile]
  rfl

theorem view_change_of_ne {m m' : ModeSwitch} (h : m ≠ m') (newValue : Bool) :
    (s.change m newValue).view m' = s.view m' := by
  show ((s.writeValue _ _).putBoolean m.KEY newValue).view m' = _
  rw [view_putBoolean_of_ne _ h, view_writeValue_of_ne _ h _ s.getFile_eq]

theorem view_restoreSwitch (wasWritable : ModeSwitch → Bool) (m : ModeSwitch) :
    (s.restoreSwitch wasWritable m).view m = (s.view m).apply (.restore (wasWritable m)) := by
  unfold restoreSwitch filePath Control.apply
  cases wasWritable m with
  | true => exact s.view_writeValue m _
  | false => rfl

theorem view_restoreSwitch_of_ne (wasWritable : ModeSwitch → Bool) {m m' : ModeSwitch}
    (h : m ≠ m') : (s.restoreSwitch wasWritable m).view m' = s.view m' := by
  unfold restoreSwitch
  by_cases hpath : filePath wasWritable m ≠ none
  · rw [if_pos hpath]
    exact view_writeValue_of_ne s h _ (filePath_eq wasWritable)
  · rw [if_neg hpath]

/-- A loop over the switches does its part with each. -/
theorem view_foldl {f : State → ModeSwitch → State} {e : ModeSwitch → Effect}
    (hself : ∀ s m, (f s m).view m = (s.view m).apply (e m))
    (hother : ∀ s m m', m ≠ m' → (f s m).view m' = s.view m') {ms : List ModeSwitch}
    (hnodup : ms.Nodup) (m : ModeSwitch) :
    (ms.foldl f s).view m = if m ∈ ms then (s.view m).apply (e m) else s.view m := by
  induction ms generalizing s with
  | nil => rfl
  | cons m' ms ih =>
    obtain ⟨hnot, hnodup⟩ := List.nodup_cons.1 hnodup
    rw [List.foldl_cons, ih _ hnodup]
    by_cases hm : m' = m
    · subst hm
      rw [if_neg hnot, if_pos List.mem_cons_self, hself]
    · rw [hother s m' m hm]
      simp only [List.mem_cons, Ne.symm hm, false_or]

theorem view_foldl_all {f : State → ModeSwitch → State} {e : ModeSwitch → Effect}
    (hself : ∀ s m, (f s m).view m = (s.view m).apply (e m))
    (hother : ∀ s m m', m ≠ m' → (f s m).view m' = s.view m') (m : ModeSwitch) :
    (ModeSwitch.all.foldl f s).view m = (s.view m).apply (e m) := by
  rw [view_foldl s hself hother ModeSwitch.nodup_all, if_pos m.mem_all]

end State

/-- What the operation does with a switch. -/
def Operation.effect : Operation → ModeSwitch → Effect
  | .refresh m, m' => if m = m' then .refresh else .idle
  | .click m, m' => if m = m' then .click else .idle
  | .openSettings, _ => .opened
  | .change m newValue, m' => if m = m' then .change newValue else .idle
  | .restore wasWritable, m => .restore (wasWritable m)

theorem view_operate (s : State) (operation : Operation) (m : ModeSwitch) :
    (s.operate operation).view m = (s.view m).apply (operation.effect m) := by
  cases operation with
  | refresh m' =>
    unfold State.operate Operation.effect State.onStartListening
    dsimp only
    split_ifs with h
    · subst h
      rw [s.view_setState, s.isCurrentlyEnabled_eq]
      rfl
    · exact s.view_setState_of_ne h _
  | click m' =>
    unfold State.operate Operation.effect
    dsimp only
    split_ifs with h
    · subst h
      exact s.view_onClick m'
    · exact s.view_onClick_of_ne h
  | openSettings =>
    apply s.view_foldl_all (e := fun _ => .opened)
    · intro s m
      rw [State.openSwitch, State.view_putBoolean, State.isCurrentlyEnabled_eq]
      rfl
    · intro s m m' h
      exact State.view_putBoolean_of_ne s h _
  | change m' newValue =>
    unfold State.operate Operation.effect
    dsimp only
    split_ifs with h
    · subst h
      exact s.view_change m' newValue
    · exact s.view_change_of_ne h newValue
  | restore wasWritable =>
    exact s.view_foldl_all (fun s m => s.view_restoreSwitch wasWritable m)
      (fun s _ _ h => s.view_restoreSwitch_of_ne wasWritable h) m

/-! ## When they agree -/

/-- The operation writes the node of the switch. -/
def Effect.Writes : Effect → Prop
  | .click | .change _ | .restore _ => True
  | .idle | .refresh | .opened => False

namespace Control

/-- The node is off, or can be written if and only if it could be before. -/
def Undisturbed (c : Control) (before : Access) : Prop :=
  c.on = true → c.access.writable = before.writable

instance (c : Control) (before : Access) : Decidable (c.Undisturbed before) :=
  inferInstanceAs (Decidable (_ → _))

/-- What a switch needs of an operation: a click that its write succeeds, and so the others, unless
they write nothing new and the node has not been disturbed. -/
def Meets (c : Control) (before : Access) : Effect → Prop
  | .idle | .refresh => c.Undisturbed before
  | .click => c.takesWrite
  | .opened => True
  | .change newValue => c.takesWrite ∨ newValue = c.pref ∧ c.Undisturbed before
  | .restore wasWritable => wasWritable ∧ c.takesWrite ∨ c.Undisturbed before

instance (c : Control) (before : Access) (e : Effect) : Decidable (c.Meets before e) := by
  cases e <;> unfold Meets <;> infer_instance

/-- The stored preference is what is reported, a click sets the tile to it, and a write in vain
changes nothing. -/
def Good (c : Control) (e : Effect) : Prop :=
  (c.apply e).pref = (c.apply e).reported ∧
    (e = .click → (c.apply e).tile = (c.apply e).reported) ∧
    (e.Writes → ¬c.takesWrite → (c.apply e).pref = c.pref ∧ (c.apply e).tile = c.tile)

variable {c : Control}

/-- A preference that was what is reported still is if and only if the node is undisturbed. -/
theorem pref_eq_reported_iff {before : Access} (h : c.pref = (before.writable && c.on)) :
    c.pref = c.reported ↔ c.Undisturbed before := by
  unfold reported Undisturbed
  rw [h]
  cases c.on with
  | false => simp
  | true => simp [eq_comm]

theorem reported_write (h : c.takesWrite) (value : Bool) : (c.write value).reported = value := by
  have hwritable : c.access.writable = true := (Bool.and_eq_true_iff.1 h).1
  unfold write reported
  rw [if_pos h]
  show (c.access.writable && value) = value
  rw [hwritable, Bool.true_and]

theorem write_of_not (h : ¬c.takesWrite) (value : Bool) : c.write value = c := if_neg h

theorem good_click_iff : c.Good .click ↔ c.takesWrite := by
  constructor
  · rintro ⟨hpref, -, -⟩
    by_contra htakes
    have hsame : (!c.reported) = c.reported := by
      calc (!c.reported) = (c.write (!c.reported)).reported := hpref
        _ = c.reported := by rw [write_of_not htakes]
    cases hreported : c.reported <;> rw [hreported] at hsame <;> cases hsame
  · intro htakes
    have hreported : (!c.reported) = (c.write (!c.reported)).reported :=
      (reported_write htakes _).symm
    exact ⟨hreported, fun _ => hreported, fun _ hnot => absurd htakes hnot⟩

theorem good_change_iff (newValue : Bool) : c.Good (.change newValue) ↔
    c.takesWrite ∨ newValue = c.reported ∧ newValue = c.pref := by
  by_cases htakes : c.takesWrite
  · have hreported : newValue = (c.write newValue).reported := (reported_write htakes _).symm
    exact iff_of_true ⟨hreported, fun h => (by cases h), fun _ hnot => absurd htakes hnot⟩
      (.inl htakes)
  · have hwrite := write_of_not htakes newValue
    constructor
    · rintro ⟨hpref, -, hvain⟩
      have hreported : newValue = (c.write newValue).reported := hpref
      exact .inr ⟨hreported.trans (by rw [hwrite]), (hvain trivial htakes).1⟩
    · rintro (h | ⟨hreported, hpref⟩)
      · exact absurd h htakes
      · have htile : (c.write newValue).tile = c.tile := by rw [hwrite]
        have hnew : newValue = (c.write newValue).reported := by rw [hwrite]; exact hreported
        exact ⟨hnew, fun h => (by cases h), fun _ _ => ⟨hpref, htile⟩⟩

theorem good_restore_iff (wasWritable : Bool) : c.Good (.restore wasWritable) ↔
    wasWritable ∧ c.takesWrite ∨ c.pref = c.reported := by
  by_cases hboth : wasWritable ∧ c.takesWrite
  · have happly : c.apply (.restore wasWritable) = c.write c.pref := if_pos hboth.1
    have hwrite : c.write c.pref = { c with on := c.pref } := if_pos hboth.2
    refine iff_of_true ⟨?_, fun h => (by cases h), fun _ hnot => absurd hboth.2 hnot⟩ (.inl hboth)
    rw [happly, reported_write hboth.2, hwrite]
  · have hsame : c.apply (.restore wasWritable) = c := by
      unfold apply
      cases wasWritable with
      | false => rfl
      | true => exact write_of_not (fun htakes => hboth ⟨rfl, htakes⟩) _
    unfold Good
    rw [hsame]
    constructor
    · rintro ⟨hpref, -, -⟩
      exact .inr hpref
    · rintro (h | hpref)
      · exact absurd h hboth
      · exact ⟨hpref, fun h => (by cases h), fun _ _ => ⟨rfl, rfl⟩⟩

theorem good_iff {before : Access} (h : c.pref = (before.writable && c.on)) (e : Effect) :
    c.Good e ↔ c.Meets before e := by
  have hsame := pref_eq_reported_iff h
  cases e with
  | idle | refresh =>
    exact ⟨fun h => hsame.1 h.1,
      fun h => ⟨hsame.2 h, fun h => (by cases h), fun h => h.elim⟩⟩
  | click => exact good_click_iff
  | opened => exact iff_of_true ⟨rfl, fun h => (by cases h), fun h => h.elim⟩ trivial
  | change newValue =>
    refine (good_change_iff newValue).trans (or_congr_right ?_)
    rw [← hsame, and_comm]
    exact and_congr_right fun hnew => by rw [hnew]
  | restore wasWritable => exact (good_restore_iff wasWritable).trans (or_congr_right hsame)

end Control

/-- The operation writes the node of the switch. -/
def Operation.Writes : Operation → ModeSwitch → Prop
  | .click m, m' | .change m _, m' => m = m'
  | .restore _, _ => True
  | .refresh _, _ | .openSettings, _ => False

theorem Operation.writes_iff (operation : Operation) (m : ModeSwitch) :
    (operation.effect m).Writes ↔ operation.Writes m := by
  cases operation with
  | click m' | change m' newValue =>
    unfold Operation.effect Operation.Writes
    dsimp only
    split_ifs with h
    · exact iff_of_true trivial h
    · exact iff_of_false id h
  | refresh m' =>
    unfold Operation.effect Operation.Writes
    dsimp only
    split_ifs <;> rfl
  | openSettings => rfl
  | restore wasWritable => rfl

theorem Operation.effect_eq_click_iff (operation : Operation) (m : ModeSwitch) :
    operation.effect m = .click ↔ operation = .click m := by
  cases operation with
  | click m' =>
    unfold Operation.effect
    dsimp only
    split_ifs with h
    · subst h
      exact iff_of_true rfl rfl
    · refine iff_of_false (fun h => by cases h) fun hclick => ?_
      cases hclick
      exact h rfl
  | refresh m' | change m' newValue =>
    refine iff_of_false (fun h => ?_) fun h => by cases h
    unfold Operation.effect at h
    dsimp only at h
    split_ifs at h
  | openSettings | restore wasWritable => exact iff_of_false (fun h => by cases h) fun h => by cases h

/-- The nodes as the operation finds them. -/
def State.arrive (s : State) (a : Action) : State := { s with access := a.access }

/-- The preference of every switch is what `isCurrentlyEnabled` reports. -/
def Agree (s : State) : Prop := ∀ m : ModeSwitch, s.getBoolean m.KEY false = s.isCurrentlyEnabled m

/-- After the action the switches agree, a click has set the tile to the same, and a write that did
not take effect has changed neither preference nor tile. -/
def Keeps (s : State) (a : Action) : Prop :=
  let s' := parts.next s a
  Agree s' ∧
  (∀ m, a.operation = .click m → s'.tiles m = s'.isCurrentlyEnabled m) ∧
  ∀ m, a.operation.Writes m → ¬((a.access m.FILE).writable ∧ (a.access m.FILE).accepts) →
    s'.getBoolean m.KEY false = s.getBoolean m.KEY false ∧ s'.tiles m = s.tiles m

/-- Every switch has what it needs of the operation. -/
def Meets (s : State) (a : Action) : Prop :=
  ∀ m, ((s.arrive a).view m).Meets (s.access m.FILE) (a.operation.effect m)

instance (s : State) (a : Action) : Decidable (Meets s a) := by unfold Meets; infer_instance

theorem keeps_iff {s : State} (h : Agree s) (a : Action) : Keeps s a ↔ Meets s a := by
  have hview : ∀ m, (parts.next s a).view m =
      ((s.arrive a).view m).apply (a.operation.effect m) :=
    fun m => view_operate (s.arrive a) a.operation m
  have hbefore : ∀ m, ((s.arrive a).view m).pref =
      ((s.access m.FILE).writable && ((s.arrive a).view m).on) :=
    fun m => (h m).trans (s.isCurrentlyEnabled_eq m)
  have hgood : Meets s a ↔ ∀ m, ((s.arrive a).view m).Good (a.operation.effect m) :=
    forall_congr' fun m => (Control.good_iff (hbefore m) _).symm
  have htakes : ∀ m, ((s.arrive a).view m).takesWrite ↔
      ((a.access m.FILE).writable ∧ (a.access m.FILE).accepts) := fun m => Bool.and_eq_true_iff
  rw [hgood]
  unfold Control.Good
  simp only [← hview, Operation.writes_iff, Operation.effect_eq_click_iff, htakes]
  constructor
  · rintro ⟨hagree, hclick, hvain⟩ m
    refine ⟨(hagree m).trans (State.isCurrentlyEnabled_eq _ m), fun h => ?_, hvain m⟩
    exact (hclick m h).trans (State.isCurrentlyEnabled_eq _ m)
  · intro h
    refine ⟨fun m => (h m).1.trans (State.isCurrentlyEnabled_eq _ m).symm, fun m hm => ?_,
      fun m => (h m).2.2⟩
    exact ((h m).2.1 hm).trans (State.isCurrentlyEnabled_eq _ m).symm

/-- **The switches.** In every run whose operations meet the condition, the preferences are what is
reported; and after any such run an operation keeps it so if and only if it meets it. -/
theorem agree_of_reach {s₀ s : State} (h₀ : Agree s₀) (h : parts.Reach Meets s₀ s) :
    Agree s ∧ ∀ a, Keeps s a ↔ Meets s a := by
  have hagree : Agree s :=
    h.invariant h₀ fun s a hs _ hmeets => ((keeps_iff hs a).2 hmeets).1
  exact ⟨hagree, keeps_iff hagree⟩

/-- All nodes are off and nothing is stored. -/
def State.off : State := ⟨fun _ => ⟨true, true⟩, fun _ => some "0", fun _ => none, fun _ => false⟩

theorem agree_off : Agree .off := by unfold Agree; decide

/-- A click, a boot at which the node cannot be written, and a change back to what is reported. -/
theorem agree_of_reach_sample :
    let free : String → Access := fun _ => ⟨true, true⟩
    let run : List Action := [⟨free, .click .DCModeSwitch⟩, ⟨free, .openSettings⟩,
      ⟨free, .restore fun _ => true⟩, ⟨fun _ => ⟨false, false⟩, .openSettings⟩,
      ⟨fun _ => ⟨false, false⟩, .change .OTGModeSwitch false⟩, ⟨free, .openSettings⟩]
    Agree (parts.exec .off run) ∧
      ∀ a, Keeps (parts.exec .off run) a ↔ Meets (parts.exec .off run) a := by
  intro free run
  have hlegal : parts.Legal Meets .off run := by
    refine ⟨trivial, ?_, trivial, ?_, trivial, ?_, trivial, ?_, trivial, ?_, trivial, ?_, trivial⟩ <;>
      decide
  exact agree_of_reach agree_off (GuardedSystem.reach_exec hlegal)

/-- A click on a tile whose node cannot be written. -/
theorem click_in_vain :
    let a : Action := ⟨fun _ => ⟨false, false⟩, .click .DCModeSwitch⟩
    let s := parts.next .off a
    Agree .off ∧ s.isCurrentlyEnabled .DCModeSwitch = false ∧
      s.getBoolean ModeSwitch.DCModeSwitch.KEY false = true ∧ s.tiles .DCModeSwitch = true := by
  intro a s
  exact ⟨by unfold Agree; decide, by decide, by decide, by decide⟩

end RealmeSalaa.Parts
