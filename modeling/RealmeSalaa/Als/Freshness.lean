import RealmeSalaa.Als.Hysteresis
import RealmeSalaa.Als.Screenshots

/-!
# How old a published value is

Most events are published with `last_corrected_value`, a value that some earlier event computed.
`last_forced_update` bounds its age: the timer moves it forward together with a request, and only a
full correction takes the request back (`Held.latest`). So as long as the screen is lit, a published
value is at most 3 s old (`fresh_of_reach`).

In a scene that does not change the value does not change either, whenever it is computed again.
What changes is how often: without requests of the timer, only a reading outside its own window
takes another screenshot (`steady_of_reach`).
-/

namespace RealmeSalaa.Als

variable {pow : ℚ → ℚ}

/-! ## The latest full correction -/

/-- The time of the latest event, and time and value of the latest full correction. -/
structure Corrections where
  clock : ℤ
  latest : Option (ℤ × ℚ)

def Corrections.note (pow : ℚ → ℚ) (r : Corrections) (m : AlsCorrection) : AlsAction → Corrections
  | .init _ => r
  | .process call event =>
    { clock := call.now
      latest :=
        if (m.process pow call event).1.path = .corrected then
          some (call.now, (m.process pow call event).1.event.light)
        else r.latest }

/-- The recorded runs. -/
def correctionSystem (pow : ℚ → ℚ) : GuardedSystem (AlsCorrection × Corrections) AlsAction :=
  (alsSystem pow).record (Corrections.note pow)

/-- The clock does not go back. -/
def InOrder (s : AlsCorrection × Corrections) : AlsAction → Prop
  | .init _ => True
  | .process call _ => s.2.clock ≤ call.now

instance (s : AlsCorrection × Corrections) (a : AlsAction) :
    Decidable ((correctionSystem pow).guard s a) :=
  inferInstanceAs (Decidable a.Timely)

instance (s : AlsCorrection × Corrections) (a : AlsAction) : Decidable (InOrder s a) := by
  cases a <;> unfold InOrder <;> infer_instance

/-- What is held between events: before the first one there is a request, and without a request the
value is that of the latest correction, which is no older than the timer's latest start. -/
structure Held (s : AlsState) (r : Corrections) : Prop where
  before : s.last_update = 0 → s.force_update = true
  forced : s.last_forced_update ≤ r.clock
  latest : s.force_update = false → ∃ t, r.latest = some (t, s.last_corrected_value) ∧
    s.last_forced_update ≤ t ∧ t ≤ r.clock

/-- Without a request after the timer there was none before it, and the timer is as it was. -/
theorem arrive_of_not_forced {call : Call} {s : AlsState}
    (hbefore : s.last_update = 0 → s.force_update = true)
    (h : (arrive call s).force_update = false) :
    s.force_update = false ∧ s.last_update ≠ 0 ∧ timerForces call s = false ∧
      (arrive call s).last_forced_update = s.last_forced_update := by
  have hforce : s.force_update = false := by
    cases hs : s.force_update with
    | false => rfl
    | true => rw [force_update_arrive call (.inl hs)] at h; cases h
  have hstarted : s.last_update ≠ 0 := fun hzero => by
    rw [hbefore hzero] at hforce
    cases hforce
  have htimer : timerForces call s = false := by
    cases ht : timerForces call s with
    | false => rfl
    | true =>
      unfold arrive runTimer at h
      simp only [hstarted, ht, if_false, if_true] at h
      split at h <;> cases h
  refine ⟨hforce, hstarted, htimer, ?_⟩
  rw [last_forced_update_arrive, if_neg]
  simp [hstarted, htimer]

theorem last_forced_update_arrive_le {call : Call} {s : AlsState} {clock : ℤ}
    (h : s.last_forced_update ≤ clock) (hnow : clock ≤ call.now) :
    (arrive call s).last_forced_update ≤ call.now := by
  rw [last_forced_update_arrive]
  split_ifs
  · exact le_refl _
  · exact h.trans hnow

section

variable {m : AlsCorrection} {r : Corrections} (h : Held m.state r) {call : Call}
  {event : SensorsEvent} (htime : 0 < call.now) (hnow : r.clock ≤ call.now)

include h htime hnow

/-- A call on another path than `corrected` keeps what is held. -/
theorem Held.kept (hpath : (m.process pow call event).1.path ≠ .corrected)
    (hstate : (m.process pow call event).2.state = arrive call m.state) :
    Held (m.process pow call event).2.state (r.note pow m (.process call event)) := by
  have hlatest : (r.note pow m (.process call event)).latest = r.latest := if_neg hpath
  rw [hstate]
  refine ⟨fun hzero => ?_, last_forced_update_arrive_le h.forced hnow, fun hforce => ?_⟩
  · rw [last_update_arrive] at hzero
    split_ifs at hzero with hfast
    · simp [tooFast, hzero] at hfast
    · omega
  · obtain ⟨hforce', -, -, hsame⟩ := arrive_of_not_forced h.before hforce
    obtain ⟨t, ht, hle, hle'⟩ := h.latest hforce'
    rw [hlatest, last_corrected_value_arrive, hsame]
    exact ⟨t, ht, hle, hle'.trans hnow⟩

theorem Held.process :
    Held (m.process pow call event).2.state (r.note pow m (.process call event)) := by
  rcases processEvent_cases pow m.conf m.hysteresis_ranges call event m.state with
    ⟨-, heq⟩ | ⟨-, ⟨-, heq⟩ | ⟨-, ⟨path, hpath, heq⟩ | ⟨screenshot, -, heq⟩⟩⟩
  · exact h.kept htime hnow (by rw [AlsCorrection.process, heq]; rintro ⟨⟩)
      (congrArg Processed.state heq)
  · exact h.kept htime hnow (by rw [AlsCorrection.process, heq]; rintro ⟨⟩)
      (congrArg Processed.state heq)
  · refine h.kept htime hnow ?_ (congrArg Processed.state heq)
    rw [AlsCorrection.process, heq]
    rcases hpath with ⟨rfl, -⟩ | ⟨rfl, -⟩ <;> rintro ⟨⟩
  · rcases correct_cases pow m.conf m.hysteresis_ranges (unbiasedEvent m.conf event)
      (arrive call m.state) call.brightness screenshot with hfull | ⟨-, hreused⟩
    · have hout := heq.trans hfull
      have hnote : (r.note pow m (.process call event)).latest =
          some (call.now, (m.process pow call event).2.state.last_corrected_value) := by
        show (if (processEvent _ _ _ _ _ _).path = .corrected then _ else _) = _
        rw [if_pos (by rw [hout]; rfl), AlsCorrection.process, hout]
        rfl
      have htimes := sameTimes_processEvent pow m.conf m.hysteresis_ranges call event m.state
      have hforced := last_forced_update_arrive_le h.forced hnow
      rw [← htimes.2] at hforced
      refine ⟨fun hzero => ?_, hforced, fun _ => ⟨_, hnote, hforced, le_refl _⟩⟩
      rw [last_update_process] at hzero
      split_ifs at hzero with hfast
      · simp [tooFast, hzero] at hfast
      · omega
    · have hout := heq.trans hreused
      exact h.kept htime hnow (by rw [AlsCorrection.process, hout]; rintro ⟨⟩)
        (congrArg Processed.state hout)

end

theorem held_of_reach {m : AlsCorrection} {s : AlsCorrection × Corrections}
    (h : (correctionSystem pow).Reach InOrder ({ m with state := .boot }, ⟨0, none⟩) s) :
    Held s.1.state s.2 := by
  refine h.invariant (I := fun s => Held s.1.state s.2)
    ⟨fun _ => rfl, Int.le_refl 0, fun hforce => by cases hforce⟩ fun s a hs hg horder => ?_
  cases a with
  | init i => exact hs
  | process call event => exact hs.process hg horder

/-- **Fresh values.** In every run from the initial `state`, what an event is published with is the
value of the latest full correction, its own or an earlier one, and if the event arrives with the
screen lit that correction is at most 3 s old. -/
theorem fresh_of_reach {m : AlsCorrection} {s : AlsCorrection × Corrections}
    (h : (correctionSystem pow).Reach InOrder ({ m with state := .boot }, ⟨0, none⟩) s)
    {call : Call} {event : SensorsEvent} (hnow : s.2.clock ≤ call.now)
    (hdrops : (s.1.process pow call event).1.path.drops = false) :
    ∃ t, (s.2.note pow s.1 (.process call event)).latest =
        some (t, (s.1.process pow call event).1.event.light) ∧
      t ≤ call.now ∧ (0 < call.brightness → call.now - t ≤ 3000000000) := by
  have hs := held_of_reach h
  set out := processEvent pow s.1.conf s.1.hysteresis_ranges call event s.1.state with hout
  have hnote : (s.2.note pow s.1 (.process call event)).latest =
      if out.path = .corrected then some (call.now, out.event.light) else s.2.latest := rfl
  show ∃ t, _ = some (t, out.event.light) ∧ _
  have hdrops : out.path.drops = false := hdrops
  -- without a request the value is held, and the timer has not run out
  have hheld : out.path ≠ .corrected →
      out.event.light = (arrive call s.1.state).last_corrected_value →
      (arrive call s.1.state).force_update = false → ∃ t,
        (s.2.note pow s.1 (.process call event)).latest = some (t, out.event.light) ∧
        t ≤ call.now ∧ (0 < call.brightness → call.now - t ≤ 3000000000) := by
    intro hpath hlight hforce
    obtain ⟨hforce', hstarted, htimer, -⟩ := arrive_of_not_forced hs.before hforce
    obtain ⟨t, ht, hle, hle'⟩ := hs.latest hforce'
    refine ⟨t, ?_, hle'.trans hnow, fun hlit => ?_⟩
    · rw [hnote, if_neg hpath, ht, hlight, last_corrected_value_arrive]
    · have hage : ¬call.now - s.1.state.last_forced_update > 3000000000 := by
        simpa [timerForces, hstarted, hlit] using htimer
      omega
  rcases processEvent_cases pow s.1.conf s.1.hysteresis_ranges call event s.1.state with
    ⟨-, heq⟩ | ⟨-, ⟨hwants, heq⟩ | ⟨-, ⟨path, hpath, heq⟩ | ⟨screenshot, -, heq⟩⟩⟩
  · rw [hout, heq] at hdrops
    cases hdrops
  · refine hheld (by rw [hout, heq]; rintro ⟨⟩) (by rw [hout, heq]) ?_
    simp only [wantsScreenshot, decide_eq_false_iff_not, not_or, Bool.not_eq_true] at hwants
    exact hwants.1
  · rw [hout, heq] at hdrops
    rcases hpath with ⟨rfl, -⟩ | ⟨rfl, -⟩ <;> cases hdrops
  · rcases correct_cases pow s.1.conf s.1.hysteresis_ranges (unbiasedEvent s.1.conf event)
      (arrive call s.1.state) call.brightness screenshot with hfull | ⟨hforce, hreused⟩
    · refine ⟨call.now, ?_, le_refl _, fun _ => by omega⟩
      rw [hnote, if_pos (by rw [hout, heq, hfull]; rfl)]
    · exact hheld (by rw [hout, heq, hreused]; rintro ⟨⟩) (by rw [hout, heq, hreused]) hforce

/-- Two events of the same reading 200 ms apart, the second one from the cache. -/
def lateRun : List AlsAction :=
  [.init shipped, .process ⟨1000000000, 100, .captured ⟨0, 0, 0⟩⟩ ⟨3, 65627, 400, 0⟩]

theorem fresh_of_reach_sample :
    let s := (correctionSystem id).exec (.boot, ⟨0, none⟩) lateRun
    let call : Call := ⟨1200000000, 100, .failed⟩
    let event : SensorsEvent := ⟨3, 65627, 400, 0⟩
    (s.1.process id call event).1.path = .cached ∧
      ∃ t, (s.2.note id s.1 (.process call event)).latest =
          some (t, (s.1.process id call event).1.event.light) ∧
        t ≤ 1200000000 ∧ (0 < call.brightness → 1200000000 - t ≤ 3000000000) := by
  intro s call event
  have hlegal : (correctionSystem id).Legal InOrder (.boot, ⟨0, none⟩) lateRun := by decide +kernel
  have hpath : (s.1.process id call event).1.path = .cached := by decide +kernel
  exact ⟨hpath, fresh_of_reach (m := .boot) (GuardedSystem.reach_exec hlegal) (by decide +kernel)
    (congrArg Path.drops hpath)⟩

/-! ## A steady scene -/

/-- Events of one reading under one screen; a capture may fail. -/
def InScene (brightness : ℚ) (screenshot : AreaRgbCaptureResult) (event : SensorsEvent) :
    AlsAction → Prop
  | .init _ => False
  | .process call e => e = event ∧ call.brightness = brightness ∧
      ∀ shot, call.capture = .captured shot → shot = screenshot

/-- The value, its window and its gain are those of `ref`. -/
structure SameValue (ref s : AlsState) : Prop where
  hyst_min : s.hyst_min = ref.hyst_min
  hyst_max : s.hyst_max = ref.hyst_max
  last_corrected_value : s.last_corrected_value = ref.last_corrected_value
  last_agc_gain : s.last_agc_gain = ref.last_agc_gain

theorem SameValue.arrive {ref s : AlsState} (h : SameValue ref s) (call : Call) :
    SameValue ref (arrive call s) := by
  unfold Als.arrive runTimer
  split_ifs <;> exact ⟨h.hyst_min, h.hyst_max, h.last_corrected_value, h.last_agc_gain⟩

theorem sameValue_fullyCorrect (conf : AlsConfig) (ranges : List HysteresisRange) (brightness : ℚ)
    (screenshot : AreaRgbCaptureResult) (event : SensorsEvent) {s s' : AlsState}
    (h : SameValue (fullyCorrect pow conf ranges brightness screenshot event s).state s') :
    SameValue (fullyCorrect pow conf ranges brightness screenshot event s).state
      (fullyCorrect pow conf ranges brightness screenshot event s').state := by
  have hmin := h.hyst_min
  have hmax := h.hyst_max
  unfold fullyCorrect setWindow at *
  dsimp only at *
  split
  · exact ⟨rfl, rfl, rfl, rfl⟩
  · next hnone =>
    simp only [hnone] at hmin hmax
    exact ⟨hmin, hmax, rfl, rfl⟩

section

variable {m : AlsCorrection} {call₀ : Call} {event : SensorsEvent}
  {screenshot : AreaRgbCaptureResult} (hcapture : call₀.capture = .captured screenshot)
  (hpath : (m.process pow call₀ event).1.path = .corrected)

include hcapture hpath

theorem processEvent_of_corrected :
    processEvent pow m.conf m.hysteresis_ranges call₀ event m.state =
      fullyCorrect pow m.conf m.hysteresis_ranges call₀.brightness screenshot
      (unbiasedEvent m.conf event) (arrive call₀ m.state) := by
  obtain ⟨shot, hshot, heq⟩ := exists_of_corrected hpath
  cases hcapture.symm.trans hshot
  exact heq

/-- An event of the scene leaves the value, and is published with it. -/
theorem sameValue_process {s : AlsState} (hs : SameValue (m.process pow call₀ event).2.state s)
    {call : Call} (hcall : InScene call₀.brightness screenshot event (.process call event)) :
    let out := processEvent pow m.conf m.hysteresis_ranges call event s
    SameValue (m.process pow call₀ event).2.state out.state ∧
      (out.path.drops = false → out.event.light = (m.process pow call₀ event).1.event.light) := by
  intro out
  obtain ⟨-, hbrightness, hshot⟩ := hcall
  have hfirst := processEvent_of_corrected hcapture hpath
  have hstate : (m.process pow call₀ event).2.state = _ := congrArg Processed.state hfirst
  have hvalue : (m.process pow call₀ event).1.event.light =
      (m.process pow call₀ event).2.state.last_corrected_value := by
    show (processEvent _ _ _ _ _ _).event.light =
      (processEvent _ _ _ _ _ _).state.last_corrected_value
    rw [hfirst]
    rfl
  have harrive := hs.arrive call
  rcases processEvent_cases pow m.conf m.hysteresis_ranges call event s with
    ⟨-, heq⟩ | ⟨-, ⟨-, heq⟩ | ⟨-, ⟨path, hpath', heq⟩ | ⟨shot, hcaptured, heq⟩⟩⟩
  · rw [show out = _ from heq]
    exact ⟨harrive, nofun⟩
  · rw [show out = _ from heq]
    exact ⟨harrive, fun _ => harrive.last_corrected_value.trans hvalue.symm⟩
  · rw [show out = _ from heq]
    refine ⟨harrive, fun hdrops => ?_⟩
    rcases hpath' with ⟨rfl, -⟩ | ⟨rfl, -⟩ <;> cases hdrops
  · obtain rfl := hshot shot hcaptured
    rw [hbrightness] at heq
    rcases correct_cases pow m.conf m.hysteresis_ranges (unbiasedEvent m.conf event)
      (Als.arrive call s) call₀.brightness shot with hfull | ⟨-, hreused⟩
    · rw [show out = _ from heq.trans hfull]
      rw [hstate] at harrive ⊢
      exact ⟨sameValue_fullyCorrect _ _ _ _ _ harrive, fun _ => by rw [hvalue, hstate]; rfl⟩
    · rw [show out = _ from heq.trans hreused]
      exact ⟨harrive, fun _ => harrive.last_corrected_value.trans hvalue.symm⟩

theorem sameValue_of_reach {s : AlsCorrection}
    (h : (alsSystem pow).Reach (fun _ a => InScene call₀.brightness screenshot event a)
      (m.process pow call₀ event).2 s) :
    s.conf = m.conf ∧ s.hysteresis_ranges = m.hysteresis_ranges ∧
      SameValue (m.process pow call₀ event).2.state s.state := by
  refine h.invariant (I := fun s => s.conf = m.conf ∧ s.hysteresis_ranges = m.hysteresis_ranges ∧
      SameValue (m.process pow call₀ event).2.state s.state)
    ⟨rfl, rfl, ⟨rfl, rfl, rfl, rfl⟩⟩ fun s a hs _ ha => ?_
  obtain ⟨hconf, hranges, hsame⟩ := hs
  cases a with
  | init i => exact ha.elim
  | process call e =>
    obtain rfl : e = event := ha.1
    refine ⟨hconf, hranges, ?_⟩
    show SameValue _ (processEvent pow s.conf s.hysteresis_ranges call e s.state).state
    rw [hconf, hranges]
    exact (sameValue_process hcapture hpath hsame ha).1

end

/-- In the dark the timer makes no request. -/
theorem force_update_arrive_of_dark {call : Call} {s : AlsState} (hdark : call.brightness ≤ 0)
    (h : s.force_update = false) : (arrive call s).force_update = false := by
  have htimer : timerForces call s = false := by
    simp [timerForces, not_lt.2 hdark]
  unfold arrive runTimer
  simp only [htimer, Bool.false_eq_true, if_false]
  split_ifs <;> exact h

/-- In the dark no request is pending after a correction. -/
theorem force_update_of_dark {conf : AlsConfig} {ranges : List HysteresisRange} {call : Call}
    {event : SensorsEvent} {s : AlsState} (hdark : call.brightness ≤ 0)
    (h : s.force_update = false) :
    (processEvent pow conf ranges call event s).state.force_update = false := by
  have harrive := force_update_arrive_of_dark hdark h
  rcases processEvent_cases pow conf ranges call event s with
    ⟨-, heq⟩ | ⟨-, ⟨-, heq⟩ | ⟨-, ⟨path, -, heq⟩ | ⟨shot, -, heq⟩⟩⟩
  · rw [heq]; exact harrive
  · rw [heq]; exact harrive
  · rw [heq]; exact harrive
  · rcases correct_cases pow conf ranges (unbiasedEvent conf event) (arrive call s)
      call.brightness shot with hfull | ⟨-, hreused⟩
    · rw [heq, hfull]; rfl
    · rw [heq, hreused]; exact harrive

theorem wantsScreenshot_eq {conf : AlsConfig} {light : ℚ} {s : AlsState}
    (h : s.force_update = false) :
    wantsScreenshot conf light s = true ↔
      ¬(s.hyst_min ≤ light ∧ (light : WithTop ℚ) ≤ s.hyst_max) ∧
        (light * conf.calib_gain * s.last_agc_gain < 10 ∨
          500 / 7 < light * conf.calib_gain * s.last_agc_gain) := by
  simp only [wantsScreenshot, h, decide_eq_true_eq, Bool.false_eq_true, false_or, not_and_or,
    not_le, gt_iff_lt]

/-- Past the rate limiter, a wanted screenshot is asked for if there is a service. -/
theorem captures_iff {conf : AlsConfig} {ranges : List HysteresisRange} {call : Call}
    {event : SensorsEvent} {s : AlsState} :
    (processEvent pow conf ranges call event s).path.captures = true ↔
      tooFast call s = false ∧ call.capture ≠ .unavailable ∧
        wantsScreenshot conf (unbiasedEvent conf event).light (arrive call s) = true := by
  rcases processEvent_cases pow conf ranges call event s with
    ⟨hfast, heq⟩ | ⟨hslow, ⟨hwants, heq⟩ | ⟨hwants, ⟨path, hpath, heq⟩ | ⟨shot, hcapture, heq⟩⟩⟩
  · rw [heq, hfast]
    exact iff_of_false nofun nofun
  · rw [heq, hwants]
    exact iff_of_false nofun nofun
  · rw [heq]
    rcases hpath with ⟨rfl, hcapture⟩ | ⟨rfl, hcapture⟩
    · rw [hcapture]
      exact iff_of_false nofun fun h => h.2.1 rfl
    · rw [hcapture]
      exact iff_of_true rfl ⟨hslow, nofun, hwants⟩
  · rw [heq]
    refine iff_of_true ?_ ⟨hslow, by rw [hcapture]; exact nofun, hwants⟩
    rcases correct_cases pow conf ranges (unbiasedEvent conf event) (arrive call s)
      call.brightness shot with hfull | ⟨-, hreused⟩
    · rw [hfull]; rfl
    · rw [hreused]; rfl

/-- **A steady scene.** After `init` and any history, let an event be fully corrected. In every run
of events with the same reading under the same screen, at any times and with captures that may
fail, each one that is not dropped is published with the same value. An event that arrives without
a request calls `getAreaBrightness` exactly if it is not too fast, there is a service, the two
scales of the reading do not fit, and the reading is below 10 or above 500 / 7 lux; in the dark
there are no requests. -/
theorem steady_of_reach (hpow : UnitMap pow) {m₀ : AlsCorrection}
    (hm : m₀.hysteresis_ranges = hysteresis_ranges) (i : AlsInputs)
    (hconf : (m₀.init i).conf.Sound) (s₀ : AlsState) {call₀ : Call}
    (hbrightness : 0 ≤ call₀.brightness) {screenshot : AreaRgbCaptureResult}
    (hcapture : call₀.capture = .captured screenshot) (hshot : screenshot.InRange)
    {event : SensorsEvent} (hlight : 0 ≤ unbiased (m₀.init i).conf event.light)
    (hpath : (({ m₀.init i with state := s₀ } : AlsCorrection).process pow call₀ event).1.path =
      .corrected) {s : AlsCorrection}
    (h : (alsSystem pow).Reach (fun _ a => InScene call₀.brightness screenshot event a)
      (({ m₀.init i with state := s₀ } : AlsCorrection).process pow call₀ event).2 s)
    {call : Call} (hcall : InScene call₀.brightness screenshot event (.process call event)) :
    let conf := (m₀.init i).conf
    let first := (({ m₀.init i with state := s₀ } : AlsCorrection).process pow call₀ event).1
    let out := (s.process pow call event).1
    let lux := unbiased conf event.light * conf.calib_gain *
      selected_gain pow conf screenshot call₀.brightness (unbiasedEvent conf event)
    (out.path.drops = false → out.event.light = first.event.light) ∧
    ((arrive call s.state).force_update = false → (out.path.captures = true ↔
      tooFast call s.state = false ∧ call.capture ≠ .unavailable ∧
        ¬Fits pow conf screenshot call₀.brightness (unbiasedEvent conf event) ∧
        (lux < 10 ∨ 500 / 7 < lux))) ∧
    (call₀.brightness ≤ 0 → (arrive call s.state).force_update = false) := by
  intro conf first out lux
  set m : AlsCorrection := { m₀.init i with state := s₀ } with hmdef
  obtain ⟨hsconf, hsranges, hsame⟩ := sameValue_of_reach hcapture hpath h
  have hout : out = processEvent pow m.conf m.hysteresis_ranges call event s.state := by
    show processEvent pow s.conf s.hysteresis_ranges call event s.state = _
    rw [hsconf, hsranges]
  have hfirst := processEvent_of_corrected hcapture hpath
  refine ⟨?_, fun hforce => ?_, fun hdark => ?_⟩
  · rw [hout]
    exact (sameValue_process hcapture hpath hsame hcall).2
  · have hwindow := (window_contains_iff hpow hm i hconf call₀ hbrightness hcapture hshot event
      hlight s₀ hpath).1
    have harrive := hsame.arrive call
    have hgain : (m.process pow call₀ event).2.state.last_agc_gain =
        selected_gain pow conf screenshot call₀.brightness (unbiasedEvent conf event) := by
      show (processEvent pow m.conf m.hysteresis_ranges call₀ event m.state).state.last_agc_gain = _
      rw [hfirst]
      unfold fullyCorrect setWindow
      dsimp only
      split <;> rfl
    rw [hout, captures_iff, wantsScreenshot_eq hforce, harrive.hyst_min, harrive.hyst_max,
      harrive.last_agc_gain, hgain]
    exact and_congr_right fun _ => and_congr_right fun _ =>
      and_congr_left fun _ => not_congr hwindow
  · have hflag : s.state.force_update = false := by
      refine h.invariant (I := fun s => s.state.force_update = false) ?_ fun t a ht _ ha => ?_
      · show (processEvent pow m.conf m.hysteresis_ranges call₀ event
          m.state).state.force_update = _
        rw [hfirst]
        rfl
      · cases a with
        | init i => exact ha.elim
        | process call e => exact force_update_of_dark (ha.2.1.trans_le hdark) ht
    exact force_update_arrive_of_dark (hcall.2.1.trans_le hdark) hflag

/-- Five counts in the dark, four times: they do not fit, and take a screenshot each. -/
def darkScene : Call := ⟨1000000000, 0, .captured ⟨0, 0, 0⟩⟩

theorem steady_of_reach_sample :
    let event : SensorsEvent := ⟨3, 65627, 5, 0⟩
    let s := (alsSystem id).exec (shippedModule.process id darkScene event).2
      [.process { darkScene with now := 1200000000 } event,
        .process { darkScene with now := 1400000000, capture := .failed } event]
    let out := (s.process id { darkScene with now := 1600000000 } event).1
    out.path = .corrected ∧ out.event.light = 0 ∧
      (out.path.captures = true ↔ ¬Fits id shippedModule.conf ⟨0, 0, 0⟩ 0 event) := by
  intro event s out
  have hshot : (⟨0, 0, 0⟩ : AreaRgbCaptureResult).InRange := by constructor <;> decide +kernel
  have hreach : (alsSystem id).Reach (fun _ a => InScene 0 ⟨0, 0, 0⟩ event a)
      (shippedModule.process id darkScene event).2 s := by
    refine .step (.step .refl (by decide) ?_) (by decide) ?_
    · exact ⟨rfl, rfl, fun shot hshot => (Capture.captured.inj hshot).symm⟩
    · exact ⟨rfl, rfl, nofun⟩
  have hlight : 0 ≤ unbiased shippedModule.conf event.light := by decide +kernel
  have hfirst : (shippedModule.process id darkScene event).1.path = .corrected := by
    decide +kernel
  have hcall : InScene 0 ⟨0, 0, 0⟩ event
      (.process { darkScene with now := 1600000000 } event) :=
    ⟨rfl, rfl, fun shot hshot => (Capture.captured.inj hshot).symm⟩
  have hranges : AlsCorrection.boot.hysteresis_ranges = hysteresis_ranges := rfl
  obtain ⟨hvalue, hcaptures, hdark⟩ := steady_of_reach unitMap_id hranges shipped sound_shipped
    .boot (le_refl darkScene.brightness) rfl hshot hlight hfirst hreach hcall
  have hpath : out.path = .corrected := by decide +kernel
  refine ⟨hpath, (hvalue (congrArg Path.drops hpath)).trans (by decide +kernel), ?_⟩
  refine (hcaptures (hdark (le_refl 0))).trans ?_
  have hevent : unbiasedEvent shippedModule.conf event = event := by decide +kernel
  have hlux : unbiased shippedModule.conf event.light * shippedModule.conf.calib_gain *
      selected_gain id shippedModule.conf ⟨0, 0, 0⟩ 0 event < 10 := by decide +kernel
  show _ ∧ _ ∧ ¬Fits id shippedModule.conf ⟨0, 0, 0⟩ 0 (unbiasedEvent shippedModule.conf event) ∧
    (_ * selected_gain id shippedModule.conf ⟨0, 0, 0⟩ 0 (unbiasedEvent shippedModule.conf event) < 10
      ∨ _) ↔ _
  rw [hevent]
  exact ⟨fun h => h.2.2.1, fun h => ⟨by decide +kernel, nofun, h, .inl hlux⟩⟩

end RealmeSalaa.Als
