import RealmeSalaa.Als.AlsCorrection

/-!
# Screenshots over a run

A run is recorded with the moments at which `getAreaBrightness` is called and at which the timer
asks for a screenshot, which is where it writes `last_forced_update` again (`requests`). The rate
limiter keeps `last_update` at or past every recorded call (`Recorded.captures`), the timer keeps
`last_forced_update` at or past every request (`Recorded.forced`), and both start with the first
event.

The request itself is `force_update`. A call that finds it set after the timer, and leaves it set,
has not fully corrected its reading (`force_update_process`).
-/

namespace RealmeSalaa.Als

variable (pow : ℚ → ℚ)

/-! ## Moments apart -/

/-- The moments are at least `d` apart in their order, and none is after `last`. -/
def Spaced (d : ℤ) (times : List ℤ) (last : ℤ) : Prop :=
  times.Pairwise (fun t t' => d ≤ t' - t) ∧ ∀ t ∈ times, t ≤ last

theorem Spaced.later {d last last' : ℤ} {times : List ℤ} (h : Spaced d times last)
    (hle : last ≤ last') : Spaced d times last' :=
  ⟨h.1, fun t ht => (h.2 t ht).trans hle⟩

theorem Spaced.snoc {d last now : ℤ} {times : List ℤ} (h : Spaced d times last) (hd : 0 ≤ d)
    (hnow : d ≤ now - last) : Spaced d (times ++ [now]) now := by
  refine ⟨List.pairwise_append.2 ⟨h.1, List.pairwise_singleton _ _, fun t ht t' ht' => ?_⟩,
    fun t ht => ?_⟩
  · rw [List.mem_singleton.1 ht']
    have hle := h.2 t ht
    omega
  · rcases List.mem_append.1 ht with ht | ht
    · have hle := h.2 t ht
      omega
    · rw [List.mem_singleton.1 ht]

theorem spaced_nil (d last : ℤ) : Spaced d [] last := ⟨.nil, by simp⟩

theorem spaced_singleton (d now : ℤ) : Spaced d [now] now := ⟨by simp, by simp⟩

/-! ## The record of a run -/

/-- The moments of the calls of `getAreaBrightness`, and those at which the timer asks for a
screenshot with the brightness there. -/
structure Screenshots where
  captures : List ℤ
  forced : List (ℤ × ℚ)
deriving DecidableEq

/-- The timer asks for a screenshot: it writes its moment again. The first event only starts it. -/
def requests (m : AlsCorrection) (call : Call) (event : SensorsEvent) : Bool :=
  m.state.last_update ≠ 0 ∧
    (m.process pow call event).2.state.last_forced_update ≠ m.state.last_forced_update

def Screenshots.note (r : Screenshots) (m : AlsCorrection) : AlsAction → Screenshots
  | .init _ => r
  | .process call event =>
    { captures :=
        if (m.process pow call event).1.path.captures then r.captures ++ [call.now]
        else r.captures
      forced :=
        if requests pow m call event then r.forced ++ [(call.now, call.brightness)]
        else r.forced }

/-- The recorded runs. -/
def screenshotSystem : GuardedSystem (AlsCorrection × Screenshots) AlsAction :=
  (alsSystem pow).record (Screenshots.note pow)

instance (s : AlsCorrection × Screenshots) (a : AlsAction) :
    Decidable ((screenshotSystem pow).guard s a) :=
  inferInstanceAs (Decidable a.Timely)

/-! ## The timestamps -/

section

variable (conf : AlsConfig) (ranges : List HysteresisRange) (call : Call) (event : SensorsEvent)
  (s : AlsState)

/-- A state with the same timestamps. -/
def SameTimes (s s' : AlsState) : Prop :=
  s'.last_update = s.last_update ∧ s'.last_forced_update = s.last_forced_update

theorem sameTimes_setWindow (fullwhite corrected : ℚ) :
    SameTimes s (setWindow ranges fullwhite corrected s) := by
  unfold setWindow
  split <;> exact ⟨rfl, rfl⟩

theorem sameTimes_fullyCorrect (brightness : ℚ) (screenshot : AreaRgbCaptureResult) :
    SameTimes s (fullyCorrect pow conf ranges brightness screenshot event s).state :=
  sameTimes_setWindow ranges { s with last_agc_gain := _ } _ _

theorem sameTimes_correct (brightness : ℚ) (screenshot : AreaRgbCaptureResult) :
    SameTimes s (correct pow conf ranges brightness screenshot event s).state := by
  rcases correct_cases pow conf ranges event s brightness screenshot with heq | ⟨-, heq⟩
  · rw [heq]
    exact sameTimes_fullyCorrect pow conf ranges event s brightness screenshot
  · rw [heq]
    exact ⟨rfl, rfl⟩

/-- The timestamps after a call are those after the timer and the rate limiter. -/
theorem sameTimes_processEvent :
    SameTimes (arrive call s) (processEvent pow conf ranges call event s).state := by
  rcases processEvent_cases pow conf ranges call event s with
    ⟨-, heq⟩ | ⟨-, ⟨-, heq⟩ | ⟨-, ⟨path, -, heq⟩ | ⟨screenshot, -, heq⟩⟩⟩
  · rw [heq]
    exact ⟨rfl, rfl⟩
  · rw [heq]
    exact ⟨rfl, rfl⟩
  · rw [heq]
    exact ⟨rfl, rfl⟩
  · rw [heq]
    exact sameTimes_correct pow conf ranges _ _ _ screenshot

theorem last_update_arrive :
    (arrive call s).last_update = if tooFast call s then s.last_update else call.now := by
  unfold arrive runTimer
  split_ifs <;> rfl

theorem last_forced_update_arrive :
    (arrive call s).last_forced_update =
      if s.last_update = 0 ∨ timerForces call s then call.now else s.last_forced_update := by
  unfold arrive runTimer
  split_ifs <;> simp_all

/-- A screenshot is only taken past the rate limiter. -/
theorem tooFast_eq_false_of_captures
    (h : (processEvent pow conf ranges call event s).path.captures = true) :
    tooFast call s = false := by
  rcases processEvent_cases pow conf ranges call event s with ⟨-, heq⟩ | ⟨hfast, -⟩
  · rw [heq] at h
    cases h
  · exact hfast

end

/-! ## The record against the state -/

/-- What the timestamps say about the record. Before the first event there is nothing. -/
structure Recorded (s : AlsState) (r : Screenshots) : Prop where
  before : s.last_update = 0 → r.captures = [] ∧ r.forced = []
  captures : Spaced 100000000 r.captures s.last_update
  forced : Spaced 3000000001 (r.forced.map Prod.fst) s.last_forced_update
  lit : ∀ f ∈ r.forced, 0 < f.2

variable {pow}

theorem last_update_process (m : AlsCorrection) (call : Call) (event : SensorsEvent) :
    (m.process pow call event).2.state.last_update =
      if tooFast call m.state then m.state.last_update else call.now := by
  rw [← last_update_arrive]
  exact (sameTimes_processEvent pow m.conf m.hysteresis_ranges call event m.state).1

theorem last_forced_update_process (m : AlsCorrection) (call : Call) (event : SensorsEvent) :
    (m.process pow call event).2.state.last_forced_update =
      if m.state.last_update = 0 ∨ timerForces call m.state then call.now
      else m.state.last_forced_update := by
  rw [← last_forced_update_arrive]
  exact (sameTimes_processEvent pow m.conf m.hysteresis_ranges call event m.state).2

/-- The timer writes a moment past its last one, so it asks exactly where its condition holds. -/
theorem requests_eq (m : AlsCorrection) (call : Call) (event : SensorsEvent) :
    requests pow m call event = timerForces call m.state := by
  unfold requests
  rw [last_forced_update_process]
  by_cases hforces : timerForces call m.state
  · have hpast : m.state.last_update ≠ 0 ∧ call.brightness > 0 ∧
        call.now - m.state.last_forced_update > 3000000000 := by simpa [timerForces] using hforces
    have hmoved : call.now ≠ m.state.last_forced_update := by omega
    simp [hforces, hpast.1, hmoved]
  · by_cases hzero : m.state.last_update = 0 <;> simp [hforces, hzero]

section

variable {m : AlsCorrection} {r : Screenshots} (h : Recorded m.state r) (call : Call)
  (event : SensorsEvent)

include h

theorem Recorded.captures_process :
    Spaced 100000000 (r.note pow m (.process call event)).captures
      (m.process pow call event).2.state.last_update := by
  rw [last_update_process]
  show Spaced _ (if (m.process pow call event).1.path.captures then _ else _) _
  by_cases hcaptures : (m.process pow call event).1.path.captures
  · have hslow := tooFast_eq_false_of_captures pow m.conf m.hysteresis_ranges call event m.state
      hcaptures
    simp only [hcaptures, hslow, if_true, Bool.false_eq_true, if_false]
    by_cases hzero : m.state.last_update = 0
    · rw [(h.before hzero).1]
      exact spaced_singleton _ _
    · refine h.captures.snoc (by decide) ?_
      simpa [tooFast, hzero] using hslow
  · simp only [hcaptures, Bool.false_eq_true, if_false]
    split_ifs with hfast
    · exact h.captures
    · by_cases hzero : m.state.last_update = 0
      · rw [(h.before hzero).1]
        exact spaced_nil _ _
      · have hslow : ¬call.now - m.state.last_update < 100000000 := by
          simpa [tooFast, hzero] using hfast
        exact h.captures.later (by omega)

theorem Recorded.forced_process :
    Spaced 3000000001 ((r.note pow m (.process call event)).forced.map Prod.fst)
      (m.process pow call event).2.state.last_forced_update := by
  rw [last_forced_update_process]
  show Spaced _ (List.map Prod.fst (if requests pow m call event then _ else _)) _
  rw [requests_eq]
  by_cases hforces : timerForces call m.state
  · simp only [hforces, if_true, or_true, List.map_append, List.map_cons, List.map_nil]
    refine h.forced.snoc (by decide) ?_
    simp only [timerForces, decide_eq_true_eq] at hforces
    omega
  · simp only [hforces, Bool.false_eq_true, or_false, if_false]
    split_ifs with hzero
    · rw [(h.before hzero).2]
      exact spaced_nil _ _
    · exact h.forced

theorem Recorded.lit_process :
    ∀ f ∈ (r.note pow m (.process call event)).forced, 0 < f.2 := by
  show ∀ f ∈ (if requests pow m call event then _ else _), 0 < Prod.snd f
  rw [requests_eq]
  split_ifs with hforces
  · intro f hf
    rcases List.mem_append.1 hf with hf | hf
    · exact h.lit f hf
    · rw [List.mem_singleton.1 hf]
      simp only [timerForces, decide_eq_true_eq] at hforces
      exact hforces.2.1
  · exact h.lit

/-- An event keeps the record in step. -/
theorem Recorded.process (hnow : 0 < call.now) :
    Recorded (m.process pow call event).2.state (r.note pow m (.process call event)) where
  before := by
    -- the first event sets `last_update`, and it is never reset
    intro hzero
    exfalso
    rw [last_update_process] at hzero
    split_ifs at hzero with hfast
    · simp [tooFast, hzero] at hfast
    · omega
  captures := h.captures_process call event
  forced := h.forced_process call event
  lit := h.lit_process call event

end

theorem recorded_of_reach {m : AlsCorrection} {s : AlsCorrection × Screenshots}
    (h : (screenshotSystem pow).Reach (fun _ _ => True) ({ m with state := .boot }, ⟨[], []⟩) s) :
    Recorded s.1.state s.2 := by
  refine h.invariant (I := fun s => Recorded s.1.state s.2)
    ⟨fun _ => ⟨rfl, rfl⟩, spaced_nil _ _, spaced_nil _ _, by simp⟩ fun s a hs hg _ => ?_
  cases a with
  | init i => exact hs
  | process call event => exact hs.process call event hg

/-! ## The request -/

/-- A call whose capture succeeded and which computed `last_corrected_value` from its own
reading. -/
def Refreshes (pow : ℚ → ℚ) (m : AlsCorrection) : AlsAction → Prop
  | .init _ => False
  | .process call event => ∃ screenshot, call.capture = .captured screenshot ∧
      (m.process pow call event).1.path = .corrected ∧
      (m.process pow call event).2.state.last_corrected_value =
        max (sensor_corrected pow m.conf screenshot call.brightness
          (unbiasedEvent m.conf event) - 14) 0

theorem force_update_arrive (call : Call) {s : AlsState}
    (h : s.force_update = true ∨ timerForces call s = true) :
    (arrive call s).force_update = true := by
  rcases h with h | h
  · unfold arrive runTimer
    split_ifs <;> simp [h]
  · have hstarted : s.last_update ≠ 0 := by
      simp only [timerForces, decide_eq_true_eq] at h
      exact h.1
    unfold arrive runTimer
    rw [if_neg hstarted, if_pos h]
    split_ifs <;> rfl

/-- A call keeps the request it finds or makes, or it refreshes the value. -/
theorem force_update_process {m : AlsCorrection} {call : Call} (event : SensorsEvent)
    (h : (arrive call m.state).force_update = true)
    (hcall : ¬Refreshes pow m (.process call event)) :
    (m.process pow call event).2.state.force_update = true := by
  show (processEvent pow m.conf m.hysteresis_ranges call event m.state).state.force_update = _
  rcases processEvent_cases pow m.conf m.hysteresis_ranges call event m.state with
    ⟨-, heq⟩ | ⟨-, ⟨hwants, -⟩ | ⟨-, ⟨path, -, heq⟩ | ⟨screenshot, hcapture, heq⟩⟩⟩
  · rw [heq]
    exact h
  · -- with a request pending the value is not taken from the cache
    simp [wantsScreenshot, h] at hwants
  · rw [heq]
    exact h
  · rcases correct_cases pow m.conf m.hysteresis_ranges (unbiasedEvent m.conf event)
      (arrive call m.state) call.brightness screenshot with hfull | ⟨hforce, -⟩
    · refine absurd ⟨screenshot, hcapture, ?_, ?_⟩ hcall
      · show (processEvent pow m.conf m.hysteresis_ranges call event m.state).path = _
        rw [heq, hfull]
        rfl
      · show (processEvent pow m.conf m.hysteresis_ranges call event
          m.state).state.last_corrected_value = _
        rw [heq, hfull]
        rfl
    · rw [h] at hforce
      cases hforce

/-- One step keeps the request, or it refreshes the value. -/
theorem force_update_kept {m : AlsCorrection} (h : m.state.force_update = true) (a : AlsAction)
    (ha : ¬Refreshes pow m a) : ((alsSystem pow).next m a).state.force_update = true := by
  cases a with
  | init i => exact h
  | process call event => exact force_update_process event (force_update_arrive call (.inl h)) ha

/-- **Screenshots.** In every run from the initial `state`, under any configuration, the calls of
`getAreaBrightness` are at least 100 ms apart, and the timer's requests are more than 3 s apart and
made with the screen lit. A call at which the timer asks sets `force_update` or refreshes the value,
and the request stands until a call refreshes the value. -/
theorem screenshots_of_reach {m : AlsCorrection} {s : AlsCorrection × Screenshots}
    (h : (screenshotSystem pow).Reach (fun _ _ => True) ({ m with state := .boot }, ⟨[], []⟩) s) :
    s.2.captures.Pairwise (fun t t' => 100000000 ≤ t' - t) ∧
    s.2.forced.Pairwise (fun f f' => 3000000000 < f'.1 - f.1) ∧ (∀ f ∈ s.2.forced, 0 < f.2) ∧
    (∀ call event, requests pow s.1 call event = true →
      ¬Refreshes pow s.1 (.process call event) →
        (s.1.process pow call event).2.state.force_update = true) ∧
    (s.1.state.force_update = true → ∀ m',
      (alsSystem pow).Reach (fun m a => ¬Refreshes pow m a) s.1 m' →
        m'.state.force_update = true) := by
  have hrecorded := recorded_of_reach h
  refine ⟨hrecorded.captures.1, ?_, hrecorded.lit, fun call event hrequests hcall => ?_,
    fun hforce m' hrun => ?_⟩
  · have hspaced := List.pairwise_map.1 hrecorded.forced.1
    exact hspaced.imp fun hle => by omega
  · rw [requests_eq] at hrequests
    exact force_update_process event (force_update_arrive call (.inr hrequests)) hcall
  · exact hrun.invariant (I := fun m => m.state.force_update = true) hforce
      fun m a hm _ ha => force_update_kept hm a ha

/-- Two captures fail, the second 200 ms after the first; an event between them is dropped. More
than 3 s after the first event, and again after that, the timer asks, the second time of a call that
the rate limiter drops. -/
def sampleRun : List AlsAction :=
  [.init shipped, .process ⟨1000000000, 100, .failed⟩ ⟨3, 65627, 100, 0⟩,
    .process ⟨1050000000, 100, .failed⟩ ⟨3, 65627, 100, 0⟩,
    .process ⟨1200000000, 100, .failed⟩ ⟨3, 65627, 100, 0⟩,
    .process ⟨4000000001, 100, .failed⟩ ⟨3, 65627, 100, 0⟩,
    .process ⟨6990000000, 100, .failed⟩ ⟨3, 65627, 100, 0⟩,
    .process ⟨7000000002, 100, .failed⟩ ⟨3, 65627, 100, 0⟩]

theorem screenshots_of_reach_sample :
    let s := (screenshotSystem id).exec (.boot, ⟨[], []⟩) sampleRun
    s.2 = ⟨[1000000000, 1200000000, 4000000001, 6990000000],
        [(4000000001, 100), (7000000002, 100)]⟩ ∧
      s.2.captures.Pairwise (fun t t' => 100000000 ≤ t' - t) ∧
      s.2.forced.Pairwise (fun f f' => 3000000000 < f'.1 - f.1) ∧
      ∀ m', (alsSystem id).Reach (fun m a => ¬Refreshes id m a) s.1 m' →
        m'.state.force_update = true := by
  intro s
  have hlegal : (screenshotSystem id).Legal (fun _ _ => True) (.boot, ⟨[], []⟩) sampleRun := by
    decide
  have hrecord : s.2 = ⟨[1000000000, 1200000000, 4000000001, 6990000000],
      [(4000000001, 100), (7000000002, 100)]⟩ := by decide +kernel
  have hforce : s.1.state.force_update = true := by decide +kernel
  obtain ⟨hspaced, hforced, -, -, hstands⟩ :=
    screenshots_of_reach (m := .boot) (GuardedSystem.reach_exec hlegal)
  exact ⟨hrecord, hspaced, hforced, hstands hforce⟩

end RealmeSalaa.Als
