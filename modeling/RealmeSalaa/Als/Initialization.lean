import RealmeSalaa.Als.AlsWrapper

/-!
# Initializing again

The wrapper calls `init` whenever it finds a wise light sensor in the list it was given. `init` sets
the configuration from its inputs, and a second time sets it to the same (`init_init`). The table it
divides in place: two calls divide by the gain twice (`scaleRanges_scaleRanges`), so the table after
`n` calls is the source's divided by the `n`th power of the gain.
-/

namespace RealmeSalaa.Als

/-! ## The configuration -/

theorem extract_extract {n : ℕ} (stored : List ℚ) (a : Fin n → ℚ) :
    extract stored (extract stored a) = extract stored a := by
  funext i
  unfold extract
  rw [List.getD_eq_getElem?_getD, List.getD_eq_getElem?_getD]
  cases stored[(i : ℕ)]? <;> rfl

theorem update_extract {n : ℕ} (stored : List ℚ) (a : Fin n → ℚ) (k : Fin n) (v : ℚ) :
    Function.update (extract stored (Function.update (extract stored a) k v)) k v =
      Function.update (extract stored a) k v := by
  funext j
  by_cases hj : j = k
  · rw [hj, Function.update_self, Function.update_self]
  · rw [Function.update_of_ne hj, Function.update_of_ne hj]
    have hother : Function.update (extract stored a) k v j = extract stored a j :=
      Function.update_of_ne hj _ _
    calc extract stored (Function.update (extract stored a) k v) j
        = stored.getD j (extract stored a j) := by rw [extract, hother]
      _ = extract stored a j := congrFun (extract_extract stored a) j

theorem init_init (i : AlsInputs) (conf : AlsConfig) :
    AlsConfig.init i (AlsConfig.init i conf) = AlsConfig.init i conf := by
  have hmax : ∀ max_lux old : ℚ, (if max_lux ≠ 0 then max_lux else
      if max_lux ≠ 0 then max_lux else old) = if max_lux ≠ 0 then max_lux else old := by
    intro max_lux old
    split_ifs <;> rfl
  unfold AlsConfig.init
  dsimp only
  by_cases hrow : i.row_coe.getD 0 ≠ 0
  · simp only [hmax, extract_extract, if_pos hrow, update_extract]
  · simp only [hmax, extract_extract, if_neg hrow]

/-! ## The table -/

theorem mul_pos_iff_of_ne_zero {a b : ℚ} (ha : a ≠ 0) (hb : b ≠ 0) :
    0 < b * a ↔ (0 < b ↔ 0 < a) := by
  rcases ha.lt_or_gt with ha | ha <;> rcases hb.lt_or_gt with hb | hb
  · exact iff_of_true (mul_pos_of_neg_of_neg hb ha) (iff_of_false hb.not_gt ha.not_gt)
  · exact iff_of_false (mul_neg_of_pos_of_neg hb ha).not_gt fun h => ha.not_gt (h.1 hb)
  · exact iff_of_false (mul_neg_of_neg_of_pos hb ha).not_gt fun h => hb.not_gt (h.2 ha)
  · exact iff_of_true (mul_pos hb ha) (iff_of_true hb ha)

theorem divideBound_divideBound {a b : ℚ} (ha : a ≠ 0) (hb : b ≠ 0) (bound : WithBot (WithTop ℚ)) :
    divideBound a (divideBound b bound) = divideBound (b * a) bound := by
  have hsign := mul_pos_iff_of_ne_zero ha hb
  cases bound with
  | bot =>
    rw [divideBound_bot, divideBound_bot]
    by_cases hb : 0 < b <;> by_cases ha : 0 < a <;>
      simp only [hsign, hb, ha, divideBound_bot, divideBound_top, if_true, if_false, iff_self,
        iff_true, iff_false, not_true_eq_false]
  | coe bound =>
    cases bound with
    | top =>
      rw [divideBound_top, divideBound_top]
      by_cases hb : 0 < b <;> by_cases ha : 0 < a <;>
        simp only [hsign, hb, ha, divideBound_bot, divideBound_top, if_true, if_false, iff_self,
          iff_true, iff_false, not_true_eq_false]
    | coe bound => rw [divideBound_coe, divideBound_coe, divideBound_coe, div_div]

theorem scale_scale {a b : ℚ} (ha : a ≠ 0) (hb : b ≠ 0) (range : HysteresisRange) :
    (range.scale b).scale a = range.scale (b * a) := by
  unfold HysteresisRange.scale
  rw [divideBound_divideBound ha hb, div_div]

/-- Dividing twice is dividing by the product. -/
theorem scaleRanges_scaleRanges {a b : ℚ} (ha : a ≠ 0) (hb : b ≠ 0)
    (ranges : List HysteresisRange) :
    scaleRanges a (scaleRanges b ranges) = scaleRanges (b * a) ranges := by
  cases ranges with
  | nil => rfl
  | cons first ranges =>
    have hrest : (ranges.map (·.scale b)).map (·.scale a) = ranges.map (·.scale (b * a)) := by
      rw [List.map_map]
      exact List.map_congr_left fun range _ => scale_scale ha hb range
    have hmax := divideBound_divideBound ha hb first.max
    unfold scaleRanges
    simp only [List.map_cons, List.modify_zero_cons, hrest]
    simp only [HysteresisRange.scale, hmax]

/-- The second row tells two gains apart. -/
theorem scaleRanges_injective {a b : ℚ}
    (h : scaleRanges a hysteresis_ranges = scaleRanges b hysteresis_ranges) : a = b := by
  have hsecond : ∀ gain : ℚ, ((scaleRanges gain hysteresis_ranges)[1]?.map (·.min)) =
      some (1 / gain) := fun _ => rfl
  have hmin := congrArg (fun ranges : List HysteresisRange => ranges[1]?.map (·.min)) h
  rw [hsecond, hsecond, Option.some_inj] at hmin
  simpa using hmin

/-! ## Several calls -/

/-- After `n + 1` calls of `init` with the same inputs. -/
theorem init_iterate (i : AlsInputs) (m : AlsCorrection) (hgain : firstGain (m.conf.init i) ≠ 0)
    (n : ℕ) : (AlsCorrection.init i)^[n + 1] m =
      { m with
        conf := m.conf.init i
        hysteresis_ranges :=
          scaleRanges (firstGain (m.conf.init i) ^ (n + 1)) m.hysteresis_ranges } := by
  induction n with
  | zero =>
    rw [zero_add, pow_one]
    rfl
  | succ n ih =>
    rw [Function.iterate_succ_apply', ih, AlsCorrection.init]
    simp only [init_init]
    rw [scaleRanges_scaleRanges hgain (pow_ne_zero _ hgain), ← pow_succ]

theorem pow_eq_self_iff {gain : ℚ} (hgain : gain ≠ 0) {n : ℕ} (hn : 0 < n) :
    gain ^ n = gain ↔ n = 1 ∨ gain = 1 ∨ gain = -1 ∧ Odd n := by
  obtain ⟨k, rfl⟩ : ∃ k, n = k + 1 := ⟨n - 1, by omega⟩
  have hone : gain ^ (k + 1) = gain ↔ gain ^ k = 1 := by
    rw [pow_succ]
    exact mul_eq_right₀ hgain
  rw [hone, pow_eq_one_iff_cases, Nat.odd_add_one, Nat.not_odd_iff_even]
  simp

/-! ## The calls of the wrapper -/

/-- The list that the wrapped HAL answers with has a wise light sensor. -/
def findsWise : Except ℤ (List Sensor) → Bool
  | .error _ => false
  | .ok sensors => sensors.any (·.type = SENSOR_TYPE_ANDROID_WISE_LIGHT)

/-- `als_wrapper_get_sensors_list` once for every answer. Each answer may be another array. -/
def serve (i : AlsInputs) (w : Wrapper) (answers : List (Except ℤ (List Sensor))) : Wrapper :=
  answers.foldl (fun w answer =>
    match answer with
    | .error rc => (als_wrapper_get_sensors_list i (some (.error rc)) w).2
    | .ok sensors =>
      (als_wrapper_get_sensors_list i (some (.ok ())) { w with sensors := sensors }).2) w

theorem patchSensors_snd (sensors : List Sensor) :
    (patchSensors sensors).2 = findsWise (.ok sensors) := by
  induction sensors with
  | nil => rfl
  | cons sensor sensors ih =>
    show _ = (decide _ || findsWise (.ok sensors))
    by_cases hwise : sensor.type = SENSOR_TYPE_ANDROID_WISE_LIGHT
    · simp [patchSensors, hwise]
    · simp [patchSensors, hwise, ih]

/-- The wrapper initializes the correction once for each answer with a wise light sensor. -/
theorem als_serve (i : AlsInputs) (w : Wrapper) (answers : List (Except ℤ (List Sensor))) :
    (serve i w answers).als = (AlsCorrection.init i)^[answers.countP findsWise] w.als := by
  induction answers generalizing w with
  | nil => rfl
  | cons answer answers ih =>
    rw [serve, List.foldl_cons, ← serve, ih, List.countP_cons]
    cases answer with
    | error rc => rfl
    | ok sensors =>
      show (AlsCorrection.init i)^[_] (if (patchSensors sensors).2 then _ else _) = _
      rw [patchSensors_snd]
      by_cases hwise : findsWise (.ok sensors) = true
      · rw [if_pos hwise, if_pos hwise]
        exact (Function.iterate_succ_apply _ _ _).symm
      · rw [if_neg hwise, if_neg hwise]
        rfl

/-- **Initializing again.** However often a wise light sensor is found, the configuration is that of
one `init`. The table is that of one `init` if and only if there was one, or the gain is 1, or the
gain is -1 and their number is odd. -/
theorem serve_eq_init_iff (i : AlsInputs) {m : AlsCorrection}
    (hm : m.hysteresis_ranges = hysteresis_ranges) (hgain : firstGain (m.conf.init i) ≠ 0)
    (sensors : List Sensor) {answers : List (Except ℤ (List Sensor))}
    (hfound : 0 < answers.countP findsWise) :
    let als := (serve i ⟨sensors, m⟩ answers).als
    als.conf = (m.init i).conf ∧
    (als.hysteresis_ranges = (m.init i).hysteresis_ranges ↔
      answers.countP findsWise = 1 ∨ firstGain (m.conf.init i) = 1 ∨
        firstGain (m.conf.init i) = -1 ∧ Odd (answers.countP findsWise)) := by
  intro als
  obtain ⟨n, hn⟩ : ∃ n, answers.countP findsWise = n + 1 := ⟨answers.countP findsWise - 1, by omega⟩
  have hals : als = { m with
      conf := m.conf.init i
      hysteresis_ranges :=
        scaleRanges (firstGain (m.conf.init i) ^ (n + 1)) m.hysteresis_ranges } := by
    rw [← init_iterate i m hgain n, ← hn]
    exact als_serve i _ answers
  rw [hals]
  refine ⟨rfl, ?_⟩
  show scaleRanges _ m.hysteresis_ranges = scaleRanges _ m.hysteresis_ranges ↔ _
  rw [hm, ← pow_eq_self_iff hgain hfound, hn]
  exact ⟨scaleRanges_injective, fun h => congrArg (scaleRanges · hysteresis_ranges) h⟩

theorem serve_eq_init_iff_sample :
    let answers : List (Except ℤ (List Sensor)) := [.ok [⟨3, 65627⟩], .error (-1), .ok [⟨3, 5⟩]]
    let als := (serve shipped ⟨[], .boot⟩ answers).als
    als.conf = shippedModule.conf ∧ als.hysteresis_ranges = shippedModule.hysteresis_ranges := by
  intro answers als
  have hfound : 0 < answers.countP findsWise := by decide
  obtain ⟨hconf, hranges⟩ :=
    serve_eq_init_iff shipped (m := .boot) rfl (by decide +kernel) [] hfound
  exact ⟨hconf, hranges.2 (.inl (by decide))⟩

/-- A list that is fresh on each call, and one array with two wise light sensors. -/
theorem table_scaled_twice :
    let fresh := (serve shipped ⟨[], .boot⟩ [.ok [⟨3, 65627⟩], .ok [⟨3, 65627⟩]]).als
    let patched := (serve shipped ⟨[], .boot⟩
      [.ok [⟨3, 65627⟩, ⟨4, 65627⟩], .ok [⟨3, 5⟩, ⟨4, 65627⟩]]).als
    fresh.hysteresis_ranges ≠ shippedModule.hysteresis_ranges ∧
      patched.hysteresis_ranges ≠ shippedModule.hysteresis_ranges := by
  decide +kernel

end RealmeSalaa.Als
