import Mathlib

/-!
# The backlight

A colour is brought down to a level below 256 and that to a level of the panel, by a table for the
two panels there are tables for, and unscaled for every other. Each step is monotone and takes
nothing but 0 to 0 (`toNat_getBrightness`, `isScale_scaleBrightness`). White is the level 255, so
the panel's own range is only met at the maxima 255, 2047 and 4095.
-/

namespace RealmeSalaa.Lights

/-! ## Brightness tables -/

/-- A level of the panel for each level below 256: sorted, dark only at 0, and full at 255. -/
structure BrightnessTable (maxBrightness : UInt32) where
  levels : List UInt32
  length_eq : levels.length = 256
  head_eq : levels.head? = some 0
  tail_pos : levels.tail.all (0 < ·) = true
  isChain : levels.IsChain (· ≤ ·)
  getLast_eq : levels.getLast? = some maxBrightness

def brightness_table_0x7ff : BrightnessTable 2047 where
  levels := [
    0, 1, 9, 33, 49, 73, 89, 113, 218, 299, 379, 444, 484, 540, 580, 629,
    669, 685, 725, 766, 790, 830, 854, 870, 911, 935, 951, 991, 1015, 1040, 1056, 1080,
    1096, 1120, 1136, 1160, 1160, 1160, 1160, 1225, 1225, 1241, 1265, 1265, 1281, 1281, 1305, 1305,
    1322, 1322, 1346, 1346, 1362, 1362, 1386, 1386, 1402, 1402, 1426, 1426, 1426, 1450, 1450, 1450,
    1467, 1467, 1467, 1491, 1491, 1491, 1507, 1507, 1507, 1531, 1531, 1531, 1531, 1547, 1547, 1547,
    1547, 1571, 1571, 1587, 1587, 1587, 1587, 1587, 1612, 1612, 1612, 1636, 1636, 1636, 1636, 1636,
    1652, 1652, 1652, 1652, 1652, 1676, 1676, 1676, 1676, 1676, 1692, 1692, 1692, 1692, 1692, 1716,
    1716, 1716, 1716, 1716, 1732, 1732, 1732, 1732, 1732, 1732, 1732, 1732, 1757, 1757, 1757, 1757,
    1773, 1773, 1773, 1773, 1773, 1773, 1797, 1797, 1797, 1797, 1797, 1797, 1797, 1797, 1797, 1797,
    1813, 1813, 1813, 1813, 1813, 1813, 1813, 1837, 1837, 1837, 1837, 1837, 1837, 1837, 1861, 1861,
    1861, 1861, 1861, 1861, 1861, 1861, 1861, 1861, 1877, 1877, 1877, 1877, 1877, 1877, 1877, 1877,
    1877, 1902, 1902, 1902, 1902, 1902, 1902, 1902, 1902, 1902, 1918, 1918, 1918, 1918, 1918, 1918,
    1918, 1918, 1918, 1918, 1942, 1942, 1942, 1942, 1942, 1942, 1942, 1942, 1942, 1942, 1958, 1958,
    1958, 1958, 1958, 1958, 1958, 1958, 1958, 1958, 1958, 1958, 1982, 1982, 1982, 1982, 1982, 1982,
    1982, 1982, 1982, 1982, 1982, 1998, 1998, 1998, 1998, 1998, 1998, 1998, 1998, 1998, 1998, 1998,
    1998, 2022, 2022, 2022, 2022, 2022, 2022, 2022, 2022, 2022, 2022, 2022, 2022, 2022, 2047, 2047]
  length_eq := by decide +kernel
  head_eq := by decide +kernel
  tail_pos := by decide +kernel
  isChain := by decide +kernel
  getLast_eq := by decide +kernel

def brightness_table_0xfff : BrightnessTable 4095 where
  levels := [
    0, 1, 17, 65, 97, 146, 178, 226, 436, 597, 758, 887, 968, 1080, 1161, 1258,
    1338, 1371, 1451, 1532, 1580, 1661, 1709, 1741, 1822, 1870, 1902, 1983, 2031, 2080, 2112, 2160,
    2193, 2241, 2273, 2322, 2322, 2322, 2322, 2450, 2450, 2483, 2531, 2531, 2563, 2563, 2612, 2612,
    2644, 2644, 2692, 2692, 2724, 2724, 2773, 2773, 2805, 2805, 2853, 2853, 2853, 2902, 2902, 2902,
    2934, 2934, 2934, 2982, 2982, 2982, 3015, 3015, 3015, 3063, 3063, 3063, 3063, 3095, 3095, 3095,
    3095, 3144, 3144, 3176, 3176, 3176, 3176, 3176, 3224, 3224, 3224, 3272, 3272, 3272, 3272, 3272,
    3305, 3305, 3305, 3305, 3305, 3353, 3353, 3353, 3353, 3353, 3385, 3385, 3385, 3385, 3385, 3434,
    3434, 3434, 3434, 3434, 3466, 3466, 3466, 3466, 3466, 3466, 3466, 3466, 3514, 3514, 3514, 3514,
    3546, 3546, 3546, 3546, 3546, 3546, 3595, 3595, 3595, 3595, 3595, 3595, 3595, 3595, 3595, 3595,
    3627, 3627, 3627, 3627, 3627, 3627, 3627, 3675, 3675, 3675, 3675, 3675, 3675, 3675, 3724, 3724,
    3724, 3724, 3724, 3724, 3724, 3724, 3724, 3724, 3756, 3756, 3756, 3756, 3756, 3756, 3756, 3756,
    3756, 3804, 3804, 3804, 3804, 3804, 3804, 3804, 3804, 3804, 3837, 3837, 3837, 3837, 3837, 3837,
    3837, 3837, 3837, 3837, 3885, 3885, 3885, 3885, 3885, 3885, 3885, 3885, 3885, 3885, 3917, 3917,
    3917, 3917, 3917, 3917, 3917, 3917, 3917, 3917, 3917, 3917, 3966, 3966, 3966, 3966, 3966, 3966,
    3966, 3966, 3966, 3966, 3966, 3998, 3998, 3998, 3998, 3998, 3998, 3998, 3998, 3998, 3998, 3998,
    3998, 4046, 4046, 4046, 4046, 4046, 4046, 4046, 4046, 4046, 4046, 4046, 4046, 4046, 4095, 4095]
  length_eq := by decide +kernel
  head_eq := by decide +kernel
  tail_pos := by decide +kernel
  isChain := by decide +kernel
  getLast_eq := by decide +kernel

namespace BrightnessTable

variable {m : UInt32} (table : BrightnessTable m)

theorem exists_level {i : ℕ} (hi : i < 256) : ∃ level, table.levels[i]? = some level :=
  ⟨_, List.getElem?_eq_getElem (by rw [table.length_eq]; exact hi)⟩

theorem level_mono {i j : ℕ} {a b : UInt32} (ha : table.levels[i]? = some a)
    (hb : table.levels[j]? = some b) (hij : i ≤ j) : a ≤ b := by
  rcases hij.eq_or_lt with rfl | hlt
  · rw [ha, Option.some_inj] at hb
    exact hb ▸ UInt32.le_refl a
  · obtain ⟨hi, rfl⟩ := List.getElem?_eq_some_iff.1 ha
    obtain ⟨hj, rfl⟩ := List.getElem?_eq_some_iff.1 hb
    exact List.pairwise_iff_getElem.1 (List.isChain_iff_pairwise.1 table.isChain) i j hi hj hlt

theorem level_eq_zero_iff {i : ℕ} {a : UInt32} (ha : table.levels[i]? = some a) :
    a = 0 ↔ i = 0 := by
  have hhead := table.head_eq
  rw [List.head?_eq_getElem?] at hhead
  cases i with
  | zero =>
    rw [hhead, Option.some_inj] at ha
    exact iff_of_true ha.symm rfl
  | succ i =>
    have htail : a ∈ table.levels.tail := by
      rw [← List.getElem?_tail] at ha
      exact List.mem_of_getElem? ha
    have hpos : 0 < a := by simpa using List.all_eq_true.1 table.tail_pos a htail
    refine iff_of_false ?_ (Nat.succ_ne_zero i)
    rintro rfl
    exact absurd hpos (by decide)

theorem level_255 : table.levels[255]? = some m := by
  have hlast := table.getLast_eq
  rwa [List.getLast?_eq_getElem?, table.length_eq] at hlast

end BrightnessTable

/-! ## The level of a colour -/

/-- The fields of a `HwLightState` that are read here. -/
structure HwLightState where
  color : Int32
deriving DecidableEq

def getBrightness (state : HwLightState) : UInt32 :=
  let alpha := ((state.color >>> 24) &&& 0xFF).toUInt32
  let red := ((state.color >>> 16) &&& 0xFF).toUInt32
  let green := ((state.color >>> 8) &&& 0xFF).toUInt32
  let blue := (state.color &&& 0xFF).toUInt32
  let (red, green, blue) :=
    if alpha > 0 ∧ alpha < 255 then (red * alpha / 0xFF, green * alpha / 0xFF, blue * alpha / 0xFF)
    else (red, green, blue)
  (77 * red + 150 * green + 29 * blue) >>> 8

/-- The byte of a colour `n` bits up. -/
def channel (state : HwLightState) (n : Int32) : ℕ :=
  ((state.color >>> n) &&& 0xFF).toUInt32.toNat

/-- A channel under an alpha. -/
def dim (alpha c : ℕ) : ℕ := if 0 < alpha ∧ alpha < 255 then c * alpha / 255 else c

/-- The level of four bytes. -/
def luma (alpha red green blue : ℕ) : ℕ :=
  (77 * dim alpha red + 150 * dim alpha green + 29 * dim alpha blue) / 256

theorem channel_lt (state : HwLightState) (n : Int32) : channel state n < 256 := by
  have hand : ((state.color >>> n) &&& 0xFF).toUInt32.toNat =
      (state.color >>> n).toUInt32.toNat &&& 255 := by
    rw [Int32.toUInt32_and, UInt32.toNat_and]
    rfl
  rw [channel, hand]
  exact lt_of_le_of_lt Nat.and_le_right (by omega)

theorem dim_mono (alpha : ℕ) {c c' : ℕ} (h : c ≤ c') : dim alpha c ≤ dim alpha c' := by
  unfold dim
  split_ifs
  · exact Nat.div_le_div_right (Nat.mul_le_mul_right _ h)
  · exact h

theorem dim_le (alpha c : ℕ) : dim alpha c ≤ c := by
  unfold dim
  split_ifs with h
  · apply Nat.div_le_of_le_mul
    rw [Nat.mul_comm 255]
    exact Nat.mul_le_mul_left c (by omega)
  · exact le_rfl

theorem luma_mono {alpha r g b r' g' b' : ℕ} (hr : r ≤ r') (hg : g ≤ g') (hb : b ≤ b') :
    luma alpha r g b ≤ luma alpha r' g' b' := by
  have hr := dim_mono alpha hr
  have hg := dim_mono alpha hg
  have hb := dim_mono alpha hb
  apply Nat.div_le_div_right
  omega

/-- The weights add up to 256, so the level of four bytes is a byte. -/
theorem luma_lt {alpha r g b : ℕ} (hr : r < 256) (hg : g < 256) (hb : b < 256) :
    luma alpha r g b < 256 := by
  have hr := (dim_le alpha r).trans_lt hr
  have hg := (dim_le alpha g).trans_lt hg
  have hb := (dim_le alpha b).trans_lt hb
  unfold luma
  omega

theorem toNat_dim {alpha c : UInt32} (ha : alpha.toNat < 256) (hc : c.toNat < 256) :
    (c * alpha / 0xFF).toNat = c.toNat * alpha.toNat / 255 ∧ (c * alpha / 0xFF).toNat < 256 := by
  have hmul : c.toNat * alpha.toNat ≤ 255 * 255 := Nat.mul_le_mul (by omega) (by omega)
  have hdiv : (c * alpha / 0xFF).toNat = c.toNat * alpha.toNat / 255 := by
    rw [UInt32.toNat_div, UInt32.toNat_mul, Nat.mod_eq_of_lt (by omega)]
    rfl
  exact ⟨hdiv, by omega⟩

theorem toNat_weigh {r g b : UInt32} (hr : r.toNat < 256) (hg : g.toNat < 256)
    (hb : b.toNat < 256) : ((77 * r + 150 * g + 29 * b) >>> 8).toNat =
      (77 * r.toNat + 150 * g.toNat + 29 * b.toNat) / 256 := by
  have h8 : (8 : UInt32).toNat % 32 = 8 := by decide
  rw [UInt32.toNat_shiftRight, Nat.shiftRight_eq_div_pow, h8]
  simp only [UInt32.toNat_add, UInt32.toNat_mul, UInt32.toNat_ofNat]
  omega

/-- No step of `getBrightness` wraps around. -/
theorem toNat_getBrightness (state : HwLightState) : (getBrightness state).toNat =
    luma (channel state 24) (channel state 16) (channel state 8) (channel state 0) := by
  have ha := channel_lt state 24
  have hr := channel_lt state 16
  have hg := channel_lt state 8
  have hb := channel_lt state 0
  unfold channel at ha hr hg hb
  have hzero : state.color >>> 0 = state.color := by simp
  unfold getBrightness luma dim channel
  rw [hzero] at hb ⊢
  generalize ((state.color >>> 24) &&& 0xFF).toUInt32 = alpha at ha ⊢
  generalize ((state.color >>> 16) &&& 0xFF).toUInt32 = red at hr ⊢
  generalize ((state.color >>> 8) &&& 0xFF).toUInt32 = green at hg ⊢
  generalize (state.color &&& 0xFF).toUInt32 = blue at hb ⊢
  have hiff : alpha > 0 ∧ alpha < 255 ↔ 0 < alpha.toNat ∧ alpha.toNat < 255 := Iff.rfl
  by_cases h : alpha > 0 ∧ alpha < 255
  · obtain ⟨hred, hred'⟩ := toNat_dim ha hr
    obtain ⟨hgreen, hgreen'⟩ := toNat_dim ha hg
    obtain ⟨hblue, hblue'⟩ := toNat_dim ha hb
    simp only [if_pos h, if_pos (hiff.1 h)]
    rw [toNat_weigh hred' hgreen' hblue', hred, hgreen, hblue]
  · simp only [if_neg h, if_neg (mt hiff.2 h)]
    exact toNat_weigh hr hg hb

theorem getBrightness_lt (state : HwLightState) : (getBrightness state).toNat < 256 := by
  rw [toNat_getBrightness]
  exact luma_lt (channel_lt _ _) (channel_lt _ _) (channel_lt _ _)

/-! ## The level of the panel -/

/-- A read past a table is `none`. -/
def scaleBrightness (brightness maxBrightness : UInt32) : Option UInt32 :=
  if maxBrightness = 4095 then brightness_table_0xfff.levels[brightness.toNat]?
  else if maxBrightness = 2047 then brightness_table_0x7ff.levels[brightness.toNat]?
  else some brightness

def getScaledBrightness (state : HwLightState) (maxBrightness : UInt32) : Option UInt32 :=
  scaleBrightness (getBrightness state) maxBrightness

/-- A monotone scale of the levels below 256 that takes nothing but 0 to 0. -/
structure IsScale (scale : UInt32 → Option UInt32) : Prop where
  defined : ∀ b, b.toNat < 256 → ∃ level, scale b = some level
  mono : ∀ b b' level level', scale b = some level → scale b' = some level' →
    b.toNat ≤ b'.toNat → level ≤ level'
  zero_iff : ∀ b level, scale b = some level → (level = 0 ↔ b = 0)

theorem BrightnessTable.isScale {m : UInt32} (table : BrightnessTable m) :
    IsScale fun b => table.levels[b.toNat]? where
  defined _ hb := table.exists_level hb
  mono _ _ _ _ h h' hle := table.level_mono h h' hle
  zero_iff _ _ h := (table.level_eq_zero_iff h).trans (UInt32.toNat_inj (b := 0))

theorem isScale_scaleBrightness (maxBrightness : UInt32) :
    IsScale (scaleBrightness · maxBrightness) := by
  unfold scaleBrightness
  split_ifs
  · exact brightness_table_0xfff.isScale
  · exact brightness_table_0x7ff.isScale
  · refine ⟨fun b _ => ⟨b, rfl⟩, fun b b' level level' h h' hle => ?_, fun b level h => ?_⟩
    · cases h
      cases h'
      exact hle
    · cases h
      exact Iff.rfl

/-- **Monotone levels.** For every panel maximum, a colour with the same alpha and no smaller
channel gets no smaller level, exactly a colour of luma 0 is dark, and the tables are read
inside. -/
theorem getScaledBrightness_mono (maxBrightness : UInt32) {state state' : HwLightState}
    (halpha : channel state 24 = channel state' 24) (hred : channel state 16 ≤ channel state' 16)
    (hgreen : channel state 8 ≤ channel state' 8) (hblue : channel state 0 ≤ channel state' 0) :
    ∃ level level', getScaledBrightness state maxBrightness = some level ∧
      getScaledBrightness state' maxBrightness = some level' ∧ level ≤ level' ∧
      (level = 0 ↔
        luma (channel state 24) (channel state 16) (channel state 8) (channel state 0) = 0) ∧
      (getBrightness state).toNat =
        luma (channel state 24) (channel state 16) (channel state 8) (channel state 0) ∧
      (getBrightness state).toNat < 256 := by
  have hscale := isScale_scaleBrightness maxBrightness
  obtain ⟨level, hlevel⟩ := hscale.defined _ (getBrightness_lt state)
  obtain ⟨level', hlevel'⟩ := hscale.defined _ (getBrightness_lt state')
  have hzero : getBrightness state = 0 ↔
      luma (channel state 24) (channel state 16) (channel state 8) (channel state 0) = 0 := by
    rw [← toNat_getBrightness]
    exact (UInt32.toNat_inj (b := 0)).symm
  refine ⟨level, level', hlevel, hlevel', hscale.mono _ _ _ _ hlevel hlevel' ?_,
    (hscale.zero_iff _ _ hlevel).trans hzero, toNat_getBrightness state, getBrightness_lt state⟩
  rw [toNat_getBrightness, toNat_getBrightness, halpha]
  exact luma_mono hred hgreen hblue

theorem getScaledBrightness_mono_sample : ∃ level level',
    getScaledBrightness ⟨0x7F102030⟩ 2047 = some level ∧
      getScaledBrightness ⟨0x7F30A030⟩ 2047 = some level' ∧ level ≤ level' ∧
      (level = 0 ↔ luma 127 16 32 48 = 0) := by
  have halpha : channel ⟨0x7F102030⟩ 24 = channel ⟨0x7F30A030⟩ 24 := by decide
  have hred : channel ⟨0x7F102030⟩ 16 ≤ channel ⟨0x7F30A030⟩ 16 := by decide
  have hgreen : channel ⟨0x7F102030⟩ 8 ≤ channel ⟨0x7F30A030⟩ 8 := by decide
  have hblue : channel ⟨0x7F102030⟩ 0 ≤ channel ⟨0x7F30A030⟩ 0 := by decide
  obtain ⟨level, level', hlevel, hlevel', hle, hzero, -⟩ :=
    getScaledBrightness_mono 2047 halpha hred hgreen hblue
  exact ⟨level, level', hlevel, hlevel', hle, hzero⟩

/-! ## The range of the panel -/

/-- `file` is what the `int` holds after the read, if `max_brightness` could be opened. -/
def getMaxBrightness (file : Option Int32) : Int32 := file.getD 0

/-- The maximum that `handleBacklight` goes by. -/
def panelMaximum (property : Int32) (file : Option Int32) : Int32 :=
  if property < 1 then getMaxBrightness file else property

/-- The number that is written to `brightness`. -/
def handleBacklight (property : Int32) (file : Option Int32) (state : HwLightState) :
    Option Int32 :=
  (getScaledBrightness state (panelMaximum property file).toUInt32).map (·.toInt32)

/-- Opaque white. -/
def white : HwLightState := ⟨0xFFFFFFFF⟩

theorem getBrightness_white : getBrightness white = 255 := by decide

theorem toInt_toInt32 {b : UInt32} (hb : b.toNat < 2 ^ 31) : b.toInt32.toInt = b.toNat := by
  show b.toBitVec.toInt = _
  rw [BitVec.toInt_eq_toNat_of_lt (by rw [UInt32.toNat_toBitVec]; omega), UInt32.toNat_toBitVec]

theorem BrightnessTable.level_le {m : UInt32} (table : BrightnessTable m) {i : ℕ} {a : UInt32}
    (hi : i < 256) (ha : table.levels[i]? = some a) : a ≤ m :=
  table.level_mono ha table.level_255 (by omega)

section

variable {property : Int32} {file : Option Int32}

/-- What is written lies in the range of the panel, and for opaque white is its maximum. -/
def FitsPanel (property : Int32) (file : Option Int32) (state : HwLightState) : Prop :=
  ∃ level, handleBacklight property file state = some level ∧ 0 ≤ level ∧
    level ≤ panelMaximum property file ∧ (state = white → level = panelMaximum property file)

/-- A panel with a table. -/
theorem fitsPanel_of_table {m : UInt32} (table : BrightnessTable m) (hm : m.toNat < 2 ^ 31)
    (hmax : panelMaximum property file = m.toInt32)
    (hscale : ∀ b, scaleBrightness b m = table.levels[b.toNat]?) (state : HwLightState) :
    FitsPanel property file state := by
  obtain ⟨level, hlevel⟩ := table.exists_level (getBrightness_lt state)
  have hle : level.toNat ≤ m.toNat := table.level_le (getBrightness_lt state) hlevel
  refine ⟨level.toInt32, ?_, ?_, ?_, ?_⟩
  · rw [handleBacklight, getScaledBrightness, hmax, show m.toInt32.toUInt32 = m from rfl, hscale,
      hlevel]
    rfl
  · rw [Int32.le_iff_toInt_le, toInt_toInt32 (by omega)]
    exact Int.natCast_nonneg _
  · rw [hmax, Int32.le_iff_toInt_le, toInt_toInt32 (by omega), toInt_toInt32 hm]
    omega
  · rintro rfl
    rw [getBrightness_white] at hlevel
    have hfull : some level = some m := hlevel.symm.trans table.level_255
    rw [hmax, Option.some_inj.1 hfull]

/-- A panel without one gets the level of the colour. -/
theorem fitsPanel_iff_of_unscaled
    (hscale : ∀ b, scaleBrightness b (panelMaximum property file).toUInt32 = some b)
    (state : HwLightState) : FitsPanel property file state ↔
      ((getBrightness state).toNat : ℤ) ≤ (panelMaximum property file).toInt ∧
        (state = white → panelMaximum property file = 255) := by
  have hlt := getBrightness_lt state
  have hwritten : handleBacklight property file state = some (getBrightness state).toInt32 := by
    rw [handleBacklight, getScaledBrightness, hscale]
    rfl
  have hint := toInt_toInt32 (b := getBrightness state) (by omega)
  have hnonneg : 0 ≤ (getBrightness state).toInt32 := by
    rw [Int32.le_iff_toInt_le, hint]
    exact Int.natCast_nonneg _
  have hwhite : state = white → (getBrightness state).toInt32 = 255 := by
    rintro rfl
    rw [getBrightness_white]
    rfl
  constructor
  · rintro ⟨level, hlevel, -, hle, hfull⟩
    rw [hwritten, Option.some_inj] at hlevel
    subst hlevel
    rw [Int32.le_iff_toInt_le, hint] at hle
    exact ⟨hle, fun h => (hfull h).symm.trans (hwhite h)⟩
  · rintro ⟨hle, hfull⟩
    refine ⟨_, hwritten, hnonneg, ?_, fun h => (hwhite h).trans (hfull h).symm⟩
    rwa [Int32.le_iff_toInt_le, hint]

end

/-- **The range of the panel.** A single colour fits the panel if there is a table for the panel, or
its level does not exceed the maximum and is the maximum for white. All colours fit exactly when
the maximum is 255, 2047 or 4095. -/
theorem fitsPanel_iff (property : Int32) (file : Option Int32) :
    (∀ state, FitsPanel property file state ↔
      panelMaximum property file = 2047 ∨ panelMaximum property file = 4095 ∨
        ((getBrightness state).toNat : ℤ) ≤ (panelMaximum property file).toInt ∧
          (state = white → panelMaximum property file = 255)) ∧
    ((∀ state, FitsPanel property file state) ↔ panelMaximum property file = 255 ∨
      panelMaximum property file = 2047 ∨ panelMaximum property file = 4095) := by
  set m := panelMaximum property file
  have hsingle : ∀ state, FitsPanel property file state ↔ m = 2047 ∨ m = 4095 ∨
      ((getBrightness state).toNat : ℤ) ≤ m.toInt ∧ (state = white → m = 255) := by
    intro state
    by_cases h7 : m = 2047
    · exact iff_of_true (fitsPanel_of_table brightness_table_0x7ff (by decide) h7 (fun _ => rfl) state)
        (.inl h7)
    by_cases hf : m = 4095
    · exact iff_of_true (fitsPanel_of_table brightness_table_0xfff (by decide) hf (fun _ => rfl) state)
        (.inr (.inl hf))
    rw [or_iff_right h7, or_iff_right hf]
    refine fitsPanel_iff_of_unscaled (fun b => ?_) state
    have hf' : m.toUInt32 ≠ 4095 := fun h => hf (congrArg UInt32.toInt32 h)
    have h7' : m.toUInt32 ≠ 2047 := fun h => h7 (congrArg UInt32.toInt32 h)
    rw [scaleBrightness, if_neg hf', if_neg h7']
  refine ⟨hsingle, fun hall => ?_, fun hm' state => (hsingle state).2 ?_⟩
  · rcases (hsingle white).1 (hall white) with h | h | h
    · exact .inr (.inl h)
    · exact .inr (.inr h)
    · exact .inl (h.2 rfl)
  · rcases hm' with h | h | h
    · refine .inr (.inr ⟨?_, fun _ => h⟩)
      have hlt := getBrightness_lt state
      rw [h]
      show ((getBrightness state).toNat : ℤ) ≤ 255
      omega
    · exact .inl h
    · exact .inr (.inl h)

/-- On a panel with maximum 100 opaque white writes 255, on one with 1023 too. -/
theorem white_misses_maximum :
    handleBacklight 100 none white = some 255 ∧ ¬FitsPanel 100 none white ∧
      handleBacklight 0 (some 1023) white = some 255 ∧ ¬FitsPanel 0 (some 1023) white := by
  have hlow : handleBacklight 100 none white = some 255 := by decide
  have hhigh : handleBacklight 0 (some 1023) white = some 255 := by decide
  refine ⟨hlow, ?_, hhigh, ?_⟩
  · rintro ⟨level, hlevel, -, -, hfull⟩
    rw [hlow, Option.some_inj] at hlevel
    exact absurd (hlevel.trans (hfull rfl)) (by decide)
  · rintro ⟨level, hlevel, -, -, hfull⟩
    rw [hhigh, Option.some_inj] at hlevel
    exact absurd (hlevel.trans (hfull rfl)) (by decide)

end RealmeSalaa.Lights
