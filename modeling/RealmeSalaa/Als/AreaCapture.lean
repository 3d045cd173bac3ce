import RealmeSalaa.Als.ScreenLight

/-!
# The area above the sensor

`getAreaBrightness` adds up the bytes of the visible pixels of a captured buffer, channel by
channel, and divides by their number. The sums wrap around at `2 ^ 32`, which does not matter as
long as the totals fit. The index of a byte is computed in the same 32 bits: it is the byte's own
index as long as the visible pixels lie in the first `2 ^ 32` bytes (`toNat_byteIndex`).
-/

namespace RealmeSalaa.Als

/-! ## The buffer -/

/-- A captured buffer. `out` is the memory from its first byte on, and a row is `stride` pixels. -/
structure CapturedBuffer where
  out : ℕ → UInt8
  width : UInt32
  height : UInt32
  stride : UInt32

/-- What `captureDisplay` and its fence lead to. -/
inductive CaptureResults
  | captureFailed
  | fenceError
  | captured (buffer : CapturedBuffer)

/-- The three sums of the loop. -/
structure Sums where
  rsum : UInt32
  gsum : UInt32
  bsum : UInt32

namespace CapturedBuffer

variable (buffer : CapturedBuffer)

/-- The index of byte `k` of a pixel. The stride is unsigned, and so is the index. -/
def byteIndex (k y x : ℕ) : UInt32 :=
  UInt32.ofNat y * (buffer.stride * 4) + UInt32.ofNat x * 4 + UInt32.ofNat k

/-- Byte `k` of a pixel as the loop reads it. -/
def read (k y x : ℕ) : UInt32 := (buffer.out (buffer.byteIndex k y x).toNat).toUInt32

def addPixel (y : ℕ) (sums : Sums) (x : ℕ) : Sums where
  rsum := sums.rsum + buffer.read 0 y x
  gsum := sums.gsum + buffer.read 1 y x
  bsum := sums.bsum + buffer.read 2 y x

/-- The two loops. -/
def sums : Sums :=
  (List.range buffer.height.toNat).foldl (fun sums y =>
    (List.range buffer.width.toNat).foldl (buffer.addPixel y) sums) ⟨0, 0, 0⟩

/-- The result for a buffer that was captured. -/
def brightness : AreaRgbCaptureResult :=
  let max : ℚ := (buffer.width * buffer.height).toNat
  { r := buffer.sums.rsum.toNat / max
    g := buffer.sums.gsum.toNat / max
    b := buffer.sums.bsum.toNat / max }

end CapturedBuffer

/-- `getAreaBrightness`. Both failures are reported as the error -1. -/
def getAreaBrightness : CaptureResults → Except ℤ AreaRgbCaptureResult
  | .captureFailed => .error (-1)
  | .fenceError => .error (-1)
  | .captured buffer => .ok buffer.brightness

namespace CapturedBuffer

variable (buffer : CapturedBuffer)

/-! ## The visible pixels -/

/-- The place of byte `k` of a pixel. -/
def offset (k y x : ℕ) : ℕ := (y * buffer.stride.toNat + x) * 4 + k

/-- The total of channel `k` over the visible pixels. -/
def total (k : ℕ) : ℕ :=
  ∑ y ∈ Finset.range buffer.height.toNat, ∑ x ∈ Finset.range buffer.width.toNat,
    (buffer.out (buffer.offset k y x)).toNat

/-- The mean of channel `k` over the visible pixels. -/
def mean (k : ℕ) : ℚ := buffer.total k / (buffer.width.toNat * buffer.height.toNat)

/-- The visible pixels lie in the first `2 ^ 32` bytes. -/
def Addressable : Prop :=
  ((buffer.height.toNat - 1) * buffer.stride.toNat + buffer.width.toNat) * 4 ≤ 2 ^ 32

/-! ## The sums -/

theorem toNat_foldl_add {ι : Type} (f : ι → UInt32) (l : List ι) (acc : UInt32) :
    (l.foldl (fun acc i => acc + f i) acc).toNat =
      (acc.toNat + (l.map fun i => (f i).toNat).sum) % 2 ^ 32 := by
  induction l generalizing acc with
  | nil => exact (Nat.mod_eq_of_lt acc.toNat_lt).symm
  | cons i l ih =>
    rw [List.foldl_cons, ih, UInt32.toNat_add, List.map_cons, List.sum_cons, Nat.mod_add_mod,
      Nat.add_assoc]

/-- A wrapping sum over all rows, in any order of additions. -/
theorem toNat_foldl_foldl_add (f : ℕ → ℕ → UInt32) (h w : ℕ) (acc : UInt32) :
    ((List.range h).foldl (fun acc y => (List.range w).foldl (fun acc x => acc + f y x) acc)
      acc).toNat =
      (acc.toNat + ∑ y ∈ Finset.range h, ∑ x ∈ Finset.range w, (f y x).toNat) % 2 ^ 32 := by
  induction h with
  | zero => exact (Nat.mod_eq_of_lt acc.toNat_lt).symm
  | succ h ih =>
    have hrow : ((List.range w).map fun x => (f h x).toNat).sum =
        ∑ x ∈ Finset.range w, (f h x).toNat := rfl
    rw [List.range_succ, List.foldl_append, List.foldl_cons, List.foldl_nil, toNat_foldl_add, ih,
      hrow, Finset.sum_range_succ, Nat.mod_add_mod, Nat.add_assoc]

/-- The total of channel `k` as it is read. -/
def readTotal (k : ℕ) : ℕ :=
  ∑ y ∈ Finset.range buffer.height.toNat, ∑ x ∈ Finset.range buffer.width.toNat,
    (buffer.read k y x).toNat

/-- A channel of the loops is a loop of its own. -/
theorem foldl_channel (channel : Sums → UInt32) (k : ℕ)
    (hadd : ∀ y sums x, channel (buffer.addPixel y sums x) = channel sums + buffer.read k y x)
    (hzero : channel ⟨0, 0, 0⟩ = 0) :
    (channel buffer.sums).toNat = buffer.readTotal k % 2 ^ 32 := by
  have hrow : ∀ y sums, (List.range buffer.width.toNat).foldl
      (fun acc x => acc + buffer.read k y x) (channel sums) =
        channel ((List.range buffer.width.toNat).foldl (buffer.addPixel y) sums) :=
    fun y sums => List.foldl_hom channel fun sums x => (hadd y sums x).symm
  have hall : (List.range buffer.height.toNat).foldl (fun acc y =>
      (List.range buffer.width.toNat).foldl (fun acc x => acc + buffer.read k y x) acc)
        (channel ⟨0, 0, 0⟩) = channel buffer.sums :=
    List.foldl_hom channel fun sums y => hrow y sums
  rw [← hall, toNat_foldl_foldl_add, hzero, UInt32.toNat_zero, Nat.zero_add, readTotal]

theorem readTotal_le (k : ℕ) :
    buffer.readTotal k ≤ buffer.width.toNat * buffer.height.toNat * 255 := by
  have hbyte : ∀ y x, (buffer.read k y x).toNat ≤ 255 := by
    intro y x
    have hlt := (buffer.out (buffer.byteIndex k y x).toNat).toNat_lt
    rw [read, UInt8.toNat_toUInt32]
    omega
  have hrow : ∀ y ∈ Finset.range buffer.height.toNat,
      ∑ x ∈ Finset.range buffer.width.toNat, (buffer.read k y x).toNat ≤
        buffer.width.toNat * 255 := by
    intro y _
    have hle := Finset.sum_le_card_nsmul _ _ _ fun x (_ : x ∈ Finset.range buffer.width.toNat) =>
      hbyte y x
    rwa [Finset.card_range, smul_eq_mul] at hle
  have hall := Finset.sum_le_card_nsmul _ _ _ hrow
  rw [Finset.card_range, smul_eq_mul] at hall
  calc buffer.readTotal k ≤ buffer.height.toNat * (buffer.width.toNat * 255) := hall
    _ = buffer.width.toNat * buffer.height.toNat * 255 := by ring

/-! ## The indices -/

theorem toNat_byteIndex (k y x : ℕ) :
    (buffer.byteIndex k y x).toNat = buffer.offset k y x % 2 ^ 32 := by
  have hindex : buffer.byteIndex k y x = UInt32.ofNat (buffer.offset k y x) := by
    have hoffset : buffer.offset k y x = y * (buffer.stride.toNat * 4) + x * 4 + k := by
      unfold offset
      ring
    rw [hoffset, UInt32.ofNat_add, UInt32.ofNat_add, UInt32.ofNat_mul, UInt32.ofNat_mul,
      UInt32.ofNat_mul, UInt32.ofNat_toNat]
    rfl
  rw [hindex]
  exact UInt32.toNat_ofNat'

section

variable {buffer} {k y x : ℕ}

theorem offset_lt_size (hstride : buffer.width.toNat ≤ buffer.stride.toNat) (hk : k < 4)
    (hy : y < buffer.height.toNat) (hx : x < buffer.width.toNat) :
    buffer.offset k y x < buffer.height.toNat * buffer.stride.toNat * 4 := by
  have hrow : (y + 1) * buffer.stride.toNat ≤ buffer.height.toNat * buffer.stride.toNat :=
    Nat.mul_le_mul_right _ hy
  rw [Nat.succ_mul] at hrow
  unfold offset
  omega

theorem offset_lt (haddr : buffer.Addressable) (hk : k < 4) (hy : y < buffer.height.toNat)
    (hx : x < buffer.width.toNat) : buffer.offset k y x < 2 ^ 32 := by
  have hrow : y * buffer.stride.toNat ≤ (buffer.height.toNat - 1) * buffer.stride.toNat :=
    Nat.mul_le_mul_right _ (by omega)
  unfold Addressable at haddr
  unfold offset
  omega

/-- In an addressable buffer the bytes that are read are those of the visible pixels. -/
theorem readTotal_eq_total (haddr : buffer.Addressable) (hk : k < 4) :
    buffer.readTotal k = buffer.total k := by
  refine Finset.sum_congr rfl fun y hy => Finset.sum_congr rfl fun x hx => ?_
  have hlt := offset_lt haddr hk (Finset.mem_range.1 hy) (Finset.mem_range.1 hx)
  rw [read, toNat_byteIndex, Nat.mod_eq_of_lt hlt, UInt8.toNat_toUInt32]

end

/-! ## The result -/

section

variable {buffer} (hsum : buffer.width.toNat * buffer.height.toNat * 255 < 2 ^ 32)

include hsum

theorem brightness_eq : buffer.brightness =
    { r := buffer.readTotal 0 / (buffer.width.toNat * buffer.height.toNat)
      g := buffer.readTotal 1 / (buffer.width.toNat * buffer.height.toNat)
      b := buffer.readTotal 2 / (buffer.width.toNat * buffer.height.toNat) } := by
  have hmax : (buffer.width * buffer.height).toNat =
      buffer.width.toNat * buffer.height.toNat := by
    rw [UInt32.toNat_mul, Nat.mod_eq_of_lt (by omega)]
  have hfits : ∀ k, buffer.readTotal k % 2 ^ 32 = buffer.readTotal k := fun k =>
    Nat.mod_eq_of_lt ((buffer.readTotal_le k).trans_lt hsum)
  have hr : buffer.sums.rsum.toNat = buffer.readTotal 0 := by
    rw [buffer.foldl_channel Sums.rsum 0 (fun _ _ _ => rfl) rfl, hfits]
  have hg : buffer.sums.gsum.toNat = buffer.readTotal 1 := by
    rw [buffer.foldl_channel Sums.gsum 1 (fun _ _ _ => rfl) rfl, hfits]
  have hb : buffer.sums.bsum.toNat = buffer.readTotal 2 := by
    rw [buffer.foldl_channel Sums.bsum 2 (fun _ _ _ => rfl) rfl, hfits]
  unfold brightness
  rw [hmax, hr, hg, hb]
  push_cast
  rfl

theorem inRange_brightness (hwidth : 0 < buffer.width.toNat) (hheight : 0 < buffer.height.toNat) :
    buffer.brightness.InRange := by
  have hpos : (0 : ℚ) < buffer.width.toNat * buffer.height.toNat := by
    exact_mod_cast Nat.mul_pos hwidth hheight
  have hmem : ∀ k, 0 ≤ (buffer.readTotal k : ℚ) / (buffer.width.toNat * buffer.height.toNat) ∧
      (buffer.readTotal k : ℚ) / (buffer.width.toNat * buffer.height.toNat) ≤ 255 := by
    intro k
    refine ⟨div_nonneg (Nat.cast_nonneg _) hpos.le, ?_⟩
    rw [div_le_iff₀ hpos, mul_comm]
    exact_mod_cast buffer.readTotal_le k
  rw [brightness_eq hsum]
  exact ⟨hmem 0, hmem 1, hmem 2⟩

end

end CapturedBuffer

/-- **The area brightness.** The result has channels of a byte, and no byte is read past the
buffer. If the visible pixels lie in the first `2 ^ 32` bytes it is the mean of each channel over
them, and depends on no other byte. -/
theorem getAreaBrightness_mean {buffer : CapturedBuffer} (hwidth : 1 ≤ buffer.width.toNat)
    (hheight : 1 ≤ buffer.height.toNat) (hstride : buffer.width.toNat ≤ buffer.stride.toNat)
    (hsum : buffer.width.toNat * buffer.height.toNat * 255 < 2 ^ 32) :
    ∃ result, getAreaBrightness (.captured buffer) = .ok result ∧ result.InRange ∧
      (∀ k y x, k < 3 → y < buffer.height.toNat → x < buffer.width.toNat →
        (buffer.byteIndex k y x).toNat < buffer.height.toNat * buffer.stride.toNat * 4) ∧
      (buffer.Addressable →
        result = ⟨buffer.mean 0, buffer.mean 1, buffer.mean 2⟩ ∧
        ∀ out, (∀ k y x, k < 3 → y < buffer.height.toNat → x < buffer.width.toNat →
            out (buffer.offset k y x) = buffer.out (buffer.offset k y x)) →
          getAreaBrightness (.captured { buffer with out := out }) = .ok result) := by
  have hmean : ∀ buffer : CapturedBuffer,
      buffer.width.toNat * buffer.height.toNat * 255 < 2 ^ 32 → buffer.Addressable →
      buffer.brightness = ⟨buffer.mean 0, buffer.mean 1, buffer.mean 2⟩ := by
    intro buffer hsum haddr
    rw [CapturedBuffer.brightness_eq hsum, CapturedBuffer.readTotal_eq_total haddr (by omega),
      CapturedBuffer.readTotal_eq_total haddr (by omega),
      CapturedBuffer.readTotal_eq_total haddr (by omega)]
    rfl
  refine ⟨buffer.brightness, rfl, CapturedBuffer.inRange_brightness hsum hwidth hheight, ?_,
    fun haddr => ⟨hmean buffer hsum haddr, fun out hout => ?_⟩⟩
  · intro k y x hk hy hx
    rw [buffer.toNat_byteIndex]
    exact (Nat.mod_le _ _).trans_lt
      (CapturedBuffer.offset_lt_size hstride (by omega) hy hx)
  · have htotal : ∀ k, k < 3 → ({ buffer with out := out } : CapturedBuffer).mean k =
        buffer.mean k := by
      intro k hk
      have hsame : ({ buffer with out := out } : CapturedBuffer).total k = buffer.total k :=
        Finset.sum_congr rfl fun y hy => Finset.sum_congr rfl fun x hx =>
          congrArg UInt8.toNat (hout k y x hk (Finset.mem_range.1 hy) (Finset.mem_range.1 hx))
      unfold CapturedBuffer.mean
      rw [hsame]
    have hother := hmean { buffer with out := out } hsum haddr
    rw [htotal 0 (by omega), htotal 1 (by omega), htotal 2 (by omega)] at hother
    rw [getAreaBrightness, hother, hmean buffer hsum haddr]

/-- Past `2 ^ 32` the last pixel is never read, whatever its index wraps around to. -/
theorem addressable_of_mean {buffer : CapturedBuffer} (hwidth : 1 ≤ buffer.width.toNat)
    (hheight : 1 ≤ buffer.height.toNat)
    (hsum : buffer.width.toNat * buffer.height.toNat * 255 < 2 ^ 32)
    (h : ∀ out, ({ buffer with out := out } : CapturedBuffer).brightness.r =
      ({ buffer with out := out } : CapturedBuffer).mean 0) : buffer.Addressable := by
  by_contra haddr
  have hlast : 2 ^ 32 ≤ buffer.offset 0 (buffer.height.toNat - 1) (buffer.width.toNat - 1) := by
    unfold CapturedBuffer.Addressable at haddr
    unfold CapturedBuffer.offset
    omega
  -- all black but for the red byte of the last pixel
  let lit : CapturedBuffer := { buffer with
    out := fun i =>
      if i = buffer.offset 0 (buffer.height.toNat - 1) (buffer.width.toNat - 1) then 255 else 0 }
  have hread : lit.readTotal 0 = 0 := by
    refine Finset.sum_eq_zero fun y _ => Finset.sum_eq_zero fun x _ => ?_
    have hne : (lit.byteIndex 0 y x).toNat ≠
        buffer.offset 0 (buffer.height.toNat - 1) (buffer.width.toNat - 1) := by
      have hlt := (lit.byteIndex 0 y x).toNat_lt
      omega
    show UInt32.toNat (UInt8.toUInt32 (if _ then 255 else 0)) = 0
    rw [if_neg hne]
    rfl
  have htotal : 0 < lit.total 0 := by
    refine Finset.sum_pos' (fun _ _ => Nat.zero_le _)
      ⟨buffer.height.toNat - 1, Finset.mem_range.2 (Nat.sub_lt hheight one_pos), ?_⟩
    refine Finset.sum_pos' (fun _ _ => Nat.zero_le _)
      ⟨buffer.width.toNat - 1, Finset.mem_range.2 (Nat.sub_lt hwidth one_pos), ?_⟩
    have hbyte : lit.out (lit.offset 0 (buffer.height.toNat - 1) (buffer.width.toNat - 1)) = 255 :=
      if_pos rfl
    rw [hbyte]
    decide
  have hpos : (0 : ℚ) < buffer.width.toNat * buffer.height.toNat := by
    exact_mod_cast Nat.mul_pos hwidth hheight
  have heq : lit.brightness.r = lit.mean 0 := h lit.out
  have hlit : lit.width.toNat * lit.height.toNat * 255 < 2 ^ 32 := hsum
  rw [CapturedBuffer.brightness_eq hlit, hread] at heq
  have hmean : 0 < lit.mean 0 := div_pos (by exact_mod_cast htotal) hpos
  rw [← heq, Nat.cast_zero, zero_div] at hmean
  exact lt_irrefl _ hmean

/-- Two rows of one pixel with a pixel of padding. -/
def paddedBuffer : CapturedBuffer := ⟨fun i => if i < 4 then 10 else if i < 8 then 99 else 20, 1, 2, 2⟩

theorem getAreaBrightness_mean_sample : ∃ result,
    getAreaBrightness (.captured paddedBuffer) = .ok result ∧
      result = ⟨paddedBuffer.mean 0, paddedBuffer.mean 1, paddedBuffer.mean 2⟩ ∧ result.r = 15 := by
  have hwidth : 1 ≤ paddedBuffer.width.toNat := by decide
  obtain ⟨result, hresult, -, -, hmean⟩ :=
    getAreaBrightness_mean hwidth (by decide) (by decide) (by decide)
  obtain ⟨hmean, -⟩ := hmean (by unfold CapturedBuffer.Addressable; decide)
  refine ⟨result, hresult, hmean, ?_⟩
  rw [hmean]
  decide +kernel

/-- With rows of `2 ^ 30` pixels the index of the second row's pixel wraps around to the first. -/
def wideBuffer : CapturedBuffer := ⟨fun i => if i < 2 ^ 32 then 0 else 255, 1, 2, 2 ^ 30⟩

/-- The first row is black and the second one white, and the result is black. -/
theorem second_row_not_read :
    wideBuffer.width.toNat * wideBuffer.height.toNat * 255 < 2 ^ 32 ∧
      wideBuffer.width.toNat ≤ wideBuffer.stride.toNat ∧
      (∃ result, getAreaBrightness (.captured wideBuffer) = .ok result ∧ result.r = 0) ∧
      wideBuffer.mean 0 = 255 / 2 := by
  refine ⟨by decide, by decide, ⟨_, rfl, ?_⟩, ?_⟩
  · decide +kernel
  · decide +kernel

end RealmeSalaa.Als
