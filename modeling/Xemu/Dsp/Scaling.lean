import Xemu.Dsp.Arith56
import Xemu.Dsp.LoopControl

/-! # Scaling modes: convergent rounding and the data-bus limiter

    Model of `dsp_rnd56` (`hw/xbox/mcpx/apu/dsp/dsp_cpu.c`) and of
    `emu_pm_read_accu24` (`hw/xbox/mcpx/apu/dsp/dsp_emu.c.inc`), the two
    places where the scaling-mode bits `S1:S0` of `SR` move the position of
    the 24-bit word inside the 56-bit accumulator: bits 47..24 with no
    scaling, one bit higher when scaling down (`S0`), one bit lower when
    scaling up (`S1`).

    `dsp_rnd56` adds half a unit at that position with `dsp_add56`, clears
    the bits below it, and on a tie (all cleared bits zero after the
    addition) also clears the lowest kept bit.  `emu_pm_read_accu24` reads
    the 24-bit window of the scaled accumulator and, when the accumulator
    does not fit in it, replaces it by the largest value of the sign of the
    accumulator and sets `L`.

    The results:
    * `dsp_rnd56` is convergent rounding (round half to even) at bit 24, 25
      or 23, in 56-bit wrap-around arithmetic, for every accumulator;
    * `emu_pm_read_accu24` changes no register but `SR`, and there only `L`;
      with no scaling and when scaling down it is exactly the limiter: the
      window is returned when every bit above it equals its top bit, the
      limit of the sign of `A` otherwise;
    * when scaling up it decides from `A2` and bit 46 alone and never looks
      at bit 47, so an accumulator whose bit 47 differs from bits 55..48 and
      bit 46 is read unlimited, with its top bit lost.
-/

namespace Xemu.Dsp

open Xemu.Word

/-! ## Section 1: The scaling mode -/

/-- The scaling field `(SR >> DSP_SR_S0) & BITMASK(2)`: 0 no scaling, 1
    scaling down, 2 scaling up, 3 reserved. -/
def scalingMode (sr : UInt32) : UInt32 := (sr >>> DspSr.s0) &&& bitmask 2

/-- The bit of the accumulator at which `dsp_rnd56` rounds: 24, and one
    higher or lower when scaling down or up.  `dsp_rnd56` tests `S0` first,
    so the reserved mode 3 rounds as scaling down. -/
def roundingBit (sr : UInt32) : Nat :=
  if scalingMode sr = 0 then 24 else if scalingMode sr = 2 then 23 else 25

theorem toNat_scalingMode (sr : UInt32) : (scalingMode sr).toNat = sr.toNat / 2 ^ 10 % 4 := by
  rw [scalingMode, toNat_and_bitmask _ _ (by norm_num), UInt32.toNat_shiftRight]
  simp [DspSr.s0, Nat.shiftRight_eq_div_pow]

/-- `SR & (1 << S0)` and `SR & (1 << S1)` are the two bits of the mode. -/
theorem sr_s0_ne_zero (sr : UInt32) :
    sr &&& ((1 : UInt32) <<< DspSr.s0) ≠ 0 ↔ (scalingMode sr).toNat % 2 = 1 := by
  rw [and_shiftLeft_ne_zero _ _ (by decide), toNat_scalingMode]
  simp only [DspSr.s0, UInt32.reduceToNat]
  omega

theorem sr_s1_ne_zero (sr : UInt32) :
    sr &&& ((1 : UInt32) <<< DspSr.s1) ≠ 0 ↔ 2 ≤ (scalingMode sr).toNat := by
  rw [and_shiftLeft_ne_zero _ _ (by decide), toNat_scalingMode]
  simp only [DspSr.s1, UInt32.reduceToNat]
  omega

/-! ## Section 2: `dsp_rnd56`, as `dsp_cpu.c` writes it

    One helper per branch of the scaling test. -/

/-- Scaling mode `S0`: add `2^24`; on a tie clear bit 25; clear bits 24..0. -/
def rndScaleDown (dest : Acc56) : Acc56 :=
  let dest := (dspAdd56 ⟨0, 1, 0⟩ dest).1
  let dest :=
    if dest.w2 = 0 ∧ dest.w1 &&& 1 = 0 then { dest with w1 := dest.w1 &&& (0xffffff - 0x3) }
    else dest
  let dest := { dest with w1 := dest.w1 &&& 0xfffffe }
  { dest with w2 := 0 }

/-- Scaling mode `S1`: add `2^22`; on a tie clear bit 23; clear bits 22..0. -/
def rndScaleUp (dest : Acc56) : Acc56 :=
  let dest := (dspAdd56 ⟨0, 0, (1 : UInt32) <<< 22⟩ dest).1
  let dest := if dest.w2 &&& 0x7fffff = 0 then { dest with w2 := 0 } else dest
  { dest with w2 := dest.w2 &&& 0x800000 }

/-- No scaling: add `2^23`; on a tie clear bit 24; clear bits 23..0. -/
def rndNoScaling (dest : Acc56) : Acc56 :=
  let dest := (dspAdd56 ⟨0, 0, (1 : UInt32) <<< 23⟩ dest).1
  let dest := if dest.w2 = 0 then { dest with w1 := dest.w1 &&& 0xfffffe } else dest
  { dest with w2 := 0 }

/-- `dsp_rnd56`: the branch is chosen by `S0`, then `S1`, of `SR`. -/
def dspRnd56 (dsp : DspCore) (dest : Acc56) : Acc56 :=
  if dsp.registers DspReg.sr &&& ((1 : UInt32) <<< DspSr.s0) ≠ 0 then rndScaleDown dest
  else if dsp.registers DspReg.sr &&& ((1 : UInt32) <<< DspSr.s1) ≠ 0 then rndScaleUp dest
  else rndNoScaling dest

/-! ## Section 3: What `dsp_rnd56` computes -/

section rnd

variable {d : Acc56}

/-- The sum after adding the rounding constant `c`: valid, and the 56-bit
    sum. -/
theorem rnd_add_spec (hd : d.Valid) (c : Acc56) (hc : c.Valid) :
    (dspAdd56 c d).1.Valid ∧ (dspAdd56 c d).1.val = (d.val + c.val) % 2 ^ 56 :=
  ⟨dspAdd56_valid c d, dspAdd56_val hc hd⟩

/-- Clearing bits below bit `j` of a 24-bit limb, for the masks of `dsp_rnd56`. -/
theorem toNat_and_clearLow (w : UInt32) (hw : w.toNat < 2 ^ 24) :
    (w &&& 0xfffffe).toNat = w.toNat / 2 * 2 ∧
    (w &&& (0xffffff - 0x3)).toNat = w.toNat / 4 * 4 ∧
    (w &&& 0x800000).toNat = w.toNat / 2 ^ 23 * 2 ^ 23 :=
  ⟨toNat_and_highBits w 1 24 (by norm_num) (by norm_num) hw,
    toNat_and_highBits w 2 24 (by norm_num) (by norm_num) hw,
    toNat_and_highBits w 23 24 (by norm_num) (by norm_num) hw⟩

/-- The limbs `dsp_rnd56` leaves with no scaling. -/
theorem rndNoScaling_eq (d : Acc56) :
    rndNoScaling d =
      ⟨(dspAdd56 ⟨0, 0, (1 : UInt32) <<< 23⟩ d).1.w0,
        if (dspAdd56 ⟨0, 0, (1 : UInt32) <<< 23⟩ d).1.w2 = 0
        then (dspAdd56 ⟨0, 0, (1 : UInt32) <<< 23⟩ d).1.w1 &&& 0xfffffe
        else (dspAdd56 ⟨0, 0, (1 : UInt32) <<< 23⟩ d).1.w1, 0⟩ := by
  unfold rndNoScaling
  dsimp only
  split_ifs <;> rfl

theorem rndNoScaling_spec (hd : d.Valid) :
    (rndNoScaling d).Valid ∧ (rndNoScaling d).val = roundHalfEven d.val 24 * 2 ^ 24 % 2 ^ 56 := by
  obtain ⟨hs, hsv⟩ := rnd_add_spec hd ⟨0, 0, (1 : UInt32) <<< 23⟩ (by decide)
  rw [show Acc56.val ⟨0, 0, (1 : UInt32) <<< 23⟩ = 2 ^ 23 from rfl] at hsv
  rw [roundHalfEven_mod_pow d.val 23 56 (by norm_num), ← hsv, rndNoScaling_eq]
  generalize (dspAdd56 ⟨0, 0, (1 : UInt32) <<< 23⟩ d).1 = s at hs ⊢
  obtain ⟨h0, h1, h2⟩ := hs
  -- `dest[2] == 0` is the tie test: nothing is left below bit 24
  have htie : s.val % 2 ^ (23 + 1) = 0 ↔ s.w2 = 0 := by
    rw [← UInt32.toNat_inj, UInt32.toNat_zero, Acc56.val]
    omega
  obtain ⟨hclear, -, -⟩ := toNat_and_clearLow s.w1 h1
  unfold truncTie
  simp only [htie]
  split_ifs with ht
  · refine ⟨⟨h0, ?_, by simp⟩, ?_⟩
    · rw [hclear]
      exact lt_of_le_of_lt (Nat.div_mul_le_self _ _) h1
    simp only [Acc56.val, hclear, ht, UInt32.toNat_zero]
    omega
  · refine ⟨⟨h0, h1, by simp⟩, ?_⟩
    simp only [Acc56.val, UInt32.toNat_zero]
    omega

/-- The limbs `dsp_rnd56` leaves when scaling up. -/
theorem rndScaleUp_eq (d : Acc56) :
    rndScaleUp d =
      ⟨(dspAdd56 ⟨0, 0, (1 : UInt32) <<< 22⟩ d).1.w0, (dspAdd56 ⟨0, 0, (1 : UInt32) <<< 22⟩ d).1.w1,
        (if (dspAdd56 ⟨0, 0, (1 : UInt32) <<< 22⟩ d).1.w2 &&& 0x7fffff = 0 then (0 : UInt32)
          else (dspAdd56 ⟨0, 0, (1 : UInt32) <<< 22⟩ d).1.w2) &&& 0x800000⟩ := by
  unfold rndScaleUp
  dsimp only
  split_ifs <;> rfl

theorem rndScaleUp_spec (hd : d.Valid) :
    (rndScaleUp d).Valid ∧ (rndScaleUp d).val = roundHalfEven d.val 23 * 2 ^ 23 % 2 ^ 56 := by
  obtain ⟨hs, hsv⟩ := rnd_add_spec hd ⟨0, 0, (1 : UInt32) <<< 22⟩ (by decide)
  rw [show Acc56.val ⟨0, 0, (1 : UInt32) <<< 22⟩ = 2 ^ 22 from rfl] at hsv
  rw [roundHalfEven_mod_pow d.val 22 56 (by norm_num), ← hsv, rndScaleUp_eq]
  generalize (dspAdd56 ⟨0, 0, (1 : UInt32) <<< 22⟩ d).1 = s at hs ⊢
  obtain ⟨h0, h1, h2⟩ := hs
  -- `(dest[2] & 0x7fffff) == 0` is the tie test: nothing is left below bit 23
  have hlow : (s.w2 &&& 0x7fffff).toNat = s.w2.toNat % 2 ^ 23 :=
    toNat_and_bitmask s.w2 23 (by norm_num)
  have htie : s.val % 2 ^ (22 + 1) = 0 ↔ s.w2 &&& 0x7fffff = 0 := by
    rw [← UInt32.toNat_inj, UInt32.toNat_zero, hlow, Acc56.val]
    omega
  obtain ⟨-, -, hkeep⟩ := toNat_and_clearLow s.w2 h2
  unfold truncTie
  simp only [htie]
  split_ifs with ht
  · -- a tie: bit 23 is cleared with the bits below it
    have hzero : ((0 : UInt32) &&& 0x800000).toNat = 0 := by decide
    rw [← UInt32.toNat_inj, hlow, UInt32.toNat_zero] at ht
    refine ⟨⟨h0, h1, by simp only [hzero]; omega⟩, ?_⟩
    simp only [Acc56.val, hzero]
    omega
  · refine ⟨⟨h0, h1, by simp only [hkeep]; omega⟩, ?_⟩
    simp only [Acc56.val, hkeep]
    omega

/-- The limbs `dsp_rnd56` leaves when scaling down. -/
theorem rndScaleDown_eq (d : Acc56) :
    rndScaleDown d =
      ⟨(dspAdd56 ⟨0, 1, 0⟩ d).1.w0,
        (if (dspAdd56 ⟨0, 1, 0⟩ d).1.w2 = 0 ∧ (dspAdd56 ⟨0, 1, 0⟩ d).1.w1 &&& 1 = 0
          then (dspAdd56 ⟨0, 1, 0⟩ d).1.w1 &&& (0xffffff - 0x3)
          else (dspAdd56 ⟨0, 1, 0⟩ d).1.w1) &&& 0xfffffe, 0⟩ := by
  unfold rndScaleDown
  dsimp only
  split_ifs <;> rfl

theorem rndScaleDown_spec (hd : d.Valid) :
    (rndScaleDown d).Valid ∧ (rndScaleDown d).val = roundHalfEven d.val 25 * 2 ^ 25 % 2 ^ 56 := by
  obtain ⟨hs, hsv⟩ := rnd_add_spec hd ⟨0, 1, 0⟩ (by decide)
  rw [show Acc56.val ⟨0, 1, 0⟩ = 2 ^ 24 from rfl] at hsv
  rw [roundHalfEven_mod_pow d.val 24 56 (by norm_num), ← hsv, rndScaleDown_eq]
  generalize (dspAdd56 ⟨0, 1, 0⟩ d).1 = s at hs ⊢
  obtain ⟨h0, h1, h2⟩ := hs
  -- `dest[2] == 0 && (dest[1] & 1) == 0` is the tie test: nothing below bit 25
  have hodd : (s.w1 &&& 1).toNat = s.w1.toNat % 2 := toNat_and_bitmask s.w1 1 (by norm_num)
  have htie : s.val % 2 ^ (24 + 1) = 0 ↔ s.w2 = 0 ∧ s.w1 &&& 1 = 0 := by
    rw [← UInt32.toNat_inj, ← UInt32.toNat_inj, UInt32.toNat_zero, hodd, Acc56.val]
    omega
  obtain ⟨hclear, hclear2, -⟩ := toNat_and_clearLow s.w1 h1
  unfold truncTie
  simp only [htie]
  split_ifs with ht
  · -- a tie: bits 25 and 24 are both cleared
    have hw : (s.w1 &&& (0xffffff - 0x3)).toNat < 2 ^ 24 := by
      rw [hclear2]
      exact lt_of_le_of_lt (Nat.div_mul_le_self _ _) h1
    obtain ⟨hclear', -, -⟩ := toNat_and_clearLow _ hw
    obtain ⟨hw2, hw1⟩ := ht
    rw [← UInt32.toNat_inj, hodd, UInt32.toNat_zero] at hw1
    refine ⟨⟨h0, by simp only [hclear', hclear2]; omega, by simp⟩, ?_⟩
    simp only [Acc56.val, hclear', hclear2, hw2, UInt32.toNat_zero]
    omega
  · refine ⟨⟨h0, by simp only [hclear]; omega, by simp⟩, ?_⟩
    simp only [Acc56.val, hclear, UInt32.toNat_zero]
    omega

/-- `dsp_rnd56` rounds convergently at the bit its scaling mode selects. -/
theorem rnd56_convergent (dsp : DspCore) (d : Acc56) (hd : d.Valid) :
    (dspRnd56 dsp d).Valid ∧
      (dspRnd56 dsp d).val =
        roundHalfEven d.val (roundingBit (dsp.registers DspReg.sr)) *
          2 ^ roundingBit (dsp.registers DspReg.sr) % 2 ^ 56 := by
  have hlt : (scalingMode (dsp.registers DspReg.sr)).toNat < 4 := by
    rw [toNat_scalingMode]; omega
  have hm0 : scalingMode (dsp.registers DspReg.sr) = 0 ↔
      (scalingMode (dsp.registers DspReg.sr)).toNat = 0 := by
    rw [← UInt32.toNat_inj]; rfl
  have hm2 : scalingMode (dsp.registers DspReg.sr) = 2 ↔
      (scalingMode (dsp.registers DspReg.sr)).toNat = 2 := by
    rw [← UInt32.toNat_inj]; rfl
  unfold dspRnd56 roundingBit
  by_cases hs0 : dsp.registers DspReg.sr &&& ((1 : UInt32) <<< DspSr.s0) ≠ 0
  · -- scaling down, or the reserved mode 3: `S0` is tested first
    rw [sr_s0_ne_zero] at hs0
    rw [if_pos ((sr_s0_ne_zero _).mpr hs0), if_neg (by rw [hm0]; omega),
      if_neg (by rw [hm2]; omega)]
    exact rndScaleDown_spec hd
  · rw [sr_s0_ne_zero] at hs0
    by_cases hs1 : dsp.registers DspReg.sr &&& ((1 : UInt32) <<< DspSr.s1) ≠ 0
    · -- scaling up
      rw [sr_s1_ne_zero] at hs1
      rw [if_neg (by rw [sr_s0_ne_zero]; exact hs0), if_pos ((sr_s1_ne_zero _).mpr hs1),
        if_neg (by rw [hm0]; omega), if_pos (by rw [hm2]; omega)]
      exact rndScaleUp_spec hd
    · rw [sr_s1_ne_zero] at hs1
      rw [if_neg (by rw [sr_s0_ne_zero]; exact hs0), if_neg (by rw [sr_s1_ne_zero]; exact hs1),
        if_pos (by rw [hm0]; omega)]
      exact rndNoScaling_spec hd

/-- A tie with no scaling: `0x00:000000:800000` (one half) rounds to zero. -/
theorem rnd56_convergent_half :
    (⟨0, 0, 0x800000⟩ : Acc56).Valid ∧
    ((dspRnd56 DspCore.zeroed ⟨0, 0, 0x800000⟩).Valid ∧
      (dspRnd56 DspCore.zeroed ⟨0, 0, 0x800000⟩).val =
        roundHalfEven (Acc56.val ⟨0, 0, 0x800000⟩) (roundingBit (DspCore.zeroed.registers DspReg.sr)) *
          2 ^ roundingBit (DspCore.zeroed.registers DspReg.sr) % 2 ^ 56) :=
  ⟨by decide, rnd56_convergent DspCore.zeroed ⟨0, 0, 0x800000⟩ (by decide)⟩

end rnd

/-! ## Section 4: The limiter of `emu_pm_read_accu24`

    `emuPmReadAccu24` (in `LoopControl`, where `DO S` and `REP S` read their
    count through it) is the faithful model.  Here it is taken apart: the
    word before limiting, `accuWindow`, is the window of the accumulator at
    the scaling mode's position, and the limiting decision is `pmDecision`
    on that window. -/

/-- The accumulator `numreg & 1` selects (A or B), as its three registers. -/
def accuOf (s : DspCore) (reg : Nat) : Acc56 :=
  ⟨s.registers (DspReg.a2 + reg), s.registers (DspReg.a1 + reg), s.registers (DspReg.a0 + reg)⟩

/-- The word `emu_pm_read_accu24` reads before limiting: `A2:A1` as a 32-bit
    word, moved by the scaling mode, masked to 24 bits.  The modes 0 and 3
    leave it as it is. -/
def accuWindow (s : DspCore) (reg : Nat) : UInt32 :=
  let scaling := scalingMode (s.registers DspReg.sr)
  let value := (s.registers (DspReg.a2 + reg) <<< (24 : UInt32)) + s.registers (DspReg.a1 + reg)
  let value :=
    if scaling = 1 then value >>> (1 : UInt32)
    else if scaling = 2 then
      (value <<< (1 : UInt32)) ||| ((s.registers (DspReg.a0 + reg) >>> (23 : UInt32)) &&& 1)
    else value
  value &&& bitmask 24

/-- `emu_pm_read_accu24` in terms of the word before limiting. -/
theorem emuPmReadAccu24_eq (s : DspCore) (numreg : Nat) :
    emuPmReadAccu24 s numreg =
      if s.registers (DspReg.a2 + numreg % 2) = 0 ∧ accuWindow s (numreg % 2) ≤ 0x007fffff then
        (accuWindow s (numreg % 2), s)
      else if s.registers (DspReg.a2 + numreg % 2) = 0xff ∧
          accuWindow s (numreg % 2) ≥ 0x00800000 then
        (accuWindow s (numreg % 2), s)
      else if s.registers (DspReg.a2 + numreg % 2) &&& ((1 : UInt32) <<< (7 : UInt32)) ≠ 0 then
        (0x00800000, s.setReg DspReg.sr (s.registers DspReg.sr ||| (1 <<< DspSr.l)))
      else (0x007fffff, s.setReg DspReg.sr (s.registers DspReg.sr ||| (1 <<< DspSr.l))) :=
  rfl

/-! ## Section 5: What the limiter should do, and what it does -/

/-- The lowest bit of the 24-bit window in each scaling mode: bits 47..24,
    48..25 when scaling down, 46..23 when scaling up. -/
def windowBit (sr : UInt32) : Nat :=
  if scalingMode sr = 1 then 25 else if scalingMode sr = 2 then 23 else 24

/-- The data-bus limiter of the DSP56300 on a 56-bit value `v` read through
    the window whose lowest bit is `lo`: the window when every bit above it
    equals its top bit, that is when `v / 2 ^ (lo + 23)` is all zeros or all
    ones; otherwise the largest value of the sign of `v`, with `L` set. -/
def limitWindow (v lo : Nat) : UInt32 × Bool :=
  if v / 2 ^ (lo + 23) = 0 ∨ v / 2 ^ (lo + 23) = 2 ^ (33 - lo) - 1 then
    (UInt32.ofNat (v / 2 ^ lo % 2 ^ 24), false)
  else if 2 ^ 55 ≤ v then (0x800000, true) else (0x7fffff, true)

/-- The decision `emu_pm_read_accu24` takes, on `Nat`: the window `w` is
    kept when `A2` is all zeros and the top bit of `w` clear, or `A2` all
    ones and it set; otherwise the limit of the sign of `v`. -/
def pmDecision (a2 w v : Nat) : UInt32 × Bool :=
  if (a2 = 0 ∧ w < 2 ^ 23) ∨ (a2 = 0xff ∧ 2 ^ 23 ≤ w) then (UInt32.ofNat w, false)
  else if 2 ^ 55 ≤ v then (0x800000, true) else (0x7fffff, true)

/-- A read through the limiter: the word, and the core with `SR.L` or-ed in
    when the word was limited; no other register changes. -/
def limitedRead (s : DspCore) (r : UInt32 × Bool) : UInt32 × DspCore :=
  (r.1, if r.2 then s.setReg DspReg.sr (s.registers DspReg.sr ||| (1 <<< DspSr.l)) else s)

/-- `A2 << 24` plus `A1`: the top 32 bits of the accumulator. -/
theorem toNat_accuHigh (a2 a1 : UInt32) (h2 : a2.toNat < 2 ^ 8) (h1 : a1.toNat < 2 ^ 24) :
    ((a2 <<< (24 : UInt32)) + a1).toNat = a2.toNat * 2 ^ 24 + a1.toNat := by
  have hs : (a2 <<< (24 : UInt32)).toNat = a2.toNat * 2 ^ 24 := by
    rw [UInt32.toNat_shiftLeft]
    simp only [UInt32.reduceToNat, Nat.reduceMod, Nat.shiftLeft_eq]
    omega
  rw [UInt32.toNat_add, hs]
  omega

/-- The word read before limiting is the window of the accumulator at the
    scaling mode's position, in every mode. -/
theorem accuWindow_toNat (s : DspCore) (reg : Nat) (hv : (accuOf s reg).Valid) :
    (accuWindow s reg).toNat = (accuOf s reg).val / 2 ^ windowBit (s.registers DspReg.sr) % 2 ^ 24 := by
  obtain ⟨h2, h1, h0⟩ := hv
  have hhigh := toNat_accuHigh _ _ h2 h1
  have hbit := toNat_shiftRight_and_one (s.registers (DspReg.a0 + reg)) 23 (by decide)
  simp only [accuOf, Acc56.val, UInt32.reduceToNat] at h2 h1 h0 hbit hhigh ⊢
  unfold accuWindow windowBit
  dsimp only
  generalize (s.registers (DspReg.a2 + reg) <<< (24 : UInt32)) + s.registers (DspReg.a1 + reg) = value
    at hhigh
  split_ifs with hm1 hm2
  · -- scaling down: `value >>= 1`
    rw [toNat_and_bitmask _ _ (by norm_num), UInt32.toNat_shiftRight]
    simp only [UInt32.reduceToNat, Nat.reduceMod, Nat.shiftRight_eq_div_pow]
    omega
  · -- scaling up: `value <<= 1; value |= (A0 >> 23) & 1`
    rw [toNat_and_bitmask _ _ (by norm_num), toNat_shiftLeft_one_or _ _ (by omega), hbit]
    omega
  · rw [toNat_and_bitmask _ _ (by norm_num)]
    omega

/-- `emu_pm_read_accu24` is a read through the limiter that takes the
    decision `pmDecision` on the window of the accumulator. -/
theorem emuPmReadAccu24_spec (s : DspCore) (numreg : Nat) (hv : (accuOf s (numreg % 2)).Valid) :
    emuPmReadAccu24 s numreg =
      limitedRead s
        (pmDecision (accuOf s (numreg % 2)).w0.toNat
          ((accuOf s (numreg % 2)).val / 2 ^ windowBit (s.registers DspReg.sr) % 2 ^ 24)
          (accuOf s (numreg % 2)).val) := by
  have hw := accuWindow_toNat s _ hv
  have hval := (accuOf s (numreg % 2)).val_lt hv
  obtain ⟨h2, h1, h0⟩ := hv
  have hsign := and_shiftLeft_ne_zero (accuOf s (numreg % 2)).w0 7 (by decide)
  simp only [accuOf, Acc56.val, UInt32.reduceToNat] at hw hval h2 h1 h0 hsign ⊢
  simp only [Nat.reducePow] at hsign
  rw [emuPmReadAccu24_eq, ← hw]
  generalize accuWindow s (numreg % 2) = w at hw ⊢
  generalize numreg % 2 = reg at *
  have hwlt : w.toNat < 2 ^ 24 := by omega
  -- each test of the code, read on `Nat`
  have hz : s.registers (DspReg.a2 + reg) = 0 ↔ (s.registers (DspReg.a2 + reg)).toNat = 0 := by
    rw [← UInt32.toNat_inj]; rfl
  have hf : s.registers (DspReg.a2 + reg) = 0xff ↔ (s.registers (DspReg.a2 + reg)).toNat = 0xff := by
    rw [← UInt32.toNat_inj]; rfl
  have hle : w ≤ 0x007fffff ↔ w.toNat < 2 ^ 23 := by
    rw [UInt32.le_iff_toNat_le]; simp only [UInt32.reduceToNat]; omega
  have hge : w ≥ 0x00800000 ↔ 2 ^ 23 ≤ w.toNat := by
    rw [ge_iff_le, UInt32.le_iff_toNat_le]; simp only [UInt32.reduceToNat]; omega
  simp only [hz, hf, hle, hge, hsign]
  unfold pmDecision limitedRead
  have hofNat : UInt32.ofNat w.toNat = w := UInt32.ofNat_toNat
  by_cases hA : (s.registers (DspReg.a2 + reg)).toNat = 0 ∧ w.toNat < 2 ^ 23
  · rw [if_pos hA, if_pos (Or.inl hA), hofNat]
    rfl
  by_cases hB : (s.registers (DspReg.a2 + reg)).toNat = 255 ∧ 2 ^ 23 ≤ w.toNat
  · rw [if_neg hA, if_pos hB, if_pos (Or.inr hB), hofNat]
    rfl
  rw [if_neg hA, if_neg hB, if_neg (not_or.mpr ⟨hA, hB⟩)]
  -- limited: bit 7 of `A2` is the sign bit, bit 55, of the accumulator
  by_cases hS : (s.registers (DspReg.a2 + reg)).toNat / 128 % 2 = 1
  · rw [if_pos hS, if_pos (by omega)]
    rfl
  · rw [if_neg hS, if_neg (by omega)]
    rfl

/-- With no scaling and when scaling down (and in the reserved mode 3, read
    as no scaling), the decision is exactly the limiter's. -/
theorem pmDecision_exact (s : DspCore) (reg : Nat) (hv : (accuOf s reg).Valid)
    (hmode : scalingMode (s.registers DspReg.sr) ≠ 2) :
    pmDecision (accuOf s reg).w0.toNat
        ((accuOf s reg).val / 2 ^ windowBit (s.registers DspReg.sr) % 2 ^ 24) (accuOf s reg).val =
      limitWindow (accuOf s reg).val (windowBit (s.registers DspReg.sr)) := by
  have hk : windowBit (s.registers DspReg.sr) = 24 ∨ windowBit (s.registers DspReg.sr) = 25 := by
    unfold windowBit
    split_ifs <;> simp
  have hval := (accuOf s reg).val_lt hv
  obtain ⟨h2, h1, h0⟩ := hv
  generalize accuOf s reg = A at *
  unfold pmDecision limitWindow
  -- only the keep-or-limit tests differ in form: `A2` and the window's top
  -- bit are together the bits above the window
  refine if_congr ?_ rfl rfl
  simp only [Acc56.val] at *
  rcases hk with hk | hk <;> rw [hk] <;> omega

/-- With no scaling and when scaling down, `emu_pm_read_accu24` is a read
    through the DSP56300 limiter, which changes no register but `SR.L`. -/
theorem emuPmReadAccu24_limits (s : DspCore) (numreg : Nat) (hv : (accuOf s (numreg % 2)).Valid)
    (hmode : scalingMode (s.registers DspReg.sr) ≠ 2) :
    emuPmReadAccu24 s numreg =
      limitedRead s (limitWindow (accuOf s (numreg % 2)).val (windowBit (s.registers DspReg.sr))) := by
  rw [emuPmReadAccu24_spec s numreg hv, pmDecision_exact s _ hv hmode]

/-- Two `if`s with the same two distinct branches are equal exactly when
    their conditions are equivalent. -/
theorem ite_eq_ite_iff_of_ne {α : Type} {c c' : Prop} [Decidable c] [Decidable c'] {x y : α}
    (hxy : x ≠ y) : ((if c then x else y) = if c' then x else y) ↔ (c ↔ c') := by
  by_cases hc : c <;> by_cases hc' : c' <;> simp [hc, hc', hxy, hxy.symm]

/-- When scaling up, the decision and the limiter disagree exactly on the
    accumulators whose bits 55..46 are `00000000 10` or `11111111 01`: bit
    47 differs from `A2` and from the window's top bit 46, which are the
    only bits the code tests. -/
theorem pmDecision_scaleUp_iff (s : DspCore) (reg : Nat) (hv : (accuOf s reg).Valid)
    (hmode : scalingMode (s.registers DspReg.sr) = 2) :
    pmDecision (accuOf s reg).w0.toNat
          ((accuOf s reg).val / 2 ^ windowBit (s.registers DspReg.sr) % 2 ^ 24) (accuOf s reg).val =
        limitWindow (accuOf s reg).val (windowBit (s.registers DspReg.sr)) ↔
      (accuOf s reg).val / 2 ^ 46 ≠ 2 ∧ (accuOf s reg).val / 2 ^ 46 ≠ 2 ^ 10 - 3 := by
  have hk : windowBit (s.registers DspReg.sr) = 23 := by
    unfold windowBit
    rw [if_neg (by rw [hmode]; decide), if_pos hmode]
  unfold pmDecision limitWindow
  rw [ite_eq_ite_iff_of_ne (by split <;> simp), hk]
  have hval := (accuOf s reg).val_lt hv
  obtain ⟨h2, h1, h0⟩ := hv
  generalize accuOf s reg = A at *
  simp only [Acc56.val] at *
  omega

/-- Scaling up, `A = 0x00:800000:000000` (bit 47 alone set) is read as the
    window `0`, unlimited and with `SR` unchanged, where the limiter gives
    `0x7FFFFF` and sets `L`. -/
theorem pm_read_accu24_scale_up_unlimited :
    (emuPmReadAccu24 ((DspCore.zeroed.setReg DspReg.sr 0x800).setReg DspReg.a1 0x800000) 0).1 = 0 ∧
    (emuPmReadAccu24 ((DspCore.zeroed.setReg DspReg.sr 0x800).setReg DspReg.a1 0x800000) 0).2.registers
      DspReg.sr = 0x800 ∧
    limitWindow (accuOf ((DspCore.zeroed.setReg DspReg.sr 0x800).setReg DspReg.a1 0x800000) 0).val
      (windowBit 0x800) = (0x7fffff, true) := by
  decide

end Xemu.Dsp
